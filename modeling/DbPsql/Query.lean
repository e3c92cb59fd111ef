import DbPsql.Connect
import DbPsql.Limits

/-! The execution phase of `db_query` (db_psql.c, lines 361–444) and `db_query_finish`.  After the
compile phase `db_query` makes at most two passes: connect when there is no connection, send the
statement with `PQexecParams`, and classify the reply.  No reply, or a `PGRES_FATAL_ERROR` without
SQLSTATE, closes the connection and leads to the second pass; any other reply ends the loop.
`dbQuery_retries` bounds the connection attempts and says how the passes end (`Passes`), for every
collaborator: nothing is sent only when no connection can be made, the compiled statement is sent
again only after a retryable reply, and the reply returned classifies the server's last reply.
`dbQuery_sends_rendering` joins it to the compile phase: what is sent is the template's rendering.
`dbQuery_truncates` is the compile phase's truncation seen from the execution.  The retry drops
the first reply without `PQclear` (`dbQuery_keeps_retried_reply`); every other reply is held in
`result->res` (`dbQuery_holds_replies`).  When the link is down, `db_query` gives up after at most
three connection attempts, having sent nothing (`dbQuery_refused`). -/

namespace DbPsql

/-- How `db_query` returns: its reply, the world, `result->res` as the index of the call whose reply
it holds (`none` for `NULL`), and whether it released `db->mutex` itself. -/
structure Out where
  rep : DbReply
  world : World
  res : Option Nat
  unlocked : Bool

/-- `if (db->conn == NULL) db_connect(db);`. -/
def ensureConn (c : Collab) (fuel : Nat) (w : World) : Option World :=
  if w.db.conn then some w else dbConnect c fuel w

namespace World

/-- `PQexecParams(db->conn, ...)`: the statement is sent. -/
def send (w : World) (s : Stmt) : World := { w with sent := w.sent ++ [s] }

@[simp] theorem send_sent (w : World) (s : Stmt) : (w.send s).sent = w.sent ++ [s] := rfl
@[simp] theorem send_attempts (w : World) (s : Stmt) : (w.send s).attempts = w.attempts := rfl
@[simp] theorem send_db (w : World) (s : Stmt) : (w.send s).db = w.db := rfl
@[simp] theorem disconnect_sent (w : World) : w.disconnect.sent = w.sent := rfl
@[simp] theorem disconnect_attempts (w : World) : w.disconnect.attempts = w.attempts := rfl
@[simp] theorem disconnect_keeptrying (w : World) :
    w.disconnect.db.keeptrying = w.db.keeptrying := rfl

end World

/-- `for (i = 0; i < 2; i++)` of `db_query` with `n` passes left, and `rep` and `result->res` as the
passes before left them. -/
def execute (c : Collab) (fuel : Nat) (stmt : Stmt) : Nat → DbReply → Option Nat → World → Option Out
  | 0, rep, res, w => some ⟨rep, w, res, false⟩
  | n + 1, _, res, w =>
    (ensureConn c fuel w).bind fun w =>
      if !w.db.conn then some ⟨.err, w, res, true⟩
      else
        let k := w.sent.length
        let w := w.send stmt
        match c.reply k with
        | none => execute c fuel stmt n .err none w.disconnect
        | some r =>
          if r.status ≠ .commandOk ∧ r.status ≠ .tuplesOk then
            let rep := if r.sqlstate = some "23505" then DbReply.duplicateKey else .err
            if r.status = .fatalError ∧ r.sqlstate = none then
              execute c fuel stmt n rep (some k) w.disconnect
            else some ⟨rep, w, some k, false⟩
          else some ⟨.ok, w, some k, false⟩

/-- `db_query` from its `mutex_lock` on: `none` when it calls `abort()` on a result still open, or
when `db_connect` with `keeptrying` outlasts `fuel` passes. -/
def dbQuery (qSize : Nat) (e : Endian) (c : Collab) (fuel : Nat) (txt : CStr) (args : List Arg)
    (res : Option Nat) (w : World) : Option Out :=
  if res.isSome then none
  else (prepare qSize e txt args w.db.q).bind fun st =>
    let w := { w with db := { w.db with q := st.q } }
    if st.rep ≠ .ok then some ⟨.err, w, res, true⟩
    else execute c fuel (st.stmt e) 2 .ok res w

/-- `db_query_finish` before its `mutex_unlock`: a reply held in `result->res` is released with
`PQclear`, and `db->q` is cleared. -/
def dbQueryFinish (qSize : Nat) (res : Option Nat) (w : World) : World :=
  match res with
  | none => w
  | some k =>
    { w with
      cleared := k :: w.cleared
      db := { w.db with q := fun j => if j < qSize then '\x00' else w.db.q j } }

@[simp] theorem dbQueryFinish_sent (qSize : Nat) (res : Option Nat) (w : World) :
    (dbQueryFinish qSize res w).sent = w.sent := by
  cases res <;> rfl

@[simp] theorem dbQueryFinish_cleared (qSize : Nat) (res : Option Nat) (w : World) :
    (dbQueryFinish qSize res w).cleared = res.toList ++ w.cleared := by
  cases res <;> rfl

@[simp] theorem dbQueryFinish_keeptrying (qSize : Nat) (res : Option Nat) (w : World) :
    (dbQueryFinish qSize res w).db.keeptrying = w.db.keeptrying := by
  cases res <;> rfl

/-! ### The reply a query returns -/

/-- A reply after which `db_query` sends its statement again: none, or a `PGRES_FATAL_ERROR`
without SQLSTATE. -/
def retryable : Option PGresult → Bool
  | none => true
  | some r => r.status = .fatalError && r.sqlstate.isNone

/-- The reply `db_query` is to return for the last reply it got (`none`: no reply, or no
statement sent). -/
def classify : Option PGresult → DbReply
  | some r =>
    if r.status = .commandOk ∨ r.status = .tuplesOk then .ok
    else if r.sqlstate = some "23505" then .duplicateKey
    else .err
  | none => .err

theorem retryable_some (r : PGresult) :
    retryable (some r) = true ↔ r.status = .fatalError ∧ r.sqlstate = none := by
  simp [retryable, Option.isNone_iff_eq_none]

theorem classify_of_retryable {r : Option PGresult} (h : retryable r = true) : classify r = .err := by
  rcases r with _ | r
  · rfl
  · obtain ⟨hs, hn⟩ := (retryable_some r).mp h
    simp [classify, hs, hn]

theorem ensureConn_bounded (c : Collab) {fuel : Nat} (hf : 3 ≤ fuel) (w : World)
    (hkt : w.db.keeptrying = false) :
    ∃ w₁, ensureConn c fuel w = some w₁ ∧ ConnFrame w w₁ ∧ w₁.attempts ≤ w.attempts + 3 := by
  unfold ensureConn
  split
  · exact ⟨w, rfl, ConnFrame.refl w, Nat.le_add_right _ _⟩
  · exact dbConnect_bounded c hf w hkt

/-- `ensureConn` leaves a connection open when it finds one. -/
theorem ensureConn_closed {c : Collab} {fuel : Nat} {w w₁ : World} (h : ensureConn c fuel w = some w₁)
    (hc : w₁.db.conn = false) : w.db.conn = false := by
  cases hw : w.db.conn
  · rfl
  · rw [ensureConn, if_pos hw, Option.some.injEq] at h
    rw [← h, hw] at hc
    exact hc

/-- One pass of the execution loop without `keeptrying`: no connection after at most three attempts,
a reply that ends the loop, or a retryable reply and the next pass on a closed connection. -/
theorem execute_succ (c : Collab) {fuel : Nat} (hf : 3 ≤ fuel) (stmt : Stmt) (n : Nat)
    (rep : DbReply) (res : Option Nat) (w : World) (hkt : w.db.keeptrying = false) :
    ∃ w₁, ensureConn c fuel w = some w₁ ∧ ConnFrame w w₁ ∧ w₁.attempts ≤ w.attempts + 3 ∧
      (w₁.db.conn = false ∧ execute c fuel stmt (n + 1) rep res w = some ⟨.err, w₁, res, true⟩ ∨
       retryable (c.reply w.sent.length) = false ∧
        execute c fuel stmt (n + 1) rep res w =
          some ⟨classify (c.reply w.sent.length), w₁.send stmt, some w.sent.length, false⟩ ∨
       retryable (c.reply w.sent.length) = true ∧
        execute c fuel stmt (n + 1) rep res w = execute c fuel stmt n .err
          ((c.reply w.sent.length).map fun _ => w.sent.length) (w₁.send stmt).disconnect) := by
  obtain ⟨w₁, hw₁, hfr, ha⟩ := ensureConn_bounded c hf w hkt
  refine ⟨w₁, hw₁, hfr, ha, ?_⟩
  simp only [execute, hw₁, Option.some_bind]
  cases hconn : w₁.db.conn
  · exact Or.inl ⟨rfl, rfl⟩
  simp only [Bool.not_true, Bool.false_eq_true, if_false, hfr.sent]
  rcases hr : c.reply w.sent.length with _ | r
  · exact Or.inr (Or.inr ⟨rfl, rfl⟩)
  dsimp only
  have hnr : ¬ (r.status = .fatalError ∧ r.sqlstate = none) → retryable (some r) = false :=
    fun h => Bool.eq_false_iff.mpr fun h' => h ((retryable_some r).mp h')
  by_cases hok : r.status = .commandOk ∨ r.status = .tuplesOk
  · refine Or.inr (Or.inl ⟨hnr fun h => by rcases hok with h' | h' <;> simp [h'] at h, ?_⟩)
    rw [if_neg (by tauto)]
    simp [classify, hok]
  rw [if_pos (by tauto)]
  by_cases hretry : r.status = .fatalError ∧ r.sqlstate = none
  · refine Or.inr (Or.inr ⟨(retryable_some r).mpr hretry, ?_⟩)
    rw [if_pos hretry, hretry.2]
    rfl
  · refine Or.inr (Or.inl ⟨hnr hretry, ?_⟩)
    rw [if_neg hretry]
    simp [classify, hok]

/-- One pass of the execution loop, whatever the flags: no connection, a reply that ends the loop,
or a retryable reply and the next pass. -/
theorem execute_succ_inv {c : Collab} {fuel : Nat} {stmt : Stmt} {n : Nat} {rep : DbReply}
    {res : Option Nat} {w : World} {out : Out} (h : execute c fuel stmt (n + 1) rep res w = some out) :
    ∃ w₁, ensureConn c fuel w = some w₁ ∧
      (w₁.db.conn = false ∧ out = ⟨.err, w₁, res, true⟩ ∨
        w₁.db.conn = true ∧
          ((∃ r rep', c.reply w₁.sent.length = some r ∧ retryable (some r) = false ∧
              out = ⟨rep', w₁.send stmt, some w₁.sent.length, false⟩) ∨
            ∃ rep', retryable (c.reply w₁.sent.length) = true ∧ execute c fuel stmt n rep'
              ((c.reply w₁.sent.length).map fun _ => w₁.sent.length)
              (w₁.send stmt).disconnect = some out)) := by
  simp only [execute, Option.bind_eq_some] at h
  obtain ⟨w₁, hw₁, h⟩ := h
  refine ⟨w₁, hw₁, ?_⟩
  cases hconn : w₁.db.conn
  · simp only [hconn, Bool.not_false, if_true, Option.some.injEq] at h
    exact .inl ⟨rfl, h.symm⟩
  simp only [hconn, Bool.not_true, Bool.false_eq_true, if_false] at h
  refine .inr ⟨rfl, ?_⟩
  split at h
  next hr => exact .inr ⟨_, by rw [hr]; rfl, by rw [hr]; exact h⟩
  next r hr =>
    have hnr : ¬(r.status = .fatalError ∧ r.sqlstate = none) → retryable (some r) = false :=
      fun h => Bool.eq_false_iff.mpr fun h' => h ((retryable_some r).mp h')
    split at h
    next herr =>
      split at h
      next hretry =>
        exact .inr ⟨_, by rw [hr]; exact (retryable_some r).mpr hretry, by rw [hr]; exact h⟩
      next hretry => exact .inl ⟨r, _, hr, hnr hretry, (Option.some.inj h).symm⟩
    next hok =>
      refine .inl ⟨r, _, hr, hnr fun hf => hok ?_, (Option.some.inj h).symm⟩
      simp [hf.1]

/-- Every reply of the calls from `start` on, below `sent`, is held in `res`, unless it is the
first and was retried. -/
def RepliesHeld (c : Collab) (start : Nat) (res : Option Nat) (sent : Nat) : Prop :=
  ∀ k, start ≤ k → k < sent → (c.reply k).isSome →
    res = some k ∨ k = start ∧ retryable (c.reply k) = true

/-- How the two passes end, read off the server's replies: `DB_R_ERR` with the mutex released when no
connection can be made, else the classification of the last reply. -/
def Passes (c : Collab) (stmt : Stmt) (w : World) (out : Out) : Prop :=
  (out.world.sent = w.sent ∧ w.db.conn = false ∨
      out.world.sent = w.sent ++ [stmt] ∧ retryable (c.reply w.sent.length) = true) ∧
    out.world.db.conn = false ∧ out.unlocked = true ∧ out.rep = .err ∨
  out.world.sent = w.sent ++ [stmt] ∧ retryable (c.reply w.sent.length) = false ∧
    out.unlocked = false ∧ out.rep = classify (c.reply w.sent.length) ∨
  out.world.sent = w.sent ++ [stmt, stmt] ∧ retryable (c.reply w.sent.length) = true ∧
    out.unlocked = false ∧ out.rep = classify (c.reply (w.sent.length + 1))

theorem Passes.sent {c : Collab} {stmt : Stmt} {w : World} {out : Out} (h : Passes c stmt w out) :
    out.world.sent = w.sent ∨ out.world.sent = w.sent ++ [stmt] ∨
      out.world.sent = w.sent ++ [stmt, stmt] := by
  rcases h with ⟨⟨hs, -⟩ | ⟨hs, -⟩, -⟩ | ⟨hs, -⟩ | ⟨hs, -⟩
  exacts [.inl hs, .inr (.inl hs), .inr (.inl hs), .inr (.inr hs)]

/-- The two passes of the execution loop without `keeptrying`, for every collaborator: at most six
connection attempts, the outcome `Passes`, and every reply but a retried first one held. -/
theorem execute_classifies (c : Collab) {fuel : Nat} (hf : 3 ≤ fuel) (stmt : Stmt) (rep : DbReply)
    (res : Option Nat) (w : World) (hkt : w.db.keeptrying = false) :
    ∃ out, execute c fuel stmt 2 rep res w = some out ∧ out.world.attempts ≤ w.attempts + 6 ∧
      Passes c stmt w out ∧ RepliesHeld c w.sent.length out.res out.world.sent.length := by
  obtain ⟨w₁, hw₁, hfr₁, ha₁, ⟨hc₁, h₁⟩ | ⟨hr₁, h₁⟩ | ⟨hr₁, h₁⟩⟩ := execute_succ c hf stmt 1 rep res w hkt
  · refine ⟨_, h₁, by dsimp only; omega,
      .inl ⟨.inl ⟨hfr₁.sent, ensureConn_closed hw₁ hc₁⟩, hc₁, rfl, rfl⟩, fun k hk hk' _ => ?_⟩
    simp only [hfr₁.sent] at hk'
    omega
  · refine ⟨_, h₁, by dsimp only; simp only [World.send_attempts]; omega,
      .inr (.inl ⟨by simp [hfr₁.sent], hr₁, rfl, rfl⟩), fun k hk hk' _ => ?_⟩
    simp only [World.send_sent, hfr₁.sent, List.length_append, List.length_singleton] at hk'
    exact .inl (by rw [show k = w.sent.length by omega])
  have hkt₂ : ((w₁.send stmt).disconnect).db.keeptrying = false := by simp [hfr₁.keeptrying, hkt]
  have hs₂ : ((w₁.send stmt).disconnect).sent = w.sent ++ [stmt] := by simp [hfr₁.sent]
  have ha₂ : ((w₁.send stmt).disconnect).attempts ≤ w.attempts + 3 := by simpa using ha₁
  generalize (w₁.send stmt).disconnect = w₂ at h₁ hkt₂ hs₂ ha₂
  obtain ⟨w₃, -, hfr₃, ha₃, h₃⟩ := execute_succ c hf stmt 0 .err _ w₂ hkt₂
  have hs₃ : w₃.sent = w.sent ++ [stmt] := hfr₃.sent.trans hs₂
  have hn₂ : w₂.sent.length = w.sent.length + 1 := by simp [hs₂]
  -- the first reply was retried; a reply of the second pass is held when it is not `NULL`
  have held : ∀ res' sent', sent' ≤ w.sent.length + 2 →
      (w.sent.length + 1 < sent' → ∀ r, c.reply w₂.sent.length = some r →
        res' = some w₂.sent.length) →
      RepliesHeld c w.sent.length res' sent' := by
    intro res' sent' hsent hres k hk hk' hsome
    rcases Nat.lt_or_ge k (w.sent.length + 1) with hlt | hge
    · exact .inr ⟨by omega, by rwa [show k = w.sent.length by omega]⟩
    · obtain ⟨r, hr⟩ := Option.isSome_iff_exists.mp hsome
      rw [show k = w₂.sent.length by omega] at hr ⊢
      exact .inl (hres (by omega) r hr)
  rcases h₃ with ⟨hc₃, h₃⟩ | ⟨-, h₃⟩ | ⟨hr₃, h₃⟩
  · refine ⟨_, h₁.trans h₃, by dsimp only; omega, .inl ⟨.inr ⟨hs₃, hr₁⟩, hc₃, rfl, rfl⟩, ?_⟩
    exact held _ _ (by simp [hs₃]) fun h => absurd h (by simp [hs₃])
  · refine ⟨_, h₁.trans h₃, by dsimp only; simp only [World.send_attempts]; omega,
      .inr (.inr ⟨by simp [hs₃], hr₁, rfl, by rw [hn₂]⟩), held _ _ (by simp [hs₃]) fun _ _ _ => rfl⟩
  · refine ⟨_, h₁.trans h₃, by dsimp only; simp only [World.disconnect_attempts, World.send_attempts]; omega,
      .inr (.inr ⟨by simp [hs₃], hr₁, rfl, by rw [← hn₂, classify_of_retryable hr₃]⟩),
      held _ _ (by simp [hs₃]) fun _ r hr => by simp [hr]⟩

/-! ### Connections and servers for the examples -/

/-- A connection set up by `db_init(db, "test", NULL)`, not connected yet. -/
def testWorld : World := ⟨dbInit (some "test") none, 0, 0, [], []⟩

/-- The connection of `testWorld`, open. -/
def connectedWorld : World := { testWorld with db := { testWorld.db with conn := true } }

/-- A reply with the given status and no SQLSTATE, rows or cells. -/
def bareResult (status : ExecStatusType) : PGresult :=
  ⟨status, none, 0, fun _ => none, fun _ => 0, fun _ _ => none⟩

/-- A server that accepts every connection and answers the first statement with
`PGRES_FATAL_ERROR` without SQLSTATE and every later one with `PGRES_COMMAND_OK`. -/
def flakyServer : Collab where
  connects _ := true
  keepRunning _ := true
  reply k := some (bareResult (if k = 0 then .fatalError else .commandOk))

/-- A server that accepts every connection and every statement. -/
def acceptAll : Collab where
  connects _ := true
  keepRunning _ := true
  reply _ := some (bareResult .commandOk)

/-- `SELECT 1`. -/
def selectOne : CStr := ⟨"SELECT 1".toList, by decide⟩

/-! ### `db_query` -/

/-- A successful compile phase hands its statement to the execution loop, with `db->q` as the
compile phase left it. -/
theorem dbQuery_of_prepare (qSize : Nat) (e : Endian) (c : Collab) (fuel : Nat) (txt : CStr)
    (args : List Arg) (w : World) {st : Prep} (hst : prepare qSize e txt args w.db.q = some st)
    (hok : st.rep = .ok) :
    dbQuery qSize e c fuel txt args none w =
      execute c fuel (st.stmt e) 2 .ok none { w with db := { w.db with q := st.q } } := by
  simp [dbQuery, hst, hok]

/-- A failed compile phase: `db_query` releases the mutex and returns `DB_R_ERR`, having sent
nothing. -/
theorem dbQuery_rejects (qSize : Nat) (e : Endian) (c : Collab) (fuel : Nat) (txt : CStr)
    (args : List Arg) (w : World) {st : Prep} (hst : prepare qSize e txt args w.db.q = some st)
    (herr : st.rep ≠ .ok) :
    dbQuery qSize e c fuel txt args none w =
      some ⟨.err, { w with db := { w.db with q := st.q } }, none, true⟩ := by
  simp [dbQuery, hst, herr]

/-- `db_query` on a well-formed template, without `keeptrying`, for every collaborator: what it
sends, if anything, is the reference rendering of the template with the encodings of its
arguments, once, or twice after a retryable first reply. -/
theorem dbQuery_sends_rendering (qSize : Nat) (e : Endian) (c : Collab) {fuel : Nat}
    (hf : 3 ≤ fuel) (txt : CStr) (args : List Arg) (w : World) (hkt : w.db.keeptrying = false)
    {segs : List Seg} (hseg : instantiate txt.chars args = some segs)
    (hcount : countDirectives segs ≤ dbMaxParams) (hfit : (render segs 0).length < qSize) :
    ∃ out, dbQuery qSize e c fuel txt args none w = some out ∧
      (out.world.sent = w.sent ∨ out.world.sent = w.sent ++ [⟨render segs 0, params segs⟩] ∨
        out.world.sent = w.sent ++ [⟨render segs 0, params segs⟩, ⟨render segs 0, params segs⟩]) := by
  obtain ⟨st, hst, hok, hstmt⟩ := prepare_stmt e txt args w.db.q hseg hcount hfit
  obtain ⟨out, h, -, hp, -⟩ :=
    execute_classifies c hf (st.stmt e) .ok none { w with db := { w.db with q := st.q } } hkt
  refine ⟨out, (dbQuery_of_prepare qSize e c fuel txt args w hst hok).trans h, ?_⟩
  rw [← hstmt]
  exact hp.sent

theorem dbQuery_sends_rendering_alice :
    let segs := (instantiate aliceQuery.chars aliceArgs).getD []
    3 ≤ 3 ∧ testWorld.db.keeptrying = false ∧ instantiate aliceQuery.chars aliceArgs = some segs ∧
      countDirectives segs ≤ dbMaxParams ∧ (render segs 0).length < 64 ∧
      ∃ out, dbQuery 64 .little flakyServer 3 aliceQuery aliceArgs none testWorld = some out ∧
        (out.world.sent = testWorld.sent ∨
          out.world.sent = testWorld.sent ++ [⟨render segs 0, params segs⟩] ∨
          out.world.sent = testWorld.sent ++ [⟨render segs 0, params segs⟩, ⟨render segs 0, params segs⟩]) :=
  have h1 : instantiate aliceQuery.chars aliceArgs =
      some ((instantiate aliceQuery.chars aliceArgs).getD []) := by decide
  have h2 : countDirectives ((instantiate aliceQuery.chars aliceArgs).getD []) ≤ dbMaxParams := by
    decide
  have h3 : (render ((instantiate aliceQuery.chars aliceArgs).getD []) 0).length < 64 := by decide
  ⟨le_rfl, rfl, h1, h2, h3,
    dbQuery_sends_rendering 64 .little flakyServer le_rfl aliceQuery aliceArgs testWorld rfl h1 h2 h3⟩

/-- A template whose part before some `'%'` holds `DB_MAX_PARAMS` bound directives: `db_query`
does not fail; it goes on to send the rendering and the parameters of that part alone, for
every collaborator. -/
theorem dbQuery_truncates (qSize : Nat) (e : Endian) (c : Collab) (fuel : Nat) (txt : CStr) (args : List Arg)
    (w : World) (pre : List Seg) (post : List Char) (more : List Arg)
    (htxt : txt.chars = pre.flatMap Seg.src ++ '%' :: post)
    (hargs : args = pre.filterMap Seg.arg? ++ more) (hplain : ∀ s ∈ pre, s.Plain)
    (hbound : countBound pre = dbMaxParams) (hdir : countDirectives pre ≤ dbMaxParams)
    (hfit : (render pre 0).length < qSize) :
    ∃ q, dbQuery qSize e c fuel txt args none w =
      execute c fuel ⟨render pre 0, params pre⟩ 2 .ok none { w with db := { w.db with q := q } } := by
  obtain ⟨st, hst, hok, hstmt⟩ :=
    prepare_truncates e txt args w.db.q pre post more htxt hargs hplain hbound hdir hfit
  exact ⟨st.q, hstmt ▸ dbQuery_of_prepare qSize e c fuel txt args w hst hok⟩

/-- Seventeen `%u`. -/
def seventeenInts : CStr := ⟨(List.replicate 17 ['%', 'u']).flatten, by decide⟩

/-- The arguments `1, …, 17`. -/
def seventeenArgs : List Arg := (List.range 17).map fun k => .uint32 (UInt32.ofNat (k + 1))

/-- The sixteen `%u` the parameters have room for, with the arguments `1, …, 16`. -/
def sixteenInts : List Seg := (List.range 16).map fun k => .int32 (UInt32.ofNat (k + 1))

theorem dbQuery_truncates_seventeen :
    seventeenInts.chars = sixteenInts.flatMap Seg.src ++ '%' :: ['u'] ∧
    seventeenArgs = sixteenInts.filterMap Seg.arg? ++ [.uint32 17] ∧
    (∀ s ∈ sixteenInts, s.Plain) ∧ countBound sixteenInts = dbMaxParams ∧
    countDirectives sixteenInts ≤ dbMaxParams ∧ (render sixteenInts 0).length < 64 ∧
    ∃ q, dbQuery 64 .little flakyServer 3 seventeenInts seventeenArgs none testWorld =
      execute flakyServer 3 ⟨render sixteenInts 0, params sixteenInts⟩ 2 .ok none
        { testWorld with db := { testWorld.db with q := q } } :=
  ⟨by decide, by decide, by decide, by decide, by decide, by decide,
    dbQuery_truncates 64 .little flakyServer 3 seventeenInts seventeenArgs testWorld sixteenInts ['u']
      [.uint32 17] (by decide) (by decide) (by decide) (by decide) (by decide) (by decide)⟩

/-! ### What the execution loop changes -/

theorem ensureConn_frame {c : Collab} {fuel : Nat} {w w₁ : World} (h : ensureConn c fuel w = some w₁) :
    ConnFrame w w₁ := by
  unfold ensureConn at h
  split at h
  · cases h; exact ConnFrame.refl w
  · exact connectLoop_frame c fuel 0 w w₁ h

/-- On an open connection, a statement the server accepts: the execution loop returns `DB_R_OK`
after one `PQexecParams`, holding the reply. -/
theorem execute_accepted {c : Collab} {fuel : Nat} (stmt : Stmt) {w : World}
    (hconn : w.db.conn = true) {r : PGresult} (hr : c.reply w.sent.length = some r)
    (hok : r.status = .commandOk) :
    execute c fuel stmt 2 .ok none w = some ⟨.ok, w.send stmt, some w.sent.length, false⟩ := by
  simp [execute, ensureConn, hconn, hr, hok]

/-- What the execution loop leaves as it was: the replies released, the connection string and the
flag `keeptrying`. -/
structure ExecFrame (w w' : World) : Prop where
  cleared : w'.cleared = w.cleared
  conninfo : w'.db.conninfo = w.db.conninfo
  keeptrying : w'.db.keeptrying = w.db.keeptrying

theorem ExecFrame.of_conn {w w' : World} (h : ConnFrame w w') : ExecFrame w w' :=
  ⟨h.cleared, h.conninfo, h.keeptrying⟩

theorem execute_frame {c : Collab} {fuel : Nat} {stmt : Stmt} :
    ∀ {n : Nat} {rep : DbReply} {res : Option Nat} {w : World} {out : Out},
      execute c fuel stmt n rep res w = some out → ExecFrame w out.world
  | 0, _, _, w, _, h => by cases h; exact ⟨rfl, rfl, rfl⟩
  | n + 1, _, _, _, _, h => by
    obtain ⟨w₁, hw₁, hpass⟩ := execute_succ_inv h
    have h₁ := ensureConn_frame hw₁
    obtain ⟨-, rfl⟩ | ⟨-, ⟨_, _, -, -, rfl⟩ | ⟨_, -, h⟩⟩ := hpass
    · exact .of_conn h₁
    · exact ⟨h₁.cleared, h₁.conninfo, h₁.keeptrying⟩
    · have h' := execute_frame h
      exact ⟨h'.cleared.trans h₁.cleared, h'.conninfo.trans h₁.conninfo,
        h'.keeptrying.trans h₁.keeptrying⟩

theorem ensureConn_connects {c : Collab} (hc : ∀ k, c.connects k = true) {fuel : Nat} {w w₁ : World}
    (hinfo : w.db.conninfo.isSome) (h : ensureConn c fuel w = some w₁) : w₁.db.conn = true := by
  unfold ensureConn at h
  split at h
  · cases h; assumption
  · exact dbConnect_connects hc hinfo h

/-- Against a server that accepts every connection, with a connection string, the execution loop
returns holding the mutex. -/
theorem execute_keeps_lock {c : Collab} (hc : ∀ k, c.connects k = true) {fuel : Nat} {stmt : Stmt} :
    ∀ {n : Nat} {rep : DbReply} {res : Option Nat} {w : World} {out : Out},
      w.db.conninfo.isSome → execute c fuel stmt n rep res w = some out → out.unlocked = false
  | 0, _, _, _, _, _, h => by cases h; rfl
  | n + 1, _, _, _, _, hinfo, h => by
    obtain ⟨w₁, hw₁, ⟨hconn, -⟩ | ⟨-, ⟨_, _, -, -, rfl⟩ | ⟨_, -, h⟩⟩⟩ := execute_succ_inv h
    · simp [ensureConn_connects hc hinfo hw₁] at hconn
    · rfl
    · exact execute_keeps_lock hc (by simpa [World.disconnect, World.send,
        (ensureConn_frame hw₁).conninfo] using hinfo) h

/-- `db_query` changes no released reply, connection string or flag. -/
theorem dbQuery_frame {qSize : Nat} {e : Endian} {c : Collab} {fuel : Nat} {txt : CStr}
    {args : List Arg} {w : World} {out : Out} (h : dbQuery qSize e c fuel txt args none w = some out) :
    ExecFrame w out.world := by
  obtain ⟨st, hst⟩ := prepare_total qSize e txt args w.db.q
  by_cases hok : st.rep = .ok
  · rw [dbQuery_of_prepare qSize e c fuel txt args w hst hok] at h
    have h' := execute_frame h
    exact ⟨h'.cleared, h'.conninfo, h'.keeptrying⟩
  · rw [dbQuery_rejects qSize e c fuel txt args w hst hok, Option.some.injEq] at h
    subst h
    exact ⟨rfl, rfl, rfl⟩

/-- On a well-formed template, against a server that accepts every connection, with a connection
string, `db_query` returns holding the mutex. -/
theorem dbQuery_keeps_lock {qSize : Nat} {e : Endian} {c : Collab} (hc : ∀ k, c.connects k = true)
    {fuel : Nat} {txt : CStr} {args : List Arg} {w : World} {out : Out}
    (hwf : ∃ segs, instantiate txt.chars args = some segs ∧ countDirectives segs ≤ dbMaxParams ∧
      (render segs 0).length < qSize)
    (hinfo : w.db.conninfo.isSome) (h : dbQuery qSize e c fuel txt args none w = some out) :
    out.unlocked = false := by
  obtain ⟨segs, hseg, hcount, hfit⟩ := hwf
  obtain ⟨st, hst, hok, -⟩ := prepare_stmt e txt args w.db.q hseg hcount hfit
  rw [dbQuery_of_prepare qSize e c fuel txt args w hst hok] at h
  exact execute_keeps_lock hc (w := { w with db := { w.db with q := st.q } }) hinfo h

/-! ### A server that refuses every connection -/

/-- `db_tryconnect` against a server that refuses every connection leaves no connection. -/
theorem dbTryconnect_refused {c : Collab} (hc : ∀ k, c.connects k = false) (w : World) :
    (dbTryconnect c w).db.conn = false := by
  unfold dbTryconnect
  split
  · rfl
  · exact hc _

/-- Nor does `db_connect`'s loop, when it starts without one. -/
theorem connectLoop_refused {c : Collab} (hc : ∀ k, c.connects k = false) :
    ∀ {fuel i : Nat} {w w' : World}, w.db.conn = false → connectLoop c fuel i w = some w' →
      w'.db.conn = false
  | fuel, i, w, w', hconn, h => by
    unfold connectLoop at h
    split at h
    · match fuel with
      | 0 => cases h
      | f + 1 =>
        dsimp only at h
        rw [if_neg (by simp [dbTryconnect_refused hc])] at h
        split at h
        · refine connectLoop_refused hc ?_ h
          exact dbTryconnect_refused hc w
        · cases h
          exact dbTryconnect_refused hc w
    · cases h
      exact hconn

/-- A `db_query` on a closed connection to a server that refuses every connection, without
`keeptrying`, for every template: it returns `DB_R_ERR` after at most three connection attempts,
having sent nothing, holding no reply and having released the mutex. -/
theorem dbQuery_refused (qSize : Nat) (e : Endian) {c : Collab} (hc : ∀ k, c.connects k = false)
    {fuel : Nat} (hf : 3 ≤ fuel) (txt : CStr) (args : List Arg) (w : World)
    (hkt : w.db.keeptrying = false) (hconn : w.db.conn = false) :
    ∃ out, dbQuery qSize e c fuel txt args none w = some out ∧ out.rep = .err ∧
      out.res = none ∧ out.unlocked = true ∧ out.world.sent = w.sent ∧
      out.world.attempts ≤ w.attempts + 3 := by
  obtain ⟨st, hst⟩ := prepare_total qSize e txt args w.db.q
  by_cases hok : st.rep = .ok
  · obtain ⟨w₁, hw₁, hfr, ha⟩ :=
      ensureConn_bounded c hf { w with db := { w.db with q := st.q } } hkt
    have hc₁ : w₁.db.conn = false := by
      rw [ensureConn, if_neg (by simp [hconn])] at hw₁
      exact connectLoop_refused hc (w := { w with db := { w.db with q := st.q } }) hconn hw₁
    refine ⟨⟨.err, w₁, none, true⟩, ?_, rfl, rfl, rfl, hfr.sent, ha⟩
    rw [dbQuery_of_prepare qSize e c fuel txt args w hst hok]
    simp [execute, hw₁, hc₁]
  · exact ⟨_, dbQuery_rejects qSize e c fuel txt args w hst hok, rfl, rfl, rfl, rfl,
      Nat.le_add_right _ _⟩

/-- A server whose link is down: every connection attempt fails. -/
def refuseAll : Collab := ⟨fun _ => false, fun _ => true, fun _ => none⟩

theorem dbQuery_refused_select :
    (∀ k, refuseAll.connects k = false) ∧ 3 ≤ 3 ∧ testWorld.db.keeptrying = false ∧
      testWorld.db.conn = false ∧
      ∃ out, dbQuery 64 .little refuseAll 3 selectOne [] none testWorld = some out ∧
        out.rep = .err ∧ out.res = none ∧ out.unlocked = true ∧ out.world.sent = testWorld.sent ∧
        out.world.attempts ≤ testWorld.attempts + 3 :=
  ⟨fun _ => rfl, le_rfl, rfl, rfl,
    dbQuery_refused 64 .little (fun _ => rfl) le_rfl selectOne [] testWorld rfl rfl⟩

/-- `db_query` without `keeptrying`, for every template and collaborator: every reply of its calls
that is not `NULL` is in `result->res` when it returns, except the first reply of a retried pair,
which `dbQuery_keeps_retried_reply` shows dropped. -/
theorem dbQuery_holds_replies (qSize : Nat) (e : Endian) (c : Collab) {fuel : Nat}
    (hf : 3 ≤ fuel) (txt : CStr) (args : List Arg) (w : World) (hkt : w.db.keeptrying = false) :
    ∃ out, dbQuery qSize e c fuel txt args none w = some out ∧
      RepliesHeld c w.sent.length out.res out.world.sent.length := by
  obtain ⟨st, hst⟩ := prepare_total qSize e txt args w.db.q
  by_cases hok : st.rep = .ok
  · obtain ⟨out, h, -, -, held⟩ :=
      execute_classifies c hf (st.stmt e) .ok none { w with db := { w.db with q := st.q } } hkt
    exact ⟨out, (dbQuery_of_prepare qSize e c fuel txt args w hst hok).trans h, held⟩
  · refine ⟨_, dbQuery_rejects qSize e c fuel txt args w hst hok, fun k hk hk' _ => ?_⟩
    exact absurd hk' (Nat.not_lt.mpr hk)

theorem dbQuery_holds_replies_flaky :
    3 ≤ 3 ∧ testWorld.db.keeptrying = false ∧
      ∃ out, dbQuery 64 .little flakyServer 3 aliceQuery aliceArgs none testWorld = some out ∧
        RepliesHeld flakyServer testWorld.sent.length out.res out.world.sent.length :=
  ⟨le_rfl, rfl, dbQuery_holds_replies 64 .little flakyServer le_rfl aliceQuery aliceArgs testWorld rfl⟩

/-- On an open connection, a first reply `PGRES_FATAL_ERROR` without SQLSTATE is kept in
`result->res` while the connection is closed and the loop goes on. -/
theorem execute_retry (c : Collab) (fuel : Nat) (stmt : Stmt) (n : Nat) (rep : DbReply)
    (res : Option Nat) {w : World} (hconn : w.db.conn = true) {r : PGresult}
    (hr : c.reply w.sent.length = some r) (hfatal : r.status = .fatalError)
    (hstate : r.sqlstate = none) :
    execute c fuel stmt (n + 1) rep res w =
      execute c fuel stmt n .err (some w.sent.length) (w.send stmt).disconnect := by
  simp [execute, ensureConn, hconn, hr, hfatal, hstate]

/-- A first reply `PGRES_FATAL_ERROR` without SQLSTATE on an open connection: `db_query` closes
the connection and tries again without `PQclear` of that reply.  Either the reconnection fails and
`db_query` returns with the mutex released and the reply still in `result->res`, or the loop goes
on past it and the reply is neither released nor held when `db_query` returns. -/
theorem dbQuery_keeps_retried_reply (qSize : Nat) (e : Endian) (c : Collab) {fuel : Nat}
    (hf : 3 ≤ fuel) (txt : CStr) (args : List Arg) (w : World)
    (hprep : ∃ st, prepare qSize e txt args w.db.q = some st ∧ st.rep = .ok)
    (hkt : w.db.keeptrying = false) (hconn : w.db.conn = true) {r : PGresult}
    (hr : c.reply w.sent.length = some r) (hfatal : r.status = .fatalError)
    (hstate : r.sqlstate = none) :
    ∃ out, dbQuery qSize e c fuel txt args none w = some out ∧
      (out.unlocked = true ∧ out.res = some w.sent.length ∨
        out.world.cleared = w.cleared ∧ out.res ≠ some w.sent.length) := by
  obtain ⟨st, hst, hok⟩ := hprep
  have h₁ := (dbQuery_of_prepare qSize e c fuel txt args w hst hok).trans
    (execute_retry c fuel _ 1 .ok none hconn hr hfatal hstate)
  generalize hw₂ : (World.send { w with db := { w.db with q := st.q } } (st.stmt e)).disconnect = w₂
    at h₁
  have hs₂ : w₂.sent.length = w.sent.length + 1 := by simp [← hw₂]
  have hkt₂ : w₂.db.keeptrying = false := by simp [← hw₂, hkt]
  have hc₂ : w₂.cleared = w.cleared := by rw [← hw₂]; rfl
  obtain ⟨w₃, -, hfr₃, -, ⟨-, h₃⟩ | ⟨-, h₃⟩ | ⟨-, h₃⟩⟩ := execute_succ c hf (st.stmt e) 0 .err _ w₂ hkt₂
  · exact ⟨_, h₁.trans h₃, Or.inl ⟨rfl, rfl⟩⟩
  · exact ⟨_, h₁.trans h₃, Or.inr ⟨hfr₃.cleared.trans hc₂, by simp [hs₂]⟩⟩
  · refine ⟨_, h₁.trans h₃, Or.inr ⟨hfr₃.cleared.trans hc₂, ?_⟩⟩
    cases c.reply w₂.sent.length <;> simp [hs₂]

theorem dbQuery_keeps_retried_reply_flaky :
    (∃ st, prepare 64 .little selectOne [] connectedWorld.db.q = some st ∧ st.rep = .ok) ∧
      ∃ out, dbQuery 64 .little flakyServer 3 selectOne [] none connectedWorld = some out ∧
        (out.unlocked = true ∧ out.res = some connectedWorld.sent.length ∨
          out.world.cleared = connectedWorld.cleared ∧ out.res ≠ some connectedWorld.sent.length) :=
  have hprep := (prepare_literal 64 .little selectOne [] connectedWorld.db.q (by decide)).imp
    fun _ h => ⟨h.1, h.2.1⟩
  ⟨hprep, dbQuery_keeps_retried_reply 64 .little flakyServer le_rfl selectOne [] connectedWorld
    hprep rfl rfl rfl rfl rfl⟩

/-! ### The reply a query holds, whatever the flags -/

/-- A run of the execution loop, whatever the flags: what it sent only grows, and each reply to its
calls, not `NULL`, is the one it holds or was retryable. -/
theorem execute_holds {c : Collab} {fuel : Nat} {stmt : Stmt} :
    ∀ {n : Nat} {rep : DbReply} {res : Option Nat} {w : World} {out : Out},
      execute c fuel stmt n rep res w = some out →
      w.sent.length ≤ out.world.sent.length ∧
      (∀ k, out.res = some k →
        res = some k ∨ w.sent.length ≤ k ∧ k < out.world.sent.length ∧ (c.reply k).isSome) ∧
      ∀ k, w.sent.length ≤ k → k < out.world.sent.length → (c.reply k).isSome →
        out.res = some k ∨ retryable (c.reply k) = true
  | 0, _, _, _, _, h => by
    cases h
    exact ⟨le_rfl, fun _ => .inl, fun _ h₁ h₂ => absurd h₂ (Nat.not_lt.mpr h₁)⟩
  | n + 1, _, _, w, out, h => by
    obtain ⟨w₁, hw₁, hout⟩ := execute_succ_inv h
    have hs₁ := (ensureConn_frame hw₁).sent
    rw [hs₁] at hout
    rcases hout with ⟨-, rfl⟩ | ⟨-, ⟨r, rep', hr, -, rfl⟩ | ⟨rep', hretry, h'⟩⟩
    · exact ⟨hs₁ ▸ le_rfl, fun _ => .inl, fun _ h₁ h₂ => absurd (hs₁ ▸ h₂) (Nat.not_lt.mpr h₁)⟩
    · have hlen : (w₁.send stmt).sent.length = w.sent.length + 1 := by simp [hs₁]
      refine ⟨by simp only [hlen]; omega, fun k hk => .inr ?_, fun k h₁ h₂ _ => .inl ?_⟩
      · cases hk
        simp [hlen, hr, hs₁]
      · rw [hlen] at h₂
        rw [show k = w.sent.length by omega]
    · obtain ⟨hle, hk, hown⟩ := execute_holds h'
      simp only [World.disconnect_sent, World.send_sent, List.length_append,
        List.length_singleton, hs₁] at hle hk hown
      refine ⟨by omega, fun k hres => ?_, fun k h₁ h₂ hsome => ?_⟩
      · rcases hk k hres with hk' | hk'
        · obtain ⟨r, hr, rfl⟩ := Option.map_eq_some'.mp hk'
          exact .inr ⟨le_rfl, by omega, by simp [hr]⟩
        · exact .inr ⟨by omega, hk'.2.1, hk'.2.2⟩
      · rcases Nat.eq_or_lt_of_le h₁ with rfl | h₁
        · exact .inr hretry
        · exact hown k h₁ h₂ hsome

/-- What a `db_query` that returned did to the replies, whatever the flags and the template. -/
structure QueryHolds (c : Collab) (w : World) (out : Out) : Prop where
  /-- the statements sent only grow -/
  grows : w.sent.length ≤ out.world.sent.length
  /-- no reply is released -/
  cleared : out.world.cleared = w.cleared
  /-- a reply it returns holding is the reply, not `NULL`, to one of its own calls -/
  held : ∀ k, out.res = some k → w.sent.length ≤ k ∧ k < out.world.sent.length ∧ (c.reply k).isSome
  /-- every other reply to one of its own calls, not `NULL`, was retryable -/
  own : ∀ k, w.sent.length ≤ k → k < out.world.sent.length → (c.reply k).isSome →
    out.res = some k ∨ retryable (c.reply k) = true

theorem dbQuery_holds {qSize : Nat} {e : Endian} {c : Collab} {fuel : Nat} {txt : CStr}
    {args : List Arg} {w : World} {out : Out} (h : dbQuery qSize e c fuel txt args none w = some out) :
    QueryHolds c w out := by
  obtain ⟨st, hst⟩ := prepare_total qSize e txt args w.db.q
  by_cases hok : st.rep = .ok
  · rw [dbQuery_of_prepare qSize e c fuel txt args w hst hok] at h
    obtain ⟨hle, hk, hown⟩ := execute_holds h
    exact ⟨hle, (execute_frame h).cleared, fun k hres => by simpa using hk k hres, hown⟩
  · rw [dbQuery_rejects qSize e c fuel txt args w hst hok, Option.some.injEq] at h
    subst h
    exact ⟨le_rfl, rfl, fun k hk => (by cases hk), fun _ h₁ h₂ => absurd h₂ (Nat.not_lt.mpr h₁)⟩

/-- Without `keeptrying`, with three passes of fuel, `db_query` with no result open returns. -/
theorem dbQuery_returns (qSize : Nat) (e : Endian) (c : Collab) {fuel : Nat} (hf : 3 ≤ fuel)
    (txt : CStr) (args : List Arg) (w : World) (hkt : w.db.keeptrying = false) :
    ∃ out, dbQuery qSize e c fuel txt args none w = some out := by
  obtain ⟨st, hst⟩ := prepare_total qSize e txt args w.db.q
  by_cases hok : st.rep = .ok
  · obtain ⟨out, h, -⟩ :=
      execute_classifies c hf (st.stmt e) .ok none { w with db := { w.db with q := st.q } } hkt
    exact ⟨out, (dbQuery_of_prepare qSize e c fuel txt args w hst hok).trans h⟩
  · exact ⟨_, dbQuery_rejects qSize e c fuel txt args w hst hok⟩

end DbPsql
