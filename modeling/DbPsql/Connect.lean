import DbPsql.Prepare

/-! The connection of `db_psql.c` and the collaborators it talks to.  libpq and the thread library
are outside the source; the model sees them as a `Collab`: the outcome of each connection attempt,
each `thread_keep_running()` and each `PQexecParams`, in the order the code makes them.  Every
theorem about the executor holds for every `Collab`, so for every behaviour of the server.  The
connection's mutex is the subject of the `Threads` module; here it is left out. -/

namespace DbPsql

/-- libpq's `ExecStatusType`. -/
inductive ExecStatusType
  | emptyQuery
  | commandOk
  | tuplesOk
  | copyOut
  | copyIn
  | badResponse
  | nonfatalError
  | fatalError
  | copyBoth
  | singleTuple
  deriving DecidableEq, Repr

/-- A `PGresult` as the code reads it: status, `PG_DIAG_SQLSTATE`, rows, `PQfnumber`, `PQftype` and
`PQgetvalue` (`none` for `-1` or a `NULL` pointer). -/
structure PGresult where
  status : ExecStatusType
  sqlstate : Option String
  ntuples : Nat
  fnumber : String → Option Nat
  ftype : Nat → Oid
  getvalue : Nat → Nat → Option (List UInt8)

/-- The server and the thread library: the `k`-th connection attempt, `thread_keep_running()` answer
and `PQexecParams` reply (`none` for `NULL`). -/
structure Collab where
  connects : Nat → Bool
  keepRunning : Nat → Bool
  reply : Nat → Option PGresult

/-- `dbconn_t` without its mutex: the names it was set up with, the connection string, whether a
connection is open, the two flags and the buffer `db->q`. -/
structure DbConn where
  dbname : Option String
  dbuser : Option String
  conninfo : Option String
  conn : Bool
  notices : Bool
  keeptrying : Bool
  q : Nat → Char

/-- A connection and what the collaborators have seen: the attempts, the `thread_keep_running()`
calls, the statements sent and the replies released by `PQclear`. -/
structure World where
  db : DbConn
  attempts : Nat
  polls : Nat
  sent : List Stmt
  cleared : List Nat

/-- `db_init`: the names, notices on, no retrying without end, and a connection string
`"dbname = <dbname> user = <dbuser>"` printed into 128 bytes when a name is given. -/
def dbInit (dbname dbuser : Option String) : DbConn where
  dbname := dbname
  dbuser := dbuser
  conninfo :=
    if dbname.isSome || dbuser.isSome then
      some ⟨((if dbname.isSome then "dbname = " else "") ++ dbname.getD "" ++
        (if dbname.isSome && dbuser.isSome then " " else "") ++
        (if dbuser.isSome then "user = " else "") ++ dbuser.getD "").toList.take 127⟩
    else none
  conn := false
  notices := true
  keeptrying := false
  q := fun _ => '\x00'

/-- `db_set_keeptrying`: the new flag, and the old one returned. -/
def dbSetKeeptrying (db : DbConn) (keeptrying : Bool) : Bool × DbConn :=
  (db.keeptrying, { db with keeptrying := keeptrying })

/-- `db_noticeprocessor`: whether a message from the server is logged.  With notices off, a
message that starts with `NOTICE:`, in any case (`strncasecmp` over 7 characters), is dropped. -/
def dbNoticeprocessor (db : DbConn) (message : String) : Bool :=
  db.notices || (message.take 7).toUpper != "NOTICE:"

namespace World

/-- `PQfinish(db->conn); db->conn = NULL;`. -/
def disconnect (w : World) : World := { w with db := { w.db with conn := false } }

end World

/-- `db_tryconnect`: without a connection string no attempt is made; otherwise `PQconnectdb`,
and the connection is kept when it reached `CONNECTION_OK`. -/
def dbTryconnect (c : Collab) (w : World) : World :=
  match w.db.conninfo with
  | none => w.disconnect
  | some _ =>
    { w with db := { w.db with conn := c.connects w.attempts }, attempts := w.attempts + 1 }

/-- The loop `for (i = 0; db->keeptrying || i < max; i++)` of `db_connect` with `max = 3`, given
`fuel` passes: `none` when they did not end the loop. -/
def connectLoop (c : Collab) : Nat → Nat → World → Option World
  | fuel, i, w =>
    if w.db.keeptrying || i < 3 then
      match fuel with
      | 0 => none
      | f + 1 =>
        let w := dbTryconnect c w
        if w.db.conn then some w
        else if c.keepRunning w.polls then connectLoop c f (i + 1) { w with polls := w.polls + 1 }
        else some { w with polls := w.polls + 1 }
    else some w

/-- `db_connect`. -/
def dbConnect (c : Collab) (fuel : Nat) (w : World) : Option World := connectLoop c fuel 0 w

/-- What a run of `db_connect` may change: the connection, the attempts and the polls. -/
structure ConnFrame (w w' : World) : Prop where
  sent : w'.sent = w.sent
  cleared : w'.cleared = w.cleared
  q : w'.db.q = w.db.q
  keeptrying : w'.db.keeptrying = w.db.keeptrying
  conninfo : w'.db.conninfo = w.db.conninfo

theorem ConnFrame.refl (w : World) : ConnFrame w w := ⟨rfl, rfl, rfl, rfl, rfl⟩

theorem ConnFrame.trans {w₁ w₂ w₃ : World} (h₁ : ConnFrame w₁ w₂) (h₂ : ConnFrame w₂ w₃) :
    ConnFrame w₁ w₃ :=
  ⟨h₂.sent.trans h₁.sent, h₂.cleared.trans h₁.cleared, h₂.q.trans h₁.q,
    h₂.keeptrying.trans h₁.keeptrying, h₂.conninfo.trans h₁.conninfo⟩

theorem ConnFrame.poll (w : World) : ConnFrame w { w with polls := w.polls + 1 } :=
  ⟨rfl, rfl, rfl, rfl, rfl⟩

theorem ConnFrame.tryconnect (c : Collab) (w : World) : ConnFrame w (dbTryconnect c w) := by
  unfold dbTryconnect
  split <;> exact ⟨rfl, rfl, rfl, rfl, rfl⟩

theorem attempts_tryconnect (c : Collab) (w : World) :
    (dbTryconnect c w).attempts ≤ w.attempts + 1 := by
  unfold dbTryconnect
  split <;> simp [World.disconnect]

/-- Whatever the flags and the fuel, a run of `db_connect`'s loop changes only the connection, the
attempts and the polls. -/
theorem connectLoop_frame (c : Collab) :
    ∀ (fuel i : Nat) (w w' : World), connectLoop c fuel i w = some w' → ConnFrame w w'
  | fuel, i, w, w', h => by
    have ht := ConnFrame.tryconnect c w
    unfold connectLoop at h
    split at h
    · split at h
      · cases h
      · dsimp only at h
        split at h
        · cases h; exact ht
        split at h
        · exact ht.trans ((ConnFrame.poll _).trans (connectLoop_frame c _ _ _ _ h))
        · cases h; exact ht.trans (ConnFrame.poll _)
    · cases h; exact ConnFrame.refl w

/-- Without `keeptrying`, from pass `i ≤ 3` on, `db_connect`'s loop ends within `3 - i` passes of at
most one attempt each. -/
theorem connectLoop_bounded (c : Collab) :
    ∀ (k fuel i : Nat) (w : World), i + k = 3 → 3 ≤ fuel + i → w.db.keeptrying = false →
      ∃ w', connectLoop c fuel i w = some w' ∧ ConnFrame w w' ∧ w'.attempts ≤ w.attempts + k
  | 0, fuel, i, w, hk, _, hkt => by
    refine ⟨w, ?_, ConnFrame.refl w, Nat.le_add_right _ _⟩
    cases fuel <;> simp [connectLoop, hkt, show ¬ i < 3 by omega]
  | k + 1, 0, i, w, hk, hf, _ => by omega
  | k + 1, f + 1, i, w, hk, hf, hkt => by
    have ht := ConnFrame.tryconnect c w
    have ha := attempts_tryconnect c w
    have hkt' : (dbTryconnect c w).db.keeptrying = false := ht.keeptrying.trans hkt
    rw [connectLoop, if_pos (by simp [show i < 3 by omega])]
    dsimp only
    split
    · exact ⟨_, rfl, ht, by omega⟩
    split
    · obtain ⟨w', hw, hf', ha'⟩ := connectLoop_bounded c k f (i + 1)
        { dbTryconnect c w with polls := (dbTryconnect c w).polls + 1 } (by omega) (by omega) hkt'
      exact ⟨w', hw, ht.trans ((ConnFrame.poll _).trans hf'), by simp only at ha'; omega⟩
    · exact ⟨_, rfl, ht.trans (ConnFrame.poll _), by simp only; omega⟩

/-- A server that accepts every connection: a `db_connect` that returns has connected, whenever
there is a connection string. -/
theorem dbConnect_connects {c : Collab} (hc : ∀ k, c.connects k = true) {fuel : Nat} {w w₁ : World}
    (hinfo : w.db.conninfo.isSome) (h : dbConnect c fuel w = some w₁) : w₁.db.conn = true := by
  obtain ⟨info, hi⟩ := Option.isSome_iff_exists.mp hinfo
  have ht : (dbTryconnect c w).db.conn = true := by simp [dbTryconnect, hi, hc]
  unfold dbConnect connectLoop at h
  rw [if_pos (by simp)] at h
  cases fuel with
  | zero => cases h
  | succ f =>
    dsimp only at h
    rw [if_pos ht] at h
    cases h
    exact ht

/-- An attempt with a connection string: one more attempt, connected when the server accepts
it. -/
theorem dbTryconnect_of_conninfo (c : Collab) {w : World} {info : String}
    (hi : w.db.conninfo = some info) :
    dbTryconnect c w =
      { w with db := { w.db with conn := c.connects w.attempts }, attempts := w.attempts + 1 } := by
  simp [dbTryconnect, hi]

/-- With a connection string the loop returns at the pass `k` whose attempt connects or whose
`thread_keep_running()` says to stop, given `k + 1` passes of fuel. -/
theorem connectLoop_returns (c : Collab) :
    ∀ (k fuel i : Nat) (w : World), w.db.conninfo.isSome → k < fuel →
      (c.connects (w.attempts + k) = true ∨ c.keepRunning (w.polls + k) = false) →
      ∃ w', connectLoop c fuel i w = some w'
  | _, 0, _, _, _, hk, _ => absurd hk (Nat.not_lt_zero _)
  | k, f + 1, i, w, hinfo, hk, hev => by
    obtain ⟨info, hi⟩ := Option.isSome_iff_exists.mp hinfo
    unfold connectLoop
    split
    · dsimp only
      rw [dbTryconnect_of_conninfo c hi]
      split
      · exact ⟨_, rfl⟩
      split
      · rename_i hconn hrun
        cases k with
        | zero => simp_all
        | succ k =>
          exact connectLoop_returns c k f (i + 1) _ hinfo (by omega)
            (by simpa [Nat.add_assoc, Nat.add_comm 1] using hev)
      · exact ⟨_, rfl⟩
    · exact ⟨_, rfl⟩

/-- `db_connect` with a connection string, with `keeptrying` or without, returns once an attempt
connects or `thread_keep_running()` says to stop: `k + 1` passes when that is attempt `k`. -/
theorem dbConnect_returns (c : Collab) (w : World) (hinfo : w.db.conninfo.isSome) (k : Nat)
    (hev : c.connects (w.attempts + k) = true ∨ c.keepRunning (w.polls + k) = false) :
    ∃ w', dbConnect c (k + 1) w = some w' :=
  connectLoop_returns c k (k + 1) 0 w hinfo (Nat.lt_succ_self k) hev

/-- A server that refuses the first two connections and accepts the later ones. -/
def lateServer : Collab := ⟨fun k => decide (2 ≤ k), fun _ => true, fun _ => none⟩

/-- `db_init(db, "test", NULL)` with `db_set_keeptrying(db, true)`. -/
def keeptryingWorld : World := ⟨(dbSetKeeptrying (dbInit (some "test") none) true).2, 0, 0, [], []⟩

theorem dbConnect_returns_late :
    keeptryingWorld.db.conninfo.isSome ∧
      (lateServer.connects (keeptryingWorld.attempts + 2) = true ∨
        lateServer.keepRunning (keeptryingWorld.polls + 2) = false) ∧
      ∃ w', dbConnect lateServer (2 + 1) keeptryingWorld = some w' :=
  ⟨rfl, .inl rfl, dbConnect_returns lateServer keeptryingWorld rfl 2 (.inl rfl)⟩

/-- Without `keeptrying`, `db_connect` returns after at most three attempts. -/
theorem dbConnect_bounded (c : Collab) {fuel : Nat} (hf : 3 ≤ fuel) (w : World)
    (hkt : w.db.keeptrying = false) :
    ∃ w', dbConnect c fuel w = some w' ∧ ConnFrame w w' ∧ w'.attempts ≤ w.attempts + 3 :=
  connectLoop_bounded c 3 fuel 0 w rfl hf hkt

/-! ### What a run of `db_connect` did -/

/-- Past its third pass without `keeptrying`, the loop test ends `db_connect`'s loop. -/
theorem connectLoop_done (c : Collab) (fuel : Nat) {i : Nat} {w : World}
    (hkt : w.db.keeptrying = false) (hi : 3 ≤ i) : connectLoop c fuel i w = some w := by
  unfold connectLoop
  rw [if_neg (by simp [hkt, hi])]

/-- A run of `db_connect`'s loop with a connection string: failed attempts that went on, a last
attempt, and why the loop stopped after it. -/
theorem connectLoop_spec (c : Collab) :
    ∀ (fuel i : Nat) (w w' : World), w.db.conninfo.isSome → (w.db.keeptrying = true ∨ i < 3) →
      connectLoop c fuel i w = some w' →
      ∃ n, w'.attempts = w.attempts + n + 1 ∧ w'.db.conn = c.connects (w.attempts + n) ∧
        (∀ m < n, c.connects (w.attempts + m) = false ∧ c.keepRunning (w.polls + m) = true) ∧
        (c.connects (w.attempts + n) = true ∧ w'.polls = w.polls + n ∨
          c.connects (w.attempts + n) = false ∧ w'.polls = w.polls + n + 1 ∧
            (c.keepRunning (w.polls + n) = false ∨ w.db.keeptrying = false ∧ i + n + 1 = 3))
  | 0, i, w, w', _, hg, h => by
    rw [connectLoop, if_pos (by simpa using hg)] at h
    cases h
  | f + 1, i, w, w', hinfo, hg, h => by
    obtain ⟨info, hi⟩ := Option.isSome_iff_exists.mp hinfo
    rw [connectLoop, if_pos (by simpa using hg)] at h
    dsimp only at h
    rw [dbTryconnect_of_conninfo c hi] at h
    cases hc : c.connects w.attempts
    · simp only [hc, Bool.false_eq_true, if_false] at h
      split at h
      next hrun =>
        by_cases hg' : w.db.keeptrying = true ∨ i + 1 < 3
        · obtain ⟨n, ha, hconn, hpre, hlast⟩ :=
            connectLoop_spec c f (i + 1) _ w' (by exact hinfo) (by exact hg') h
          simp only [Nat.add_right_comm _ 1] at ha hconn hpre hlast
          refine ⟨n + 1, by omega, hconn, fun m hm => ?_, hlast⟩
          cases m with
          | zero => exact ⟨hc, hrun⟩
          | succ m => exact hpre m (by omega)
        · simp only [not_or, Bool.not_eq_true, not_lt] at hg'
          obtain rfl := Option.some.inj
            ((connectLoop_done c f (by exact hg'.1) (by exact hg'.2)).symm.trans h)
          exact ⟨0, rfl, hc ▸ rfl, fun m hm => absurd hm (Nat.not_lt_zero m),
            .inr ⟨hc, rfl, .inr ⟨hg'.1, by have := hg.resolve_left (by simp [hg'.1]); omega⟩⟩⟩
      next hrun =>
        cases h
        exact ⟨0, rfl, hc ▸ rfl, fun m hm => absurd hm (Nat.not_lt_zero m),
          .inr ⟨hc, rfl, .inl (by simpa using hrun)⟩⟩
    · simp only [hc, if_true, Option.some.injEq] at h
      subst h
      exact ⟨0, rfl, hc ▸ rfl, fun m hm => absurd hm (Nat.not_lt_zero m), .inl ⟨hc, rfl⟩⟩

/-- `db_connect` with a connection string, with `keeptrying` or without: the attempts it made are
failures, each followed by a `thread_keep_running()` that said to go on, then a last attempt; it
returns connected exactly when that attempt connected, and it stopped there because the attempt
connected, because `thread_keep_running()` said to stop, or, without `keeptrying`, because it was
the third. -/
theorem dbConnect_attempts (c : Collab) {fuel : Nat} {w w' : World} (hinfo : w.db.conninfo.isSome)
    (h : dbConnect c fuel w = some w') :
    ∃ n, w'.attempts = w.attempts + n + 1 ∧ w'.db.conn = c.connects (w.attempts + n) ∧
      (∀ m < n, c.connects (w.attempts + m) = false ∧ c.keepRunning (w.polls + m) = true) ∧
      (c.connects (w.attempts + n) = true ∨ c.keepRunning (w.polls + n) = false ∨
        w.db.keeptrying = false ∧ n = 2) := by
  obtain ⟨n, ha, hconn, hpre, hlast⟩ := connectLoop_spec c fuel 0 w w' hinfo (.inr (by decide)) h
  refine ⟨n, ha, hconn, hpre, ?_⟩
  rcases hlast with ⟨hc, -⟩ | ⟨-, -, hrun | ⟨hkt, hn⟩⟩
  exacts [.inl hc, .inr (.inl hrun), .inr (.inr ⟨hkt, by omega⟩)]

/-- `db_connect` against `lateServer` with `keeptrying`: its last attempt decides the connection. -/
theorem dbConnect_attempts_late :
    ∃ w' n, dbConnect lateServer 3 keeptryingWorld = some w' ∧
      w'.attempts = keeptryingWorld.attempts + n + 1 ∧
      w'.db.conn = lateServer.connects (keeptryingWorld.attempts + n) := by
  have h : dbConnect lateServer 3 keeptryingWorld = some _ := rfl
  obtain ⟨n, ha, hconn, -⟩ := dbConnect_attempts lateServer (w := keeptryingWorld) rfl h
  exact ⟨_, n, h, ha, hconn⟩

end DbPsql
