import DbPsql.Query

/-! What `db->q` holds when a query starts.  `db_query_finish` clears the buffer, but nothing
checks that it was cleared: `db_query` compiles into whatever the buffer holds.  It need not
check.  The compile phase writes every byte below `o` before it reads the buffer back up to the
NUL it ends with, and the execution loop never reads the buffer.  So what an earlier query left in
`db->q` reaches neither the reply nor a statement sent (`prepare_buffer`, `dbQuery_buffer`). -/

namespace DbPsql

namespace Prep

/-- `st'` is `st` with another buffer, one that agrees with `st`'s below `n`: the state of a run
from another `db->q`, once the run has written everything below `n`. -/
def SameUpTo (n : Nat) (st st' : Prep) : Prop :=
  ∃ q', st' = { st with q := q' } ∧ ∀ j < n, q' j = st.q j

namespace SameUpTo

variable {n : Nat} {st st' : Prep}

theorem init (q q' : Nat → Char) : SameUpTo 0 (Prep.init q) (Prep.init q') :=
  ⟨q', rfl, fun _ h => absurd h (Nat.not_lt_zero _)⟩

theorem mono {m : Nat} (h : SameUpTo n st st') (hm : m ≤ n) : SameUpTo m st st' :=
  let ⟨q', hq, hb⟩ := h
  ⟨q', hq, fun j hj => hb j (by omega)⟩

/-- The two states agree on everything but the buffer. -/
theorem eq_of {α : Type} (h : SameUpTo n st st') (f : Prep → α)
    (hf : ∀ s q, f { s with q := q } = f s) : f st' = f st := by
  obtain ⟨q', rfl, -⟩ := h
  exact hf st q'

/-- A step that leaves `db->q` alone keeps the relation. -/
theorem map (h : SameUpTo n st st') (f : Prep → Prep)
    (hf : ∀ s q, f { s with q := q } = { f s with q := q }) (hq : ∀ s, (f s).q = s.q) :
    SameUpTo n (f st) (f st') := by
  obtain ⟨q', rfl, hb⟩ := h
  exact ⟨q', hf st q', fun j hj => (hb j hj).trans (congrFun (hq st) j).symm⟩

theorem read (h : SameUpTo n st st') (j : Nat) : SameUpTo n (st.read j) (st'.read j) :=
  h.map (·.read j) (fun _ _ => rfl) (fun _ => rfl)

theorem skip (h : SameUpTo n st st') : SameUpTo n st.skip st'.skip :=
  h.map Prep.skip (fun _ _ => rfl) (fun _ => rfl)

theorem setI (h : SameUpTo n st st') (i : Nat) :
    SameUpTo n { st with i := i } { st' with i := i } :=
  h.map (fun s => { s with i := i }) (fun _ _ => rfl) (fun _ => rfl)

theorem setO (h : SameUpTo n st st') (o : Nat) :
    SameUpTo n { st with o := o } { st' with o := o } :=
  h.map (fun s => { s with o := o }) (fun _ _ => rfl) (fun _ => rfl)

theorem fail (h : SameUpTo n st st') :
    SameUpTo n { st with rep := .err } { st' with rep := .err } :=
  h.map (fun s => { s with rep := .err }) (fun _ _ => rfl) (fun _ => rfl)

/-- Writing the same characters at `o` in both: the buffers then agree below the end of what was
written. -/
theorem put (h : SameUpTo st.o st st') (cs : List Char) :
    SameUpTo (st.o + cs.length) (st.put cs) (st'.put cs) := by
  obtain ⟨q', rfl, hb⟩ := h
  refine ⟨_, rfl, fun j hj => ?_⟩
  simp only [Prep.put]
  split_ifs with hw
  · rfl
  · exact hb j (by omega)

/-- An `snprintf` into `db->q`: what it writes and whether `o` moves do not depend on the buffer,
and when `o` moves, it moves past what was written. -/
theorem emit (h : SameUpTo st.o st st') (qSize : Nat) (s : List Char) :
    SameUpTo (st.emit qSize s).o (st.emit qSize s) (st'.emit qSize s) := by
  obtain ⟨q', rfl, hb⟩ := h
  have h₀ : SameUpTo st.o st { st with q := q' } := ⟨q', rfl, hb⟩
  unfold Prep.emit
  dsimp only
  split_ifs with hok hz hz
  · simp [hz, snprintfok] at hok
  · have hlen : s.length ≤ (s.take (sizeLeft qSize st.o - 1) ++ ['\x00']).length := by
      simp only [snprintfok, decide_eq_true_eq] at hok
      simp only [List.length_append, List.length_take, List.length_singleton]
      omega
    exact ((h₀.put _).setO _).mono (Nat.add_le_add_left hlen _)
  · exact h₀.fail
  · exact ((h₀.put _).fail).mono (Nat.le_add_right _ _)

/-- A pass of the `switch` of the loop. -/
theorem dispatch (h : SameUpTo st.o st st') (qSize : Nat) (e : Endian) (args : List Arg)
    (d : Char) :
    SameUpTo (dispatch qSize e args st d).o (dispatch qSize e args st d)
      (dispatch qSize e args st' d) := by
  obtain ⟨q', rfl, hb⟩ := h
  have h₀ : SameUpTo st.o st { st with q := q' } := ⟨q', rfl, hb⟩
  unfold DbPsql.dispatch
  split
  case h_1 | h_9 => exact h₀.fail
  -- every directive ends with an `snprintf`, after steps that leave the buffer alone
  all_goals refine emit ?_ _ _; exact ⟨q', rfl, hb⟩

theorem incr (h : SameUpTo n st st') :
    SameUpTo n { st with i := st.i + 1 } { st' with i := st'.i + 1 } :=
  h.map (fun s => { s with i := s.i + 1 }) (fun _ _ => rfl) (fun _ => rfl)

/-- Two states that agree below `o + 1` hand `PQexecParams` the same statement: it is read up to
the NUL at `o`. -/
theorem stmt (h : SameUpTo (st.o + 1) st st') (e : Endian) : st'.stmt e = st.stmt e := by
  obtain ⟨q', rfl, hb⟩ := h
  simp only [Prep.stmt, List.map_congr_left fun j hj => hb j (List.mem_range.mp hj)]
  rfl

end SameUpTo

end Prep

/-- Two runs of the compile loop from states that differ only in a buffer that agrees below `o`:
both end, or neither does, in states that differ only in a buffer that agrees below `o`. -/
theorem loop_sameUpTo (qSize : Nat) (e : Endian) (txt : CStr) (args : List Arg) :
    ∀ (fuel : Nat) {st st' : Prep}, Prep.SameUpTo st.o st st' →
      Option.Rel (fun r r' => Prep.SameUpTo r.o r r') (loop qSize e txt args fuel st)
        (loop qSize e txt args fuel st')
  | fuel, st, st', h => by
    have hr' : st'.rep = st.rep := h.eq_of Prep.rep fun _ _ => rfl
    have hi : st'.i = st.i := h.eq_of Prep.i fun _ _ => rfl
    by_cases hr : st.rep = .ok
    case neg =>
      rw [loop_err hr, loop_err (show st'.rep ≠ .ok from hr' ▸ hr)]
      exact .some h
    by_cases hn : txt.get st.i = '\x00'
    case pos =>
      rw [loop_stop hr hn, loop_stop (hr'.trans hr) (hi ▸ hn), hi]
      exact .some (h.read _)
    match fuel with
    | 0 =>
      rw [loop_out hr hn, loop_out (hr'.trans hr) (hi ▸ hn)]
      exact .none
    | f + 1 =>
      have ho : st'.o = st.o := h.eq_of Prep.o fun _ _ => rfl
      have hv : st'.v = st.v := h.eq_of Prep.v fun _ _ => rfl
      by_cases hc : txt.get st.i = '%'
      case neg =>
        rw [loop_lit hr hc hn, loop_lit (hr'.trans hr) (hi ▸ hc) (hi ▸ hn), hi, ho]
        exact loop_sameUpTo qSize e txt args f ((((h.read _).put _).setO _).setI _)
      by_cases hmax : dbMaxParams ≤ st.v
      case pos =>
        rw [loop_brk hr hc hmax, loop_brk (hr'.trans hr) (hi ▸ hc) (hv ▸ hmax), hi]
        exact .some ((h.read _).setI _)
      rw [loop_dir hr hc (Nat.lt_of_not_le hmax),
        loop_dir (hr'.trans hr) (hi ▸ hc) (hv ▸ Nat.lt_of_not_le hmax), hi]
      exact loop_sameUpTo qSize e txt args f (((h.read _).skip.dispatch qSize e args _).incr)

/-- The compile phase from any two buffers: the same reply, and the same statement for
`PQexecParams`. -/
theorem prepare_buffer (qSize : Nat) (e : Endian) (txt : CStr) (args : List Arg)
    (q q' : Nat → Char) :
    (prepare qSize e txt args q').map (fun st => (st.rep, st.stmt e)) =
      (prepare qSize e txt args q).map (fun st => (st.rep, st.stmt e)) := by
  have h := loop_sameUpTo qSize e txt args (txt.chars.length + 1) (Prep.SameUpTo.init q q')
  unfold prepare
  generalize loop qSize e txt args (txt.chars.length + 1) (Prep.init q) = r at h
  generalize loop qSize e txt args (txt.chars.length + 1) (Prep.init q') = r' at h
  cases h with
  | none => rfl
  | some h =>
    have ht := h.put ['\x00']
    simp only [Option.map_some']
    rw [ht.eq_of Prep.rep fun _ _ => rfl, ht.stmt e]

/-! ### The execution loop never reads the buffer -/

namespace World

/-- The world with `db->q` holding `q`. -/
def withQ (w : World) (q : Nat → Char) : World := { w with db := { w.db with q := q } }

@[simp] theorem withQ_db (w : World) (q : Nat → Char) :
    (w.withQ q).db = { w.db with q := q } := rfl

@[simp] theorem withQ_polls (w : World) (q : Nat → Char) : (w.withQ q).polls = w.polls := rfl

@[simp] theorem withQ_sent (w : World) (q : Nat → Char) : (w.withQ q).sent = w.sent := rfl

end World

/-- The outcome of `db_query` with `db->q` holding `q`. -/
def Out.withQ (out : Out) (q : Nat → Char) : Out := { out with world := out.world.withQ q }

/-- `db_tryconnect` does not read the buffer. -/
theorem dbTryconnect_withQ (c : Collab) (w : World) (q : Nat → Char) :
    dbTryconnect c (w.withQ q) = (dbTryconnect c w).withQ q := by
  simp only [dbTryconnect, World.withQ, World.disconnect]
  split <;> rfl

/-- Nor does `db_connect`. -/
theorem connectLoop_withQ (c : Collab) (q : Nat → Char) (fuel : Nat) :
    ∀ (i : Nat) (w : World),
      connectLoop c fuel i (w.withQ q) = (connectLoop c fuel i w).map (·.withQ q) := by
  induction fuel with
  | zero =>
    intro i w
    rw [connectLoop, connectLoop]
    simp only [World.withQ_db]
    split_ifs <;> rfl
  | succ f ih =>
    intro i w
    rw [connectLoop, connectLoop, dbTryconnect_withQ]
    simp only [World.withQ_db, World.withQ_polls]
    split_ifs
    · rfl
    · exact ih (i + 1) { dbTryconnect c w with polls := (dbTryconnect c w).polls + 1 }
    · rfl
    · rfl

theorem ensureConn_withQ (c : Collab) (fuel : Nat) (w : World) (q : Nat → Char) :
    ensureConn c fuel (w.withQ q) = (ensureConn c fuel w).map (·.withQ q) := by
  unfold ensureConn dbConnect
  simp only [World.withQ_db]
  split_ifs
  · rfl
  · exact connectLoop_withQ c q fuel 0 w

/-- Nor does the execution loop: it sends the statement it was given. -/
theorem execute_withQ (c : Collab) (fuel : Nat) (stmt : Stmt) (q : Nat → Char) :
    ∀ (n : Nat) (rep : DbReply) (res : Option Nat) (w : World),
      execute c fuel stmt n rep res (w.withQ q) = (execute c fuel stmt n rep res w).map (·.withQ q)
  | 0, _, _, _ => rfl
  | n + 1, rep, res, w => by
    rw [execute, execute, ensureConn_withQ]
    cases ensureConn c fuel w with
    | none => rfl
    | some w₁ =>
      simp only [Option.map_some', Option.some_bind, World.withQ_db, World.withQ_sent]
      split_ifs
      · rfl
      cases c.reply w₁.sent.length with
      | none => exact execute_withQ c fuel stmt q n _ _ (w₁.send stmt).disconnect
      | some r =>
        dsimp only
        generalize (if r.sqlstate = some "23505" then DbReply.duplicateKey else .err) = rep'
        split_ifs
        · exact execute_withQ c fuel stmt q n _ _ (w₁.send stmt).disconnect
        all_goals rfl

/-- `db_query` on a world whose buffer holds `q`, the buffer then set to `q₀`: the compile phase's
reply and statement, then the execution loop on the statement. -/
theorem dbQuery_withQ (qSize : Nat) (e : Endian) (c : Collab) (fuel : Nat) (txt : CStr)
    (args : List Arg) (res : Option Nat) (w : World) (q q₀ : Nat → Char) :
    (dbQuery qSize e c fuel txt args res (w.withQ q)).map (·.withQ q₀) =
      if res.isSome then none
      else ((prepare qSize e txt args q).map fun st => (st.rep, st.stmt e)).bind fun p =>
        if p.1 ≠ .ok then some ⟨.err, w.withQ q₀, res, true⟩
        else (execute c fuel p.2 2 .ok res w).map (·.withQ q₀) := by
  unfold dbQuery
  split_ifs with hres
  · rfl
  rw [show (w.withQ q).db.q = q from rfl]
  cases prepare qSize e txt args q with
  | none => rfl
  | some st =>
    simp only [Option.some_bind, Option.map_some']
    split_ifs
    · rfl
    · rw [show { w.withQ q with db := { (w.withQ q).db with q := st.q } } = w.withQ st.q from rfl,
        execute_withQ, Option.map_map]
      rfl

/-- What `db->q` held before `db_query` reaches nothing it does: from any two buffers, the same
reply, the same statements sent, the same reply held in `result->res`, the same release of the
mutex, and the same world but for the buffer. -/
theorem dbQuery_buffer (qSize : Nat) (e : Endian) (c : Collab) (fuel : Nat) (txt : CStr)
    (args : List Arg) (res : Option Nat) (w : World) (q q₀ : Nat → Char) :
    (dbQuery qSize e c fuel txt args res (w.withQ q)).map (·.withQ q₀) =
      (dbQuery qSize e c fuel txt args res w).map (·.withQ q₀) := by
  rw [dbQuery_withQ, prepare_buffer qSize e txt args w.db.q q]
  -- `w` is `w` with its own buffer
  exact (dbQuery_withQ qSize e c fuel txt args res w w.db.q q₀).symm

end DbPsql
