import DbPsql.Prepare

/-! One equation for each way a pass of the compile loop can go, and the frame facts of the
helpers it is written with.  Later proofs cite these and never unfold `loop` or `body`. -/

namespace DbPsql

variable {qSize : Nat} {e : Endian} {txt : CStr} {args : List Arg} {st : Prep}

/-! ### The passes of the loop -/

/-- After a failure the loop test stops the loop without reading `txt`. -/
theorem loop_err (h : st.rep ≠ .ok) (n : Nat) : loop qSize e txt args n st = some st := by
  cases n <;> rw [loop, if_pos h]

/-- At the terminating NUL the loop stops, having read it. -/
theorem loop_stop (h : st.rep = .ok) (hc : txt.get st.i = '\x00') (n : Nat) :
    loop qSize e txt args n st = some (st.read st.i) := by
  cases n <;> rw [loop, if_neg (fun hne => hne h), if_pos hc]

/-- With no pass left before the loop ends, the model gives up. -/
theorem loop_out (h : st.rep = .ok) (hc : txt.get st.i ≠ '\x00') :
    loop qSize e txt args 0 st = none := by
  rw [loop, if_neg (fun hne => hne h), if_neg hc]

/-- A literal character is copied to `db->q[o++]`. -/
theorem loop_lit (h : st.rep = .ok) (hc : txt.get st.i ≠ '%') (hn : txt.get st.i ≠ '\x00')
    (n : Nat) : loop qSize e txt args (n + 1) st =
      loop qSize e txt args n
        { (st.read st.i).put [txt.get st.i] with o := st.o + 1, i := st.i + 1 } := by
  rw [loop, if_neg (fun hne => hne h), if_neg hn]
  simp only [body, Prep.read]
  rw [if_pos hc]
  rfl

/-- A `'%'` with fewer than `DB_MAX_PARAMS` parameters bound dispatches on the next
character. -/
theorem loop_dir (h : st.rep = .ok) (hc : txt.get st.i = '%') (hv : st.v < dbMaxParams)
    (n : Nat) : loop qSize e txt args (n + 1) st =
      loop qSize e txt args n
        (let st' := dispatch qSize e args (st.read st.i).skip (txt.get (st.i + 1))
        { st' with i := st'.i + 1 }) := by
  rw [loop, if_neg (fun hne => hne h), if_neg (by rw [hc]; decide)]
  simp only [body, Prep.read]
  rw [if_neg (by simpa using hc), if_neg (Nat.not_le.mpr hv)]

/-- A `'%'` with `DB_MAX_PARAMS` parameters bound leaves the loop by its `break`, `rep`
untouched. -/
theorem loop_brk (h : st.rep = .ok) (hc : txt.get st.i = '%') (hv : dbMaxParams ≤ st.v)
    (n : Nat) : loop qSize e txt args (n + 1) st = some { st.read st.i with i := st.i + 1 } := by
  rw [loop, if_neg (fun hne => hne h), if_neg (by rw [hc]; decide)]
  simp only [body, Prep.read]
  rw [if_neg (by simpa using hc), if_pos hv]

/-- A property of the loop's state that the read at the test and each kind of pass keep holds of
the state the loop ends in. -/
theorem loop_induct (P : Prep → Prop)
    (read : ∀ st, st.rep = .ok → P st → P (st.read st.i))
    (lit : ∀ st, st.rep = .ok → txt.get st.i ≠ '%' → txt.get st.i ≠ '\x00' → P st →
      P { (st.read st.i).put [txt.get st.i] with o := st.o + 1, i := st.i + 1 })
    (dir : ∀ st, st.rep = .ok → txt.get st.i = '%' → st.v < dbMaxParams → P st →
      P (let st' := dispatch qSize e args (st.read st.i).skip (txt.get (st.i + 1))
        { st' with i := st'.i + 1 }))
    (brk : ∀ st, st.rep = .ok → txt.get st.i = '%' → P st → P { st.read st.i with i := st.i + 1 }) :
    ∀ (fuel : Nat) {st st' : Prep}, P st → loop qSize e txt args fuel st = some st' → P st'
  | fuel, st, st', h, hl => by
    by_cases hr : st.rep = .ok
    case neg => rw [loop_err hr, Option.some.injEq] at hl; exact hl ▸ h
    by_cases hn : txt.get st.i = '\x00'
    case pos => rw [loop_stop hr hn, Option.some.injEq] at hl; exact hl ▸ read st hr h
    match fuel with
    | 0 => rw [loop_out hr hn] at hl; cases hl
    | f + 1 =>
      by_cases hc : txt.get st.i = '%'
      case neg =>
        rw [loop_lit hr hc hn] at hl
        exact loop_induct P read lit dir brk f (lit st hr hc hn h) hl
      by_cases hv : dbMaxParams ≤ st.v
      case pos => rw [loop_brk hr hc hv, Option.some.injEq] at hl; exact hl ▸ brk st hr hc h
      rw [loop_dir hr hc (Nat.lt_of_not_le hv)] at hl
      exact loop_induct P read lit dir brk f (dir st hr hc (Nat.lt_of_not_le hv) h) hl

/-! ### Writes into `db->q` -/

namespace Prep

theorem put_q_lt {k : Nat} (cs : List Char) (hk : k < st.o) : (st.put cs).q k = st.q k := by
  simp [put, Nat.not_le.mpr hk]

theorem put_q_of_le {k : Nat} (cs : List Char) (hk : st.o ≤ k) (hk' : k < st.o + cs.length) :
    (st.put cs).q k = cs.getD (k - st.o) '\x00' := by
  simp [put, hk, hk']

/-- `sizeof db->q - o` is the room left while `o` is inside the buffer. -/
theorem sizeLeft_of_le {qSize o : Nat} (h : o ≤ qSize) : sizeLeft qSize o = qSize - o := by
  simp [sizeLeft, h]

/-- Output that fits with its NUL is written whole and `o` moves past it. -/
theorem emit_of_fits {s : List Char} (h : st.o + s.length < qSize) :
    st.emit qSize s = { st.put (s ++ ['\x00']) with o := st.o + s.length } := by
  have hs : sizeLeft qSize st.o = qSize - st.o := sizeLeft_of_le (by omega)
  rw [emit]
  simp only [hs, snprintfok, show qSize - st.o ≠ 0 by omega, if_false,
    List.take_of_length_le (show s.length ≤ qSize - st.o - 1 by omega),
    decide_eq_true (show s.length < qSize - st.o by omega), if_true]

/-- `o` moves past the output of an `snprintf` exactly when `snprintfok` accepts it. -/
theorem emit_o (qSize : Nat) (s : List Char) :
    (st.emit qSize s).o = if s.length < sizeLeft qSize st.o then st.o + s.length else st.o := by
  simp only [emit, snprintfok, decide_eq_true_eq]
  split_ifs <;> rfl

/-- An `snprintf` writes from `o` on, at most its output and a NUL, and no further than the size
it is given. -/
theorem emit_writes (qSize : Nat) (s : List Char) :
    ∀ k ∈ (st.emit qSize s).writes, k ∈ st.writes ∨
      st.o ≤ k ∧ k ≤ st.o + s.length ∧ k < st.o + sizeLeft qSize st.o := by
  intro k hk
  simp only [emit, snprintfok, decide_eq_true_eq] at hk
  split_ifs at hk <;> simp only [put, List.mem_append, List.mem_range', List.length_append,
    List.length_take, List.length_singleton] at hk
  all_goals first
    | exact .inl hk
    | (rcases hk with ⟨i, hi, rfl⟩ | hk
       exacts [.inr ⟨by omega, by omega, by omega⟩, .inl hk])

@[simp] theorem emit_reads (qSize : Nat) (s : List Char) : (st.emit qSize s).reads = st.reads := by
  simp only [emit]
  split_ifs <;> rfl

@[simp] theorem emit_ap (qSize : Nat) (s : List Char) : (st.emit qSize s).ap = st.ap := by
  simp only [emit]
  split_ifs <;> rfl

@[simp] theorem emit_i (qSize : Nat) (s : List Char) : (st.emit qSize s).i = st.i := by
  simp only [emit]
  split_ifs <;> rfl

end Prep

/-! ### What a dispatch touches -/

theorem dispatch_i (d : Char) : (dispatch qSize e args st d).i = st.i := by
  unfold dispatch
  split <;> simp [Prep.textParam, Prep.uint32Param, Prep.uint64Param, Prep.bindParam,
    Prep.setParam, Prep.nextArg]

theorem dispatch_reads (d : Char) : (dispatch qSize e args st d).reads = st.reads := by
  unfold dispatch
  split <;> simp [Prep.textParam, Prep.uint32Param, Prep.uint64Param, Prep.bindParam,
    Prep.setParam, Prep.nextArg]

/-- A dispatch makes at most one `va_arg` call. -/
theorem dispatch_ap (d : Char) : (dispatch qSize e args st d).ap ≤ st.ap + 1 := by
  unfold dispatch
  split <;> simp [Prep.textParam, Prep.uint32Param, Prep.uint64Param, Prep.bindParam,
    Prep.setParam, Prep.nextArg]

/-- A directive makes exactly one. -/
theorem dispatch_ap_directive {d : Char} (hd : d ∈ ['a', 'b', 'u', 'U', 'S', 's', 't']) :
    (dispatch qSize e args st d).ap = st.ap + 1 := by
  simp only [List.mem_cons, List.mem_singleton, List.not_mem_nil, or_false] at hd
  rcases hd with rfl | rfl | rfl | rfl | rfl | rfl | rfl <;>
    simp [dispatch, Prep.textParam, Prep.uint32Param, Prep.uint64Param, Prep.bindParam,
      Prep.setParam, Prep.nextArg]

/-- The NUL after a trailing `'%'` fails the compile without a `va_arg` call. -/
theorem dispatch_nul : dispatch qSize e args st '\x00' = { st with rep := .err } := rfl

/-- So does every character that is not a directive. -/
theorem dispatch_unknown {d : Char} (hd : d ∉ ['a', 'b', 'u', 'U', 'S', 's', 't']) :
    dispatch qSize e args st d = { st with rep := .err } := by
  unfold dispatch
  split <;> simp_all

/-- A dispatch fails, or ends with one `snprintf` from a state with the same `o` and writes. -/
theorem dispatch_emit (d : Char) : dispatch qSize e args st d = { st with rep := .err } ∨
    ∃ (st₁ : Prep) (s : List Char), st₁.o = st.o ∧ st₁.writes = st.writes ∧
      dispatch qSize e args st d = st₁.emit qSize s := by
  by_cases hd : d ∈ ['a', 'b', 'u', 'U', 'S', 's', 't']
  · simp only [List.mem_cons, List.mem_singleton, List.not_mem_nil, or_false] at hd
    refine .inr ?_
    rcases hd with rfl | rfl | rfl | rfl | rfl | rfl | rfl <;>
      refine ⟨_, _, ?_, ?_, rfl⟩ <;> rfl
  · exact .inl (dispatch_unknown hd)

end DbPsql
