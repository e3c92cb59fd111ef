import DbPsql.Refine

/-! The compile loop at its limits, for every template, well formed or not.  The loop reads the
template only up to its NUL, stops within `strlen(txt) + 1` passes and never takes more
arguments than the template has directives (`prepare_scan`).  Its copy of literal characters
has no bound: a template of `sizeof db->q` literal characters writes past the buffer
(`prepare_fill_writes_past_buffer`).  That copy is the only way out: on every template the compile
phase stays inside the buffer exactly when the NUL it ends with does (`prepare_writes_in_buffer`).  And the test for too many parameters leaves the loop with
`DB_R_OK`, so the compile of a template with a directive after `DB_MAX_PARAMS` bound ones ends
with success and the rendering of the part before it (`prepare_truncates`). -/

namespace DbPsql

/-- The number of directives a left-to-right scan of a template meets: a `'%'` with the character
after it, and a `'%'` at the end on its own. -/
def directiveCount : List Char → Nat
  | [] => 0
  | ['%'] => 1
  | '%' :: _ :: cs => directiveCount cs + 1
  | _ :: cs => directiveCount cs

theorem directiveCount_lit {c : Char} (hc : c ≠ '%') (cs : List Char) :
    directiveCount (c :: cs) = directiveCount cs := by
  cases cs <;> simp [directiveCount, hc]

/-- A `'%'` and the character after it, whatever it is, make one directive. -/
theorem directiveCount_pct (cs : List Char) : directiveCount ('%' :: cs) = directiveCount cs.tail + 1 := by
  rcases cs with _ | ⟨c, cs⟩ <;> rfl

variable {qSize : Nat} {e : Endian} {txt : CStr} {args : List Arg} {st : Prep}

/-- What holds at the test of the loop with `fuel` passes left: the reads stay within `strlen(txt)`
and the arguments taken within the template's directives. -/
structure Scanned (txt : CStr) (fuel : Nat) (st : Prep) : Prop where
  i_le : st.rep = .ok → st.i ≤ txt.chars.length
  fuel_le : st.rep = .ok → txt.chars.length + 1 ≤ fuel + st.i
  reads : ∀ r ∈ st.reads, r ≤ txt.chars.length
  ap : st.ap + directiveCount (txt.chars.drop st.i) ≤ directiveCount txt.chars

namespace Scanned

variable {fuel : Nat}

theorem init (txt : CStr) (q : Nat → Char) : Scanned txt (txt.chars.length + 1) (Prep.init q) :=
  ⟨fun _ => Nat.zero_le _, fun _ => by simp [Prep.init], by simp [Prep.init], by simp [Prep.init]⟩

/-- A state the loop returns from a `Scanned` one meets the bounds of `prepare_scan`. -/
theorem bounds (h : Scanned txt fuel st) :
    (∀ r ∈ st.reads, r ≤ txt.chars.length) ∧ st.ap ≤ directiveCount txt.chars :=
  ⟨h.reads, Nat.le_of_add_right_le h.ap⟩

/-- The read of `txt[i]` at the loop test is within the template. -/
theorem read (h : Scanned txt fuel st) (hr : st.rep = .ok) : Scanned txt fuel (st.read st.i) :=
  ⟨h.i_le, h.fuel_le, by simpa [Prep.read] using And.intro (h.i_le hr) h.reads, h.ap⟩

/-- With no pass left, a `Scanned` state has failed. -/
theorem rep_of_zero (h : Scanned txt 0 st) : st.rep ≠ .ok := fun hr => by
  have := h.fuel_le hr
  have := h.i_le hr
  omega

/-- A pass over a literal character keeps the invariant. -/
theorem lit {f : Nat} (h : Scanned txt (f + 1) st) (hr : st.rep = .ok) (hc : txt.get st.i ≠ '%')
    (hn : txt.get st.i ≠ '\x00') :
    Scanned txt f { (st.read st.i).put [txt.get st.i] with o := st.o + 1, i := st.i + 1 } := by
  have hlt := CStr.lt_of_get_ne_nul hn
  have hap := h.ap
  rw [CStr.drop_of_get_ne_nul hn, directiveCount_lit hc] at hap
  have := h.fuel_le hr
  exact ⟨fun _ => hlt, fun _ => by simp only; omega, (h.read hr).reads, hap⟩

/-- So does a pass over a `'%'` and the character after it, which the dispatch reads. -/
theorem dir {f : Nat} (h : Scanned txt (f + 1) st) (hr : st.rep = .ok) (hc : txt.get st.i = '%') :
    Scanned txt f (let st' := dispatch qSize e args (st.read st.i).skip (txt.get (st.i + 1))
      { st' with i := st'.i + 1 }) := by
  have hn : txt.get st.i ≠ '\x00' := by rw [hc]; decide
  have hlt := CStr.lt_of_get_ne_nul hn
  have hd : (dispatch qSize e args (st.read st.i).skip (txt.get (st.i + 1))).rep = .ok →
      txt.get (st.i + 1) ≠ '\x00' := fun hx hd => by
    rw [hd, dispatch_nul] at hx
    cases hx
  have hst := h.ap
  rw [CStr.drop_of_get_ne_nul hn, hc, directiveCount_pct, List.tail_drop] at hst
  have := h.fuel_le hr
  have hi : (dispatch qSize e args (st.read st.i).skip (txt.get (st.i + 1))).i = st.i + 1 :=
    dispatch_i _
  have hrd : (dispatch qSize e args (st.read st.i).skip (txt.get (st.i + 1))).reads =
      (st.i + 1) :: st.i :: st.reads := dispatch_reads _
  have hap : (dispatch qSize e args (st.read st.i).skip (txt.get (st.i + 1))).ap ≤ st.ap + 1 :=
    dispatch_ap _
  generalize dispatch qSize e args (st.read st.i).skip (txt.get (st.i + 1)) = X at hd hi hrd hap
  refine ⟨fun hx => ?_, fun _ => ?_, ?_, ?_⟩ <;> dsimp only
  · have := CStr.lt_of_get_ne_nul (hd hx)
    omega
  · omega
  · rw [hrd]
    simpa using ⟨hlt, hlt.le, h.reads⟩
  · rw [hi]
    omega

end Scanned

/-- Every run of the loop from a `Scanned` state ends within its fuel, with every read at most at
`strlen(txt)` and no more `va_arg` calls than directives. -/
theorem loop_scan : ∀ (fuel : Nat) {st : Prep}, Scanned txt fuel st →
    ∃ st', loop qSize e txt args fuel st = some st' ∧
      (∀ r ∈ st'.reads, r ≤ txt.chars.length) ∧ st'.ap ≤ directiveCount txt.chars := by
  intro fuel
  induction fuel with
  | zero => exact fun h => ⟨_, loop_err h.rep_of_zero 0, h.bounds⟩
  | succ f ih =>
    intro st h
    by_cases hr : st.rep = .ok
    case neg => exact ⟨st, loop_err hr _, h.bounds⟩
    by_cases hn : txt.get st.i = '\x00'
    case pos => exact ⟨_, loop_stop hr hn _, (h.read hr).bounds⟩
    by_cases hc : txt.get st.i = '%'
    case neg => exact loop_lit hr hc hn f ▸ ih (h.lit hr hc hn)
    by_cases hv : dbMaxParams ≤ st.v
    case pos => exact ⟨_, loop_brk hr hc hv f, (h.read hr).bounds⟩
    exact loop_dir hr hc (Nat.lt_of_not_le hv) f ▸ ih (h.dir hr hc)

/-- The compile phase on any template and any argument list: the loop stops by its test or its
`break` within the `strlen(txt) + 1` passes `prepare` gives it, reads `txt` only at indices up to
`strlen(txt)`, and makes no more `va_arg` calls than the template has directives. -/
theorem prepare_scan (qSize : Nat) (e : Endian) (txt : CStr) (args : List Arg) (q : Nat → Char) :
    ∃ st, prepare qSize e txt args q = some st ∧ (∀ r ∈ st.reads, r ≤ txt.chars.length) ∧
      st.ap ≤ directiveCount txt.chars := by
  obtain ⟨st, h, hr, ha⟩ := @loop_scan qSize e txt args _ _ (Scanned.init txt q)
  exact ⟨st.put ['\x00'], by rw [prepare, h]; rfl, hr, ha⟩

/-- The compile phase returns on every template. -/
theorem prepare_total (qSize : Nat) (e : Endian) (txt : CStr) (args : List Arg) (q : Nat → Char) :
    ∃ st, prepare qSize e txt args q = some st := by
  obtain ⟨st, h, -⟩ := @loop_scan qSize e txt args _ _ (Scanned.init txt q)
  exact ⟨st.put ['\x00'], by rw [prepare, h]; rfl⟩

/-! ### The bound of the buffer -/

/-- A run of the loop over literal characters copies each to `db->q[o++]`, with no test of the
room left in the buffer. -/
theorem loop_lits : ∀ (cs : List Char) (st : Prep) {rest : List Char} (n : Nat),
    st.rep = .ok → txt.chars.drop st.i = cs ++ rest → '%' ∉ cs →
    ∃ st', loop qSize e txt args (n + cs.length) st = loop qSize e txt args n st' ∧
      st'.rep = .ok ∧ st'.o = st.o + cs.length ∧ st'.v = st.v ∧ txt.chars.drop st'.i = rest
  | [], st, _, _, hr, hsrc, _ => ⟨st, rfl, hr, rfl, rfl, by simpa using hsrc⟩
  | c :: cs, st, rest, n, hr, hsrc, hp => by
    obtain ⟨hget, hdrop⟩ := CStr.drop_eq_cons hsrc
    have hc : c ≠ '%' := fun h => hp (h ▸ List.mem_cons_self _ _)
    have hlt : st.i < txt.chars.length := by
      by_contra hge
      rw [List.drop_eq_nil_of_le (Nat.le_of_not_lt hge)] at hsrc
      simp at hsrc
    have hn : c ≠ '\x00' := hget ▸ CStr.get_ne_nul hlt
    obtain ⟨st', e', hr', ho', hv', hi'⟩ := loop_lits cs
      { (st.read st.i).put [txt.get st.i] with o := st.o + 1, i := st.i + 1 } n hr hdrop
      (fun h => hp (List.mem_cons_of_mem _ h))
    refine ⟨st', ?_, hr', by simp [ho', Prep.put, Prep.read]; omega, hv', hi'⟩
    rw [List.length_cons, ← Nat.add_assoc, loop_lit hr (hget ▸ hc) (hget ▸ hn), e']

/-- The compile phase of a template with no `'%'`: every character is copied, whatever the size of
the buffer, and the terminating NUL goes to `db->q[strlen(txt)]`. -/
theorem prepare_literal (qSize : Nat) (e : Endian) (txt : CStr) (args : List Arg)
    (q : Nat → Char) (hlit : '%' ∉ txt.chars) :
    ∃ st, prepare qSize e txt args q = some st ∧ st.rep = .ok ∧ txt.chars.length ∈ st.writes := by
  obtain ⟨st, hrun, hr, ho, -, hi⟩ := @loop_lits qSize e txt args txt.chars (Prep.init q) [] 1 rfl
    (by simp [Prep.init]) hlit
  rw [Nat.add_comm, loop_stop hr (CStr.get_of_drop_nil hi)] at hrun
  refine ⟨(st.read st.i).put ['\x00'], by rw [prepare, hrun]; rfl, hr, ?_⟩
  simp [Prep.put, Prep.read, ho, Prep.init]

/-- A `'%'` followed by a character that is not a directive, with no `'%'` before it: the compile
phase copies what comes before and fails there with `DB_R_ERR`, whatever the buffer's size. -/
theorem prepare_rejects (qSize : Nat) (e : Endian) (txt : CStr) (args : List Arg) (q : Nat → Char)
    {pre post : List Char} {d : Char} (htxt : txt.chars = pre ++ '%' :: d :: post)
    (hpre : '%' ∉ pre) (hd : d ∉ ['a', 'b', 'u', 'U', 'S', 's', 't']) :
    ∃ st, prepare qSize e txt args q = some st ∧ st.rep = .err := by
  obtain ⟨st, hrun, hr, -, hv, hi⟩ := @loop_lits qSize e txt args pre (Prep.init q)
    ('%' :: d :: post) (post.length + 3) rfl (by simpa [Prep.init] using htxt) hpre
  obtain ⟨hget, hdrop⟩ := CStr.drop_eq_cons hi
  obtain ⟨hget', -⟩ := CStr.drop_eq_cons hdrop
  have hlen : txt.chars.length + 1 = post.length + 2 + 1 + pre.length := by
    rw [htxt]; simp; omega
  rw [show post.length + 3 = post.length + 2 + 1 from rfl,
    loop_dir hr hget (by rw [hv]; exact Nat.zero_lt_succ _)] at hrun
  simp only [hget', dispatch_unknown hd] at hrun
  rw [loop_err (n := post.length + 2)] at hrun
  · exact ⟨_, by rw [prepare, hlen, hrun]; rfl, rfl⟩
  · simp

/-- `n` characters `x`. -/
def fillQuery (n : Nat) : CStr := ⟨List.replicate n 'x', by simp⟩

/-- A template of `sizeof db->q` characters `x`: the compile phase writes at `db->q[sizeof db->q]`,
one past the end of the buffer, and still ends with `DB_R_OK`. -/
theorem prepare_fill_writes_past_buffer (qSize : Nat) (e : Endian) (args : List Arg)
    (q : Nat → Char) :
    ∃ st, prepare qSize e (fillQuery qSize) args q = some st ∧ st.rep = .ok ∧ qSize ∈ st.writes := by
  simpa [fillQuery] using prepare_literal qSize e (fillQuery qSize) args q (by simp [fillQuery])

/-! ### The bound of the parameters -/

/-- A `'%'` after `DB_MAX_PARAMS` bound directives leaves the loop by `break` with `rep` still
`DB_R_OK`: the statement is the rendering of the part before it. -/
theorem prepare_truncates (e : Endian) (txt : CStr) (args : List Arg) (q : Nat → Char)
    (pre : List Seg) (post : List Char) (more : List Arg)
    (htxt : txt.chars = pre.flatMap Seg.src ++ '%' :: post)
    (hargs : args = pre.filterMap Seg.arg? ++ more) (hplain : ∀ s ∈ pre, s.Plain)
    (hbound : countBound pre = dbMaxParams) (hdir : countDirectives pre ≤ dbMaxParams)
    (hfit : (render pre 0).length < qSize) :
    ∃ st, prepare qSize e txt args q = some st ∧ st.rep = .ok ∧
      st.stmt e = ⟨render pre 0, params pre⟩ := by
  have hlen : pre.length + 1 ≤ txt.chars.length := by
    have := length_le_flatMap_src pre
    rw [htxt, List.length_append, List.length_cons]
    omega
  obtain ⟨st, hrun, h, hend, -⟩ := @loop_segs qSize e txt args pre [] (Prep.init q) ('%' :: post)
    more (txt.chars.length - pre.length + 1) (Compiled.init e q) hplain
    (by simpa [Prep.init] using htxt) (by simpa [Prep.init] using hargs) (by simpa using hdir)
    (by simpa using hfit)
  simp only [List.nil_append] at h
  obtain ⟨hget, -⟩ := CStr.drop_eq_cons hend
  rw [show txt.chars.length - pre.length + 1 + pre.length = txt.chars.length + 1 by omega,
    loop_brk h.rep hget (by rw [h.v, hbound])] at hrun
  exact ⟨{ st.read st.i with i := st.i + 1 }.put ['\x00'], by rw [prepare, hrun]; rfl, h.rep,
    (h.read st.i).incr.stmt (nul_not_mem_render pre hplain 0)⟩

/-! ### Where the compile phase writes -/

/-- While `o` is inside `db->q`, so is every write so far. -/
def Prep.InBuf (qSize : Nat) (st : Prep) : Prop := st.o < qSize → ∀ k ∈ st.writes, k < qSize

namespace Prep.InBuf

/-- An `snprintf` writes past the buffer only from an `o` already past it: `sizeof db->q - o`
bounds what it writes. -/
theorem emit (h : st.InBuf qSize) (s : List Char) : (st.emit qSize s).InBuf qSize := by
  intro ho k hk
  rw [emit_o] at ho
  rcases emit_writes qSize s k hk with hk | ⟨-, h₂, h₃⟩
  · exact h (by split_ifs at ho <;> omega) k hk
  · split_ifs at ho
    · omega
    · rw [sizeLeft_of_le ho.le] at h₃
      omega

theorem dispatch (h : st.InBuf qSize) (d : Char) : (dispatch qSize e args st d).InBuf qSize := by
  rcases @dispatch_emit qSize e args st d with hd | ⟨st₁, s, ho, hw, hd⟩
  · rw [hd]; exact h
  · rw [hd]
    exact InBuf.emit (fun ho' => by rw [hw]; exact h (ho ▸ ho')) s

/-- A literal character is written at `o`, which then moves past it. -/
theorem lit (h : st.InBuf qSize) (c : Char) :
    ({ st.put [c] with o := st.o + 1 } : Prep).InBuf qSize := by
  intro ho k hk
  change st.o + 1 < qSize at ho
  simp only [put, List.mem_append, List.mem_range', List.length_singleton] at hk
  rcases hk with ⟨i, hi, rfl⟩ | hk
  · omega
  · exact h (by omega) k hk

end Prep.InBuf

/-- The compile phase on every template and every argument list writes only inside `db->q`
exactly when the NUL it ends with, at `db->q[o]`, lands inside it: `o` only runs past the buffer
by the copy of literal characters, which has no bound, and every `snprintf` is bounded by what is
left. -/
theorem prepare_writes_in_buffer (qSize : Nat) (e : Endian) (txt : CStr) (args : List Arg)
    (q : Nat → Char) :
    ∃ st, prepare qSize e txt args q = some st ∧ ((∀ k ∈ st.writes, k < qSize) ↔ st.o < qSize) := by
  obtain ⟨st, h, -⟩ := @loop_scan qSize e txt args _ _ (Scanned.init txt q)
  have hin : st.InBuf qSize := loop_induct (Prep.InBuf qSize) (fun _ _ h => h)
    (fun st _ _ _ h => h.lit (txt.get st.i)) (fun st _ _ _ h => @Prep.InBuf.dispatch qSize e args (st.read st.i).skip h _) (fun _ _ _ h => h)
    _ (fun _ k hk => by simp [Prep.init] at hk) h
  refine ⟨st.put ['\x00'], by rw [prepare, h]; rfl, fun hw => hw st.o (by simp [Prep.put]),
    fun ho k hk => ?_⟩
  simp only [Prep.put, List.mem_append, List.mem_range', List.length_singleton] at hk
  rcases hk with ⟨i, hi, rfl⟩ | hk
  · change st.o < qSize at ho
    omega
  · exact hin ho k hk

end DbPsql
