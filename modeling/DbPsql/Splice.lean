import DbPsql.Limits

/-! What the text of a statement depends on.  `db_query` splices the arguments of `%s` and `%t`
into the text it builds in `db->q`, and binds those of `%u %U %S %a %b` as parameters of
`PQexecParams`, writing only `$n` into the text.  So the text and the compile phase's reply depend
on the template and the spliced arguments only (`prepare_sql_of_spliced`): an argument bound as a
parameter, whatever it holds, changes no character of the SQL the server receives.  The proof runs
the compile loop with two argument lists from one state and keeps the two states equal but for the
parameters' values. -/

namespace DbPsql


/-- For each `va_arg` call of the compile loop, in order, whether the directive that makes it
splices its argument into the text (`%s`, `%t`) rather than binding it as a parameter; the scan
stops at the first `'%'` the loop fails on. -/
def splices : List Char → List Bool
  | [] => []
  | c :: cs =>
    if c ≠ '%' then splices cs
    else match cs with
      | [] => []
      | d :: ds =>
        if d = 's' ∨ d = 't' then true :: splices ds
        else if d = 'a' ∨ d = 'b' ∨ d = 'u' ∨ d = 'U' ∨ d = 'S' then false :: splices ds
        else []

theorem splices_lit {c : Char} (hc : c ≠ '%') (cs : List Char) : splices (c :: cs) = splices cs := by
  cases cs <;> simp only [splices, if_pos hc]

/-- A directive the loop passes makes one `va_arg` call, splicing or binding. -/
theorem splices_dir {d : Char} (hd : d ∈ ['a', 'b', 'u', 'U', 'S', 's', 't']) (cs : List Char) :
    splices ('%' :: d :: cs) = decide (d = 's' ∨ d = 't') :: splices cs := by
  simp only [List.mem_cons, List.mem_singleton, List.not_mem_nil, or_false] at hd
  rcases hd with rfl | rfl | rfl | rfl | rfl | rfl | rfl <;> rfl


namespace Prep

/-- `st'` is `st` with other parameter values: the state of a run with other arguments bound as
parameters. -/
def SameText (st st' : Prep) : Prop :=
  ∃ vals t32 t64, st' = { st with vals := vals, t32 := t32, t64 := t64 }

namespace SameText

variable {st st' : Prep}

theorem init (q : Nat → Char) : SameText (Prep.init q) (Prep.init q) := ⟨_, _, _, rfl⟩

/-- The two states agree on everything but the parameter values. -/
theorem eq_of {α : Type} (h : SameText st st') (f : Prep → α)
    (hf : ∀ s vals t32 t64, f { s with vals := vals, t32 := t32, t64 := t64 } = f s) :
    f st' = f st := by
  obtain ⟨vals, t32, t64, rfl⟩ := h
  exact hf st vals t32 t64

/-- A step that leaves the parameter values alone keeps the relation. -/
theorem map (h : SameText st st') (f : Prep → Prep)
    (hf : ∀ s vals t32 t64, f { s with vals := vals, t32 := t32, t64 := t64 } =
      { f s with vals := vals, t32 := t32, t64 := t64 }) : SameText (f st) (f st') := by
  obtain ⟨vals, t32, t64, rfl⟩ := h
  exact ⟨vals, t32, t64, hf st vals t32 t64⟩

theorem emit (h : SameText st st') (qSize : Nat) (s : List Char) :
    SameText (st.emit qSize s) (st'.emit qSize s) :=
  h.map (·.emit qSize s) fun _ _ _ _ => by dsimp only [Prep.emit]; split_ifs <;> rfl

/-- Parameter `v` bound to a value in each run, the same type, length and format. -/
theorem setParam (h : SameText st st') (oid : Oid) (val val' : Val) (len fmt : Nat) :
    SameText (st.setParam oid val len fmt) (st'.setParam oid val' len fmt) := by
  obtain ⟨vals, t32, t64, rfl⟩ := h
  exact ⟨_, _, _, rfl⟩

/-- A directive bound as a parameter, whatever its argument in each run. -/
theorem textParam (h : SameText st st') (qSize : Nat) (args args' : List Arg) (oid : Oid) :
    SameText (st.textParam qSize args oid) (st'.textParam qSize args' oid) := by
  obtain ⟨vals, t32, t64, rfl⟩ := h
  exact (setParam ⟨vals, t32, t64, rfl⟩ _ _ _ _ _).emit _ _

theorem uint32Param (h : SameText st st') (qSize : Nat) (e : Endian) (args args' : List Arg) :
    SameText (st.uint32Param qSize e args) (st'.uint32Param qSize e args') := by
  obtain ⟨vals, t32, t64, rfl⟩ := h
  exact (setParam ⟨vals, _, t64, rfl⟩ _ _ _ _ _).emit _ _

theorem uint64Param (h : SameText st st') (qSize : Nat) (e : Endian) (args args' : List Arg) :
    SameText (st.uint64Param qSize e args) (st'.uint64Param qSize e args') := by
  obtain ⟨vals, t32, t64, rfl⟩ := h
  exact (setParam ⟨vals, t32, _, rfl⟩ _ _ _ _ _).emit _ _

/-- A pass of the `switch`: a directive that splices reads the same argument in both runs. -/
theorem dispatch (h : SameText st st') (qSize : Nat) (e : Endian) {args args' : List Arg}
    {d : Char} (hs : d = 's' ∨ d = 't' → st.arg args = st'.arg args') :
    SameText (DbPsql.dispatch qSize e args st d) (DbPsql.dispatch qSize e args' st' d) := by
  have hfail : SameText { st with rep := .err } { st' with rep := .err } :=
    h.map (fun s => { s with rep := .err }) fun _ _ _ _ => rfl
  have hnext : SameText st.nextArg st'.nextArg := h.map Prep.nextArg fun _ _ _ _ => rfl
  unfold DbPsql.dispatch
  split
  · exact hfail
  · exact h.textParam _ _ _ _
  · exact h.textParam _ _ _ _
  · exact h.uint32Param _ _ _ _
  · exact h.uint64Param _ _ _ _
  · exact h.textParam _ _ _ _
  · rw [hs (.inl rfl)]; exact hnext.emit _ _
  · rw [hs (.inr rfl)]; exact hnext.emit _ _
  · exact hfail

end SameText

end Prep


/-- A dispatch that leaves `rep` at `DB_R_OK` was on a directive. -/
theorem dispatch_directive {qSize : Nat} {e : Endian} {args : List Arg} {st : Prep} {d : Char}
    (h : (dispatch qSize e args st d).rep = .ok) : d ∈ ['a', 'b', 'u', 'U', 'S', 's', 't'] := by
  by_contra hd
  rw [dispatch_unknown hd] at h
  cases h

/-- At the loop test, while `rep` is `DB_R_OK`, the `va_arg` calls left to make are those the rest
of the template makes. -/
def Aligned (txt : CStr) (st : Prep) : Prop :=
  st.rep = .ok → (splices txt.chars).drop st.ap = splices (txt.chars.drop st.i)

section Runs

variable {qSize : Nat} {e : Endian} {txt : CStr} {args args' : List Arg}

/-- Two runs of the compile loop whose argument lists agree wherever the template splices one:
both end, or neither does, in states that differ only in the parameter values. -/
theorem loop_sameText (hargs : ∀ k, (splices txt.chars).getD k false = true →
      args.getD k (.str CStr.empty) = args'.getD k (.str CStr.empty)) :
    ∀ (fuel : Nat) {st st' : Prep}, st.SameText st' → Aligned txt st →
      Option.Rel Prep.SameText (loop qSize e txt args fuel st) (loop qSize e txt args' fuel st')
  | fuel, st, st', h, hal => by
    have hr' : st'.rep = st.rep := h.eq_of Prep.rep fun _ _ _ _ => rfl
    have hi : st'.i = st.i := h.eq_of Prep.i fun _ _ _ _ => rfl
    by_cases hr : st.rep = .ok
    case neg =>
      rw [loop_err hr, loop_err (show st'.rep ≠ .ok from hr' ▸ hr)]
      exact .some h
    by_cases hn : txt.get st.i = '\x00'
    case pos =>
      rw [loop_stop hr hn, loop_stop (hr'.trans hr) (hi ▸ hn), hi]
      exact .some (h.map (·.read st.i) fun _ _ _ _ => rfl)
    match fuel with
    | 0 =>
      rw [loop_out hr hn, loop_out (hr'.trans hr) (hi ▸ hn)]
      exact .none
    | f + 1 =>
      have ho : st'.o = st.o := h.eq_of Prep.o fun _ _ _ _ => rfl
      have hv : st'.v = st.v := h.eq_of Prep.v fun _ _ _ _ => rfl
      have hap : st'.ap = st.ap := h.eq_of Prep.ap fun _ _ _ _ => rfl
      have hdrop := CStr.drop_of_get_ne_nul hn
      by_cases hc : txt.get st.i = '%'
      case neg =>
        rw [loop_lit hr hc hn, loop_lit (hr'.trans hr) (hi ▸ hc) (hi ▸ hn), hi, ho]
        refine loop_sameText hargs f (h.map
          (fun s => { (s.read st.i).put [txt.get st.i] with o := st.o + 1, i := st.i + 1 })
          fun _ _ _ _ => rfl) fun _ => ?_
        show (splices txt.chars).drop st.ap = _
        rw [hal hr, hdrop, splices_lit hc]
      by_cases hmax : dbMaxParams ≤ st.v
      case pos =>
        rw [loop_brk hr hc hmax, loop_brk (hr'.trans hr) (hi ▸ hc) (hv ▸ hmax), hi]
        exact .some (h.map (fun s => { s.read st.i with i := st.i + 1 }) fun _ _ _ _ => rfl)
      rw [loop_dir hr hc (Nat.lt_of_not_le hmax),
        loop_dir (hr'.trans hr) (hi ▸ hc) (hv ▸ Nat.lt_of_not_le hmax), hi]
      -- the directive's letter, and the rest of the template after it
      generalize hd : txt.get (st.i + 1) = d
      have hrest : ∀ hd' : d ∈ ['a', 'b', 'u', 'U', 'S', 's', 't'],
          (splices txt.chars).drop st.ap =
            decide (d = 's' ∨ d = 't') :: splices (txt.chars.drop (st.i + 1 + 1)) := fun hd' => by
        have hnul : txt.get (st.i + 1) ≠ '\x00' := by
          rw [hd]; rintro rfl; simp at hd'
        rw [hal hr, hdrop, hc, CStr.drop_of_get_ne_nul hnul, hd, splices_dir hd']
      refine loop_sameText hargs f
        (Prep.SameText.map ?_ (fun s => { s with i := s.i + 1 }) fun _ _ _ _ => rfl) fun hrep => ?_
      · refine (h.map (fun s => (s.read st.i).skip) fun _ _ _ _ => rfl).dispatch qSize e fun hs => ?_
        have hsp := hrest (by rcases hs with rfl | rfl <;> simp)
        have hk : (splices txt.chars).getD st.ap false = true := by
          rw [List.getD_eq_getElem?_getD, ← List.head?_drop, hsp]
          simpa using hs
        simpa [Prep.arg, Prep.read, Prep.skip, hap] using hargs st.ap hk
      · have hd' := dispatch_directive hrep
        dsimp only
        rw [dispatch_i, dispatch_ap_directive hd']
        show (splices txt.chars).drop (st.ap + 1) = splices (txt.chars.drop (st.i + 1 + 1))
        rw [← List.tail_drop, hrest hd']
        rfl

end Runs


/-- The compile phase of `db_query` on every template: the SQL text it hands to `PQexecParams`
depends on the template and on the arguments it splices into the text (`%s`, `%t`) only.  Two
argument lists that agree wherever the template splices one give the same reply, the same text and
parameters of the same types, lengths and formats: an argument bound as a parameter (`%u %U %S
%a %b`) reaches the parameters' values and nothing else. -/
theorem prepare_sql_of_spliced (qSize : Nat) (e : Endian) (txt : CStr) (args args' : List Arg)
    (q : Nat → Char) (hargs : ∀ k, (splices txt.chars).getD k false = true →
      args.getD k (.str CStr.empty) = args'.getD k (.str CStr.empty)) :
    ∃ st st', prepare qSize e txt args q = some st ∧ prepare qSize e txt args' q = some st' ∧
      st'.rep = st.rep ∧ (st'.stmt e).sql = (st.stmt e).sql ∧
      (st'.stmt e).params.map (fun p => (p.typ, p.len, p.fmt)) =
        (st.stmt e).params.map (fun p => (p.typ, p.len, p.fmt)) := by
  obtain ⟨st, hst⟩ := prepare_total qSize e txt args q
  have h := @loop_sameText qSize e txt args args' hargs (txt.chars.length + 1) _ _
    (Prep.SameText.init q) fun _ => rfl
  unfold prepare at hst ⊢
  generalize loop qSize e txt args (txt.chars.length + 1) (Prep.init q) = r at h hst
  generalize loop qSize e txt args' (txt.chars.length + 1) (Prep.init q) = r' at h
  cases h with
  | none => cases hst
  | some h =>
    rw [Option.map_some', Option.some.injEq] at hst
    subst hst
    have ht := h.map (·.put ['\x00']) fun _ _ _ _ => rfl
    refine ⟨_, _, rfl, rfl, ht.eq_of Prep.rep fun _ _ _ _ => rfl,
      ht.eq_of (fun s => (s.stmt e).sql) fun _ _ _ _ => rfl,
      ht.eq_of (fun s => (s.stmt e).params.map fun p => (p.typ, p.len, p.fmt)) fun _ _ _ _ => ?_⟩
    simp only [Prep.stmt, List.map_map]
    rfl

/-- The spec's query with a name argument written to break out of a quoted string. -/
def injectionArgs : List Arg := [.uint32 7, .str ⟨"alice'; DROP TABLE t; --".toList, by decide⟩]

theorem prepare_sql_of_spliced_alice :
    splices aliceQuery.chars = [false, false] ∧
      ∃ st st', prepare 64 .little aliceQuery aliceArgs (fun _ => '\x00') = some st ∧
        prepare 64 .little aliceQuery injectionArgs (fun _ => '\x00') = some st' ∧
        st'.rep = st.rep ∧ (st'.stmt .little).sql = (st.stmt .little).sql ∧
        (st'.stmt .little).params.map (fun p => (p.typ, p.len, p.fmt)) =
          (st.stmt .little).params.map (fun p => (p.typ, p.len, p.fmt)) :=
  have hs : splices aliceQuery.chars = [false, false] := by decide
  ⟨hs, prepare_sql_of_spliced 64 .little aliceQuery aliceArgs injectionArgs _ fun k hk => by
    rw [hs] at hk
    rcases k with _ | _ | k <;> simp at hk⟩

end DbPsql
