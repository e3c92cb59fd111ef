import DbPsql.Loop
import DbPsql.Template

/-! The compile loop refines the reference rendering.  `Compiled e done st` says that the loop's
state `st` is the one the segments `done` lead to; each pass of the loop over the source of one
more segment keeps it (`loop_seg`), and by induction so does every run over a list of segments
(`loop_segs`). -/

namespace DbPsql

/-- `st` is the state of the compile loop after it compiled the segments `done`: `rep` is still
`DB_R_OK`, `db->q` holds their rendering below `o`, and the parameters so far are theirs, each
integer parameter pointing at a slot below the slot counters. -/
structure Compiled (e : Endian) (done : List Seg) (st : Prep) : Prop where
  rep : st.rep = .ok
  o : st.o = (render done 0).length
  q : ∀ k < st.o, (render done 0)[k]? = some (st.q k)
  v : st.v = countBound done
  params : (List.range st.v).map (st.param e) = params done
  slot32 : ∀ k j, st.vals k = .t32 j → j < st.t32s
  slot64 : ∀ k j, st.vals k = .t64 j → j < st.t64s

variable {qSize : Nat} {e : Endian} {txt : CStr} {args : List Arg} {st : Prep} {done : List Seg}

theorem Compiled.init (e : Endian) (q : Nat → Char) : Compiled e [] (Prep.init q) :=
  ⟨rfl, rfl, by simp [Prep.init], rfl, rfl, by simp [Prep.init], by simp [Prep.init]⟩

/-- Writing `out`, and whatever follows it, at `o` extends the rendering held below `o` by
`out`. -/
theorem q_put (st : Prep) {r : List Char} (out tail : List Char) (ho : st.o = r.length)
    (hq : ∀ k < st.o, r[k]? = some (st.q k)) :
    ∀ k < st.o + out.length, (r ++ out)[k]? = some ((st.put (out ++ tail)).q k) := by
  intro k hk
  by_cases hlt : k < st.o
  · rw [List.getElem?_append_left (ho ▸ hlt), Prep.put_q_lt _ hlt, hq k hlt]
  · rw [List.getElem?_append_right (by omega), Prep.put_q_of_le _ (by omega) (by simp; omega),
      List.getD_eq_getElem?_getD, List.getElem?_append_left (by omega), ho,
      List.getElem?_eq_getElem (by omega)]
    rfl

/-- A field of the parameters that the writes into `db->q` leave alone. -/
theorem param_put_o (cs : List Char) (o : Nat) (k : Nat) :
    ({ st.put cs with o := o } : Prep).param e k = st.param e k := rfl

/-- A copied literal. -/
theorem Compiled.lit (h : Compiled e done st) (c : Char) (j i : Nat) :
    Compiled e (done ++ [.lit c]) { (st.read j).put [c] with o := st.o + 1, i := i } where
  rep := h.rep
  o := by simp [render_snoc, Seg.render, h.o, Prep.put, Prep.read]
  q := by
    have := q_put (st.read j) [c] [] h.o h.q
    simpa [render_snoc, Seg.render] using this
  v := by simpa [countBound_snoc, Seg.bound] using h.v
  params := by simpa [params_snoc, Seg.param?] using h.params
  slot32 := h.slot32
  slot64 := h.slot64

theorem Seg.param?_of_not_bound {s : Seg} (hb : s.bound = false) : s.param? = none := by
  cases s <;> simp_all [Seg.bound, Seg.param?]

/-- The text of `%s` or `%t`, when it fits, extends the rendering and binds nothing. -/
theorem Compiled.emit (h : Compiled e done st) {s : Seg} (hb : s.bound = false)
    (hfit : st.o + (s.render (countBound done)).length < qSize) :
    Compiled e (done ++ [s]) (st.emit qSize (s.render (countBound done))) := by
  rw [Prep.emit_of_fits hfit]
  refine ⟨h.rep, ?_, ?_, ?_, ?_, h.slot32, h.slot64⟩
  · simp [render_snoc, h.o]
  · simpa [render_snoc] using q_put st _ ['\x00'] h.o h.q
  · simpa [countBound_snoc, hb] using h.v
  · simpa [params_snoc, Seg.param?_of_not_bound hb] using h.params

/-- A property of every slot holds after one slot is set to a value that has it. -/
theorem forall_update {α β : Type} [DecidableEq α] {f : α → β} {a : α} {b : β} {P : β → Prop}
    (hf : ∀ x, P (f x)) (hb : P b) : ∀ x, P (Function.update f a b x) := fun x => by
  by_cases hx : x = a
  · rwa [hx, Function.update_same]
  · rw [Function.update_noteq hx]
    exact hf x

/-- A bound directive, when its placeholder fits: parameter `v` is `(oid, val, len, fmt)`, and
the placeholder extends the rendering. -/
theorem Compiled.bindParam (h : Compiled e done st) {s : Seg} {oid : Oid} {val : Val}
    {len fmt : Nat} (hb : s.bound = true) (hp : s.param? = some ⟨oid, st.deref e val, len, fmt⟩)
    (h32 : ∀ j, val = .t32 j → j < st.t32s) (h64 : ∀ j, val = .t64 j → j < st.t64s)
    (hfit : st.o + (s.render (countBound done)).length < qSize) :
    Compiled e (done ++ [s]) (st.bindParam qSize oid val len fmt) := by
  have hr : s.render (countBound done) = placeholder (st.v + 1) := by
    rw [h.v]
    cases s <;> simp_all [Seg.bound, Seg.render]
  rw [Prep.bindParam, Prep.emit_of_fits (by simpa [Prep.setParam, ← hr] using hfit)]
  have hkeep : ∀ k ∈ List.range st.v, (st.setParam oid val len fmt).param e k = st.param e k := by
    intro k hk
    have hne : k ≠ st.v := Nat.ne_of_lt (List.mem_range.mp hk)
    simp [Prep.setParam, Prep.param, Prep.deref, Function.update_noteq hne]
  refine ⟨h.rep, ?_, ?_, ?_, ?_, ?_, ?_⟩
  · simp [Prep.setParam, Prep.put, render_snoc, h.o, hr]
  · simpa [render_snoc, hr] using
      q_put (st.setParam oid val len fmt) _ ['\x00'] h.o h.q
  · simp [Prep.setParam, Prep.put, countBound_snoc, hb, h.v]
  · show (List.range (st.v + 1)).map ((st.setParam oid val len fmt).param e) = _
    rw [params_snoc, hp, ← h.params, List.range_succ, List.map_append, List.map_congr_left hkeep]
    simp [Prep.setParam, Prep.param, Prep.deref]
  · exact forall_update (P := fun x : Val => ∀ j, x = .t32 j → j < st.t32s) h.slot32 h32
  · exact forall_update (P := fun x : Val => ∀ j, x = .t64 j → j < st.t64s) h.slot64 h64

theorem Compiled.nextArg (h : Compiled e done st) : Compiled e done st.nextArg :=
  ⟨h.rep, h.o, h.q, h.v, h.params, h.slot32, h.slot64⟩

theorem Compiled.read (h : Compiled e done st) (j : Nat) : Compiled e done (st.read j) :=
  ⟨h.rep, h.o, h.q, h.v, h.params, h.slot32, h.slot64⟩

theorem Compiled.skip (h : Compiled e done st) (j : Nat) : Compiled e done (st.read j).skip :=
  ⟨h.rep, h.o, h.q, h.v, h.params, h.slot32, h.slot64⟩

theorem Compiled.incr (h : Compiled e done st) : Compiled e done { st with i := st.i + 1 } :=
  ⟨h.rep, h.o, h.q, h.v, h.params, h.slot32, h.slot64⟩

/-- A write to the next free 32-bit slot changes no parameter bound so far. -/
theorem Compiled.setT32 (h : Compiled e done st) (y : UInt32) :
    Compiled e done { st with t32 := Function.update st.t32 st.t32s y, t32s := st.t32s + 1 } := by
  refine ⟨h.rep, h.o, h.q, h.v, ?_, fun k j hk => Nat.lt_succ_of_lt (h.slot32 k j hk), h.slot64⟩
  rw [← h.params]
  refine List.map_congr_left fun k _ => ?_
  cases hv : st.vals k with
  | t32 j => simp [Prep.param, Prep.deref, hv, Function.update_noteq (Nat.ne_of_lt (h.slot32 k j hv))]
  | _ => simp [Prep.param, Prep.deref, hv]

/-- A write to the next free 64-bit slot changes no parameter bound so far. -/
theorem Compiled.setT64 (h : Compiled e done st) (y : UInt64) :
    Compiled e done { st with t64 := Function.update st.t64 st.t64s y, t64s := st.t64s + 1 } := by
  refine ⟨h.rep, h.o, h.q, h.v, ?_, h.slot32, fun k j hk => Nat.lt_succ_of_lt (h.slot64 k j hk)⟩
  rw [← h.params]
  refine List.map_congr_left fun k _ => ?_
  cases hv : st.vals k with
  | t64 j => simp [Prep.param, Prep.deref, hv, Function.update_noteq (Nat.ne_of_lt (h.slot64 k j hv))]
  | _ => simp [Prep.param, Prep.deref, hv]

/-- The directive `%d` read with its argument as the segment `s`, when its output fits: the
segment is compiled, one argument is used, and `i` stays. -/
theorem Compiled.directive (h : Compiled e done st) (args : List Arg) {d : Char} {s : Seg}
    (hs : Seg.directive d (st.arg args) = some s)
    (hfit : st.o + (s.render (countBound done)).length < qSize) :
    Compiled e (done ++ [s]) (dispatch qSize e args st d) ∧
      (dispatch qSize e args st d).ap = st.ap + 1 ∧ (dispatch qSize e args st d).i = st.i := by
  refine ⟨?_, dispatch_ap_directive (Seg.directive_letter hs), dispatch_i d⟩
  obtain ⟨x, rfl, ha, rfl⟩ | ⟨x, rfl, ha, rfl⟩ | ⟨t, ha, hd⟩ := Seg.directive_cases hs
  · refine (h.nextArg.setT32 (htonl e (st.arg args).asUInt32)).bindParam rfl ?_
      (by simp [Prep.nextArg]) (by simp) hfit
    simp [Seg.param?, Prep.deref, Prep.nextArg, ha, Arg.asUInt32, toNat_htonl, store_hton]
  · refine (h.nextArg.setT64 (htonll e (st.arg args).asUInt64)).bindParam rfl ?_
      (by simp) (by simp [Prep.nextArg]) hfit
    simp [Seg.param?, Prep.deref, Prep.nextArg, ha, Arg.asUInt64, toNat_htonll, store_hton]
  have htext : ∀ {s : Seg} {oid : Oid}, s.bound = true → s.param? = some ⟨oid, .text t, 0, 0⟩ →
      st.o + (s.render (countBound done)).length < qSize →
      Compiled e (done ++ [s]) (st.textParam qSize args oid) := fun hb hp hfit =>
    h.nextArg.bindParam hb (by simpa [Prep.deref, ha, Arg.asStr] using hp) (by simp) (by simp) hfit
  rcases hd with ⟨rfl, rfl⟩ | ⟨rfl, rfl⟩ | ⟨rfl, rfl⟩ | ⟨rfl, rfl⟩ | ⟨rfl, rfl⟩
  · exact htext rfl rfl hfit
  · exact htext rfl rfl hfit
  · exact htext rfl rfl hfit
  · simpa [dispatch, Seg.render, ha, Arg.asStr] using h.nextArg.emit (s := .rawInline t) rfl hfit
  · simpa [dispatch, Seg.render, ha, Arg.asStr] using h.nextArg.emit (s := .quotedInline t) rfl hfit

/-! ### Runs of the loop -/

/-- One pass of the loop over the source of one more segment keeps `Compiled`. -/
theorem loop_seg (h : Compiled e done st) {s : Seg} {rest : List Char} {more : List Arg}
    (hs : s.Plain) (hsrc : txt.chars.drop st.i = s.src ++ rest)
    (harg : args.drop st.ap = s.arg?.toList ++ more)
    (hv : s.isLit = false → countDirectives done < dbMaxParams)
    (hfit : s.isLit = false → (render (done ++ [s]) 0).length < qSize) (n : Nat) :
    ∃ st', loop qSize e txt args (n + 1) st = loop qSize e txt args n st' ∧
      Compiled e (done ++ [s]) st' ∧ txt.chars.drop st'.i = rest ∧ args.drop st'.ap = more := by
  cases hl : s.isLit
  · obtain ⟨d, a, hsrc', harg', hdir⟩ := Seg.directive_self hl
    rw [hsrc'] at hsrc
    rw [harg', Option.toList_some, List.singleton_append] at harg
    obtain ⟨h1, hsrc1⟩ := CStr.drop_eq_cons hsrc
    obtain ⟨h2, hsrc2⟩ := CStr.drop_eq_cons hsrc1
    obtain ⟨ha, harg2⟩ := getD_of_drop_eq_cons harg (Arg.str CStr.empty)
    have hv' : st.v < dbMaxParams :=
      h.v ▸ Nat.lt_of_le_of_lt (countBound_le_countDirectives done) (hv hl)
    have hfit' := hfit hl
    rw [render_snoc, List.length_append, ← h.o] at hfit'
    obtain ⟨hc, hap, hi⟩ := (h.skip st.i).directive args (d := d)
      (by show Seg.directive d (args.getD st.ap _) = some _; rw [ha]; exact hdir) hfit'
    rw [loop_dir h.rep h1 hv' n, h2]
    refine ⟨_, rfl, hc.incr, ?_, ?_⟩
    · show txt.chars.drop (_ + 1) = rest
      rw [hi]
      exact hsrc2
    · show args.drop _ = more
      rw [hap]
      exact harg2
  · cases s <;> simp [Seg.isLit] at hl
    obtain ⟨hget, hdrop⟩ := CStr.drop_eq_cons hsrc
    refine ⟨_, loop_lit h.rep (hget ▸ hs.1) (hget ▸ hs.2) n, hget ▸ h.lit _ st.i (st.i + 1),
      hdrop, by simpa [Seg.arg?] using harg⟩

theorem filterMap_arg_cons (s : Seg) (segs : List Seg) :
    (s :: segs).filterMap Seg.arg? = s.arg?.toList ++ segs.filterMap Seg.arg? := by
  cases h : s.arg? <;> simp [h]

/-- A run of the loop over the sources of a list of segments keeps `Compiled`, one pass per
segment, while there are at most `DB_MAX_PARAMS` directives and the rendering fits. -/
theorem loop_segs : ∀ (segs : List Seg) {done : List Seg} {st : Prep} {rest : List Char}
    {more : List Arg} (n : Nat), Compiled e done st → (∀ s ∈ segs, s.Plain) →
    txt.chars.drop st.i = segs.flatMap Seg.src ++ rest →
    args.drop st.ap = segs.filterMap Seg.arg? ++ more →
    countDirectives (done ++ segs) ≤ dbMaxParams → (render (done ++ segs) 0).length < qSize →
    ∃ st', loop qSize e txt args (n + segs.length) st = loop qSize e txt args n st' ∧
      Compiled e (done ++ segs) st' ∧ txt.chars.drop st'.i = rest ∧ args.drop st'.ap = more
  | [], _, st, _, _, _, h, _, hsrc, harg, _, _ =>
    ⟨st, rfl, by simpa using h, by simpa using hsrc, by simpa using harg⟩
  | s :: segs, done, st, rest, more, n, h, hp, hsrc, harg, hd, hfit => by
    have hsplit : done ++ s :: segs = (done ++ [s]) ++ segs := by simp
    rw [hsplit] at hd hfit ⊢
    have hd1 : s.isLit = false → countDirectives done < dbMaxParams := fun hl => by
      have hs : countDirectives [s] = 1 := by simp [countDirectives, hl]
      rw [countDirectives_append, countDirectives_append, hs] at hd
      omega
    have hfit1 : (render (done ++ [s]) 0).length < qSize := by
      rw [render_append, List.length_append] at hfit
      omega
    obtain ⟨st₁, e₁, h₁, hs₁, ha₁⟩ := loop_seg h (hp s (List.mem_cons_self _ _))
      (by simpa using hsrc) (by rw [harg, filterMap_arg_cons, List.append_assoc]) hd1
      (fun _ => hfit1) (n + segs.length)
    obtain ⟨st₂, e₂, h₂, hs₂, ha₂⟩ := loop_segs segs n h₁
      (fun s' hs' => hp s' (List.mem_cons_of_mem _ hs')) hs₁ ha₁ hd hfit
    exact ⟨st₂, by rw [List.length_cons, ← Nat.add_assoc, e₁, e₂], h₂, hs₂, ha₂⟩

theorem length_le_flatMap_src (segs : List Seg) : segs.length ≤ (segs.flatMap Seg.src).length := by
  induction segs with
  | nil => simp
  | cons s segs ih =>
    have := s.src_length_pos
    simp only [List.flatMap_cons, List.length_append, List.length_cons]
    omega

/-- The characters `f 0, …, f n` are the list `r` of length `n` and a NUL. -/
theorem map_range_succ {f : Nat → Char} {r : List Char}
    (h : ∀ k < r.length, r[k]? = some (f k)) (hlast : f r.length = '\x00') :
    (List.range (r.length + 1)).map f = r ++ ['\x00'] := by
  refine List.ext_getElem? fun k => ?_
  rcases Nat.lt_trichotomy k r.length with hk | rfl | hk
  · rw [List.getElem?_append_left hk, h k hk, List.getElem?_map, List.getElem?_range (by omega)]
    rfl
  · simp [hlast]
  · rw [List.getElem?_eq_none (by simp; omega), List.getElem?_eq_none (by simp; omega)]

/-- The NUL written after a compiled rendering: `db->q` holds the rendering and the NUL. -/
theorem Compiled.terminate (h : Compiled e done st) :
    (List.range ((render done 0).length + 1)).map (st.put ['\x00']).q =
      render done 0 ++ ['\x00'] := by
  refine map_range_succ (fun k hk => ?_) ?_
  · rw [Prep.put_q_lt _ (h.o ▸ hk)]
    exact h.q k (h.o ▸ hk)
  · rw [Prep.put_q_of_le _ (by rw [h.o]) (by simp [h.o])]
    simp [h.o]

/-- After the NUL, `PQexecParams` receives the compiled rendering, read up to its NUL, and the
compiled parameters. -/
theorem Compiled.stmt (h : Compiled e done st) (hnul : '\x00' ∉ render done 0) :
    (st.put ['\x00']).stmt e = ⟨render done 0, DbPsql.params done⟩ := by
  have hq : (List.range ((st.put ['\x00']).o + 1)).map (st.put ['\x00']).q =
      render done 0 ++ ['\x00'] := by
    rw [show (st.put ['\x00']).o = (render done 0).length from h.o]
    exact h.terminate
  have hw : ∀ c ∈ render done 0, decide (c ≠ '\x00') = true := fun c hc =>
    decide_eq_true fun hc' => hnul (hc' ▸ hc)
  simp only [Prep.stmt, hq, List.takeWhile_append_of_pos hw]
  simpa using h.params

/-- The compile phase of a template read by `instantiate`, with at most `DB_MAX_PARAMS` directives
and a rendering that fits: the loop ends in a state that has compiled every segment, and the NUL
follows. -/
theorem prepare_compiled (e : Endian) (txt : CStr) (args : List Arg) (q : Nat → Char)
    {segs : List Seg} (hseg : instantiate txt.chars args = some segs)
    (hcount : countDirectives segs ≤ dbMaxParams) (hfit : (render segs 0).length < qSize) :
    ∃ st, prepare qSize e txt args q = some (st.put ['\x00']) ∧ Compiled e segs st ∧
      ∀ s ∈ segs, s.Plain := by
  obtain ⟨hsrc, ⟨more, hargs⟩, hplain⟩ := instantiate_spec hseg txt.nul_free
  have hlen : segs.length ≤ txt.chars.length := hsrc ▸ length_le_flatMap_src segs
  obtain ⟨st, hrun, h, hend, -⟩ := @loop_segs qSize e txt args segs [] (Prep.init q) [] more
    (txt.chars.length + 1 - segs.length) (Compiled.init e q) hplain
    (by simpa [Prep.init] using hsrc) (by simpa [Prep.init] using hargs) (by simpa using hcount)
    (by simpa using hfit)
  rw [Nat.sub_add_cancel (by omega), loop_stop (by simpa using h.rep)
    (CStr.get_of_drop_nil hend)] at hrun
  simp only [List.nil_append] at h
  exact ⟨st.read st.i, by rw [prepare, hrun]; rfl, h.read st.i, hplain⟩

/-- The compile phase of `db_query` on a template whose every `'%'` is followed by one of
`u U S a b s t`, with arguments matching the directives in order, at most `DB_MAX_PARAMS`
directives and a reference rendering that fits in `db->q` with its NUL: it ends with `DB_R_OK`,
`db->q` holds the rendering and a NUL, `v` is the number of bound directives, and the parameters
are the encodings of their arguments, in order. -/
theorem prepare_correct (e : Endian) (txt : CStr) (args : List Arg) (q : Nat → Char)
    (segs : List Seg) (hseg : instantiate txt.chars args = some segs)
    (hcount : countDirectives segs ≤ dbMaxParams) (hfit : (render segs 0).length < qSize) :
    ∃ st, prepare qSize e txt args q = some st ∧ st.rep = .ok ∧
      (List.range ((render segs 0).length + 1)).map st.q = render segs 0 ++ ['\x00'] ∧
      st.v = countBound segs ∧ (List.range st.v).map (st.param e) = params segs := by
  obtain ⟨st, hrun, h, -⟩ := prepare_compiled e txt args q hseg hcount hfit
  exact ⟨_, hrun, h.rep, h.terminate, h.v, h.params⟩

/-- What `PQexecParams` receives after the compile phase of a well-formed template: its rendering
and its parameters. -/
theorem prepare_stmt (e : Endian) (txt : CStr) (args : List Arg) (q : Nat → Char)
    {segs : List Seg} (hseg : instantiate txt.chars args = some segs)
    (hcount : countDirectives segs ≤ dbMaxParams) (hfit : (render segs 0).length < qSize) :
    ∃ st, prepare qSize e txt args q = some st ∧ st.rep = .ok ∧
      st.stmt e = ⟨render segs 0, params segs⟩ := by
  obtain ⟨st, hrun, h, hplain⟩ := prepare_compiled e txt args q hseg hcount hfit
  exact ⟨_, hrun, h.rep, h.stmt (nul_not_mem_render segs hplain 0)⟩

/-- The statement a template denotes with its arguments when it compiles in a buffer of `qSize`
bytes: its reference rendering and its parameters. -/
def rendering (qSize : Nat) (txt : CStr) (args : List Arg) : Option Stmt :=
  (instantiate txt.chars args).bind fun segs =>
    if countDirectives segs ≤ dbMaxParams ∧ (render segs 0).length < qSize then
      some ⟨render segs 0, params segs⟩
    else none

theorem rendering_of_instantiate {txt : CStr} {args : List Arg} {segs : List Seg}
    (h : instantiate txt.chars args = some segs) (hcount : countDirectives segs ≤ dbMaxParams)
    (hfit : (render segs 0).length < qSize) :
    rendering qSize txt args = some ⟨render segs 0, params segs⟩ := by
  simp [rendering, h, hcount, hfit]

/-- The compile phase sends what the template denotes, whatever the buffer held before. -/
theorem prepare_of_rendering (e : Endian) {txt : CStr} {args : List Arg} (q : Nat → Char)
    {stmt : Stmt} (h : rendering qSize txt args = some stmt) :
    ∃ st, prepare qSize e txt args q = some st ∧ st.rep = .ok ∧ st.stmt e = stmt := by
  obtain ⟨segs, hseg, h⟩ := Option.bind_eq_some.mp h
  split_ifs at h with hc
  cases h
  exact prepare_stmt e txt args q hseg hc.1 hc.2

/-- A template with no `'%'` denotes itself, with no parameters, when it fits. -/
theorem rendering_literal {txt : CStr} (args : List Arg) (hlit : '%' ∉ txt.chars)
    (hfit : txt.chars.length < qSize) : rendering qSize txt args = some ⟨txt.chars, []⟩ := by
  have h := rendering_of_instantiate (instantiate_lits args hlit)
    (by rw [countDirectives_lits]; decide) (by rwa [render_lits])
  rwa [render_lits, params_lits] at h

/-- The template of the spec's scenario. -/
def aliceQuery : CStr := ⟨"SELECT id FROM t WHERE gw=%u AND name=%S".toList, by decide⟩

/-- The arguments of the spec's scenario: `7` and `"alice"`. -/
def aliceArgs : List Arg := [.uint32 7, .str ⟨"alice".toList, by decide⟩]

theorem prepare_correct_alice :
    let segs := (instantiate aliceQuery.chars aliceArgs).getD []
    instantiate aliceQuery.chars aliceArgs = some segs ∧ countDirectives segs ≤ dbMaxParams ∧
      (render segs 0).length < 64 ∧
      ∃ st, prepare 64 .little aliceQuery aliceArgs (fun _ => '\x00') = some st ∧ st.rep = .ok ∧
        (List.range ((render segs 0).length + 1)).map st.q = render segs 0 ++ ['\x00'] ∧
        st.v = countBound segs ∧ (List.range st.v).map (st.param .little) = params segs :=
  have h1 : instantiate aliceQuery.chars aliceArgs =
      some ((instantiate aliceQuery.chars aliceArgs).getD []) := by decide
  have h2 : countDirectives ((instantiate aliceQuery.chars aliceArgs).getD []) ≤ dbMaxParams := by
    decide
  have h3 : (render ((instantiate aliceQuery.chars aliceArgs).getD []) 0).length < 64 := by decide
  ⟨h1, h2, h3, prepare_correct .little aliceQuery aliceArgs _ _ h1 h2 h3⟩

end DbPsql
