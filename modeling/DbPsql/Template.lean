import DbPsql.Prepare

/-! The template language of `db_query` as its comment and the spec describe it, stated apart from
the loop that compiles it.  A template read with its arguments is a list of segments: literal
characters and directives with the argument each takes, the tagged parameter kinds of the spec.
`render` is the reference rendering (literal characters verbatim, the `k`-th bound directive as
`$k`, `%s` as its text and `%t` as its text in single quotes) and `params` the parameters in the
order of their placeholders. -/

namespace DbPsql

/-- A segment of a template read with its arguments. -/
inductive Seg
  | lit (c : Char)
  | int32 (x : UInt32)
  | int64 (x : UInt64)
  | text (s : CStr)
  | address (s : CStr)
  | block (s : CStr)
  | rawInline (s : CStr)
  | quotedInline (s : CStr)
  deriving DecidableEq

namespace Seg

/-- `%u %U %S %a %b`: the directives bound as parameters. -/
def bound : Seg → Bool
  | int32 _ | int64 _ | text _ | address _ | block _ => true
  | _ => false

/-- A literal character, as opposed to a directive. -/
def isLit : Seg → Bool
  | lit _ => true
  | _ => false

/-- The segment's text in the rendering when `k` bound parameters come before it. -/
def render (k : Nat) : Seg → List Char
  | lit c => [c]
  | rawInline s => s.chars
  | quotedInline s => '\'' :: s.chars ++ ['\'']
  | _ => placeholder (k + 1)

/-- The parameter a bound segment passes: type, bytes or text, length and format. -/
def param? : Seg → Option Param
  | int32 x => some ⟨int4Oid, .bytes (Endian.big.store 4 x.toNat), 4, 1⟩
  | int64 x => some ⟨int8Oid, .bytes (Endian.big.store 8 x.toNat), 8, 1⟩
  | text s => some ⟨textOid, .text s, 0, 0⟩
  | address s => some ⟨inetOid, .text s, 0, 0⟩
  | block s => some ⟨cidrOid, .text s, 0, 0⟩
  | _ => none

/-- The characters of the template the segment is read from. -/
def src : Seg → List Char
  | lit c => [c]
  | int32 _ => ['%', 'u']
  | int64 _ => ['%', 'U']
  | text _ => ['%', 'S']
  | address _ => ['%', 'a']
  | block _ => ['%', 'b']
  | rawInline _ => ['%', 's']
  | quotedInline _ => ['%', 't']

/-- The argument a directive takes. -/
def arg? : Seg → Option Arg
  | lit _ => none
  | int32 x => some (.uint32 x)
  | int64 x => some (.uint64 x)
  | text s | address s | block s | rawInline s | quotedInline s => some (.str s)

/-- A literal is neither a `'%'` nor a NUL. -/
def Plain : Seg → Prop
  | lit c => c ≠ '%' ∧ c ≠ '\x00'
  | _ => True

instance : DecidablePred Plain
  | lit c => inferInstanceAs (Decidable (c ≠ '%' ∧ c ≠ '\x00'))
  | int32 _ | int64 _ | text _ | address _ | block _ | rawInline _ | quotedInline _ => isTrue trivial

/-- The directive `%d` with its argument `a`, when they match. -/
def directive : Char → Arg → Option Seg
  | 'u', .uint32 x => some (int32 x)
  | 'U', .uint64 x => some (int64 x)
  | 'S', .str s => some (text s)
  | 'a', .str s => some (address s)
  | 'b', .str s => some (block s)
  | 's', .str s => some (rawInline s)
  | 't', .str s => some (quotedInline s)
  | _, _ => none

end Seg

/-- The reference rendering of segments with `k` bound parameters before them. -/
def render : List Seg → Nat → List Char
  | [], _ => []
  | s :: ss, k => s.render k ++ render ss (k + if s.bound then 1 else 0)

/-- The number of bound directives. -/
def countBound (ss : List Seg) : Nat := ss.countP Seg.bound

/-- The number of directives, bound or inline. -/
def countDirectives (ss : List Seg) : Nat := ss.countP fun s => !s.isLit

/-- The parameters of the bound directives, in order. -/
def params (ss : List Seg) : List Param := ss.filterMap Seg.param?

/-- A template read with its arguments, in order: `none` when a `'%'` is not followed by one of
`u U S a b s t`, or an argument does not match its directive or is missing.  Arguments past the
last directive are not read. -/
def instantiate : List Char → List Arg → Option (List Seg)
  | [], _ => some []
  | '%' :: d :: cs, a :: as => (Seg.directive d a).bind fun s => (s :: ·) <$> instantiate cs as
  | '%' :: _, _ => none
  | c :: cs, as => (Seg.lit c :: ·) <$> instantiate cs as

@[simp] theorem render_nil (k : Nat) : render [] k = [] := rfl

theorem render_append (ss ts : List Seg) (k : Nat) :
    render (ss ++ ts) k = render ss k ++ render ts (k + countBound ss) := by
  induction ss generalizing k with
  | nil => simp [countBound]
  | cons s ss ih =>
    have h : k + countBound (s :: ss) = (k + if s.bound then 1 else 0) + countBound ss := by
      simp only [countBound, List.countP_cons]
      omega
    rw [List.cons_append, render, render, ih, List.append_assoc, h]

theorem countBound_snoc (ss : List Seg) (s : Seg) :
    countBound (ss ++ [s]) = countBound ss + if s.bound then 1 else 0 := by
  simp [countBound, List.countP_append, List.countP_cons]

theorem render_snoc (ss : List Seg) (s : Seg) :
    render (ss ++ [s]) 0 = render ss 0 ++ s.render (countBound ss) := by
  simp [render_append, render]

theorem countDirectives_append (ss ts : List Seg) :
    countDirectives (ss ++ ts) = countDirectives ss + countDirectives ts :=
  List.countP_append _ _ _

theorem params_snoc (ss : List Seg) (s : Seg) :
    params (ss ++ [s]) = params ss ++ s.param?.toList := by
  cases h : s.param? <;> simp [params, List.filterMap_append, h]

/-! ### Literal characters -/

theorem render_lits (cs : List Char) (k : Nat) : render (cs.map .lit) k = cs := by
  induction cs <;> simp_all [render, Seg.render, Seg.bound]

theorem countBound_lits (cs : List Char) : countBound (cs.map .lit) = 0 := by
  simp [countBound, List.countP_eq_zero, Seg.bound]

theorem countDirectives_lits (cs : List Char) : countDirectives (cs.map .lit) = 0 := by
  simp [countDirectives, List.countP_eq_zero, Seg.isLit]

theorem params_lits (cs : List Char) : params (cs.map .lit) = [] := by
  simp [params, Seg.param?]

/-- A template with no `'%'` reads as its characters, whatever the arguments. -/
theorem instantiate_lits (as : List Arg) : ∀ {cs : List Char}, '%' ∉ cs →
    instantiate cs as = some (cs.map .lit)
  | [], _ => rfl
  | c :: cs, h => by
    have hc : c ≠ '%' := fun hc => h (hc ▸ List.mem_cons_self _ _)
    rw [instantiate, instantiate_lits as (fun h' => h (List.mem_cons_of_mem _ h'))]
    · rfl
    all_goals simp_all

theorem digitChar_ne_nul {m : Nat} (hm : m < 10) : Nat.digitChar m ≠ '\x00' := by
  interval_cases m <;> decide

theorem nul_not_mem_toDigitsCore :
    ∀ (fuel n : Nat) (ds : List Char), '\x00' ∉ ds → '\x00' ∉ Nat.toDigitsCore 10 fuel n ds
  | 0, _, _, h => h
  | fuel + 1, n, ds, h => by
    have hd : '\x00' ∉ Nat.digitChar (n % 10) :: ds :=
      List.not_mem_cons_of_ne_of_not_mem (digitChar_ne_nul (Nat.mod_lt n (by decide))).symm h
    dsimp only [Nat.toDigitsCore]
    split
    · exact hd
    · exact nul_not_mem_toDigitsCore fuel _ _ hd

/-- A placeholder has no NUL. -/
theorem nul_not_mem_placeholder (v : Nat) : '\x00' ∉ placeholder v := by
  simpa [placeholder] using nul_not_mem_toDigitsCore (v + 1) v [] (List.not_mem_nil _)

/-- A plain segment renders without a NUL. -/
theorem Seg.nul_not_mem_render {s : Seg} (hs : s.Plain) (k : Nat) : '\x00' ∉ s.render k := by
  cases s with
  | lit c => exact fun h => hs.2 (List.mem_singleton.mp h).symm
  | rawInline t => exact t.nul_free
  | quotedInline t => simpa [Seg.render] using t.nul_free
  | _ => exact nul_not_mem_placeholder _

/-- The rendering of segments with plain literals has no NUL: `PQexecParams` reads all of it. -/
theorem nul_not_mem_render : ∀ (ss : List Seg), (∀ s ∈ ss, s.Plain) → ∀ k, '\x00' ∉ render ss k
  | [], _, _ => List.not_mem_nil _
  | s :: ss, h, k => by
    rw [render, List.mem_append, not_or]
    exact ⟨Seg.nul_not_mem_render (h s (List.mem_cons_self _ _)) k,
      nul_not_mem_render ss (fun t ht => h t (List.mem_cons_of_mem _ ht)) _⟩

theorem countBound_le_countDirectives (ss : List Seg) : countBound ss ≤ countDirectives ss :=
  List.countP_mono_left fun s _ h => by cases s <;> simp_all [Seg.bound, Seg.isLit]

theorem Seg.src_length_pos (s : Seg) : 0 < s.src.length := by
  cases s <;> simp [src]

/-- Every directive segment is read from `'%'`, a letter and its argument. -/
theorem Seg.directive_self {s : Seg} (hs : s.isLit = false) :
    ∃ d a, s.src = ['%', d] ∧ s.arg? = some a ∧ Seg.directive d a = some s := by
  cases s with
  | lit c => cases hs
  | int32 x => exact ⟨'u', _, rfl, rfl, rfl⟩
  | int64 x => exact ⟨'U', _, rfl, rfl, rfl⟩
  | text t => exact ⟨'S', _, rfl, rfl, rfl⟩
  | address t => exact ⟨'a', _, rfl, rfl, rfl⟩
  | block t => exact ⟨'b', _, rfl, rfl, rfl⟩
  | rawInline t => exact ⟨'s', _, rfl, rfl, rfl⟩
  | quotedInline t => exact ⟨'t', _, rfl, rfl, rfl⟩

/-- What a directive reads: `%u` a `uint32_t`, `%U` a `uint64_t`, and the five others a string. -/
theorem Seg.directive_cases {d : Char} {a : Arg} {s : Seg} (h : Seg.directive d a = some s) :
    (∃ x, d = 'u' ∧ a = .uint32 x ∧ s = .int32 x) ∨ (∃ x, d = 'U' ∧ a = .uint64 x ∧ s = .int64 x) ∨
      ∃ t, a = .str t ∧ (d = 'S' ∧ s = .text t ∨ d = 'a' ∧ s = .address t ∨ d = 'b' ∧ s = .block t ∨
        d = 's' ∧ s = .rawInline t ∨ d = 't' ∧ s = .quotedInline t) := by
  -- on a letter of none of them the compiled match falls through its seven tests to `none`
  have hother : d ≠ 'u' → d ≠ 'U' → d ≠ 'S' → d ≠ 'a' → d ≠ 'b' → d ≠ 's' → d ≠ 't' → False :=
    fun hu hU hS ha hb hs ht => by
      unfold directive directive.match_1 at h
      rw [dif_neg hu, dif_neg hU, dif_neg hS, dif_neg ha, dif_neg hb, dif_neg hs, dif_neg ht] at h
      cases h
  by_cases hu : d = 'u'
  · subst hu; cases a <;> cases h; exact .inl ⟨_, rfl, rfl, rfl⟩
  by_cases hU : d = 'U'
  · subst hU; cases a <;> cases h; exact .inr (.inl ⟨_, rfl, rfl, rfl⟩)
  refine .inr (.inr ?_)
  by_cases hS : d = 'S'
  · subst hS; cases a <;> cases h; exact ⟨_, rfl, .inl ⟨rfl, rfl⟩⟩
  by_cases ha : d = 'a'
  · subst ha; cases a <;> cases h; exact ⟨_, rfl, .inr (.inl ⟨rfl, rfl⟩)⟩
  by_cases hb : d = 'b'
  · subst hb; cases a <;> cases h; exact ⟨_, rfl, .inr (.inr (.inl ⟨rfl, rfl⟩))⟩
  by_cases hs : d = 's'
  · subst hs; cases a <;> cases h; exact ⟨_, rfl, .inr (.inr (.inr (.inl ⟨rfl, rfl⟩)))⟩
  by_cases ht : d = 't'
  · subst ht; cases a <;> cases h; exact ⟨_, rfl, .inr (.inr (.inr (.inr ⟨rfl, rfl⟩)))⟩
  exact (hother hu hU hS ha hb hs ht).elim

theorem Seg.directive_spec {d : Char} {a : Arg} {s : Seg} (h : Seg.directive d a = some s) :
    s.src = ['%', d] ∧ s.arg? = some a ∧ s.Plain := by
  rcases directive_cases h with ⟨x, rfl, rfl, rfl⟩ | ⟨x, rfl, rfl, rfl⟩ | ⟨t, rfl, hd⟩
  · exact ⟨rfl, rfl, trivial⟩
  · exact ⟨rfl, rfl, trivial⟩
  · rcases hd with ⟨rfl, rfl⟩ | ⟨rfl, rfl⟩ | ⟨rfl, rfl⟩ | ⟨rfl, rfl⟩ | ⟨rfl, rfl⟩ <;>
      exact ⟨rfl, rfl, trivial⟩

/-- A directive letter is one of `a b u U S s t`. -/
theorem Seg.directive_letter {d : Char} {a : Arg} {s : Seg} (h : Seg.directive d a = some s) :
    d ∈ ['a', 'b', 'u', 'U', 'S', 's', 't'] := by
  rcases directive_cases h with ⟨x, rfl, -⟩ | ⟨x, rfl, -⟩ | ⟨t, -, hd⟩
  · decide
  · decide
  · rcases hd with ⟨rfl, -⟩ | ⟨rfl, -⟩ | ⟨rfl, -⟩ | ⟨rfl, -⟩ | ⟨rfl, -⟩ <;> decide

/-- What `instantiate` read: the template is the segments' sources, the arguments start with the
directives' arguments, and every literal is plain. -/
theorem instantiate_spec {cs : List Char} {as : List Arg} {ss : List Seg}
    (h : instantiate cs as = some ss) (hn : '\x00' ∉ cs) :
    cs = ss.flatMap Seg.src ∧ (∃ more, as = ss.filterMap Seg.arg? ++ more) ∧ ∀ s ∈ ss, s.Plain := by
  induction cs, as using instantiate.induct generalizing ss with
  | case1 as =>
    rw [instantiate, Option.some.injEq] at h
    subst h
    exact ⟨rfl, ⟨as, rfl⟩, by simp⟩
  | case2 d cs a as ih =>
    simp only [instantiate, Option.bind_eq_some, Option.map_eq_map, Option.map_eq_some'] at h
    obtain ⟨s, hs, ss', hss', rfl⟩ := h
    obtain ⟨h1, ⟨more, h2⟩, h3⟩ := ih hss' (fun h => hn (by simp [h]))
    obtain ⟨e1, e2, e3⟩ := Seg.directive_spec hs
    exact ⟨by simp [e1, h1], ⟨more, by simp [e2, h2]⟩, by simpa [e3] using h3⟩
  | case3 tail as hnone =>
    rcases tail with _ | ⟨d, cs⟩
    · simp [instantiate] at h
    · rcases as with _ | ⟨a, as⟩
      · simp [instantiate] at h
      · exact (hnone d cs a as rfl rfl).elim
  | case4 c cs as hnot hc ih =>
    rw [instantiate] at h
    · simp only [Option.map_eq_map, Option.map_eq_some'] at h
      obtain ⟨ss', hss', rfl⟩ := h
      obtain ⟨h1, ⟨more, h2⟩, h3⟩ := ih hss' (fun h => hn (by simp [h]))
      refine ⟨by simp [h1, Seg.src], ⟨more, by simpa [Seg.arg?] using h2⟩, ?_⟩
      simp only [List.mem_cons, forall_eq_or_imp]
      exact ⟨⟨hc, fun h => hn (h ▸ List.mem_cons_self _ _)⟩, h3⟩
    · exact hc
    · exact hnot

end DbPsql
