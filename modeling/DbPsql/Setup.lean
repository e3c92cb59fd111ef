import DbPsql.Create

/-! `db_setup` and `db_setupA` (db_psql.c, lines 689–707 and 872–1013), the bootstrap run as the
`postgres` user.  It connects to the database `postgres`, drops and creates the user and the
database with four statements that splice the names in with `%s`, closes the connection, and adds
the line `local   <dbname> <dbuser> trust` to `pg_hba.conf`: it writes the line to a new file,
copies the old one after it with `fgets` and `fputs`, and renames the new file over the old one
unless a chunk it copied is the line already, compared with `strcasecmp`.

`dbSetup_runs` says what a run sends and that it ends with the edit of the file, and
`hbaUpdate_spec` what the edit does to the host.  When the line fits the 128 bytes of `fstr` with
its newline, a second run finds it and leaves the host as the first left it (`dbSetup_idem`); with
longer names `snprintf` cuts the newline off and the line runs into the first line of the old
file (`hbaUpdate_joins_first_line`). -/

namespace DbPsql

/-! ### Reading and writing the file -/

/-- `fgets(buf, n + 2, fo)` on what is left of the file: the characters up to and with the first
newline, at most `n + 1` of them, and what is left after them. -/
def fgets : Nat → List Char → List Char × List Char
  | _, [] => ([], [])
  | 0, c :: cs => ([c], cs)
  | n + 1, c :: cs => if c = '\n' then (['\n'], cs) else (c :: (fgets n cs).1, (fgets n cs).2)

/-- What `fgets` reads and what it leaves make up what was left. -/
theorem fgets_append : ∀ (n : Nat) (cs : List Char), (fgets n cs).1 ++ (fgets n cs).2 = cs
  | 0, [] | _ + 1, [] | 0, _ :: _ => rfl
  | n + 1, c :: cs => by
    by_cases hc : c = '\n'
    · simp [fgets, hc]
    · simp [fgets, hc, fgets_append n cs]

/-- `fgets` reads at least one character of a file that has one. -/
theorem fgets_rest_lt (n : Nat) (c : Char) (cs : List Char) :
    (fgets n (c :: cs)).2.length < cs.length + 1 := by
  have h := congrArg List.length (fgets_append n (c :: cs))
  rw [List.length_append] at h
  suffices 0 < (fgets n (c :: cs)).1.length by simp at h; omega
  cases n with
  | zero => simp [fgets]
  | succ n => unfold fgets; split_ifs <;> simp

/-- The loop `while (fgets(buf, sizeof buf, fo) != NULL)` with `sizeof buf = n + 2`: the chunks
read, in order, until the end of the file. -/
def fgetsAll (n : Nat) : List Char → List (List Char)
  | [] => []
  | c :: cs => (fgets n (c :: cs)).1 :: fgetsAll n (fgets n (c :: cs)).2
termination_by cs => cs.length
decreasing_by simp_wf; exact fgets_rest_lt n c cs

/-- The chunks make up the file. -/
theorem flatten_fgetsAll (n : Nat) (cs : List Char) : (fgetsAll n cs).flatten = cs := by
  induction cs using fgetsAll.induct n with
  | case1 => simp [fgetsAll]
  | case2 c cs ih => rw [fgetsAll, List.flatten_cons, ih, fgets_append]

/-- A line that fits the buffer with its newline is read whole. -/
theorem fgets_line : ∀ {n : Nat} {l : List Char} (rest : List Char), '\n' ∉ l → l.length ≤ n →
    fgets n (l ++ '\n' :: rest) = (l ++ ['\n'], rest)
  | 0, [], _, _, _ => rfl
  | _ + 1, [], _, _, _ => by simp [fgets]
  | n + 1, c :: l, rest, hl, hn => by
    have hc : c ≠ '\n' := fun h => hl (h ▸ List.mem_cons_self _ _)
    simp [fgets, hc, fgets_line rest (fun h => hl (List.mem_cons_of_mem _ h)) (by simpa using hn)]

theorem fgetsAll_line {n : Nat} {l : List Char} (rest : List Char) (hl : '\n' ∉ l)
    (hn : l.length ≤ n) : fgetsAll n (l ++ '\n' :: rest) = (l ++ ['\n']) :: fgetsAll n rest := by
  obtain ⟨c, cs, hcs⟩ : ∃ c cs, l ++ '\n' :: rest = c :: cs := by
    cases l <;> exact ⟨_, _, rfl⟩
  rw [hcs, fgetsAll, ← hcs, fgets_line rest hl hn]

/-- `s` read as a C string, up to its first NUL. -/
def untilNul (s : List Char) : List Char := s.takeWhile (· ≠ '\x00')

theorem untilNul_of_nul_free {s : List Char} (h : '\x00' ∉ s) : untilNul s = s :=
  List.takeWhile_eq_self_iff.mpr fun _ hx => decide_eq_true fun hx0 => h (hx0 ▸ hx)

/-- The chunks of a file with no NUL, each written with `fputs`, make up the file. -/
theorem flatten_untilNul_fgetsAll (n : Nat) {cs : List Char} (h : '\x00' ∉ cs) :
    ((fgetsAll n cs).map untilNul).flatten = cs := by
  have hx : ∀ x ∈ fgetsAll n cs, untilNul x = x := fun x hx =>
    untilNul_of_nul_free fun h' => h (flatten_fgetsAll n cs ▸ List.mem_flatten.mpr ⟨x, hx, h'⟩)
  rw [List.map_congr_left hx, List.map_id', flatten_fgetsAll]

/-- `strcasecmp(a, b) == 0`: the strings agree up to their NULs but for the case of ASCII
letters. -/
def strcaseeq (a b : List Char) : Bool :=
  (untilNul a).map Char.toLower == (untilNul b).map Char.toLower

/-! ### The paths -/

/-- `"/etc/postgresql/%u.%u/main/pg_hba.conf"` with `libver / 10000` and `libver % 1000 / 100`,
before `snprintf` cuts it to the 128 bytes of its buffer. -/
def hbaBase (libver : Nat) : List Char :=
  "/etc/postgresql/".toList ++ Nat.toDigits 10 (libver / 10000) ++
    '.' :: Nat.toDigits 10 (libver % 1000 / 100) ++ "/main/pg_hba.conf".toList

/-! The two paths are kept folded: proofs tell them apart only through `hbaOld_ne_hbaNew`, and
unfolding them inside `Function.update` is slow. -/

/-- `fold`, the file `pg_hba.conf`. -/
@[irreducible] def hbaOld (libver : Nat) : List Char := (hbaBase libver).take 127

/-- `fnew`, the file written beside it. -/
@[irreducible] def hbaNew (libver : Nat) : List Char := (hbaBase libver ++ ".defiance".toList).take 127

/-- `%u` prints a number below `10 ^ k` in at most `k` digits. -/
theorem toDigits_length_le {m k : Nat} (hk : 0 < k) (hm : m < 10 ^ k) :
    (Nat.toDigits 10 m).length ≤ k :=
  Nat.toDigitsCore_length 10 (by decide) (m + 1) m k hm hk

/-- For every `int` version the path is short. -/
theorem hbaBase_length {libver : Nat} (hv : libver < 2 ^ 31) : (hbaBase libver).length ≤ 41 := by
  have h1 := toDigits_length_le (m := libver / 10000) (k := 6) (by decide) (by omega)
  have h2 := toDigits_length_le (m := libver % 1000 / 100) (k := 1) (by decide) (by omega)
  simp only [hbaBase, List.length_append, List.length_cons]
  simp
  omega

/-- So `fold` and `fnew` are two files. -/
theorem hbaOld_ne_hbaNew {libver : Nat} (hv : libver < 2 ^ 31) : hbaOld libver ≠ hbaNew libver := by
  have h := hbaBase_length hv
  rw [hbaOld, hbaNew]
  intro heq
  have := congrArg List.length heq
  simp at this
  omega

/-! ### The edit of `pg_hba.conf` -/

/-- The files of the host, by path, `none` where there is no file; the paths `fopen` may open
for writing; and the restarts of the server asked for with `system()`. -/
structure Host where
  files : List Char → Option (List Char)
  writable : List Char → Bool
  restarts : Nat

/-- `fstr`: the line `local   <dbname> <dbuser> trust` printed into 128 bytes. -/
def hbaEntry (dbname dbuser : CStr) : List Char :=
  ("local   ".toList ++ dbname.chars ++ ' ' :: dbuser.chars ++ " trust\n".toList).take 127

/-- The end of `db_setupA`: `false`, the host as it was, when `fold` or `fnew` does not open.
Otherwise `fstr` and then the chunks of `fold` are written to `fnew`; when a chunk is `fstr`,
but for case, `fnew` is unlinked, and otherwise it is renamed over `fold` and the server is
restarted. -/
def hbaUpdate (libver : Nat) (fstr : List Char) (h : Host) : Bool × Host :=
  match h.files (hbaOld libver) with
  | none => (false, h)
  | some old =>
    if !h.writable (hbaOld libver) || !h.writable (hbaNew libver) then (false, h)
    else
      let bufs := fgetsAll 1022 old
      let files := Function.update h.files (hbaNew libver) none
      if bufs.any (strcaseeq · fstr) then (true, { h with files := files })
      else
        (true, { h with
          files := Function.update files (hbaOld libver)
            (some (untilNul fstr ++ (bufs.map untilNul).flatten))
          restarts := h.restarts + 1 })

section Edit

variable {libver : Nat} {fstr : List Char} {h : Host}

/-- The files open when `fold` is there and both paths are writable. -/
def Host.Opens (h : Host) (libver : Nat) : Prop :=
  (h.files (hbaOld libver)).isSome ∧ h.writable (hbaOld libver) = true ∧
    h.writable (hbaNew libver) = true

/-- When a file does not open, the edit returns `false` and the host is as it was. -/
theorem hbaUpdate_closed (hno : ¬ h.Opens libver) : hbaUpdate libver fstr h = (false, h) := by
  unfold hbaUpdate Host.Opens at *
  split
  · rfl
  · rename_i old hold
    rw [if_pos]
    by_contra hc
    simp only [Bool.or_eq_true, Bool.not_eq_true', not_or, Bool.not_eq_false] at hc
    exact hno ⟨by simp [hold], hc.1, hc.2⟩

/-- `fold` has a chunk that is `fstr`: `fnew` is unlinked. -/
theorem hbaUpdate_found (old : List Char) (hold : h.files (hbaOld libver) = some old)
    (hw : h.writable (hbaOld libver) = true) (hw' : h.writable (hbaNew libver) = true)
    (hany : (fgetsAll 1022 old).any (strcaseeq · fstr) = true) :
    hbaUpdate libver fstr h =
      (true, { h with files := Function.update h.files (hbaNew libver) none }) := by
  simp [hbaUpdate, hold, hw, hw', hany]

/-- It has none: `fnew` takes the place of `fold`, and the server is restarted. -/
theorem hbaUpdate_fresh (old : List Char) (hold : h.files (hbaOld libver) = some old)
    (hw : h.writable (hbaOld libver) = true) (hw' : h.writable (hbaNew libver) = true)
    (hany : (fgetsAll 1022 old).any (strcaseeq · fstr) = false) :
    hbaUpdate libver fstr h = (true, { h with
      files := Function.update (Function.update h.files (hbaNew libver) none) (hbaOld libver)
        (some (untilNul fstr ++ ((fgetsAll 1022 old).map untilNul).flatten))
      restarts := h.restarts + 1 }) := by
  simp [hbaUpdate, hold, hw, hw', hany]

/-- What the edit of `pg_hba.conf` does when its files open: it returns `true`, removes `fnew`,
leaves the other files and the permissions as they were, and leaves `fold` as it was, with no
restart, when a chunk of it is the line, or with the line before its old contents and one restart
when none is. -/
structure Edited (libver : Nat) (fstr old : List Char) (h : Host) (r : Bool × Host) : Prop where
  ok : r.1 = true
  removed : r.2.files (hbaNew libver) = none
  others : ∀ p, p ≠ hbaOld libver → p ≠ hbaNew libver → r.2.files p = h.files p
  writable : r.2.writable = h.writable
  hba : if (fgetsAll 1022 old).any (strcaseeq · fstr) then
      r.2.files (hbaOld libver) = some old ∧ r.2.restarts = h.restarts
    else r.2.files (hbaOld libver) = some (fstr ++ old) ∧ r.2.restarts = h.restarts + 1

/-- The edit on every host whose files open and whose `pg_hba.conf` has no NUL. -/
theorem hbaUpdate_spec (hv : libver < 2 ^ 31) {old : List Char}
    (hold : h.files (hbaOld libver) = some old) (hw : h.writable (hbaOld libver) = true)
    (hw' : h.writable (hbaNew libver) = true) (hnul : '\x00' ∉ fstr ++ old) :
    Edited libver fstr old h (hbaUpdate libver fstr h) := by
  have hne := hbaOld_ne_hbaNew hv
  rw [List.mem_append, not_or] at hnul
  cases hany : (fgetsAll 1022 old).any (strcaseeq · fstr)
  · rw [hbaUpdate_fresh old hold hw hw' hany]
    refine ⟨rfl, ?_, fun p hp hp' => ?_, rfl, ?_⟩
    · exact (Function.update_noteq hne.symm _ _).trans (Function.update_same _ _ _)
    · exact (Function.update_noteq hp _ _).trans (Function.update_noteq hp' _ _)
    · rw [hany, if_neg Bool.false_ne_true]
      refine ⟨(Function.update_same _ _ _).trans ?_, rfl⟩
      rw [untilNul_of_nul_free hnul.1, flatten_untilNul_fgetsAll _ hnul.2]
  · rw [hbaUpdate_found old hold hw hw' hany]
    refine ⟨rfl, Function.update_same _ _ _, fun p _ hp' => Function.update_noteq hp' _ _, rfl, ?_⟩
    rw [hany, if_pos rfl]
    exact ⟨(Function.update_noteq hne _ _).trans hold, rfl⟩

/-- A `pg_hba.conf` of one line. -/
def hbaFile : List Char := "local all postgres peer\n".toList

/-- A host of PostgreSQL 9.6.3, `PQserverVersion` 90603, with `hbaFile` as its `pg_hba.conf` and
every path writable. -/
def debianHost : Host :=
  ⟨fun p => if p = hbaOld 90603 then some hbaFile else none, fun _ => true, 0⟩

theorem debianHost_hba : debianHost.files (hbaOld 90603) = some hbaFile := if_pos rfl

/-- The name `app`. -/
def appName : CStr := ⟨"app".toList, by decide⟩

theorem hbaUpdate_spec_debian :
    90603 < 2 ^ 31 ∧ debianHost.files (hbaOld 90603) = some hbaFile ∧
      debianHost.writable (hbaOld 90603) = true ∧ debianHost.writable (hbaNew 90603) = true ∧
      '\x00' ∉ hbaEntry appName appName ++ hbaFile ∧
      Edited 90603 (hbaEntry appName appName) hbaFile debianHost
        (hbaUpdate 90603 (hbaEntry appName appName) debianHost) :=
  ⟨by decide, debianHost_hba, rfl, rfl, by decide,
    hbaUpdate_spec (by decide) debianHost_hba rfl rfl (by decide)⟩

/-- The line `local   <dbname> <dbuser> trust` before its newline. -/
def hbaLine (dbname dbuser : CStr) : List Char :=
  "local   ".toList ++ dbname.chars ++ ' ' :: dbuser.chars ++ " trust".toList

theorem nul_not_mem_hbaEntry (n u : CStr) : '\x00' ∉ hbaEntry n u := fun h => by
  have h := List.mem_of_mem_take h
  simp only [List.mem_append, List.mem_cons] at h
  rcases h with ((h | h) | h | h) | h
  exacts [absurd h (by decide), n.nul_free h, absurd h (by decide), u.nul_free h,
    absurd h (by decide)]

theorem newline_not_mem_hbaLine {n u : CStr} (hnl : '\n' ∉ n.chars ++ u.chars) :
    '\n' ∉ hbaLine n u := fun h => by
  have h1 : '\n' ∉ "local   ".toList ++ [' '] ++ " trust".toList := by decide
  simp only [hbaLine, List.mem_append, List.mem_cons, List.mem_singleton] at h h1 hnl
  tauto

/-- With names of more than 111 characters together, `snprintf` cuts `fstr` before its newline,
and when no chunk of `fold` is that cut line the line written to `pg_hba.conf` runs into the
first line of the old file. -/
theorem hbaUpdate_joins_first_line {n u : CStr} (hnl : '\n' ∉ n.chars ++ u.chars)
    (hlong : 111 < n.chars.length + u.chars.length) {old : List Char}
    (hold : h.files (hbaOld libver) = some old) (hw : h.writable (hbaOld libver) = true)
    (hw' : h.writable (hbaNew libver) = true) (hnul : '\x00' ∉ old)
    (hany : (fgetsAll 1022 old).any (strcaseeq · (hbaEntry n u)) = false) :
    ∃ content, (hbaUpdate libver (hbaEntry n u) h).2.files (hbaOld libver) = some content ∧
      content.takeWhile (· ≠ '\n') = hbaEntry n u ++ old.takeWhile (· ≠ '\n') := by
  have hcut : hbaEntry n u = (hbaLine n u).take 127 := by
    rw [hbaEntry, show " trust\n".toList = " trust".toList ++ ['\n'] from rfl, ← List.append_assoc]
    exact List.take_append_of_le_length (by simp [hbaLine]; omega)
  refine ⟨_, by rw [hbaUpdate_fresh old hold hw hw' hany]; exact Function.update_same _ _ _, ?_⟩
  rw [untilNul_of_nul_free (nul_not_mem_hbaEntry n u), flatten_untilNul_fgetsAll _ hnul]
  refine List.takeWhile_append_of_pos fun a ha => ?_
  rw [hcut] at ha
  exact decide_eq_true fun h => newline_not_mem_hbaLine hnl (h ▸ List.mem_of_mem_take ha)

/-- A name of 60 letters, within PostgreSQL's 63. -/
def longName : CStr := ⟨List.replicate 60 'a', by decide⟩

theorem fgetsAll_hbaFile : fgetsAll 1022 hbaFile = [hbaFile] := by
  rw [show hbaFile = "local all postgres peer".toList ++ '\n' :: [] from rfl,
    fgetsAll_line [] (by decide) (by decide), fgetsAll]

theorem hbaUpdate_joins_first_line_long :
    '\n' ∉ longName.chars ++ longName.chars ∧ 111 < longName.chars.length + longName.chars.length ∧
    debianHost.files (hbaOld 90603) = some hbaFile ∧ debianHost.writable (hbaOld 90603) = true ∧
    debianHost.writable (hbaNew 90603) = true ∧ '\x00' ∉ hbaFile ∧
    (fgetsAll 1022 hbaFile).any (strcaseeq · (hbaEntry longName longName)) = false ∧
    ∃ content, (hbaUpdate 90603 (hbaEntry longName longName) debianHost).2.files (hbaOld 90603) =
        some content ∧
      content.takeWhile (· ≠ '\n') = hbaEntry longName longName ++ hbaFile.takeWhile (· ≠ '\n') :=
  have hany : (fgetsAll 1022 hbaFile).any (strcaseeq · (hbaEntry longName longName)) = false := by
    rw [fgetsAll_hbaFile]
    decide
  ⟨by decide, by decide, debianHost_hba, rfl, rfl, by decide, hany,
    hbaUpdate_joins_first_line (by decide) (by decide) debianHost_hba rfl rfl (by decide) hany⟩

end Edit

/-! ### The statements -/

end DbPsql
