import Mathlib

/-! The C values that `db_psql.c` passes around: NUL-terminated strings, the type OIDs of
PostgreSQL that `db_psql.h` keeps locally, the replies `dbreply_t` of the query functions and the
arguments of `db_query`'s variadic list. -/

namespace DbPsql

/-- A C string: the bytes before its terminating NUL, none of which is a NUL, one `Char` standing
for one C `char`. -/
structure CStr where
  chars : List Char
  nul_free : '\x00' ∉ chars

instance : DecidableEq CStr := fun a b =>
  decidable_of_iff (a.chars = b.chars) (by cases a; cases b; simp)

/-- A list from `n` on is `a :: rest` when its element at `n` is `a` and from `n + 1` on it is
`rest`. -/
theorem getD_of_drop_eq_cons {α : Type} {l : List α} {n : Nat} {a : α} {rest : List α}
    (h : l.drop n = a :: rest) (d : α) : l.getD n d = a ∧ l.drop (n + 1) = rest := by
  have hn : n < l.length := by
    have := congrArg List.length h
    simp at this
    omega
  refine ⟨?_, by rw [← List.drop_drop, h]; rfl⟩
  have := congrArg List.head? h
  rw [List.head?_drop] at this
  simpa [List.getD_eq_getElem?_getD, List.getElem?_eq_getElem hn] using this

namespace CStr

/-- The empty string `""`. -/
def empty : CStr := ⟨[], List.not_mem_nil _⟩

/-- `s[i]`: the character at `i`, and the terminating NUL at `strlen(s)`. -/
def get (s : CStr) (i : Nat) : Char := s.chars.getD i '\x00'

theorem get_of_lt {s : CStr} {i : Nat} (h : i < s.chars.length) : s.get i = s.chars[i] := by
  simp [get, List.getD_eq_getElem?_getD, h]

theorem get_length (s : CStr) : s.get s.chars.length = '\x00' := by
  simp [get, List.getD_eq_getElem?_getD]

theorem get_ne_nul {s : CStr} {i : Nat} (h : i < s.chars.length) : s.get i ≠ '\x00' := by
  rw [get_of_lt h]
  exact fun h' => s.nul_free (h' ▸ List.getElem_mem h)

theorem lt_of_get_ne_nul {s : CStr} {i : Nat} (h : s.get i ≠ '\x00') : i < s.chars.length := by
  by_contra hi
  simp [get, List.getD_eq_getElem?_getD, List.getElem?_eq_none (Nat.le_of_not_lt hi)] at h

/-- The characters of `s` from `i` on are `c :: cs` exactly when `s[i]` is `c` and the rest
from `i + 1` on is `cs`. -/
theorem drop_eq_cons {s : CStr} {i : Nat} {c : Char} {cs : List Char}
    (h : s.chars.drop i = c :: cs) : s.get i = c ∧ s.chars.drop (i + 1) = cs :=
  getD_of_drop_eq_cons h _

/-- Before the NUL, the characters from `i` on are `s[i]` and then those from `i + 1` on. -/
theorem drop_of_get_ne_nul {s : CStr} {i : Nat} (h : s.get i ≠ '\x00') :
    s.chars.drop i = s.get i :: s.chars.drop (i + 1) := by
  have hlt := lt_of_get_ne_nul h
  rw [List.drop_eq_getElem_cons hlt, get_of_lt hlt]

theorem get_of_drop_nil {s : CStr} {i : Nat} (h : s.chars.drop i = []) : s.get i = '\x00' := by
  simp [get, List.getD_eq_getElem?_getD, List.getElem?_eq_none (List.drop_eq_nil_iff.mp h)]

end CStr

/-- PostgreSQL type OIDs. -/
abbrev Oid := Nat

/-- `BOOLOID`. -/
def boolOid : Oid := 16
/-- `INT8OID`. -/
def int8Oid : Oid := 20
/-- `INT4OID`. -/
def int4Oid : Oid := 23
/-- `TEXTOID`. -/
def textOid : Oid := 25
/-- `CIDROID`. -/
def cidrOid : Oid := 650
/-- `INETOID`. -/
def inetOid : Oid := 869
/-- `VARCHAROID`. -/
def varcharOid : Oid := 1043

/-- `dbreply_t`: the replies of `db_query`. -/
inductive DbReply
  | ok
  | err
  | duplicateKey
  deriving DecidableEq, Repr

/-- An argument of `db_query`'s variadic list, as the caller passed it. -/
inductive Arg
  | uint32 (x : UInt32)
  | uint64 (x : UInt64)
  | str (s : CStr)
  deriving DecidableEq

namespace Arg

/-- `va_arg(ap, uint32_t)`.  An argument passed with another type is undefined behaviour in C;
the model reads it as zero. -/
def asUInt32 : Arg → UInt32
  | .uint32 x => x
  | _ => 0

/-- `va_arg(ap, uint64_t)`. -/
def asUInt64 : Arg → UInt64
  | .uint64 x => x
  | _ => 0

/-- `va_arg(ap, char *)`. -/
def asStr : Arg → CStr
  | .str s => s
  | _ => CStr.empty

end Arg

end DbPsql
