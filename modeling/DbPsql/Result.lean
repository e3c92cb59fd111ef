import DbPsql.Connect

/-! The accessors of a reply (db_psql.c, lines 460–688).  A getter reads the cell at a row and a
column with `PQgetvalue`, checks the column's type with `PQftype`, and converts the cell's bytes:
the integer getters read a `uint32_t` or `uint64_t` from the cell's memory and convert it from
network order.  `db_result_field_*` find the column by name first.  Each returns whether it
succeeded and what it wrote through its output pointer.  The round trip with the `%u` and `%U`
encoders of `db_query` holds for every value and on hosts of both byte orders
(`dbResultGet_roundtrip`).  The `assert(false)` of the failure paths is compiled out (`NDEBUG`);
the log lines are left out. -/

namespace DbPsql

/-- What a getter did: whether it returned `true`, and the value it wrote through its output
pointer (`none`: it wrote nothing). -/
structure Got (α : Type) where
  ok : Bool
  out : Option α
  deriving DecidableEq, Repr

/-- `db_result_getval`: `PQgetvalue` of the reply held. -/
def dbResultGetval (r : PGresult) (row column : Nat) : Option (List UInt8) := r.getvalue row column

/-- `*(uint32_t *)d`: the first four bytes of the cell, in host order.  PostgreSQL's binary
`int4` and `int8` cells have four and eight bytes. -/
def readU32 (e : Endian) (d : List UInt8) : UInt32 := UInt32.ofNat (e.load (d.take 4))

/-- `*(uint64_t *)d`. -/
def readU64 (e : Endian) (d : List UInt8) : UInt64 := UInt64.ofNat (e.load (d.take 8))

/-- `db_result_get_string`: the cell as a string when the column is `text` or `varchar`;
otherwise `*str = NULL` (`none` inside). -/
def dbResultGetString (r : PGresult) (row column : Nat) : Got (Option (List UInt8)) :=
  match dbResultGetval r row column with
  | none => ⟨false, none⟩
  | some d =>
    if r.ftype column = textOid ∨ r.ftype column = varcharOid then ⟨true, some (some d)⟩
    else ⟨false, some none⟩

/-- `db_result_get_enum`: the cell as a string, whatever the column's type. -/
def dbResultGetEnum (r : PGresult) (row column : Nat) : Got (Option (List UInt8)) :=
  match dbResultGetval r row column with
  | none => ⟨false, none⟩
  | some d => ⟨true, some (some d)⟩

/-- `db_result_get_uint32`: an `int4` cell through `ntohl`, an `int8` cell through `ntohll` and
cut to 32 bits; another type writes `0` and fails. -/
def dbResultGetUint32 (e : Endian) (r : PGresult) (row column : Nat) : Got UInt32 :=
  match dbResultGetval r row column with
  | none => ⟨false, none⟩
  | some d =>
    if r.ftype column = int4Oid then ⟨true, some (ntohl e (readU32 e d))⟩
    else if r.ftype column = int8Oid then ⟨true, some (ntohll e (readU64 e d)).toUInt32⟩
    else ⟨false, some 0⟩

/-- `db_result_get_uint64`: an `int4` cell through `ntohl` and widened, an `int8` cell through
`ntohll`; another type writes `0` and fails. -/
def dbResultGetUint64 (e : Endian) (r : PGresult) (row column : Nat) : Got UInt64 :=
  match dbResultGetval r row column with
  | none => ⟨false, none⟩
  | some d =>
    if r.ftype column = int4Oid then ⟨true, some (ntohl e (readU32 e d)).toUInt64⟩
    else if r.ftype column = int8Oid then ⟨true, some (ntohll e (readU64 e d))⟩
    else ⟨false, some 0⟩

/-- `db_result_get_bool`: the first byte of a `bool` cell; another type writes `false` and
fails. -/
def dbResultGetBool (r : PGresult) (row column : Nat) : Got Bool :=
  match dbResultGetval r row column with
  | none => ⟨false, none⟩
  | some d => if r.ftype column = boolOid then ⟨true, some (d.headD 0 ≠ 0)⟩ else ⟨false, some false⟩

/-- `db_result_columnno`: `PQfnumber`, `none` for `-1`. -/
def dbResultColumnno (r : PGresult) (field : String) : Option Nat := r.fnumber field

/-- `db_result_getnumrows`: `PQntuples`. -/
def dbResultGetnumrows (r : PGresult) : Nat := r.ntuples

/-- The body the four `db_result_field_*` share: the column of `field`, and the getter on it. -/
def dbResultField {α : Type} (get : PGresult → Nat → Nat → Got α) (r : PGresult) (row : Nat)
    (field : String) : Got α :=
  match r.fnumber field with
  | none => ⟨false, none⟩
  | some column => get r row column

/-- `db_result_field_bool`. -/
def dbResultFieldBool : PGresult → Nat → String → Got Bool := dbResultField dbResultGetBool

/-- `db_result_field_string`. -/
def dbResultFieldString : PGresult → Nat → String → Got (Option (List UInt8)) :=
  dbResultField dbResultGetString

/-- `db_result_field_uint32`. -/
def dbResultFieldUint32 (e : Endian) : PGresult → Nat → String → Got UInt32 :=
  dbResultField (dbResultGetUint32 e)

/-- `db_result_field_uint64`. -/
def dbResultFieldUint64 (e : Endian) : PGresult → Nat → String → Got UInt64 :=
  dbResultField (dbResultGetUint64 e)

/-! ### The integer round trips -/

theorem readU32_store (e : Endian) (x : UInt32) : readU32 e (e.store 4 x.toNat) = x := by
  apply UInt32.toNat.inj
  rw [readU32, List.take_of_length_le (by simp), load_store,
    Nat.mod_eq_of_lt (show x.toNat < 256 ^ 4 from x.toNat_lt_size)]
  exact UInt32.toNat_ofNat_of_lt x.toNat_lt_size

theorem readU64_store (e : Endian) (y : UInt64) : readU64 e (e.store 8 y.toNat) = y := by
  apply UInt64.toNat.inj
  rw [readU64, List.take_of_length_le (by simp), load_store,
    Nat.mod_eq_of_lt (show y.toNat < 256 ^ 8 from y.toNat_lt_size)]
  exact UInt64.toNat_ofNat_of_lt y.toNat_lt_size

theorem ntoh_hton (e : Endian) (w n : Nat) : ntoh e w (hton e w n) = n % 256 ^ w := by
  rw [ntoh, store_hton, load_store]

theorem ntohl_htonl (e : Endian) (x : UInt32) : ntohl e (htonl e x) = x := by
  apply UInt32.toNat.inj
  rw [ntohl, toNat_htonl, ntoh_hton, Nat.mod_eq_of_lt (show x.toNat < 256 ^ 4 from x.toNat_lt_size)]
  exact UInt32.toNat_ofNat_of_lt x.toNat_lt_size

theorem ntohll_htonll (e : Endian) (y : UInt64) : ntohll e (htonll e y) = y := by
  apply UInt64.toNat.inj
  rw [ntohll, toNat_htonll, ntoh_hton, Nat.mod_eq_of_lt (show y.toNat < 256 ^ 8 from y.toNat_lt_size)]
  exact UInt64.toNat_ofNat_of_lt y.toNat_lt_size

/-- On a host of either byte order, the getters decode what the encoders of `db_query` send, when
the server returns it: a cell of type `int4` holding the bytes `%u` binds for `x` (the slot
`htonl(x)` in host memory) reads back as `x` through both getters, and a cell of type `int8`
holding the bytes `%U` binds for `y` reads back as `y`, and as `y mod 2^32` through the 32-bit
getter. -/
theorem dbResultGet_roundtrip (e : Endian) (r : PGresult) (row column : Nat) :
    (∀ x : UInt32, r.ftype column = int4Oid →
      r.getvalue row column = some (e.store 4 (htonl e x).toNat) →
      dbResultGetUint32 e r row column = ⟨true, some x⟩ ∧
        dbResultGetUint64 e r row column = ⟨true, some x.toUInt64⟩) ∧
    (∀ y : UInt64, r.ftype column = int8Oid →
      r.getvalue row column = some (e.store 8 (htonll e y).toNat) →
      dbResultGetUint64 e r row column = ⟨true, some y⟩ ∧
        dbResultGetUint32 e r row column = ⟨true, some y.toUInt32⟩) := by
  refine ⟨fun x ht hv => ?_, fun y ht hv => ?_⟩
  · simp [dbResultGetUint32, dbResultGetUint64, dbResultGetval, ht, hv, readU32_store, ntohl_htonl]
  · have h48 : int8Oid ≠ int4Oid := by decide
    simp [dbResultGetUint32, dbResultGetUint64, dbResultGetval, ht, hv, h48, readU64_store,
      ntohll_htonll]

/-- A reply with one row and one column `x` of type `oid`, holding `d`. -/
def cellResult (oid : Oid) (d : List UInt8) : PGresult :=
  ⟨.tuplesOk, none, 1, fun f => if f = "x" then some 0 else none, fun _ => oid, fun _ _ => some d⟩

theorem dbResultGet_roundtrip_cell :
    (cellResult int4Oid (Endian.little.store 4 (htonl .little 7).toNat)).ftype 0 = int4Oid ∧
    (cellResult int4Oid (Endian.little.store 4 (htonl .little 7).toNat)).getvalue 0 0 =
      some (Endian.little.store 4 (htonl .little 7).toNat) ∧
    (cellResult int8Oid (Endian.little.store 8 (htonll .little (2 ^ 40 + 5)).toNat)).ftype 0 =
      int8Oid ∧
    (cellResult int8Oid (Endian.little.store 8 (htonll .little (2 ^ 40 + 5)).toNat)).getvalue 0 0 =
      some (Endian.little.store 8 (htonll .little (2 ^ 40 + 5)).toNat) ∧
    dbResultGetUint32 .little (cellResult int4Oid (Endian.little.store 4 (htonl .little 7).toNat))
      0 0 = ⟨true, some 7⟩ ∧
    dbResultGetUint32 .little
      (cellResult int8Oid (Endian.little.store 8 (htonll .little (2 ^ 40 + 5)).toNat)) 0 0 =
      ⟨true, some (UInt64.toUInt32 (2 ^ 40 + 5))⟩ :=
  ⟨rfl, rfl, rfl, rfl,
    ((dbResultGet_roundtrip .little (cellResult int4Oid _) 0 0).1 7 rfl rfl).1,
    ((dbResultGet_roundtrip .little (cellResult int8Oid _) 0 0).2 (2 ^ 40 + 5) rfl rfl).2⟩

end DbPsql
