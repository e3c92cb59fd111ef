import Mathlib

/-! Byte order.  `htonl` and `ntohl` (libc) and `htonll` and `ntohll` (libfutil's misc.h, not in the
source) move an unsigned integer between the byte order of the host and the network's big-endian
order.  An integer is modelled with the bytes it has in memory on a host of either order, so that
the `%u` and `%U` encoders of `db_query` and the decoders `db_result_get_uint32` and
`db_result_get_uint64` can be read against the bytes that travel to the server and back.  The round
trips hold on both hosts and for every word. -/

namespace DbPsql

/-- The byte order of the host that runs the code. -/
inductive Endian
  | little
  | big
  deriving DecidableEq, Repr

/-- The `w` low bytes of `n`, the least significant first. -/
def bytesLE : Nat → Nat → List UInt8
  | 0, _ => []
  | w + 1, n => UInt8.ofNat (n % 256) :: bytesLE w (n / 256)

/-- The number whose bytes, the least significant first, are `bs`. -/
def valueLE : List UInt8 → Nat
  | [] => 0
  | b :: bs => b.toNat + 256 * valueLE bs

/-- The `w` bytes that hold the unsigned integer `n` in the memory of a host of order `e`. -/
def Endian.store : Endian → Nat → Nat → List UInt8
  | .little, w, n => bytesLE w n
  | .big, w, n => (bytesLE w n).reverse

/-- The unsigned integer that the bytes `bs` hold in the memory of a host of order `e`. -/
def Endian.load : Endian → List UInt8 → Nat
  | .little, bs => valueLE bs
  | .big, bs => valueLE bs.reverse

/-- Host to network order for a `w`-byte integer: the number whose bytes in host memory are the
big-endian bytes of `n`. -/
def hton (e : Endian) (w n : Nat) : Nat := e.load (Endian.big.store w n)

/-- Network to host order: the number whose big-endian bytes are the bytes of `n` in host memory. -/
def ntoh (e : Endian) (w n : Nat) : Nat := Endian.big.load (e.store w n)

/-- `htonl`. -/
def htonl (e : Endian) (x : UInt32) : UInt32 := UInt32.ofNat (hton e 4 x.toNat)

/-- `ntohl`. -/
def ntohl (e : Endian) (x : UInt32) : UInt32 := UInt32.ofNat (ntoh e 4 x.toNat)

/-- Modelled from the spec: `htonll` of libfutil, which the source uses and does not hold,
converts a 64-bit integer from host byte order to network (big-endian) byte order. -/
def htonll (e : Endian) (x : UInt64) : UInt64 := UInt64.ofNat (hton e 8 x.toNat)

/-- Modelled from the spec: `ntohll` of libfutil, the conversion back from network byte order. -/
def ntohll (e : Endian) (x : UInt64) : UInt64 := UInt64.ofNat (ntoh e 8 x.toNat)

@[simp] theorem length_bytesLE (w n : Nat) : (bytesLE w n).length = w := by
  induction w generalizing n <;> simp [bytesLE, *]

@[simp] theorem length_store (e : Endian) (w n : Nat) : (e.store w n).length = w := by
  cases e <;> simp [Endian.store]

theorem toNat_uint8_ofNat (n : Nat) : (UInt8.ofNat (n % 256)).toNat = n % 256 :=
  (BitVec.toNat_ofNat _ _).trans (Nat.mod_eq_of_lt (Nat.lt_of_lt_of_le (Nat.mod_lt _ (by decide))
    (by decide)))

theorem valueLE_bytesLE (w n : Nat) : valueLE (bytesLE w n) = n % 256 ^ w := by
  induction w generalizing n with
  | zero => simp [bytesLE, valueLE, Nat.mod_one]
  | succ w ih => rw [bytesLE, valueLE, ih, toNat_uint8_ofNat, Nat.pow_succ', Nat.mod_mul]

theorem valueLE_lt (bs : List UInt8) : valueLE bs < 256 ^ bs.length := by
  induction bs with
  | nil => simp [valueLE]
  | cons b bs ih =>
    have hb : b.toNat < 256 := b.toNat_lt_size
    rw [valueLE, List.length_cons, Nat.pow_succ']
    omega

theorem bytesLE_valueLE (bs : List UInt8) : bytesLE bs.length (valueLE bs) = bs := by
  induction bs with
  | nil => rfl
  | cons b bs ih =>
    have hb : b.toNat < 256 := b.toNat_lt_size
    have hmod : (b.toNat + 256 * valueLE bs) % 256 = b.toNat := by omega
    have hdiv : (b.toNat + 256 * valueLE bs) / 256 = valueLE bs := by omega
    rw [List.length_cons, bytesLE, valueLE, hmod, hdiv, ih]
    have hb' := toNat_uint8_ofNat b.toNat
    rw [Nat.mod_eq_of_lt hb] at hb'
    exact congrArg (· :: bs) (UInt8.toNat.inj hb')

/-- Loading what was stored gives the integer back, cut to its width. -/
theorem load_store (e : Endian) (w n : Nat) : e.load (e.store w n) = n % 256 ^ w := by
  cases e <;> simp [Endian.load, Endian.store, valueLE_bytesLE]

/-- Storing what was loaded gives the bytes back. -/
theorem store_load (e : Endian) (bs : List UInt8) : e.store bs.length (e.load bs) = bs := by
  cases e with
  | little => exact bytesLE_valueLE bs
  | big =>
    have h := congrArg List.reverse (bytesLE_valueLE bs.reverse)
    simpa [Endian.store, Endian.load] using h

theorem load_lt (e : Endian) (bs : List UInt8) : e.load bs < 256 ^ bs.length := by
  cases e
  · exact valueLE_lt bs
  · simpa using valueLE_lt bs.reverse

/-- `htonl(n)` is held in host memory as the big-endian bytes of `n`. -/
theorem store_hton (e : Endian) (w n : Nat) : e.store w (hton e w n) = Endian.big.store w n := by
  simpa using store_load e (Endian.big.store w n)

theorem hton_lt (e : Endian) (w n : Nat) : hton e w n < 256 ^ w := by
  simpa using load_lt e (Endian.big.store w n)

/-- Reading network bytes from memory and converting them to host order gives their
big-endian value. -/
theorem ntoh_load (e : Endian) (bs : List UInt8) : ntoh e bs.length (e.load bs) =
    Endian.big.load bs := by
  rw [ntoh, store_load]

theorem toNat_htonl (e : Endian) (x : UInt32) : (htonl e x).toNat = hton e 4 x.toNat :=
  (BitVec.toNat_ofNat _ _).trans (Nat.mod_eq_of_lt (hton_lt e 4 _))

theorem toNat_htonll (e : Endian) (x : UInt64) : (htonll e x).toNat = hton e 8 x.toNat :=
  (BitVec.toNat_ofNat _ _).trans (Nat.mod_eq_of_lt (hton_lt e 8 _))

end DbPsql
