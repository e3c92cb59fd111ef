import DbPsql.Bytes
import DbPsql.Defs

/-! The compile phase of `db_query` (db_psql.c, lines 145–359): the loop over the template `txt`
that copies literal characters into the connection's buffer `db->q`, turns each bound directive
(`%u %U %S %a %b`) into a placeholder `$v` and a parameter, and copies the text of `%s` and `%t`
inline.  The buffer is modelled as memory from `db->q` on, unbounded to the right, so that a write
past `sizeof db->q` (here `qSize`, declared in db.h, which is not in the source) is a write at an
index `≥ qSize` and not a failure of the model.  The host's byte order is `e`. -/

namespace DbPsql

/-- `DB_MAX_PARAMS`: the number of bound parameters a query has room for. -/
def dbMaxParams : Nat := 16

/-- What `vals[k]` points to: nothing (the `memzero`ed array), a slot of `t32` or of `t64`, or
the text of an argument. -/
inductive Val
  | null
  | t32 (slot : Nat)
  | t64 (slot : Nat)
  | str (s : CStr)
  deriving DecidableEq

/-- The locals of the compile phase and the buffer `db->q`: the indices `i` into `txt` and `o`
into `db->q`, the count `v` of bound parameters, the slot counters `t32s` and `t64s`, the reply
`rep`, the parameter arrays and the integer slots.  `ap` counts the `va_arg` calls; `reads` and
`writes` are the indices of `txt` read and of `db->q` written, the newest first. -/
structure Prep where
  i : Nat
  o : Nat
  v : Nat
  t32s : Nat
  t64s : Nat
  rep : DbReply
  typs : Nat → Oid
  vals : Nat → Val
  lens : Nat → Nat
  fmts : Nat → Nat
  t32 : Nat → UInt32
  t64 : Nat → UInt64
  q : Nat → Char
  ap : Nat
  reads : List Nat
  writes : List Nat

/-- `sizeof db->q - o` in `size_t` arithmetic: the room left in the buffer, and past its end a
difference that wrapped around `2 ^ 64`. -/
def sizeLeft (qSize o : Nat) : Nat :=
  if o ≤ qSize then qSize - o else (2 ^ 64 - (o - qSize) % 2 ^ 64) % 2 ^ 64

/-- Modelled from the spec: `snprintfok(n, size)` of libfutil's misc.h, which the source uses and
does not hold, accepts an `snprintf` into `size` bytes that returned `n` exactly when the output
and its NUL fit, the output-buffer bound of the compiler. -/
def snprintfok (n size : Nat) : Bool := decide (n < size)

/-- The text `"$%u"` prints for `v`. -/
def placeholder (v : Nat) : List Char := '$' :: Nat.toDigits 10 v

namespace Prep

/-- The state at the start of the loop: the arrays `memzero`ed, `db->q` as the connection holds
it. -/
def init (q : Nat → Char) : Prep where
  i := 0
  o := 0
  v := 0
  t32s := 0
  t64s := 0
  rep := .ok
  typs := fun _ => 0
  vals := fun _ => .null
  lens := fun _ => 0
  fmts := fun _ => 0
  t32 := fun _ => 0
  t64 := fun _ => 0
  q := q
  ap := 0
  reads := []
  writes := []

variable (st : Prep)

/-- The characters `cs` written to `db->q` from `o` on; `o` stays where it is. -/
def put (cs : List Char) : Prep :=
  { st with
    q := fun k => if st.o ≤ k ∧ k < st.o + cs.length then cs.getD (k - st.o) '\x00' else st.q k
    writes := List.range' st.o cs.length ++ st.writes }

/-- A read of `txt[j]`. -/
def read (j : Nat) : Prep := { st with reads := j :: st.reads }

/-- The skip past a `'%'`, `i++`, and the read of the character after it. -/
def skip : Prep := { st with i := st.i + 1, reads := (st.i + 1) :: st.reads }

/-- The argument the next `va_arg` reads; past the end of the list the model reads `""`. -/
def arg (args : List Arg) : Arg := args.getD st.ap (.str CStr.empty)

/-- The `va_arg` call itself: the list moves on by one. -/
def nextArg : Prep := { st with ap := st.ap + 1 }

/-- `n = snprintf(&db->q[o], sizeof db->q - o, ...)` with output `s`: what fits is written, with
a NUL; then `o += n` when `snprintfok(n, sizeof db->q - o)`, else `rep = DB_R_ERR`. -/
def emit (qSize : Nat) (s : List Char) : Prep :=
  let size := sizeLeft qSize st.o
  let st' := if size = 0 then st else st.put (s.take (size - 1) ++ ['\x00'])
  if snprintfok s.length size then { st' with o := st.o + s.length } else { st' with rep := .err }

/-- `typs[v] = oid; vals[v] = val; lens[v] = len; fmts[v] = fmt; v++;`. -/
def setParam (oid : Oid) (val : Val) (len fmt : Nat) : Prep :=
  { st with
    typs := Function.update st.typs st.v oid
    vals := Function.update st.vals st.v val
    lens := Function.update st.lens st.v len
    fmts := Function.update st.fmts st.v fmt
    v := st.v + 1 }

/-- A parameter bound at `v`, and the placeholder of the new `v` printed into `db->q`. -/
def bindParam (qSize : Nat) (oid : Oid) (val : Val) (len fmt : Nat) : Prep :=
  (st.setParam oid val len fmt).emit qSize (placeholder (st.v + 1))

/-- The directives `%a`, `%b` and `%S`: the argument's text bound as a parameter of type `oid`,
length 0, text format. -/
def textParam (qSize : Nat) (args : List Arg) (oid : Oid) : Prep :=
  st.nextArg.bindParam qSize oid (.str (st.arg args).asStr) 0 0

/-- `%u`: `t32[t32s] = htonl(va_arg(ap, uint32_t))`, bound as an `INT4OID` parameter of 4 bytes
in binary format pointing at the slot. -/
def uint32Param (qSize : Nat) (e : Endian) (args : List Arg) : Prep :=
  let st' := { st.nextArg with
    t32 := Function.update st.t32 st.t32s (htonl e (st.arg args).asUInt32)
    t32s := st.t32s + 1 }
  st'.bindParam qSize int4Oid (.t32 st.t32s) 4 1

/-- `%U`: `t64[t64s] = htonll(va_arg(ap, uint64_t))`, bound as an `INT8OID` parameter of 8
bytes in binary format pointing at the slot. -/
def uint64Param (qSize : Nat) (e : Endian) (args : List Arg) : Prep :=
  let st' := { st.nextArg with
    t64 := Function.update st.t64 st.t64s (htonll e (st.arg args).asUInt64)
    t64s := st.t64s + 1 }
  st'.bindParam qSize int8Oid (.t64 st.t64s) 8 1

end Prep

/-- The `switch (txt[i])` of the loop, after the skip of the `'%'`. -/
def dispatch (qSize : Nat) (e : Endian) (args : List Arg) (st : Prep) : Char → Prep
  | '\x00' => { st with rep := .err }
  | 'a' => st.textParam qSize args inetOid
  | 'b' => st.textParam qSize args cidrOid
  | 'u' => st.uint32Param qSize e args
  | 'U' => st.uint64Param qSize e args
  | 'S' => st.textParam qSize args textOid
  | 's' => st.nextArg.emit qSize (st.arg args).asStr.chars
  | 't' => st.nextArg.emit qSize ('\'' :: (st.arg args).asStr.chars ++ ['\''])
  | _ => { st with rep := .err }

/-- How a pass through the loop's body ends: on to the loop's increment, or out by `break`. -/
inductive Flow
  | next (st : Prep)
  | brk (st : Prep)

/-- One pass through the body of the loop at `txt[i]`. -/
def body (qSize : Nat) (e : Endian) (txt : CStr) (args : List Arg) (st : Prep) : Flow :=
  if txt.get st.i ≠ '%' then .next { st.put [txt.get st.i] with o := st.o + 1 }
  else if dbMaxParams ≤ st.v then .brk { st with i := st.i + 1 }
  else .next (dispatch qSize e args st.skip (txt.get (st.i + 1)))

/-- `for (i = 0; rep == DB_R_OK && txt[i] != '\0'; i++)`, given `fuel` passes: the state the
loop ends in, or `none` when it has not ended after `fuel` passes.  The test reads `txt[i]` only
while `rep` is `DB_R_OK`. -/
def loop (qSize : Nat) (e : Endian) (txt : CStr) (args : List Arg) : Nat → Prep → Option Prep
  | fuel, st =>
    if st.rep ≠ .ok then some st
    else if txt.get st.i = '\x00' then some (st.read st.i)
    else match fuel with
      | 0 => none
      | n + 1 =>
        match body qSize e txt args (st.read st.i) with
        | .brk st' => some st'
        | .next st' => loop qSize e txt args n { st' with i := st'.i + 1 }

/-- The compile phase: the loop, given one pass more than `strlen(txt)`, then
`db->q[o] = '\0'`. -/
def prepare (qSize : Nat) (e : Endian) (txt : CStr) (args : List Arg) (q : Nat → Char) :
    Option Prep :=
  (loop qSize e txt args (txt.chars.length + 1) (Prep.init q)).map fun st => st.put ['\x00']

/-- The bytes behind a parameter pointer: none, the bytes of an integer slot, or a text. -/
inductive ParamVal
  | null
  | bytes (bs : List UInt8)
  | text (s : CStr)
  deriving DecidableEq

/-- One parameter of `PQexecParams`: its type, value, length and format. -/
structure Param where
  typ : Oid
  val : ParamVal
  len : Nat
  fmt : Nat
  deriving DecidableEq

/-- What `PQexecParams` receives: the C string at `db->q` and the first `v` parameters. -/
structure Stmt where
  sql : List Char
  params : List Param
  deriving DecidableEq

namespace Prep

/-- The bytes `vals[k]` points to. -/
def deref (e : Endian) (st : Prep) : Val → ParamVal
  | .null => .null
  | .t32 j => .bytes (e.store 4 (st.t32 j).toNat)
  | .t64 j => .bytes (e.store 8 (st.t64 j).toNat)
  | .str s => .text s

/-- Parameter `k`: `typs[k]`, the bytes behind `vals[k]`, `lens[k]` and `fmts[k]`. -/
def param (e : Endian) (st : Prep) (k : Nat) : Param :=
  ⟨st.typs k, st.deref e (st.vals k), st.lens k, st.fmts k⟩

/-- The statement handed to `PQexecParams`: `db->q` read up to its NUL, which the compile phase
wrote at `o`, and `v` parameters. -/
def stmt (e : Endian) (st : Prep) : Stmt :=
  ⟨((List.range (st.o + 1)).map st.q).takeWhile (· ≠ '\x00'), (List.range st.v).map (st.param e)⟩

end Prep

end DbPsql
