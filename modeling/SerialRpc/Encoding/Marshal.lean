import SerialRpc.Lib.LittleEndian
import SerialRpc.Encoding.Schema

/-!
# The encoder (encoding.cc:38-131, encoding_impl.cc:186-336)

`marshal` writes a message field by field. Default scalars are not written, and
neither is a message that would write nothing: the `Start` tag of a message field
is held back on a `Stack` of field numbers until a scalar below it is written.

- `Stack`: the fixed array of pending field numbers, whose `push` and `pop`
  panic on a full and on an empty one.
- `marshalScalar`: the body the overloads of `marshal_field` share; each overload
  is an instance, except the one for strings, which makes two writes.
- `marshalFieldMessage`, `marshalFieldVector`: the two templates.
- `MessageType.marshal`: the generated `T::marshal` (`SerializerBody`).

The `nesting` argument is passed along by the source and never read; it is left
out.
-/

namespace SerialRpc

open ByteStream

/-- The two panics of `Stack`. -/
inductive Panic where
  | outOfSpace
  | emptyStack
deriving DecidableEq, Repr

/-- `struct Stack` (encoding.cc:38-63): the field numbers in `elems[0 .. size)`. -/
structure Stack where
  elems : List (BitVec 32) := []
  /-- `elems` has room for `MaxNesting` numbers. -/
  size_le : elems.length ≤ MaxNesting := by decide

namespace Stack

/-- The size of the stack. -/
def size (s : Stack) : Nat := s.elems.length

/-- `Stack stack;`, and what `clear` leaves. -/
def empty : Stack := {}

/-- `Stack::push`. -/
def push (e : BitVec 32) (s : Stack) : Except Panic Stack :=
  if h : s.elems.length = MaxNesting then .error .outOfSpace
  else .ok ⟨s.elems ++ [e], by
    rw [List.length_append, List.length_singleton]
    exact Nat.lt_of_le_of_ne s.size_le h⟩

/-- `Stack::pop`. -/
def pop (s : Stack) : Except Panic Stack :=
  if s.elems.length = 0 then .error .emptyStack
  else .ok ⟨s.elems.dropLast, s.elems.length_dropLast ▸ (Nat.sub_le _ 1).trans s.size_le⟩

@[simp] theorem elems_empty : empty.elems = [] := rfl

end Stack

/-- What an encoder call changes: the sink, with the error reported on it, and the
stack of field numbers whose `Start` tag is still to be written. -/
structure Marshaller where
  out : Writer Err
  stack : Stack

variable (V : Varint)

/-- `write_tag` (encoding_impl.cc:26-29). -/
def writeTag (fieldNumber : BitVec 32) (type : WireType) (out : Writer Err) : Writer Err :=
  out.write (tagBytes V fieldNumber type) .baselib

/-- The loop over the stack in `write_tags`. -/
def writeStartTags : List (BitVec 32) → Writer Err → Writer Err
  | [], out => out
  | elem :: elems, out =>
    let out' := writeTag V elem .start out
    if out'.err.isSome then out' else writeStartTags elems out'

/-- `write_tags` (encoding_impl.cc:186-196): the pending `Start` tags, then the
field's own tag. -/
def writeTags (fieldNumber : BitVec 32) (tag : WireType) (m : Marshaller) : Marshaller :=
  let out := writeStartTags V m.stack.elems m.out
  if out.err.isSome then ⟨out, m.stack⟩ else ⟨writeTag V fieldNumber tag out, .empty⟩

/-- The body of the scalar overloads of `marshal_field`: nothing for a default,
else the tags and then the payload in one write. -/
def marshalScalar (fieldNumber : BitVec 32) (tag : WireType) (isDefault : Bool)
    (payload : List UInt8) (m : Marshaller) : Marshaller :=
  if isDefault then m
  else
    let m' := writeTags V fieldNumber tag m
    if m'.out.err.isSome then m' else { m' with out := m'.out.write payload .baselib }

/-- `marshal_field(…, int32 val, …)`. -/
def marshalInt32 (fieldNumber : BitVec 32) (val : Int32) : Marshaller → Marshaller :=
  marshalScalar V fieldNumber .varInt (val = 0) (V.writeSint32 val)

/-- `marshal_field(…, int64 val, …)`. -/
def marshalInt64 (fieldNumber : BitVec 32) (val : Int64) : Marshaller → Marshaller :=
  marshalScalar V fieldNumber .varInt (val = 0) (V.writeSint64 val)

/-- `marshal_field(…, uint32 val, …)`. -/
def marshalUint32 (fieldNumber : BitVec 32) (val : UInt32) : Marshaller → Marshaller :=
  marshalScalar V fieldNumber .varInt (val = 0) (V.writeUint32 val)

/-- `marshal_field(…, uint64 val, …)`. -/
def marshalUint64 (fieldNumber : BitVec 32) (val : UInt64) : Marshaller → Marshaller :=
  marshalScalar V fieldNumber .varInt (val = 0) (V.writeUint64 val)

/-- `marshal_field(…, bool val, …)`: the payload is `write_byte(1)`. -/
def marshalBool (fieldNumber : BitVec 32) (val : Bool) : Marshaller → Marshaller :=
  marshalScalar V fieldNumber .varInt (!val) [1]

/-- `marshal_field(…, float32 val, …)`: four bytes, little-endian. -/
def marshalFloat32 (fieldNumber : BitVec 32) (bits : UInt32) : Marshaller → Marshaller :=
  marshalScalar V fieldNumber .i32 (isZero32 bits) (LittleEndian.bytes 4 bits.toNat)

/-- `marshal_field(…, float64 val, …)`: eight bytes, little-endian. -/
def marshalFloat64 (fieldNumber : BitVec 32) (bits : UInt64) : Marshaller → Marshaller :=
  marshalScalar V fieldNumber .i64 (isZero64 bits) (LittleEndian.bytes 8 bits.toNat)

/-- `marshal_field(…, str s, …)` (encoding_impl.cc:254-279): the source writes out
the body of `write_tags` again, then writes the length and the bytes. -/
def marshalStr (fieldNumber : BitVec 32) (s : List UInt8) (m : Marshaller) : Marshaller :=
  if s.length = 0 then m
  else
    let m' := writeTags V fieldNumber .len m
    if m'.out.err.isSome then m'
    else
      let out := m'.out.write (V.writeUnsigned s.length) .baselib
      if out.err.isSome then { m' with out }
      else { m' with out := out.write s .baselib }

/-- The overload of `marshal_field` for a storage type. -/
def StorageType.marshalField (fieldNumber : BitVec 32) :
    (s : StorageType) → s.Val → Marshaller → Marshaller
  | .int32, val => marshalInt32 V fieldNumber val
  | .int64, val => marshalInt64 V fieldNumber val
  | .uint32, val => marshalUint32 V fieldNumber val
  | .uint64, val => marshalUint64 V fieldNumber val
  | .bool, val => marshalBool V fieldNumber val
  | .float32, val => marshalFloat32 V fieldNumber val
  | .float64, val => marshalFloat64 V fieldNumber val
  | .inlineString _, val => marshalStr V fieldNumber val.data

/-- `marshal_field` for a message (encoding.cc:77-92), with the message's own
`marshal` as an argument. -/
def marshalFieldMessage (fieldNumber : BitVec 32)
    (marshal : Marshaller → Except Panic Marshaller) (m : Marshaller) :
    Except Panic Marshaller := do
  let stack ← m.stack.push fieldNumber
  let m' ← marshal { m with stack }
  if m'.out.err.isSome then return m'
  if m'.stack.size = 0 then
    return { m' with out := m'.out.write [endByte] .baselib }
  else
    let stack ← m'.stack.pop
    return { m' with stack }

/-- `marshal_field` for a vector (encoding.cc:111-121). -/
def marshalFieldVector {α : Type} (marshalField : α → Marshaller → Except Panic Marshaller) :
    List α → Marshaller → Except Panic Marshaller
  | [], m => return m
  | value :: vec, m => do
    let m' ← marshalField value m
    if m'.out.err.isSome then return m'
    marshalFieldVector marshalField vec m'

mutual

/-- The `marshal_field` a field's type selects. -/
def FieldKind.marshalField (fieldNumber : BitVec 32) :
    (k : FieldKind) → k.Val → Marshaller → Except Panic Marshaller
  | .scalar type, val, m => return type.storage.marshalField V fieldNumber val m
  | .message type, msg, m => marshalFieldMessage fieldNumber (type.marshal msg) m
  | .repeated type, vec, m =>
    marshalFieldVector (fun msg => marshalFieldMessage fieldNumber (type.marshal msg)) vec m

/-- The generated `T::marshal` (`SerializerBody`, protoc_serialrpc_plugin.cc:1436-1466). -/
def MessageType.marshal : (T : MessageType) → T.Val → Marshaller → Except Panic Marshaller
  | .empty, _, m => return m
  | .field number kind rest, (val, msg), m => do
    let m' ← kind.marshalField number val m
    if m'.out.err.isSome then return m'
    rest.marshal msg m'

end

/-- `marshal` of a whole message (encoding.cc:123-131). -/
def marshal (T : MessageType) (t : T.Val) (out : Writer Err) : Except Panic (Writer Err) := do
  let m ← T.marshal V t { out, stack := .empty }
  if m.out.err.isSome then return m.out
  return m.out.write [endByte] .baselib

end SerialRpc
