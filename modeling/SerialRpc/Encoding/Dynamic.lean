import Mathlib.Data.List.Dedup
import SerialRpc.Encoding.Marshal
import SerialRpc.Encoding.Unmarshal
import SerialRpc.Lib.Rank

/-!
# The command-line client's codec (call.cc:44-255, 414-425)

`serialrpc call` has no generated types. It builds protobuf messages from the types the
server lists, and encodes and decodes them through protobuf's reflection: it asks a
message for its set fields, and a descriptor for the field of a number.

- `CppType`: the kinds reflection groups fields into.
- `MessageType.Dynamic`: what a protobuf message of a type holds. Its strings have no
  bound, and a singular message may be absent.
- `ListsSetFields`: what protobuf documents of `Reflection::ListFields`, which is a
  parameter, as is baselib's `io::Reader::skip`.
- `cliMarshal`, `cliUnmarshal`: `detail::marshal` and `detail::unmarshal`.
-/

namespace SerialRpc

open ByteStream

/-- `FieldDescriptor::CppType`, of fields that are not messages. -/
inductive CppType where
  | int32
  | int64
  | uint32
  | uint64
  | double
  | float
  | bool
  | enum
  | string
deriving DecidableEq, Repr

/-- `FieldDescriptor::cpp_type`. -/
@[reducible] def ScalarType.cppType : ScalarType → CppType
  | .double => .double
  | .float => .float
  | .int64 => .int64
  | .uint64 => .uint64
  | .int32 => .int32
  | .fixed64 => .uint64
  | .fixed32 => .uint32
  | .bool => .bool
  | .string _ => .string
  | .bytes _ => .string
  | .uint32 => .uint32
  | .enum => .enum
  | .sfixed32 => .int32
  | .sfixed64 => .int64

/-- What reflection gets and sets. Floating-point numbers are their bit patterns. -/
@[reducible] def CppType.Val : CppType → Type
  | .int32 => Int32
  | .int64 => Int64
  | .uint32 => UInt32
  | .uint64 => UInt64
  | .double => UInt64
  | .float => UInt32
  | .bool => Bool
  | .enum => Int32
  | .string => List UInt8

/-- The value of a field that was never set. -/
def CppType.default : (c : CppType) → c.Val
  | .int32 => 0
  | .int64 => 0
  | .uint32 => 0
  | .uint64 => 0
  | .double => 0
  | .float => 0
  | .bool => false
  | .enum => 0
  | .string => []

/-- What `val == 0` accepts, and its like for strings. -/
def CppType.isZero : (c : CppType) → c.Val → Bool
  | .int32, val => decide (val = 0)
  | .int64, val => decide (val = 0)
  | .uint32, val => decide (val = 0)
  | .uint64, val => decide (val = 0)
  | .double, bits => isZero64 bits
  | .float, bits => isZero32 bits
  | .bool, val => !val
  | .enum, val => decide (val = 0)
  | .string, s => decide (s.length = 0)

instance : (c : CppType) → DecidableEq c.Val
  | .int32 => inferInstanceAs (DecidableEq Int32)
  | .int64 => inferInstanceAs (DecidableEq Int64)
  | .uint32 => inferInstanceAs (DecidableEq UInt32)
  | .uint64 => inferInstanceAs (DecidableEq UInt64)
  | .double => inferInstanceAs (DecidableEq UInt64)
  | .float => inferInstanceAs (DecidableEq UInt32)
  | .bool => inferInstanceAs (DecidableEq Bool)
  | .enum => inferInstanceAs (DecidableEq Int32)
  | .string => inferInstanceAs (DecidableEq (List UInt8))

theorem CppType.default_isZero (c : CppType) : c.isZero c.default = true := by
  cases c <;> rfl

mutual

/-- What a protobuf message holds in a field. -/
@[reducible] def FieldKind.Dynamic : FieldKind → Type
  | .scalar type => type.cppType.Val
  | .message type => Option type.Dynamic
  | .repeated type => List type.Dynamic

/-- What a protobuf message of a type holds. -/
@[reducible] def MessageType.Dynamic : MessageType → Type
  | .empty => Unit
  | .field _ kind rest => kind.Dynamic × rest.Dynamic

end

def FieldKind.dynamicDefault : (k : FieldKind) → k.Dynamic
  | .scalar type => type.cppType.default
  | .message _ => none
  | .repeated _ => []

/-- `prototype->New()`. -/
def MessageType.dynamicDefault : (T : MessageType) → T.Dynamic
  | .empty => ()
  | .field _ kind rest => (kind.dynamicDefault, rest.dynamicDefault)

mutual

/-- How many message levels a field holds. -/
def FieldKind.dynamicDepth : (k : FieldKind) → k.Dynamic → Nat
  | .scalar _, _ => 0
  | .message _, none => 0
  | .message type, some msg => type.dynamicDepth msg + 1
  | .repeated type, vec => maximum (vec.map fun msg => type.dynamicDepth msg + 1)

/-- The nesting depth of a protobuf message. An absent message does not count. -/
def MessageType.dynamicDepth : (T : MessageType) → T.Dynamic → Nat
  | .empty, _ => 0
  | .field _ kind rest, (val, msg) => max (kind.dynamicDepth val) (rest.dynamicDepth msg)

end

/-! ## Reflection -/

/-- Whether a field is set: it is not what a new message holds. -/
def FieldKind.isSet : (k : FieldKind) → k.Dynamic → Bool
  | .scalar type, val => decide (val ≠ type.cppType.default)
  | .message _, msg => msg.isSome
  | .repeated _, vec => !vec.isEmpty

/-- Whether a field is set to something else than a negative zero. -/
def FieldKind.isNonzero : (k : FieldKind) → k.Dynamic → Bool
  | .scalar type, val => !type.cppType.isZero val
  | .message _, msg => msg.isSome
  | .repeated _, vec => !vec.isEmpty

theorem FieldKind.isSet_of_isNonzero {k : FieldKind} {val : k.Dynamic}
    (h : k.isNonzero val = true) : k.isSet val = true := by
  cases k with
  | scalar type =>
    simp only [isNonzero, Bool.not_eq_true'] at h
    refine decide_eq_true ?_
    rintro rfl
    exact absurd (type.cppType.default_isZero.symm.trans h) (by decide)
  | message => exact h
  | repeated => exact h

/-- Whether a message has a field of a number, and what it holds has a property. -/
def MessageType.fieldHas (p : (k : FieldKind) → k.Dynamic → Bool) :
    (T : MessageType) → BitVec 32 → T.Dynamic → Bool
  | .empty, _, _ => false
  | .field number kind rest, fieldNum, (val, msg) =>
    if fieldNum = number then p kind val else rest.fieldHas p fieldNum msg

theorem MessageType.mem_numbers_of_fieldHas {p : (k : FieldKind) → k.Dynamic → Bool}
    {fieldNum : BitVec 32} :
    ∀ {T : MessageType} {msg : T.Dynamic}, T.fieldHas p fieldNum msg = true →
      fieldNum ∈ T.numbers
  | .empty, _, h => absurd h Bool.false_ne_true
  | .field number kind rest, (val, msg), h => by
    simp only [MessageType.fieldHas] at h
    split at h
    case isTrue heq => exact heq ▸ List.mem_cons_self
    case isFalse => exact List.mem_cons_of_mem number (mem_numbers_of_fieldHas h)

theorem MessageType.fieldHas_mono {p q : (k : FieldKind) → k.Dynamic → Bool}
    (hpq : ∀ k val, p k val = true → q k val = true) {fieldNum : BitVec 32} :
    ∀ {T : MessageType} {msg : T.Dynamic}, T.fieldHas p fieldNum msg = true →
      T.fieldHas q fieldNum msg = true
  | .empty, _, h => absurd h Bool.false_ne_true
  | .field number kind rest, (val, msg), h => by
    simp only [MessageType.fieldHas] at h ⊢
    split at h
    case isTrue heq =>
      rw [if_pos heq]
      exact hpq kind val h
    case isFalse hne =>
      rw [if_neg hne]
      exact fieldHas_mono hpq h

/-- `Reflection::ListFields`: the numbers of the fields it lists. -/
abbrev ListFields := (T : MessageType) → T.Dynamic → List (BitVec 32)

/-- The documented behaviour of `ListFields`: the set fields, by number. Whether a negative
zero counts as set is left open. -/
structure ListsSetFields (listFields : ListFields) : Prop where
  increasing : ∀ T msg, Rank.Increasing BitVec.toNat (listFields T msg)
  isSet : ∀ T msg, ∀ number ∈ listFields T msg, T.fieldHas FieldKind.isSet number msg = true
  complete : ∀ T msg number, T.fieldHas FieldKind.isNonzero number msg = true →
    number ∈ listFields T msg

/-- The set fields, sorted. -/
def listFieldsByNumber : ListFields := fun T msg =>
  Rank.sortBy BitVec.toNat
    (T.numbers.filter fun number => T.fieldHas FieldKind.isSet number msg).dedup

theorem mem_listFieldsByNumber {T : MessageType} {msg : T.Dynamic} {number : BitVec 32} :
    number ∈ listFieldsByNumber T msg ↔ T.fieldHas FieldKind.isSet number msg = true := by
  rw [listFieldsByNumber, (Rank.sortBy_perm _ _).mem_iff, List.mem_dedup, List.mem_filter]
  exact ⟨And.right, fun h => ⟨T.mem_numbers_of_fieldHas h, h⟩⟩

theorem listFieldsByNumber_listsSetFields : ListsSetFields listFieldsByNumber where
  increasing T msg := by
    have hnodup := List.nodup_dedup
      (T.numbers.filter fun number => T.fieldHas FieldKind.isSet number msg)
    exact Rank.sortBy_increasing (hnodup.map fun _ _ => BitVec.eq_of_toNat_eq)
  isSet _ _ _ h := mem_listFieldsByNumber.mp h
  complete _ _ _ h :=
    mem_listFieldsByNumber.mpr
      (MessageType.fieldHas_mono (fun _ _ => FieldKind.isSet_of_isNonzero) h)

/-! ## The encoder -/

section Marshal

variable (V : Varint) (listFields : ListFields)

/-- The scalar cases of `marshal_field_value` (call.cc:54-109). -/
def CppType.marshalFieldValue (number : BitVec 32) : (c : CppType) → c.Val → Marshaller → Marshaller
  | .int32, val => marshalInt32 V number val
  | .int64, val => marshalInt64 V number val
  | .uint32, val => marshalUint32 V number val
  | .uint64, val => marshalUint64 V number val
  | .double, val => marshalFloat64 V number val
  | .float, val => marshalFloat32 V number val
  | .bool, val => marshalBool V number val
  | .enum, val => marshalInt32 V number val
  | .string, val => marshalStr V number val

/-- `marshal_message` (call.cc:129-149), with what it does for a listed field as an
argument. -/
def marshalListed (listed : List (BitVec 32))
    (marshalField : BitVec 32 → Marshaller → Except Panic Marshaller) (nesting : Int)
    (m : Marshaller) : Except Panic Marshaller :=
  if nesting < 0 then
    let err := m.out.err.or (some (.text "serialrpc: excessive message nesting"))
    .ok ⟨{ m.out with err }, m.stack⟩
  else marshalFieldVector marshalField listed m

mutual

/-- The calls of `marshal_field_value` for one field (call.cc:47-126, 140-147). The message
case writes out the body of the generated codec's template. -/
def FieldKind.marshalFieldValues (number : BitVec 32) :
    (k : FieldKind) → k.Dynamic → Int → Marshaller → Except Panic Marshaller
  | .scalar type, val, _, m => return type.cppType.marshalFieldValue V number val m
  | .message type, msg, nesting, m =>
    let value := msg.getD type.dynamicDefault
    marshalFieldMessage number
      (marshalListed (listFields type value)
        (fun number => type.marshalNumber number value (nesting - 1)) (nesting - 1)) m
  | .repeated type, vec, nesting, m =>
    marshalFieldVector
      (fun value => marshalFieldMessage number
        (marshalListed (listFields type value)
          (fun number => type.marshalNumber number value (nesting - 1)) (nesting - 1)))
      vec m

/-- What the loop of `marshal_message` does for a listed field. -/
def MessageType.marshalNumber :
    (T : MessageType) → BitVec 32 → T.Dynamic → Int → Marshaller → Except Panic Marshaller
  | .empty, _, _, _, m => return m
  | .field number kind rest, fieldNum, (val, msg), nesting, m =>
    if fieldNum = number then kind.marshalFieldValues number val nesting m
    else rest.marshalNumber fieldNum msg nesting m

end

/-- `marshal_message`. -/
def MessageType.marshalMessage (T : MessageType) (msg : T.Dynamic) (nesting : Int) :
    Marshaller → Except Panic Marshaller :=
  marshalListed (listFields T msg) (fun number => T.marshalNumber V listFields number msg nesting)
    nesting

/-- `detail::marshal` (call.cc:414-420). -/
def cliMarshal (T : MessageType) (msg : T.Dynamic) (out : Writer Err) :
    Except Panic (Writer Err) := do
  let m ← T.marshalMessage V listFields msg MaxNesting ⟨out, .empty⟩
  if m.out.err.isSome then return m.out
  return m.out.write [endByte] .baselib

end Marshal

/-! ## The decoder -/

section Unmarshal

variable (V : Varint) (readerSkip : Int → Read (List UInt8))

/-- `unmarshal<str>` (encoding_impl.cc:170-184): a view of the reader's next bytes. -/
def unmarshalStr (inp : In) : List UInt8 × In :=
  let n := inp.read V.readUnsigned .baselib
  if n.2.err.isSome then ([], n.2)
  else
    let s := n.2.read (readerSkip n.1) .baselib
    if s.2.err.isSome then ([], s.2)
    else if (s.1.length : Int) ≠ n.1 then (s.1, s.2.report (.text "str unmarhsal short read"))
    else s

/-- The `unmarshal` of a scalar case of `unmarshal_message`. -/
def CppType.unmarshal : (c : CppType) → In → c.Val × In
  | .int32, inp => inp.read V.readSint32 .baselib
  | .int64, inp => inp.read V.readSint64 .baselib
  | .uint32, inp => inp.read V.readUint32 .baselib
  | .uint64, inp => inp.read V.readUint64 .baselib
  | .double, inp => unmarshalFloat64 inp
  | .float, inp => unmarshalFloat32 inp
  | .bool, inp => unmarshalBool inp
  | .enum, inp => inp.read V.readSint32 .baselib
  | .string, inp => unmarshalStr V readerSkip inp

/-- What the loop of `unmarshal_message` does with a field, over its `switch`. Unlike the
generated loop it looks at the error behind every field. -/
def dynamicField {α : Type} (switch : Switch α) (nesting : Int) (tag : Tag) : Body α Err :=
  fun msg inp =>
    match switch tag.fieldNum msg inp with
    | some next => ⟨next.2.err.isNone, next.1, next.2⟩
    | none =>
      let after := SerialRpc.skip V tag.type nesting inp
      ⟨after.err.isNone, msg, after⟩

/-- `unmarshal_message` (call.cc:161-255), with its `switch` as an argument. -/
def unmarshalInto {α : Type} (switch : Switch α) (nesting : Int) (msg : α) (inp : In) : α × In :=
  if nesting < 0 then (msg, inp.report (.text "serialrpc: excessive message nesting"))
  else Reader.loop (tagRound V (dynamicField V switch nesting)) msg inp

mutual

/-- A case of the `switch`: `Set…` or `Add…`, and `MutableMessage` or `AddMessage` for a
message, which goes on in the message that is there. -/
def FieldKind.unmarshalDynamic : (k : FieldKind) → Int → k.Dynamic → In → k.Dynamic × In
  | .scalar type, _, _, inp => type.cppType.unmarshal V readerSkip inp
  | .message type, nesting, msg, inp =>
    let value := unmarshalInto V (type.dynamicSwitch (nesting - 1)) (nesting - 1)
      (msg.getD type.dynamicDefault) inp
    (some value.1, value.2)
  | .repeated type, nesting, vec, inp =>
    let value := unmarshalInto V (type.dynamicSwitch (nesting - 1)) (nesting - 1)
      type.dynamicDefault inp
    (vec ++ [value.1], value.2)

/-- `FindFieldByNumber`, and the `switch` on the field's `cpp_type`. -/
def MessageType.dynamicSwitch : (T : MessageType) → Int → Switch T.Dynamic
  | .empty, _, _, _, _ => none
  | .field number kind rest, nesting, fieldNum, (val, msg), inp =>
    if fieldNum = number then
      let field := kind.unmarshalDynamic nesting val inp
      some ((field.1, msg), field.2)
    else
      (rest.dynamicSwitch nesting fieldNum msg inp).map fun next => ((val, next.1), next.2)

end

/-- `detail::unmarshal` (call.cc:422-424). -/
def cliUnmarshal (T : MessageType) (msg : T.Dynamic) (inp : In) : T.Dynamic × In :=
  unmarshalInto V (T.dynamicSwitch V readerSkip MaxNesting) MaxNesting msg inp

end Unmarshal

end SerialRpc
