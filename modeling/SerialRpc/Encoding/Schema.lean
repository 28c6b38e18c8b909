import SerialRpc.Encoding.Tag

/-!
# Message types and their values (protoc_serialrpc_plugin.cc, serialrpc_objects.cc)

The message types the generator emits a codec for. A field is a scalar, a
singular message or a repeated message; a message type lists its fields in
declaration order. The generator resolves a field's message type among the types
already built (`EchoRoot::GetMessage`), so types nest finitely and the schema is
an inductive type.

- `ScalarType`: the field types of `EchoField::GenerateField`. Repeated scalars,
  `optional` fields and unbounded bytes are left out: no overload of the runtime's
  codec takes the C++ types the generator prints for them. So are unbounded
  strings, whose values are views into the reader's buffer (`lib::str`).
- `ScalarType.storage`: `StorageTypeVisitor`, with the enumeration's cast to
  `int32` (protoc_serialrpc_plugin.cc:1447, 1498).
- `MessageType.Val`: the generated struct. Its bounded strings carry their bound
  (`InlineString`), so a value that does not fit cannot be written down.
-/

namespace SerialRpc

/-- The proto types of scalar fields (`EchoField::GenerateField`,
serialrpc_objects.cc:248-311), with `string_size` and `bytes_size`. -/
inductive ScalarType where
  | double
  | float
  | int64
  | uint64
  | int32
  | fixed64
  | fixed32
  | bool
  | string (size : Nat)
  | bytes (size : Nat)
  | uint32
  | enum
  | sfixed32
  | sfixed64
deriving DecidableEq, Repr

/-- The C++ types the codec is overloaded on. -/
inductive StorageType where
  | int32
  | int64
  | uint32
  | uint64
  | bool
  | float32
  | float64
  | inlineString (capacity : Nat)
deriving DecidableEq, Repr

/-- `StorageTypeVisitor` (protoc_serialrpc_plugin.cc:399-533): the type a field is
stored and encoded as. -/
@[reducible] def ScalarType.storage : ScalarType → StorageType
  | .double => .float64
  | .float => .float32
  | .int64 => .int64
  | .uint64 => .uint64
  | .int32 => .int32
  | .fixed64 => .uint64
  | .fixed32 => .uint32
  | .bool => .bool
  | .string size => .inlineString size
  | .bytes size => .inlineString size
  | .uint32 => .uint32
  | .enum => .int32
  | .sfixed32 => .int32
  | .sfixed64 => .int64

/-- `lib::InlineString<capacity>`: at most `capacity` bytes. -/
structure InlineString (capacity : Nat) where
  data : List UInt8
  length_le : data.length ≤ capacity
deriving DecidableEq

/-- The empty string, which fits everywhere. -/
def InlineString.empty {capacity : Nat} : InlineString capacity :=
  ⟨[], Nat.zero_le capacity⟩

@[ext] theorem InlineString.ext {capacity : Nat} {s t : InlineString capacity}
    (h : s.data = t.data) : s = t := by
  cases s
  cases t
  cases h
  rfl

/-- Values of a storage type. Floating-point numbers are their bit patterns. -/
@[reducible] def StorageType.Val : StorageType → Type
  | .int32 => Int32
  | .int64 => Int64
  | .uint32 => UInt32
  | .uint64 => UInt64
  | .bool => Bool
  | .float32 => UInt32
  | .float64 => UInt64
  | .inlineString capacity => InlineString capacity

instance : (s : StorageType) → DecidableEq s.Val
  | .int32 => inferInstanceAs (DecidableEq Int32)
  | .int64 => inferInstanceAs (DecidableEq Int64)
  | .uint32 => inferInstanceAs (DecidableEq UInt32)
  | .uint64 => inferInstanceAs (DecidableEq UInt64)
  | .bool => inferInstanceAs (DecidableEq Bool)
  | .float32 => inferInstanceAs (DecidableEq UInt32)
  | .float64 => inferInstanceAs (DecidableEq UInt64)
  | .inlineString capacity => inferInstanceAs (DecidableEq (InlineString capacity))

/-- The value a member initialized with `{}` has. -/
def StorageType.default : (s : StorageType) → s.Val
  | .int32 => 0
  | .int64 => 0
  | .uint32 => 0
  | .uint64 => 0
  | .bool => false
  | .float32 => 0
  | .float64 => 0
  | .inlineString _ => InlineString.empty

/-- The bit patterns of the two zeros: what `val == 0` accepts. -/
def isZero32 (bits : UInt32) : Bool := bits = 0 || bits = 0x80000000

/-- The bit patterns of the two zeros of a `float64`. -/
def isZero64 (bits : UInt64) : Bool := bits = 0 || bits = 0x8000000000000000

/-- The value with its two zeros identified: a floating-point zero of either sign
is `+0`, everything else is itself. -/
def StorageType.identifyZeros : (s : StorageType) → s.Val → s.Val
  | .float32, bits => if isZero32 bits then 0 else bits
  | .float64, bits => if isZero64 bits then 0 else bits
  | .int32, v => v
  | .int64, v => v
  | .uint32, v => v
  | .uint64, v => v
  | .bool, v => v
  | .inlineString _, v => v

mutual

/-- The kind of a field. -/
inductive FieldKind where
  | scalar (type : ScalarType)
  | message (type : MessageType)
  | repeated (type : MessageType)

/-- A message type: its fields in declaration order, each with its number. -/
inductive MessageType where
  | empty
  | field (number : BitVec 32) (kind : FieldKind) (rest : MessageType)

end

mutual

/-- Values of a field; a repeated field is a `std::vector`. -/
@[reducible] def FieldKind.Val : FieldKind → Type
  | .scalar type => type.storage.Val
  | .message type => type.Val
  | .repeated type => List type.Val

/-- Values of a message type: the generated struct. -/
@[reducible] def MessageType.Val : MessageType → Type
  | .empty => Unit
  | .field _ kind rest => kind.Val × rest.Val

end

mutual

/-- The default value of a field. -/
def FieldKind.default : (k : FieldKind) → k.Val
  | .scalar type => type.storage.default
  | .message type => type.default
  | .repeated _ => []

/-- `T msg;`: every member initialized with `{}`. -/
def MessageType.default : (T : MessageType) → T.Val
  | .empty => ()
  | .field _ kind rest => (kind.default, rest.default)

end

namespace MessageType

/-- The field numbers of a message type. -/
def numbers : MessageType → List (BitVec 32)
  | .empty => []
  | .field number _ rest => number :: rest.numbers

end MessageType

/-- The bound of a string is a `uint32` option. -/
def StorageType.Bounded : StorageType → Prop
  | .inlineString capacity => capacity < 2 ^ 32
  | .int32 | .int64 | .uint32 | .uint64 | .bool | .float32 | .float64 => True

instance : (s : StorageType) → Decidable s.Bounded
  | .inlineString capacity => inferInstanceAs (Decidable (capacity < 2 ^ 32))
  | .int32 | .int64 | .uint32 | .uint64 | .bool | .float32 | .float64 =>
    inferInstanceAs (Decidable True)

mutual

/-- A field's type is well formed when its strings are bounded by the option, or its message
type is. -/
def FieldKind.WellFormed : FieldKind → Prop
  | .scalar type => type.storage.Bounded
  | .message type => type.WellFormed
  | .repeated type => type.WellFormed

/-- The field numbers of every message type, at every level, are pairwise distinct
and in `1 .. 2^28 - 1`. -/
def MessageType.WellFormed : MessageType → Prop
  | .empty => True
  | .field number kind rest =>
    0 < number.toNat ∧ number.toNat < 2 ^ 28 ∧ number ∉ rest.numbers ∧
      kind.WellFormed ∧ rest.WellFormed

end

/-- The greatest number of a list, 0 for the empty one. -/
def maximum (ns : List Nat) : Nat := ns.foldr max 0

theorem le_maximum {n : Nat} {ns : List Nat} (h : n ∈ ns) : n ≤ maximum ns := by
  induction ns with
  | nil => cases h
  | cons m ms ih =>
    show n ≤ max m (maximum ms)
    rcases List.mem_cons.mp h with rfl | h
    · exact Nat.le_max_left _ _
    · exact (ih h).trans (Nat.le_max_right _ _)

theorem maximum_le {b : Nat} {ns : List Nat} (h : ∀ n ∈ ns, n ≤ b) : maximum ns ≤ b := by
  induction ns with
  | nil => exact Nat.zero_le b
  | cons m ms ih =>
    exact Nat.max_le.mpr
      ⟨h m List.mem_cons_self, ih fun n hn => h n (List.mem_cons_of_mem m hn)⟩

mutual

/-- How many message levels a field's value adds. -/
def FieldKind.depth : (k : FieldKind) → k.Val → Nat
  | .scalar _, _ => 0
  | .message type, m => type.depth m + 1
  | .repeated type, vec => maximum (vec.map fun m => type.depth m + 1)

/-- The nesting depth of a value: 0 for a flat message. A singular message member
is always there, a repeated one counts by its elements. -/
def MessageType.depth : (T : MessageType) → T.Val → Nat
  | .empty, _ => 0
  | .field _ kind rest, (v, m) => max (kind.depth v) (rest.depth m)

end

mutual

/-- How many message levels a field's type adds. -/
def FieldKind.height : FieldKind → Nat
  | .scalar _ => 0
  | .message type => type.height + 1
  | .repeated type => type.height + 1

/-- How deep the values of a message type can nest. -/
def MessageType.height : MessageType → Nat
  | .empty => 0
  | .field _ kind rest => max kind.height rest.height

end

mutual

theorem FieldKind.depth_le_height : ∀ (k : FieldKind) (v : k.Val), k.depth v ≤ k.height
  | .scalar _, _ => Nat.le_refl 0
  | .message type, m => Nat.succ_le_succ (type.depth_le_height m)
  | .repeated type, vec => by
    refine maximum_le fun n hn => ?_
    obtain ⟨m, -, rfl⟩ := List.mem_map.mp hn
    exact Nat.succ_le_succ (type.depth_le_height m)

/-- No value nests deeper than its type. -/
theorem MessageType.depth_le_height : ∀ (T : MessageType) (m : T.Val), T.depth m ≤ T.height
  | .empty, _ => Nat.le_refl 0
  | .field _ kind rest, (v, m) =>
    max_le_max (kind.depth_le_height v) (rest.depth_le_height m)

end

end SerialRpc
