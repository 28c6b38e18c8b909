import SerialRpc.Encoding.Reference
import SerialRpc.Encoding.Unmarshal

/-!
# Decoding round by round

The decoder reads a message back one tag at a time. A `Rounds` derivation is such a
reading: its rounds are the loop's, each one a tag and a payload that the `switch` turns
into a new message, with any bytes behind. Rounds compose (`Rounds.trans`), they lift from
one field's case and from the fields behind it to the whole `switch` (`Rounds.lift`), and
the loop runs them and stops at the `End` (`Rounds.messageLoop_eq`).

- `MessageType.received`: what comes back. Elements of repeated fields that encode to
  nothing are gone, and the two floating-point zeros are one.
- `StorageType.unmarshal_payload`, `FieldKind.scalar_rounds`: a scalar is read back.
-/

namespace SerialRpc

open ByteStream

/-! ## What comes back -/

mutual

/-- Whether a field encodes to nothing. -/
def FieldKind.isDefault : (k : FieldKind) → k.Val → Bool
  | .scalar type, val => type.storage.isDefault val
  | .message type, msg => type.isDefault msg
  | .repeated type, vec => vec.all type.isDefault

/-- Whether a message encodes to nothing: all its fields are defaults, recursively. -/
def MessageType.isDefault : (T : MessageType) → T.Val → Bool
  | .empty, _ => true
  | .field _ kind rest, (val, msg) => kind.isDefault val && rest.isDefault msg

end

mutual

/-- A field with the elements that encode to nothing removed at every level. -/
def FieldKind.received : (k : FieldKind) → k.Val → k.Val
  | .scalar type, val => type.storage.identifyZeros val
  | .message type, msg => type.received msg
  | .repeated type, vec =>
    (vec.filter fun msg => !type.isDefault msg).map type.received

/-- A message with the elements of repeated fields that encode to nothing removed at
every level, and the two zeros identified. -/
def MessageType.received : (T : MessageType) → T.Val → T.Val
  | .empty, _ => ()
  | .field _ kind rest, (val, msg) => (kind.received val, rest.received msg)

end

/-- A default comes back as the default. -/
theorem StorageType.identifyZeros_of_isDefault (s : StorageType) (val : s.Val)
    (h : s.isDefault val = true) : s.identifyZeros val = s.default := by
  cases s with
  | int32 => exact of_decide_eq_true h
  | int64 => exact of_decide_eq_true h
  | uint32 => exact of_decide_eq_true h
  | uint64 => exact of_decide_eq_true h
  | bool => exact Bool.not_eq_true' val |>.mp h
  | float32 => exact if_pos h
  | float64 => exact if_pos h
  | inlineString capacity =>
    exact InlineString.ext (List.eq_nil_of_length_eq_zero (of_decide_eq_true h))

/-- What is not a default comes back as it is. -/
theorem StorageType.identifyZeros_of_not_isDefault (s : StorageType) (val : s.Val)
    (h : s.isDefault val = false) : s.identifyZeros val = val := by
  cases s with
  | float32 => exact if_neg (Bool.eq_false_iff.mp h)
  | float64 => exact if_neg (Bool.eq_false_iff.mp h)
  | _ => rfl

mutual

theorem FieldKind.received_of_isDefault :
    ∀ (k : FieldKind) (val : k.Val), k.isDefault val = true → k.received val = k.default
  | .scalar type, val, h => type.storage.identifyZeros_of_isDefault val h
  | .message type, msg, h => type.received_of_isDefault msg h
  | .repeated type, vec, h => by
    have hnone : vec.filter (fun msg => !type.isDefault msg) = [] := by
      simpa [FieldKind.isDefault] using h
    rw [FieldKind.received, hnone]
    rfl

/-- A message that encodes to nothing comes back as the default message. -/
theorem MessageType.received_of_isDefault :
    ∀ (T : MessageType) (msg : T.Val), T.isDefault msg = true → T.received msg = T.default
  | .empty, _, _ => rfl
  | .field _ kind rest, (val, msg), h => by
    obtain ⟨hval, hmsg⟩ := Bool.and_eq_true_iff.mp h
    exact Prod.ext (kind.received_of_isDefault val hval) (rest.received_of_isDefault msg hmsg)

end

section Bytes

variable {V : Varint}

/-- Nothing is written of a scalar exactly if it is a default. -/
theorem StorageType.ref_eq_nil_iff (hV : V.Lawful) (number : BitVec 32) (s : StorageType)
    (val : s.Val) : s.ref V number val = [] ↔ s.isDefault val = true := by
  unfold StorageType.ref
  split
  · rename_i h
    exact iff_of_true rfl h
  · rename_i h
    exact iff_of_false
      (List.append_ne_nil_of_left_ne_nil (hV.writeUint32_ne_nil _) _) h

/-- No scalar has the wire type of an `End`. -/
theorem StorageType.wireType_ne_endTag (s : StorageType) : s.wireType ≠ .endTag := by
  cases s <;> exact nofun

/-- A nested message without bytes is left out. -/
theorem wrap_eq_nil_iff {number : BitVec 32} {child : List UInt8} :
    wrap V number child = [] ↔ child = [] := by
  unfold wrap
  split
  · rename_i h
    exact iff_of_true rfl h
  · rename_i h
    exact iff_of_false (by simp) h

mutual

theorem FieldKind.ref_eq_nil_iff (hV : V.Lawful) (number : BitVec 32) :
    ∀ (k : FieldKind) (val : k.Val), k.ref V number val = [] ↔ k.isDefault val = true
  | .scalar type, val => type.storage.ref_eq_nil_iff hV number val
  | .message type, msg => wrap_eq_nil_iff.trans (type.ref_eq_nil_iff hV msg)
  | .repeated type, vec => by
    have hmsg : ∀ msg, wrap V number (type.ref V msg) = [] ↔ type.isDefault msg = true :=
      fun msg => wrap_eq_nil_iff.trans (type.ref_eq_nil_iff hV msg)
    rw [FieldKind.ref, FieldKind.isDefault, List.flatMap_eq_nil_iff, List.all_eq_true]
    exact forall₂_congr fun msg _ => hmsg msg

/-- A message has no reference bytes exactly when it is default. -/
theorem MessageType.ref_eq_nil_iff (hV : V.Lawful) :
    ∀ (T : MessageType) (msg : T.Val), T.ref V msg = [] ↔ T.isDefault msg = true
  | .empty, _ => iff_of_true rfl rfl
  | .field number kind rest, (val, msg) => by
    rw [MessageType.ref, MessageType.isDefault, List.append_eq_nil_iff, Bool.and_eq_true_iff,
      kind.ref_eq_nil_iff hV number val, rest.ref_eq_nil_iff hV msg]

end

/-! ## Scalars -/

/-- The four bytes of a `float32` are read back. -/
theorem unmarshalFloat32_bytes (bits : UInt32) (rest : List UInt8) :
    unmarshalFloat32 (.ofBytes (LittleEndian.bytes 4 bits.toNat ++ rest)) =
      (bits, .ofBytes rest) := by
  have hread := Reader.read_ofBytes
    (Read.full_reads (LittleEndian.bytes 4 bits.toNat)) Err.baselib rest
  rw [LittleEndian.length_bytes] at hread
  have hvalue := LittleEndian.value_bytes (n := 4) bits.toNat_lt
  simp [unmarshalFloat32, hread, hvalue]

theorem unmarshalFloat64_bytes (bits : UInt64) (rest : List UInt8) :
    unmarshalFloat64 (.ofBytes (LittleEndian.bytes 8 bits.toNat ++ rest)) =
      (bits, .ofBytes rest) := by
  have hread := Reader.read_ofBytes
    (Read.full_reads (LittleEndian.bytes 8 bits.toNat)) Err.baselib rest
  rw [LittleEndian.length_bytes] at hread
  have hvalue := LittleEndian.value_bytes (n := 8) bits.toNat_lt
  simp [unmarshalFloat64, hread, hvalue]

theorem unmarshalInlineString_bytes (hV : V.Lawful) {capacity : Nat}
    (hcapacity : capacity < 2 ^ 63) (s : InlineString capacity) (rest : List UInt8) :
    unmarshalInlineString V capacity
        (.ofBytes (V.writeUnsigned s.data.length ++ s.data ++ rest)) = (s, .ofBytes rest) := by
  have hlen := Reader.read_ofBytes
    (hV.unsigned s.data.length (s.length_le.trans_lt hcapacity)) Err.baselib (s.data ++ rest)
  have hdata := Reader.read_ofBytes (Read.full_reads s.data) Err.baselib rest
  have hfits : ¬ ((s.data.length : Int) > capacity) := by
    have := s.length_le
    omega
  rw [List.append_assoc]
  simp [unmarshalInlineString, unmarshalBytes, hlen, hfits, hdata, RawBytes.toInlineString,
    s.length_le]

/-- `unmarshal` of a scalar reads back a payload that was written. -/
theorem StorageType.unmarshal_payload (hV : V.Lawful) (s : StorageType) (hbounded : s.Bounded)
    (val : s.Val) (h : s.isDefault val = false) (rest : List UInt8) :
    s.unmarshal V (.ofBytes (s.payload V val ++ rest)) = (val, .ofBytes rest) := by
  cases s with
  | int32 => exact Reader.read_ofBytes (hV.sint32 _) _ rest
  | int64 => exact Reader.read_ofBytes (hV.sint64 _) _ rest
  | uint32 => exact Reader.read_ofBytes (hV.uint32 _) _ rest
  | uint64 => exact Reader.read_ofBytes (hV.uint64 _) _ rest
  | bool =>
    have htrue : val = true := by simpa [StorageType.isDefault] using h
    rw [htrue]
    rfl
  | float32 => exact unmarshalFloat32_bytes _ rest
  | float64 => exact unmarshalFloat64_bytes _ rest
  | inlineString capacity =>
    exact unmarshalInlineString_bytes hV (lt_trans hbounded (by decide)) _ rest

/-! ## Rounds of the loop -/

/-- The rounds a `switch` makes over some bytes, from one message to another. -/
inductive Rounds (V : Varint) {α : Type} (switch : Switch α) : α → List UInt8 → α → Prop
  | nil (msg : α) : Rounds V switch msg [] msg
  | cons {number : BitVec 32} {type : WireType} {payload bytes : List UInt8} {msg msg' msg'' : α} :
      number.toNat < 2 ^ 28 → type ≠ .endTag →
      (∀ rest, switch number msg (.ofBytes (payload ++ rest)) = some (msg', .ofBytes rest)) →
      Rounds V switch msg' bytes msg'' →
      Rounds V switch msg (tagBytes V number type ++ payload ++ bytes) msg''

namespace Rounds

variable {α β : Type} {switch : Switch α} {switch' : Switch β}

/-- A field that its case reads is one round. -/
theorem one {number : BitVec 32} {type : WireType} {payload : List UInt8} {msg msg' : α}
    (hnumber : number.toNat < 2 ^ 28) (htype : type ≠ .endTag)
    (h : ∀ rest, switch number msg (.ofBytes (payload ++ rest)) = some (msg', .ofBytes rest)) :
    Rounds V switch msg (tagBytes V number type ++ payload) msg' := by
  simpa using Rounds.cons hnumber htype h (.nil msg')

/-- Rounds go on behind rounds. -/
theorem trans {as bs : List UInt8} {msg msg' msg'' : α} (h : Rounds V switch msg as msg')
    (h' : Rounds V switch msg' bs msg'') : Rounds V switch msg (as ++ bs) msg'' := by
  induction h with
  | nil => exact h'
  | cons hnumber htype hswitch _ ih =>
    rw [List.append_assoc]
    exact .cons hnumber htype hswitch (ih h')

/-- Rounds lift along a map of messages that takes one `switch`'s steps to another's. -/
theorem lift (f : α → β)
    (hf : ∀ number msg msg' inp inp', switch number msg inp = some (msg', inp') →
      switch' number (f msg) inp = some (f msg', inp'))
    {bytes : List UInt8} {msg msg' : α} (h : Rounds V switch msg bytes msg') :
    Rounds V switch' (f msg) bytes (f msg') := by
  induction h with
  | nil msg => exact .nil (f msg)
  | cons hnumber htype hswitch _ ih =>
    exact .cons hnumber htype (fun rest => hf _ _ _ _ _ (hswitch rest)) ih

/-- The loop makes the rounds and goes on behind them. -/
theorem messageLoop_append (hV : V.Lawful) (hs : switch.Consumes) (nesting : Int)
    {bytes : List UInt8} {msg msg' : α} (h : Rounds V switch msg bytes msg')
    (rest : List UInt8) :
    messageLoop V switch nesting msg (.ofBytes (bytes ++ rest)) =
      messageLoop V switch nesting msg' (.ofBytes rest) := by
  have hconsuming := messageField_consuming (V := V) hs nesting
  induction h with
  | nil msg => rfl
  | @cons number type payload bytes msg msg' msg'' hnumber htype hswitch _ ih =>
    rw [List.append_assoc, List.append_assoc]
    refine (tagLoop_writeTag hV hconsuming hnumber htype ?_).trans ih
    simp only [messageField, hswitch]

/-- The loop makes the rounds and stops at the `End` behind them. -/
theorem messageLoop_eq (hV : V.Lawful) (hs : switch.Consumes) (nesting : Int)
    {bytes : List UInt8} {msg msg' : α} (h : Rounds V switch msg bytes msg')
    (rest : List UInt8) :
    messageLoop V switch nesting msg (.ofBytes (bytes ++ endByte :: rest)) =
      (msg', .ofBytes rest) := by
  rw [h.messageLoop_append hV hs nesting (endByte :: rest)]
  exact tagLoop_endByte hV (messageField_consuming hs nesting) msg' rest

end Rounds

/-! ## The rounds of a message -/

/-- The `switch` with the one case of a field. -/
def FieldKind.case (V : Varint) (number : BitVec 32) (k : FieldKind) (nesting : Int) :
    Switch k.Val :=
  fun fieldNum val inp => if fieldNum = number then some (k.unmarshal V nesting val inp) else none

/-- A case of the switch is that of a number of the type. -/
theorem MessageType.switch_mem_numbers {fieldNum : BitVec 32} {nesting : Int} {inp : In} :
    ∀ {T : MessageType} {msg : T.Val} {next : T.Val × In},
      T.switch V nesting fieldNum msg inp = some next → fieldNum ∈ T.numbers
  | .empty, _, _, h => by cases h
  | .field number kind rest, (val, msg), next, h => by
    simp only [MessageType.switch] at h
    split at h
    · rename_i heq
      exact heq ▸ List.mem_cons_self
    · obtain ⟨next', hnext', -⟩ := Option.map_eq_some_iff.mp h
      exact List.mem_cons_of_mem number (switch_mem_numbers hnext')

/-- The rounds of the first field's case are rounds of the whole `switch`. -/
theorem Rounds.head {number : BitVec 32} {kind : FieldKind} {rest : MessageType} {nesting : Int}
    {bytes : List UInt8} {val val' : kind.Val} (msg : rest.Val)
    (h : Rounds V (kind.case V number nesting) val bytes val') :
    Rounds V ((MessageType.field number kind rest).switch V nesting) (val, msg) bytes
      (val', msg) := by
  refine h.lift (β := kind.Val × rest.Val) (fun v => (v, msg)) ?_
  intro fieldNum v v' inp inp' hcase
  simp only [FieldKind.case] at hcase
  split at hcase
  · rename_i heq
    have hval := Option.some.inj hcase
    simp only [MessageType.switch, heq, if_true, hval]
  · cases hcase

/-- The rounds of the other fields are too, since none of them has the first one's
number. -/
theorem Rounds.tail {number : BitVec 32} {kind : FieldKind} {rest : MessageType} {nesting : Int}
    {bytes : List UInt8} {msg msg' : rest.Val} (hnumber : number ∉ rest.numbers)
    (val : kind.Val) (h : Rounds V (rest.switch V nesting) msg bytes msg') :
    Rounds V ((MessageType.field number kind rest).switch V nesting) (val, msg) bytes
      (val, msg') := by
  refine h.lift (β := kind.Val × rest.Val) (fun m => (val, m)) ?_
  intro fieldNum m m' inp inp' hswitch
  have hne : fieldNum ≠ number := fun heq =>
    hnumber (heq ▸ MessageType.switch_mem_numbers hswitch)
  simp only [MessageType.switch, hne, if_false, hswitch, Option.map_some]

/-- The rounds of a scalar: none, or one. -/
theorem FieldKind.scalar_rounds (hV : V.Lawful) {number : BitVec 32}
    (hnumber : number.toNat < 2 ^ 28) (type : ScalarType) (hbounded : type.storage.Bounded)
    (val : type.storage.Val) (nesting : Int) :
    Rounds V (FieldKind.case V number (.scalar type) nesting) type.storage.default
      (type.storage.ref V number val) (type.storage.identifyZeros val) := by
  cases hval : type.storage.isDefault val with
  | true =>
    have href := (type.storage.ref_eq_nil_iff hV number val).mpr hval
    have hreceived := type.storage.identifyZeros_of_isDefault val hval
    rw [href, hreceived]
    exact .nil _
  | false =>
    have hreceived := type.storage.identifyZeros_of_not_isDefault val hval
    simp only [StorageType.ref, hval, hreceived]
    refine Rounds.one hnumber type.storage.wireType_ne_endTag fun rest => ?_
    simp only [FieldKind.case, if_true]
    exact congrArg some (type.storage.unmarshal_payload hV hbounded val hval rest)

end Bytes

end SerialRpc
