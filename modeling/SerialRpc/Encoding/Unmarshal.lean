import SerialRpc.Lib.LittleEndian
import SerialRpc.Encoding.Schema
import SerialRpc.Encoding.Skip

/-!
# The decoder (encoding.cc:133-140, encoding_impl.cc:95-179, 391-404)

`unmarshal<T>` is a loop over tags that dispatches on the field number alone: a
known field is read by its declared type whatever wire type the tag names, an
unknown one is passed to `skip`, and a tag of type `End` ends the message whatever
its number.

- `StorageType.unmarshal`: the overloads for scalars. Each looks at the error
  *after* its first read, so on a reader that already failed it returns its zero.
- `MessageType.switch`: the generated `switch (tag.field_num)`. No branch of it but
  the `default` looks at the error; the next `read_tag` does.
- `messageLoop`: the generated loop, over any `switch`; it is a loop over tags
  (`tagRound`).
-/

namespace SerialRpc

open ByteStream

variable (V : Varint)

/-! ## Scalars -/

/-- What `unmarshal_bytes` did: the length it returned, the bytes it put into the
buffer, and the end it sliced the buffer with, if it got that far. -/
structure RawBytes where
  length : Int
  data : List UInt8
  sliceEnd : Option Int

/-- `unmarshal_bytes` into a buffer of `capacity` bytes (encoding_impl.cc:391-404).
The length is a signed `size`, compared with the capacity from above only. -/
def unmarshalBytes (capacity : Nat) (inp : In) : RawBytes × In :=
  let n := inp.read V.readUnsigned .baselib
  if n.2.err.isSome then (⟨n.1, [], none⟩, n.2)
  else if n.1 > capacity then (⟨0, [], none⟩, n.2.report (.text "data too big"))
  else
    let bytes := n.2.read (Read.full n.1.toNat) .baselib
    (⟨n.1, bytes.1, some n.1⟩, bytes.2)

/-- The string `unmarshal<InlineString<capacity>>` leaves (encoding.cc:153-158). Where the read
ended early, its length is the one that was asked for in the source, and what was read here. When
the length it was given does not fit, the string is empty here. An error was reported in both
cases, and no caller looks at the string. -/
def RawBytes.toInlineString (capacity : Nat) (raw : RawBytes) : InlineString capacity :=
  if h : raw.data.length ≤ capacity then ⟨raw.data, h⟩ else .empty

/-- `unmarshal<InlineString<capacity>>`. -/
def unmarshalInlineString (capacity : Nat) (inp : In) : InlineString capacity × In :=
  let raw := unmarshalBytes V capacity inp
  (raw.1.toInlineString capacity, raw.2)

/-- `unmarshal<bool>` (encoding_impl.cc:157-168). -/
def unmarshalBool (inp : In) : Bool × In :=
  let b := inp.read Read.byte .baselib
  if b.2.err.isSome then (false, b.2)
  else if b.1 ≠ 0 ∧ b.1 ≠ 1 then
    (false, b.2.report (.text ("serialrpc: invalid bool value " ++ toString b.1.toNat)))
  else (b.1 ≠ 0, b.2)

/-- `unmarshal<float32>`: the bits of four bytes, little-endian. -/
def unmarshalFloat32 (inp : In) : UInt32 × In :=
  let bytes := inp.read (Read.full 4) .baselib
  if bytes.2.err.isSome then (0, bytes.2)
  else (UInt32.ofNat (LittleEndian.value bytes.1), bytes.2)

/-- `unmarshal<float64>`: the bits of eight bytes, little-endian. -/
def unmarshalFloat64 (inp : In) : UInt64 × In :=
  let bytes := inp.read (Read.full 8) .baselib
  if bytes.2.err.isSome then (0, bytes.2)
  else (UInt64.ofNat (LittleEndian.value bytes.1), bytes.2)

/-- The overload of `unmarshal` for a storage type. -/
def StorageType.unmarshal : (s : StorageType) → In → s.Val × In
  | .int32, inp => inp.read V.readSint32 .baselib
  | .int64, inp => inp.read V.readSint64 .baselib
  | .uint32, inp => inp.read V.readUint32 .baselib
  | .uint64, inp => inp.read V.readUint64 .baselib
  | .bool, inp => unmarshalBool inp
  | .float32, inp => unmarshalFloat32 inp
  | .float64, inp => unmarshalFloat64 inp
  | .inlineString capacity, inp => unmarshalInlineString V capacity inp

/-! ## Messages -/

/-- A generated `switch`: on a known field number, the message with the field read
into it. -/
abbrev Switch (α : Type) := BitVec 32 → α → In → Option (α × In)

/-- What the generated loop (`DeserializerBody`, protoc_serialrpc_plugin.cc:1468-1525)
does with a field, over a `switch`; `nesting` is the message's own budget. -/
def messageField {α : Type} (switch : Switch α) (nesting : Int) (tag : Tag) : Body α Err :=
  fun msg inp =>
    match switch tag.fieldNum msg inp with
    | some next => ⟨true, next.1, next.2⟩
    | none =>
      -- `default:` is the one case that looks at the error itself.
      let after := skip V tag.type (nesting - 1) inp
      ⟨after.err.isNone, msg, after⟩

/-- The generated loop. -/
def messageLoop {α : Type} (switch : Switch α) (nesting : Int) (msg : α) (inp : In) : α × In :=
  Reader.loop (tagRound V (messageField V switch nesting)) msg inp

/-- `unmarshal` of a message (encoding.cc:133-140), with its generated body as an
argument. -/
def unmarshalNested {α : Type} (default : α) (body : Int → In → α × In) (nesting : Int)
    (inp : In) : α × In :=
  if nesting < 0 then (default, inp.report (.text "excessive nesting")) else body nesting inp

mutual

/-- The case of a field in the generated `switch`: a singular field is assigned, a
repeated one grows by an element, read with or without an error. -/
def FieldKind.unmarshal : (k : FieldKind) → Int → k.Val → In → k.Val × In
  | .scalar type, _, _, inp => type.storage.unmarshal V inp
  | .message type, nesting, _, inp =>
    unmarshalNested type.default
      (fun nesting => messageLoop V (type.switch nesting) nesting type.default) (nesting - 1) inp
  | .repeated type, nesting, vec, inp =>
    let element := unmarshalNested type.default
      (fun nesting => messageLoop V (type.switch nesting) nesting type.default) (nesting - 1) inp
    (vec ++ [element.1], element.2)

/-- The generated `switch (tag.field_num)`. -/
def MessageType.switch : (T : MessageType) → Int → Switch T.Val
  | .empty, _, _, _, _ => none
  | .field number kind rest, nesting, fieldNum, (val, msg), inp =>
    if fieldNum = number then
      let field := kind.unmarshal nesting val inp
      some ((field.1, msg), field.2)
    else
      (rest.switch nesting fieldNum msg inp).map fun next => ((val, next.1), next.2)

end

/-- The generated `T::unmarshal`. -/
def MessageType.unmarshalBody (T : MessageType) (nesting : Int) (inp : In) : T.Val × In :=
  messageLoop V (T.switch V nesting) nesting T.default inp

/-- `unmarshal<T>(in, err, nesting)`. -/
def unmarshal (T : MessageType) (inp : In) (nesting : Int := MaxNesting) : T.Val × In :=
  unmarshalNested T.default (T.unmarshalBody V) nesting inp

/-! ## Decoding never lengthens the stream -/

section Suffix

variable {V}

theorem unmarshalBytes_suffix (capacity : Nat) (inp : In) :
    (unmarshalBytes V capacity inp).2.unread <:+ inp.unread := by
  have hn := Reader.read_unread_suffix V.readUnsigned Err.baselib inp
  unfold unmarshalBytes
  dsimp only
  split
  · exact hn
  · split
    · exact hn
    · exact (Reader.read_unread_suffix _ _ _).trans hn

theorem unmarshalBool_suffix (inp : In) : (unmarshalBool inp).2.unread <:+ inp.unread := by
  have hb := Reader.read_unread_suffix Read.byte Err.baselib inp
  unfold unmarshalBool
  dsimp only
  split
  · exact hb
  · split <;> exact hb

theorem StorageType.unmarshal_suffix (s : StorageType) (inp : In) :
    (s.unmarshal V inp).2.unread <:+ inp.unread := by
  cases s with
  | bool => exact unmarshalBool_suffix inp
  | float32 =>
    simp only [StorageType.unmarshal, unmarshalFloat32]
    split <;> exact Reader.read_unread_suffix _ _ inp
  | float64 =>
    simp only [StorageType.unmarshal, unmarshalFloat64]
    split <;> exact Reader.read_unread_suffix _ _ inp
  | inlineString capacity => exact unmarshalBytes_suffix capacity inp
  | _ => exact Reader.read_unread_suffix _ _ inp

/-- A `switch` that never puts bytes back. -/
def Switch.Consumes {α : Type} (switch : Switch α) : Prop :=
  ∀ fieldNum msg inp next, switch fieldNum msg inp = some next → next.2.unread <:+ inp.unread

theorem messageField_consuming {α : Type} {switch : Switch α} (hs : switch.Consumes)
    (nesting : Int) (tag : Tag) : Consuming (messageField V switch nesting tag) := by
  intro msg inp
  unfold messageField
  cases hsw : switch tag.fieldNum msg inp with
  | some next => exact hs _ _ _ _ hsw
  | none => exact skip_suffix _ _ _

theorem messageLoop_suffix {α : Type} {switch : Switch α} (hs : switch.Consumes) (nesting : Int)
    (msg : α) (inp : In) : (messageLoop V switch nesting msg inp).2.unread <:+ inp.unread :=
  Reader.loop_suffix (tagRound_consuming (messageField_consuming hs nesting)) msg inp

theorem unmarshalNested_suffix {α : Type} {default : α} {body : Int → In → α × In}
    (hbody : ∀ nesting inp, (body nesting inp).2.unread <:+ inp.unread) (nesting : Int)
    (inp : In) : (unmarshalNested default body nesting inp).2.unread <:+ inp.unread := by
  unfold unmarshalNested
  split
  · exact List.suffix_refl _
  · exact hbody nesting inp

mutual

theorem FieldKind.unmarshal_suffix :
    ∀ (k : FieldKind) (nesting : Int) (val : k.Val) (inp : In),
      (k.unmarshal V nesting val inp).2.unread <:+ inp.unread
  | .scalar type, _, _, inp => type.storage.unmarshal_suffix inp
  | .message type, nesting, _, inp =>
    unmarshalNested_suffix (fun n inp => messageLoop_suffix (type.switch_consumes n) n _ inp)
      (nesting - 1) inp
  | .repeated type, nesting, _, inp =>
    unmarshalNested_suffix (fun n inp => messageLoop_suffix (type.switch_consumes n) n _ inp)
      (nesting - 1) inp

/-- The cases of a generated switch read forward. -/
theorem MessageType.switch_consumes :
    ∀ (T : MessageType) (nesting : Int), (T.switch V nesting).Consumes
  | .empty, _, _, _, _, _, h => by cases h
  | .field number kind rest, nesting, fieldNum, (val, msg), inp, next, h => by
    simp only [MessageType.switch] at h
    split at h
    · cases h
      exact kind.unmarshal_suffix nesting val inp
    · obtain ⟨next', hnext', rfl⟩ := Option.map_eq_some_iff.mp h
      exact rest.switch_consumes nesting fieldNum msg inp next' hnext'

end

theorem MessageType.unmarshalBody_suffix (T : MessageType) (nesting : Int) (inp : In) :
    (T.unmarshalBody V nesting inp).2.unread <:+ inp.unread :=
  messageLoop_suffix (T.switch_consumes nesting) nesting _ inp

end Suffix

end SerialRpc
