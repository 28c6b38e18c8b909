import SerialRpc.Encoding.RoundTrip

/-!
# One encoding for each message (encoding_impl.cc:210-330, encoding.cc:133-140)

Decoding loses the elements of repeated fields that encode to nothing, and the sign of a
floating-point zero. The encoder does not see them either: it writes the same bytes for a
message and for what comes back of it. So messages have the same bytes exactly if the same
comes back of them, and behind an encoding a stream can be read in one way only.

- `MessageType.isDefault_received`, `MessageType.ref_received`, `MessageType.depth_received`:
  what the encoder sees of what comes back.
- `encodings_canonical`: equal bytes on a stream are equal messages and equal rests.
-/

namespace SerialRpc

open ByteStream

theorem StorageType.isDefault_identifyZeros (s : StorageType) (val : s.Val) :
    s.isDefault (s.identifyZeros val) = s.isDefault val := by
  cases hval : s.isDefault val with
  | true =>
    rw [s.identifyZeros_of_isDefault val hval]
    cases s <;> rfl
  | false => rw [s.identifyZeros_of_not_isDefault val hval, hval]

mutual

theorem FieldKind.isDefault_received :
    ∀ (k : FieldKind) (val : k.Val), k.isDefault (k.received val) = k.isDefault val
  | .scalar type, val => type.storage.isDefault_identifyZeros val
  | .message type, msg => type.isDefault_received msg
  | .repeated type, vec => by
    have hsame : (type.isDefault ∘ type.received : type.Val → Bool) = type.isDefault :=
      funext type.isDefault_received
    rw [FieldKind.isDefault, FieldKind.isDefault, FieldKind.received, List.all_map, hsame,
      List.all_filter]
    congr 1
    funext msg
    cases type.isDefault msg <;> rfl

/-- What comes back of a message encodes to nothing if the message does. -/
theorem MessageType.isDefault_received :
    ∀ (T : MessageType) (msg : T.Val), T.isDefault (T.received msg) = T.isDefault msg
  | .empty, _ => rfl
  | .field _ kind rest, (val, msg) => by
    rw [MessageType.received, MessageType.isDefault, MessageType.isDefault,
      kind.isDefault_received val, rest.isDefault_received msg]

end

section Bytes

variable {V : Varint}

theorem StorageType.ref_identifyZeros (number : BitVec 32) (s : StorageType) (val : s.Val) :
    s.ref V number (s.identifyZeros val) = s.ref V number val := by
  cases hval : s.isDefault val with
  | true =>
    have hreceived := (s.isDefault_identifyZeros val).trans hval
    rw [StorageType.ref, StorageType.ref, if_pos hreceived, if_pos hval]
  | false => rw [s.identifyZeros_of_not_isDefault val hval]

/-- Elements that encode to nothing leave no bytes. -/
theorem flatMap_wrap_filter (hV : V.Lawful) (number : BitVec 32) (T : MessageType)
    (vec : List T.Val) :
    (vec.filter fun msg => !T.isDefault msg).flatMap (fun msg => wrap V number (T.ref V msg)) =
      vec.flatMap fun msg => wrap V number (T.ref V msg) := by
  induction vec with
  | nil => rfl
  | cons msg vec ih =>
    cases hmsg : T.isDefault msg with
    | true =>
      have hnone : wrap V number (T.ref V msg) = [] :=
        wrap_eq_nil_iff.mpr ((T.ref_eq_nil_iff hV msg).mpr hmsg)
      rw [List.filter_cons_of_neg (by simp [hmsg]), ih, List.flatMap_cons, hnone, List.nil_append]
    | false =>
      rw [List.filter_cons_of_pos (by simp [hmsg]), List.flatMap_cons, ih, List.flatMap_cons]

mutual

theorem FieldKind.ref_received (hV : V.Lawful) (number : BitVec 32) :
    ∀ (k : FieldKind) (val : k.Val), k.ref V number (k.received val) = k.ref V number val
  | .scalar type, val => type.storage.ref_identifyZeros number val
  | .message type, msg => by
    rw [FieldKind.received, FieldKind.ref, FieldKind.ref, type.ref_received hV msg]
  | .repeated type, vec => by
    have hsame : ∀ msg, wrap V number (type.ref V (type.received msg)) =
        wrap V number (type.ref V msg) := fun msg => by rw [type.ref_received hV msg]
    rw [FieldKind.received, FieldKind.ref, FieldKind.ref, List.flatMap_map,
      List.flatMap_congr fun msg _ => hsame msg, flatMap_wrap_filter hV]

/-- A message and what comes back of it have the same bytes. -/
theorem MessageType.ref_received (hV : V.Lawful) :
    ∀ (T : MessageType) (msg : T.Val), T.ref V (T.received msg) = T.ref V msg
  | .empty, _ => rfl
  | .field number kind rest, (val, msg) => by
    rw [MessageType.received, MessageType.ref, MessageType.ref, kind.ref_received hV number val,
      rest.ref_received hV msg]

end

end Bytes

mutual

theorem FieldKind.depth_received :
    ∀ (k : FieldKind) (val : k.Val), k.depth (k.received val) ≤ k.depth val
  | .scalar _, _ => le_refl 0
  | .message type, msg => Nat.succ_le_succ (type.depth_received msg)
  | .repeated type, vec => by
    refine maximum_le fun n hn => ?_
    rw [FieldKind.received, List.map_map] at hn
    obtain ⟨msg, hmsg, rfl⟩ := List.mem_map.mp hn
    exact (Nat.succ_le_succ (type.depth_received msg)).trans
      (le_maximum (List.mem_map_of_mem (List.mem_filter.mp hmsg).1))

/-- What comes back of a message nests no deeper. -/
theorem MessageType.depth_received :
    ∀ (T : MessageType) (msg : T.Val), T.depth (T.received msg) ≤ T.depth msg
  | .empty, _ => le_refl 0
  | .field _ kind rest, (val, msg) =>
    max_le_max (kind.depth_received val) (rest.depth_received msg)

end

/-- The encoding is canonical and delimits itself. Two messages are written to the same bytes,
with any bytes behind them, if and only if the same comes back of both and the same is
behind them; what comes back of a message is written to the same bytes again; and it comes
back as it is. -/
theorem encodings_canonical {V : Varint} (hV : V.Lawful) {T : MessageType} (hwf : T.WellFormed)
    {msg msg' : T.Val} (hdepth : T.depth msg ≤ MaxNesting) (hdepth' : T.depth msg' ≤ MaxNesting) :
    ∃ bytes bytes', marshal V T msg {} = .ok { written := bytes } ∧
      marshal V T msg' {} = .ok { written := bytes' } ∧
      (∀ rest rest', bytes ++ rest = bytes' ++ rest' ↔
        T.received msg = T.received msg' ∧ rest = rest') ∧
      marshal V T (T.received msg) {} = .ok { written := bytes } ∧
      T.received (T.received msg) = T.received msg := by
  have hsame : T.ref V (T.received msg) = T.ref V msg := T.ref_received hV msg
  have hreceived := (T.depth_received msg).trans hdepth
  have hagain : marshal V T (T.received msg) {} =
      .ok { written := T.ref V (T.received msg) ++ [endByte] } :=
    marshal_open hV ⟨rfl, rfl⟩ hreceived
  rw [hsame] at hagain
  refine ⟨T.ref V msg ++ [endByte], T.ref V msg' ++ [endByte], marshal_open hV ⟨rfl, rfl⟩ hdepth,
    marshal_open hV ⟨rfl, rfl⟩ hdepth', fun rest rest' => ⟨fun heq => ?_, ?_⟩, hagain, ?_⟩
  · have hread := congrArg (fun bytes => unmarshal V T (.ofBytes bytes)) heq
    simp only [unmarshal_ref hV hwf hdepth, unmarshal_ref hV hwf hdepth'] at hread
    exact ⟨congrArg Prod.fst hread, congrArg (fun read => read.2.unread) hread⟩
  · rintro ⟨heq, rfl⟩
    rw [← hsame, heq, T.ref_received hV msg']
  · have hread := unmarshal_ref hV hwf hreceived []
    rw [hsame, unmarshal_ref hV hwf hdepth []] at hread
    exact (congrArg Prod.fst hread).symm

/-- A service with an empty method is written to the bytes of the service without it. -/
theorem encodings_canonical_service :
    ∃ bytes bytes', marshal Varint.leb128 Protocol.serviceInfo
        (Protocol.namedService .empty [Protocol.methodInfo.default]) {} =
          .ok { written := bytes } ∧
      marshal Varint.leb128 Protocol.serviceInfo (Protocol.namedService .empty []) {} =
          .ok { written := bytes' } ∧
      (∀ rest rest', bytes ++ rest = bytes' ++ rest' ↔
        Protocol.serviceInfo.received
            (Protocol.namedService .empty [Protocol.methodInfo.default]) =
          Protocol.serviceInfo.received (Protocol.namedService .empty []) ∧ rest = rest') ∧
      marshal Varint.leb128 Protocol.serviceInfo (Protocol.serviceInfo.received
          (Protocol.namedService .empty [Protocol.methodInfo.default])) {} =
        .ok { written := bytes } ∧
      Protocol.serviceInfo.received (Protocol.serviceInfo.received
          (Protocol.namedService .empty [Protocol.methodInfo.default])) =
        Protocol.serviceInfo.received
          (Protocol.namedService .empty [Protocol.methodInfo.default]) :=
  encodings_canonical Varint.leb128_lawful Protocol.serviceInfo_wellFormed (by decide) (by decide)

end SerialRpc
