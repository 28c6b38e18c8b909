import SerialRpc.Encoding.Wire

/-!
# Decoding what was encoded

The reference bytes of a message are one of its encodings, and the decoder reads every
encoding back.

- `unmarshal_marshal`: the round trip.
- `decoded_vectors_iff_noneElided`: the repeated fields come back whole exactly when no
  element encodes to nothing.
-/

namespace SerialRpc

open ByteStream

/-- The top-level `unmarshal` reads back what the top-level `marshal` writes. -/
theorem unmarshal_ref {V : Varint} (hV : V.Lawful) {T : MessageType} (hwf : T.WellFormed)
    {msg : T.Val} (hdepth : T.depth msg ≤ MaxNesting) (rest : List UInt8) :
    unmarshal V T (.ofBytes (T.ref V msg ++ [endByte] ++ rest)) =
      (T.received msg, .ofBytes rest) :=
  unmarshal_wire hV hwf (T.ref_wire msg (T.depth msg) (le_refl _)) hdepth rest

/-! ## The round trip -/

/-- `unmarshal<T>(marshal(m) ++ rest)` reports no error, leaves exactly `rest` unread
and returns `m` without the elements of repeated fields that encode to nothing. -/
theorem unmarshal_marshal (V : Varint) (hV : V.Lawful) (T : MessageType) (hwf : T.WellFormed)
    (msg : T.Val) (hdepth : T.depth msg ≤ MaxNesting) (out : Writer Err) (hopen : out.Open)
    (rest : List UInt8) :
    ∃ bytes, marshal V T msg out = .ok (out.append bytes) ∧
      unmarshal V T (.ofBytes (bytes ++ rest)) = (T.received msg, .ofBytes rest) :=
  ⟨T.ref V msg ++ [endByte], marshal_open hV hopen hdepth, unmarshal_ref hV hwf hdepth rest⟩

theorem Protocol.serviceInfo_wellFormed : Protocol.serviceInfo.WellFormed := by
  simp [Protocol.serviceInfo, Protocol.methodInfo, Protocol.typeInfo, Protocol.fieldInfo,
    Protocol.enumValueInfo, MessageType.WellFormed, FieldKind.WellFormed, MessageType.numbers,
    StorageType.Bounded]

/-- A service with a method and an empty method, and a byte behind it: the empty
method is gone, the byte is still there. -/
theorem unmarshal_marshal_service :
    ∃ bytes, marshal Varint.leb128 Protocol.serviceInfo
        (Protocol.namedService .empty [Protocol.namedMethod .empty 7, Protocol.methodInfo.default])
        {} = .ok (Writer.append bytes {}) ∧
      unmarshal Varint.leb128 Protocol.serviceInfo (.ofBytes (bytes ++ [9])) =
        (Protocol.namedService .empty [Protocol.namedMethod .empty 7], .ofBytes [9]) :=
  unmarshal_marshal Varint.leb128 Varint.leb128_lawful Protocol.serviceInfo
    Protocol.serviceInfo_wellFormed
    (Protocol.namedService .empty [Protocol.namedMethod .empty 7, Protocol.methodInfo.default])
    (by decide) {} ⟨rfl, rfl⟩ [9]

/-! ## When repeated fields come back whole -/

mutual

/-- A field with the two zeros identified. -/
def FieldKind.identifyZeros : (k : FieldKind) → k.Val → k.Val
  | .scalar type, val => type.storage.identifyZeros val
  | .message type, msg => type.identifyZeros msg
  | .repeated type, vec => vec.map type.identifyZeros

/-- A message with the two zeros identified at every level, and nothing removed. -/
def MessageType.identifyZeros : (T : MessageType) → T.Val → T.Val
  | .empty, _ => ()
  | .field _ kind rest, (val, msg) => (kind.identifyZeros val, rest.identifyZeros msg)

end

mutual

/-- No element of a repeated field of this field, at any level, encodes to nothing. -/
def FieldKind.NoneElided : (k : FieldKind) → k.Val → Prop
  | .scalar _, _ => True
  | .message type, msg => type.NoneElided msg
  | .repeated type, vec => ∀ msg ∈ vec, type.isDefault msg = false ∧ type.NoneElided msg

/-- No element of a repeated field, at any level, encodes to nothing. -/
def MessageType.NoneElided : (T : MessageType) → T.Val → Prop
  | .empty, _ => True
  | .field _ kind rest, (val, msg) => kind.NoneElided val ∧ rest.NoneElided msg

end

mutual

/-- The repeated fields of this field, at every level, have the same elements, the two
floating-point zeros being equal. -/
def FieldKind.SameVectors : (k : FieldKind) → k.Val → k.Val → Prop
  | .scalar _, _, _ => True
  | .message type, msg, msg' => type.SameVectors msg msg'
  | .repeated type, vec, vec' => vec'.length = vec.length ∧
    ∀ i (h : i < vec.length) (h' : i < vec'.length), vec'[i] = type.identifyZeros vec[i]

/-- Every repeated field of the second message has the length of the first one's, and
its `i`-th element equals the first one's. -/
def MessageType.SameVectors : (T : MessageType) → T.Val → T.Val → Prop
  | .empty, _, _ => True
  | .field _ kind rest, (val, msg), (val', msg') =>
    kind.SameVectors val val' ∧ rest.SameVectors msg msg'

end

/-- A list filtered and mapped is the list mapped exactly when nothing is filtered out
and the maps agree. -/
theorem map_filter_eq_map_iff {α β : Type} {keep : α → Bool} {f g : α → β} :
    ∀ as : List α, (as.filter keep).map f = as.map g ↔ ∀ a ∈ as, keep a = true ∧ f a = g a
  | [] => by simp
  | a :: as => by
    cases hkeep : keep a with
    | true => simp [hkeep, map_filter_eq_map_iff as]
    | false =>
      have hne : (as.filter keep).map f ≠ (a :: as).map g := by
        intro heq
        have hlen := congrArg List.length heq
        have hle := List.length_filter_le keep as
        simp only [List.length_map, List.length_cons] at hlen
        omega
      simpa [List.filter_cons, hkeep] using hne

mutual

theorem FieldKind.received_eq_identifyZeros_iff :
    ∀ (k : FieldKind) (val : k.Val), k.received val = k.identifyZeros val ↔ k.NoneElided val
  | .scalar _, _ => iff_of_true rfl trivial
  | .message type, msg => type.received_eq_identifyZeros_iff msg
  | .repeated type, vec => by
    rw [FieldKind.received, FieldKind.identifyZeros, map_filter_eq_map_iff]
    refine forall₂_congr fun msg _ => and_congr (by simp) ?_
    exact type.received_eq_identifyZeros_iff msg

/-- A message comes back equal exactly when no element is elided. -/
theorem MessageType.received_eq_identifyZeros_iff :
    ∀ (T : MessageType) (msg : T.Val), T.received msg = T.identifyZeros msg ↔ T.NoneElided msg
  | .empty, _ => iff_of_true rfl trivial
  | .field _ kind rest, (val, msg) =>
    Prod.ext_iff.trans (and_congr (kind.received_eq_identifyZeros_iff val)
      (rest.received_eq_identifyZeros_iff msg))

end

mutual

theorem FieldKind.sameVectors_received_iff :
    ∀ (k : FieldKind) (val : k.Val), k.SameVectors val (k.received val) ↔ k.NoneElided val
  | .scalar _, _ => Iff.rfl
  | .message type, msg => type.sameVectors_received_iff msg
  | .repeated type, vec => by
    rw [← FieldKind.received_eq_identifyZeros_iff (.repeated type) vec]
    constructor
    · rintro ⟨hlen, hget⟩
      refine List.ext_getElem (hlen.trans (List.length_map _).symm) fun i h h' => ?_
      rw [hget i (hlen ▸ h) h]
      exact (List.getElem_map _).symm
    · intro heq
      refine ⟨(congrArg List.length heq).trans (List.length_map _), fun i h h' => ?_⟩
      simp only [heq]
      exact List.getElem_map _

/-- The repeated fields come back whole exactly when no element is elided. -/
theorem MessageType.sameVectors_received_iff :
    ∀ (T : MessageType) (msg : T.Val), T.SameVectors msg (T.received msg) ↔ T.NoneElided msg
  | .empty, _ => Iff.rfl
  | .field _ kind rest, (val, msg) =>
    and_congr (kind.sameVectors_received_iff val) (rest.sameVectors_received_iff msg)

end

/-- Decoding the encoding of a message yields, for every repeated field at any level, a
vector of the same length with equal elements if and only if no element of a repeated
field encodes to nothing. -/
theorem decoded_vectors_iff_noneElided (V : Varint) (hV : V.Lawful) (T : MessageType)
    (hwf : T.WellFormed) (msg : T.Val) (hdepth : T.depth msg ≤ MaxNesting) :
    (∃ bytes msg', marshal V T msg {} = .ok { written := bytes } ∧
      unmarshal V T (.ofBytes bytes) = (msg', .ofBytes []) ∧ T.SameVectors msg msg') ↔
    T.NoneElided msg := by
  have hmarshal : marshal V T msg {} = .ok { written := T.ref V msg ++ [endByte] } :=
    marshal_open hV ⟨rfl, rfl⟩ hdepth
  have hunmarshal := unmarshal_ref hV hwf hdepth []
  rw [List.append_nil] at hunmarshal
  rw [← T.sameVectors_received_iff msg]
  constructor
  · rintro ⟨bytes, msg', hbytes, hmsg', hsame⟩
    rw [hmarshal] at hbytes
    cases hbytes
    rw [hunmarshal] at hmsg'
    cases hmsg'
    exact hsame
  · intro hsame
    exact ⟨_, _, hmarshal, hunmarshal, hsame⟩

/-- A service with one method that is not empty. -/
theorem decoded_vectors_service :
    ∃ bytes msg', marshal Varint.leb128 Protocol.serviceInfo
        (Protocol.namedService .empty [Protocol.namedMethod .empty 7]) {} =
          .ok { written := bytes } ∧
      unmarshal Varint.leb128 Protocol.serviceInfo (.ofBytes bytes) = (msg', .ofBytes []) ∧
      Protocol.serviceInfo.SameVectors
        (Protocol.namedService .empty [Protocol.namedMethod .empty 7]) msg' :=
  (decoded_vectors_iff_noneElided Varint.leb128 Varint.leb128_lawful Protocol.serviceInfo
    Protocol.serviceInfo_wellFormed _ (by decide)).mpr
    (by simp [Protocol.serviceInfo, Protocol.namedService, Protocol.namedMethod,
      MessageType.NoneElided, FieldKind.NoneElided, Protocol.methodInfo, MessageType.isDefault,
      FieldKind.isDefault, StorageType.isDefault])

/-- A service whose one method is the default method is decoded with no method. -/
theorem default_method_lost :
    ¬ ∃ bytes msg', marshal Varint.leb128 Protocol.serviceInfo
        (Protocol.namedService .empty [Protocol.methodInfo.default]) {} =
          .ok { written := bytes } ∧
      unmarshal Varint.leb128 Protocol.serviceInfo (.ofBytes bytes) = (msg', .ofBytes []) ∧
      Protocol.serviceInfo.SameVectors
        (Protocol.namedService .empty [Protocol.methodInfo.default]) msg' := by
  rintro ⟨bytes, msg', hbytes, hmsg', hsame⟩
  have hmarshal : marshal Varint.leb128 Protocol.serviceInfo
      (Protocol.namedService .empty [Protocol.methodInfo.default]) {} =
        .ok { written := [endByte] } := rfl
  rw [hmarshal] at hbytes
  cases hbytes
  have hunmarshal : unmarshal Varint.leb128 Protocol.serviceInfo (.ofBytes [endByte]) =
      (Protocol.serviceInfo.default, .ofBytes []) := rfl
  rw [hunmarshal] at hmsg'
  cases hmsg'
  have hlen := hsame.2.2.2.2.1.1
  exact absurd hlen (by decide)

end SerialRpc
