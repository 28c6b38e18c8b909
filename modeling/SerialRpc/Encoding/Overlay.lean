import SerialRpc.Encoding.RoundTrip

/-!
# Several encodings behind one another (protoc_serialrpc_plugin.cc:1468-1525)

The bytes of a message do not say where they end until the `End`, so encodings that stand
behind one another are read into one message. A singular field keeps what was written last,
and a default is not written; the elements of repeated fields add up. A nested message is
assigned as a whole, and is not merged field by field.

- `MessageType.overlay`: what a decoder has that reads an encoding into a message it holds.
- `Rounds.forget`, `Rounds.grow`: the rounds of a field's case from any value it holds.
- `overlay_of_encodings`: what comes of encodings behind one another.
-/

namespace SerialRpc

open ByteStream

mutual

/-- A field that held a value, when another one has been read into it. -/
def FieldKind.overlay : (k : FieldKind) → k.Val → k.Val → k.Val
  | .scalar type, held, val => if type.storage.isDefault val then held else val
  | .message type, held, msg => if type.isDefault msg then held else type.received msg
  | .repeated type, held, vec => held ++ FieldKind.received (.repeated type) vec

/-- A message that a decoder held, when it has read another one into it. -/
def MessageType.overlay : (T : MessageType) → T.Val → T.Val → T.Val
  | .empty, _, _ => ()
  | .field _ kind rest, held, msg => (kind.overlay held.1 msg.1, rest.overlay held.2 msg.2)

end

variable {V : Varint}

/-! ## From any value -/

/-- Where a case does not look at the value it is given, neither do its rounds, but for
those that read nothing. -/
theorem Rounds.forget {α : Type} {switch : Switch α}
    (hswitch : ∀ number msg msg' inp, switch number msg inp = switch number msg' inp)
    {bytes : List UInt8} {msg msg' : α} (h : Rounds V switch msg bytes msg') (hne : bytes ≠ [])
    (held : α) : Rounds V switch held bytes msg' := by
  cases h with
  | nil => exact absurd rfl hne
  | cons hnumber htype hread hrest =>
    exact .cons hnumber htype (fun rest => (hswitch _ held _ _).trans (hread rest)) hrest

/-- Where a case appends to the vector it is given, so do its rounds. -/
theorem Rounds.grow {α : Type} {switch : Switch (List α)}
    (hswitch : ∀ number vec inp next, switch number vec inp = some next →
      ∃ more, next.1 = vec ++ more ∧
        ∀ vec', switch number vec' inp = some (vec' ++ more, next.2))
    {bytes : List UInt8} {vec vec' : List α} (h : Rounds V switch vec bytes vec') :
    ∃ more, vec' = vec ++ more ∧ ∀ held, Rounds V switch held bytes (held ++ more) := by
  induction h with
  | nil vec => exact ⟨[], (List.append_nil vec).symm, fun held => by simpa using Rounds.nil held⟩
  | @cons number type payload bytes vec mid vec' hnumber htype hread _ ih =>
    obtain ⟨last, rfl, hlast⟩ := ih
    obtain ⟨first, hfirst, -⟩ := hswitch _ _ _ _ (hread [])
    have hmid : mid = vec ++ first := hfirst
    subst hmid
    refine ⟨first ++ last, List.append_assoc .., fun held => ?_⟩
    rw [← List.append_assoc]
    refine .cons hnumber htype (fun rest => ?_) (hlast (held ++ first))
    -- The same elements are read whatever stands behind them.
    obtain ⟨first', hfirst', hheld⟩ := hswitch _ _ _ _ (hread rest)
    rw [List.append_cancel_left hfirst']
    exact hheld held

theorem FieldKind.scalar_case_forgets (number : BitVec 32) (type : ScalarType) (nesting : Int)
    (fieldNum : BitVec 32) (val val' : FieldKind.Val (.scalar type)) (inp : In) :
    FieldKind.case V number (.scalar type) nesting fieldNum val inp =
      FieldKind.case V number (.scalar type) nesting fieldNum val' inp := rfl

theorem FieldKind.message_case_forgets (number : BitVec 32) (type : MessageType) (nesting : Int)
    (fieldNum : BitVec 32) (msg msg' : FieldKind.Val (.message type)) (inp : In) :
    FieldKind.case V number (.message type) nesting fieldNum msg inp =
      FieldKind.case V number (.message type) nesting fieldNum msg' inp := rfl

theorem FieldKind.repeated_case_grows (number : BitVec 32) (type : MessageType) (nesting : Int)
    (fieldNum : BitVec 32) (vec : FieldKind.Val (.repeated type)) (inp : In)
    (next : FieldKind.Val (.repeated type) × In)
    (h : FieldKind.case V number (.repeated type) nesting fieldNum vec inp = some next) :
    ∃ more, next.1 = vec ++ more ∧ ∀ vec',
      FieldKind.case V number (.repeated type) nesting fieldNum vec' inp =
        some (vec' ++ more, next.2) := by
  unfold FieldKind.case at h ⊢
  split at h
  · rename_i hnumber
    cases h
    refine ⟨[_], rfl, fun vec' => ?_⟩
    rw [if_pos hnumber]
    rfl
  · cases h

/-- An encoding of a field is read into whatever the field holds. -/
theorem FieldKind.Wire.overlay_rounds (hV : V.Lawful) {number : BitVec 32}
    (hnumber : number.toNat < 2 ^ 28) {k : FieldKind} {levels : Nat} {val : k.Val}
    {bytes : List UInt8} {nesting : Int} (h : k.Wire V number levels val bytes)
    (hwf : k.WellFormed) (hle : (levels : Int) ≤ nesting) (held : k.Val) :
    Rounds V (k.case V number nesting) held bytes (k.overlay held val) := by
  have hrounds := h.rounds hV hnumber hwf hle
  have hnil := h.eq_nil_iff hV
  cases k with
  | scalar type =>
    cases hval : type.storage.isDefault val with
    | true =>
      rw [hnil.mpr hval, FieldKind.overlay, if_pos hval]
      exact .nil held
    | false =>
      have hne : bytes ≠ [] := mt hnil.mp (Bool.eq_false_iff.mp hval)
      have hreceived := type.storage.identifyZeros_of_not_isDefault val hval
      rw [FieldKind.overlay, if_neg (Bool.eq_false_iff.mp hval), ← hreceived]
      exact hrounds.forget (FieldKind.scalar_case_forgets number type nesting) hne held
  | message type =>
    cases hmsg : type.isDefault val with
    | true =>
      rw [hnil.mpr hmsg, FieldKind.overlay, if_pos hmsg]
      exact .nil held
    | false =>
      have hne : bytes ≠ [] := mt hnil.mp (Bool.eq_false_iff.mp hmsg)
      rw [FieldKind.overlay, if_neg (Bool.eq_false_iff.mp hmsg)]
      exact hrounds.forget (FieldKind.message_case_forgets number type nesting) hne held
  | repeated type =>
    obtain ⟨more, hmore, hgrow⟩ :=
      hrounds.grow (FieldKind.repeated_case_grows number type nesting)
    have heq : FieldKind.received (.repeated type) val = more := hmore
    rw [FieldKind.overlay, heq]
    exact hgrow held

/-- So is an encoding of a message, whatever order its fields are in. -/
theorem MessageType.Parts.overlay_chain (hV : V.Lawful) :
    ∀ {T : MessageType} {levels : Nat} {msg : T.Val} {parts : List Part} {nesting : Int},
      T.Parts V levels msg parts → T.WellFormed → (levels : Int) ≤ nesting →
      ∀ {order : List Part}, order.Perm parts → ∀ held : T.Val,
        Chain V (T.switch V nesting) held order (T.overlay held msg)
  | .empty, _, _, parts, _, h, _, _, order, hperm, held => by
    obtain rfl : parts = [] := h
    rw [hperm.eq_nil]
    rfl
  | .field number kind rest, _, (val, msg), _, nesting, ⟨bytes, parts', hfield, hrest, hparts⟩,
      hwf, hle, order, hperm, held => by
    obtain ⟨-, hlt, hfresh, hkind, hwfRest⟩ := hwf
    rw [hparts] at hperm
    refine Chain.insert (fun msg _ _ _ h => Rounds.head msg h)
      (fun val _ _ _ h => Rounds.tail hfresh val h) hperm ?_ ?_
    · exact hfield.overlay_rounds hV hlt hkind hle held.1
    · exact fun order' hperm' => hrest.overlay_chain hV hwfRest hle hperm' held.2

/-! ## Encodings behind one another -/

/-- Encodings behind one another are read one into the other. -/
theorem overlay_rounds (hV : V.Lawful) {T : MessageType} (hwf : T.WellFormed) {levels : Nat}
    {nesting : Int} (hle : (levels : Int) ≤ nesting) {msgs : List T.Val}
    {encodings : List (List UInt8)} (h : List.Forall₂ (T.Wire V levels) msgs encodings)
    (held : T.Val) :
    Rounds V (T.switch V nesting) held encodings.flatten (msgs.foldl T.overlay held) := by
  induction h generalizing held with
  | nil => exact .nil held
  | @cons msg bytes msgs encodings hmsg _ ih =>
    obtain ⟨parts, order, hparts, hperm, rfl⟩ := hmsg
    have hfirst := (hparts.overlay_chain hV hwf hle hperm held).rounds
    exact hfirst.trans (ih (T.overlay held msg))

mutual

theorem FieldKind.overlay_default :
    ∀ (k : FieldKind) (val : k.Val), k.overlay k.default val = k.received val
  | .scalar type, val => by
    show (if type.storage.isDefault val then type.storage.default else val) = _
    cases hval : type.storage.isDefault val with
    | true => exact (type.storage.identifyZeros_of_isDefault val hval).symm
    | false => exact (type.storage.identifyZeros_of_not_isDefault val hval).symm
  | .message type, msg => by
    show (if type.isDefault msg then type.default else type.received msg) = type.received msg
    cases hmsg : type.isDefault msg with
    | true => exact (type.received_of_isDefault msg hmsg).symm
    | false => rfl
  | .repeated type, vec => List.nil_append _

/-- Over the default message, what is read is what comes back. -/
theorem MessageType.overlay_default :
    ∀ (T : MessageType) (msg : T.Val), T.overlay T.default msg = T.received msg
  | .empty, _ => rfl
  | .field _ kind rest, (val, msg) =>
    Prod.ext (kind.overlay_default val) (rest.overlay_default msg)

end

/-- Whatever number of encodings stand behind one another, in whatever order each has its
fields, `unmarshal` reads them into one message, field by field: a singular field comes back
as the last encoding has it that does not leave it out, a nested message as a whole, and a
repeated field with the elements of all of them, in order. -/
theorem overlay_of_encodings {V : Varint} (hV : V.Lawful) {T : MessageType} (hwf : T.WellFormed)
    {levels : Nat} (hlevels : levels ≤ MaxNesting) {msgs : List T.Val}
    {encodings : List (List UInt8)} (h : List.Forall₂ (T.Wire V levels) msgs encodings)
    (rest : List UInt8) :
    unmarshal V T (.ofBytes (encodings.flatten ++ [endByte] ++ rest)) =
      (msgs.foldl T.overlay T.default, .ofBytes rest) := by
  have hrounds := overlay_rounds hV hwf (Int.ofNat_le.mpr hlevels) h T.default
  have hnonneg : ¬ ((MaxNesting : Nat) : Int) < 0 := by decide
  rw [List.append_assoc, unmarshal, unmarshalNested, if_neg hnonneg]
  exact hrounds.messageLoop_eq hV (T.switch_consumes MaxNesting) MaxNesting rest

/-- Two services behind one another, with the methods of both. -/
theorem overlay_of_encodings_services :
    unmarshal Varint.leb128 Protocol.serviceInfo (.ofBytes (
        [Protocol.serviceInfo.ref Varint.leb128
            (Protocol.namedService .empty [Protocol.namedMethod .empty 7]),
          Protocol.serviceInfo.ref Varint.leb128
            (Protocol.namedService .empty [Protocol.namedMethod .empty 8])].flatten ++
          [endByte] ++ [9])) =
      ([Protocol.namedService .empty [Protocol.namedMethod .empty 7],
        Protocol.namedService .empty [Protocol.namedMethod .empty 8]].foldl
          Protocol.serviceInfo.overlay Protocol.serviceInfo.default, .ofBytes [9]) :=
  overlay_of_encodings Varint.leb128_lawful Protocol.serviceInfo_wellFormed (by decide)
    (.cons (MessageType.ref_wire _ _ MaxNesting (by decide))
      (.cons (MessageType.ref_wire _ _ MaxNesting (by decide)) .nil)) [9]

end SerialRpc
