import SerialRpc.Encoding.Dynamic
import SerialRpc.Encoding.Wire

/-!
# The two codecs understand each other

The generated codec goes through the fields of a message as they are declared, the
command-line client's as reflection lists them, and neither decoder cares about the
order. Each of the four is related to the encodings of `MessageType.Wire` on its own.

- `MessageType.Holds`: a protobuf message holds a value. An absent message is an empty
  one.
- `marshalMessage_wire`: what `marshal_message` writes is an encoding of the value held.
- `MessageType.Wire.unmarshalInto_eq`: `unmarshal_message` reads every encoding into a
  message that holds what comes back.
- `codecs_interoperate`: both directions.
-/

namespace SerialRpc

open ByteStream

/-- What a protobuf message holds for a value of the generated field. -/
def ScalarType.toCpp : (s : ScalarType) → s.storage.Val → s.cppType.Val
  | .double, bits => bits
  | .float, bits => bits
  | .int64, val => val
  | .uint64, val => val
  | .int32, val => val
  | .fixed64, val => val
  | .fixed32, val => val
  | .bool, val => val
  | .string _, s => s.data
  | .bytes _, s => s.data
  | .uint32, val => val
  | .enum, val => val
  | .sfixed32, val => val
  | .sfixed64, val => val

mutual

/-- A field of a protobuf message holds a value of the generated field. -/
def FieldKind.Holds : (k : FieldKind) → k.Dynamic → k.Val → Prop
  | .scalar type, held, val => held = type.toCpp val
  | .message type, none, msg => msg = type.default
  | .message type, some held, msg => type.Holds held msg
  | .repeated type, held, vec => List.Forall₂ (fun held msg => type.Holds held msg) held vec

/-- A protobuf message holds a value of the generated struct. -/
def MessageType.Holds : (T : MessageType) → T.Dynamic → T.Val → Prop
  | .empty, _, _ => True
  | .field _ kind rest, (heldVal, heldMsg), (val, msg) =>
    kind.Holds heldVal val ∧ rest.Holds heldMsg msg

end

/-- The default of the codec is the default of protobuf. -/
theorem ScalarType.toCpp_default (s : ScalarType) :
    s.toCpp s.storage.default = s.cppType.default := by
  cases s <;> rfl

/-- What is left out by one side is left out by the other. -/
theorem ScalarType.isZero_toCpp (s : ScalarType) (val : s.storage.Val) :
    s.cppType.isZero (s.toCpp val) = s.storage.isDefault val := by
  cases s <;> rfl

theorem MessageType.numbers_nodup : ∀ {T : MessageType}, T.WellFormed → T.numbers.Nodup
  | .empty, _ => List.nodup_nil
  | .field _ _ _, ⟨_, _, hfresh, _, hrest⟩ => List.nodup_cons.mpr ⟨hfresh, numbers_nodup hrest⟩

variable {V : Varint}

/-! ## The command-line client's encoder writes an encoding -/

mutual

theorem FieldKind.default_wire (number : BitVec 32) (levels : Nat) :
    ∀ k : FieldKind, k.Wire V number levels k.default []
  | .scalar type => by
    have hdefault : type.storage.isDefault type.storage.default = true := by
      cases type.storage <;> rfl
    show [] = type.storage.ref V number type.storage.default
    rw [StorageType.ref, if_pos hdefault]
  | .message type => by
    refine ⟨[], ⟨_, _, type.default_parts (levels - 1), .refl _, ?_⟩, nofun, rfl⟩
    simp
  | .repeated _ => ⟨[], .nil, rfl⟩

/-- No bytes are an encoding of the default message. -/
theorem MessageType.default_parts (levels : Nat) :
    ∀ T : MessageType, T.Parts V levels T.default (T.numbers.map fun number => (number, []))
  | .empty => rfl
  | .field number kind rest =>
    ⟨[], _, kind.default_wire number levels, rest.default_parts levels, rfl⟩

end

section Marshal

variable {listFields : ListFields}

/-- The client writes a scalar as the codec does. -/
theorem ScalarType.marshalFieldValue_toCpp (number : BitVec 32) (s : ScalarType)
    (val : s.storage.Val) :
    s.cppType.marshalFieldValue V number (s.toCpp val) = s.storage.marshalField V number val := by
  cases s <;> rfl

/-- The listed fields and the others are all fields. -/
theorem ListsSetFields.perm_numbers (hlist : ListsSetFields listFields) {T : MessageType}
    (hwf : T.WellFormed) (msg : T.Dynamic) :
    (listFields T msg ++ T.numbers.filter fun number => number ∉ listFields T msg).Perm
      T.numbers := by
  have hnumbers := MessageType.numbers_nodup hwf
  have hlisted : (listFields T msg).Nodup :=
    (hlist.increasing T msg).imp fun hlt heq =>
      absurd (congrArg BitVec.toNat heq) (Nat.ne_of_lt hlt)
  have hdisjoint : (listFields T msg).Disjoint
      (T.numbers.filter fun number => number ∉ listFields T msg) := by
    intro number hmem hother
    exact of_decide_eq_true (List.mem_filter.mp hother).2 hmem
  refine (List.perm_ext_iff_of_nodup (hlisted.append (hnumbers.filter _) hdisjoint) hnumbers).mpr ?_
  intro number
  rw [List.mem_append, List.mem_filter, decide_eq_true_eq]
  constructor
  · rintro (hmem | ⟨hmem, -⟩)
    · exact MessageType.mem_numbers_of_fieldHas (hlist.isSet T msg number hmem)
    · exact hmem
  · intro hmem
    by_cases hlisted : number ∈ listFields T msg
    · exact .inl hlisted
    · exact .inr ⟨hmem, hlisted⟩

/-- The elements of a vector are written one by one, each as some encoding of its own. -/
theorem Emits.children {α γ : Type} {f : α → Marshaller → Except Panic Marshaller}
    {R : α → γ → Prop} {P : γ → List UInt8 → Prop} {bytes : List UInt8 → List UInt8}
    {levels : Nat} {as : List α} {vec : List γ}
    (hone : ∀ a ∈ as, ∀ msg, R a msg → ∃ child, P msg child ∧ Emits V (f a) (bytes child) levels)
    (h : List.Forall₂ R as vec) :
    ∃ children, List.Forall₂ P vec children ∧
      Emits V (marshalFieldVector f as) (children.flatMap bytes) levels := by
  induction h with
  | nil => exact ⟨[], .nil, .done⟩
  | @cons a msg as vec hfirst _ ih =>
    obtain ⟨child, hchild, hemits⟩ := hone a List.mem_cons_self msg hfirst
    obtain ⟨children, hchildren, hrest⟩ := ih fun a ha => hone a (List.mem_cons_of_mem _ ha)
    exact ⟨child :: children, .cons hchild hchildren, hemits.andThen hrest⟩

mutual

theorem FieldKind.marshalFieldValues_wire (hV : V.Lawful) (hlist : ListsSetFields listFields)
    (number : BitVec 32) :
    ∀ (k : FieldKind) (held : k.Dynamic) (val : k.Val) (levels : Nat) (nesting : Int),
      k.WellFormed → k.Holds held val → k.dynamicDepth held ≤ levels → (levels : Int) ≤ nesting →
      ∃ bytes, k.Wire V number levels val bytes ∧
        (k.isSet held = true →
          Emits V (k.marshalFieldValues V listFields number held nesting) bytes levels) ∧
        (k.isNonzero held = false → bytes = [])
  | .scalar type, held, val, levels, nesting, _, hheld, _, _ => by
    obtain rfl : held = type.toCpp val := hheld
    refine ⟨type.storage.ref V number val, rfl, fun _ m hopen _ => ?_, fun hzero => ?_⟩
    · show Except.ok (type.cppType.marshalFieldValue V number (type.toCpp val) m) = _
      rw [type.marshalFieldValue_toCpp, StorageType.marshalField_emit hV hopen]
    · simp only [FieldKind.isNonzero, Bool.not_eq_false', type.isZero_toCpp] at hzero
      exact (type.storage.ref_eq_nil_iff hV number val).mpr hzero
  | .message type, none, msg, levels, nesting, _, hheld, _, _ => by
    -- A message that is not set holds the default, which is not written.
    obtain rfl : msg = type.default := hheld
    exact ⟨[], FieldKind.default_wire number levels (.message type), nofun, fun _ => rfl⟩
  | .message type, some held, msg, levels, nesting, hwf, hheld, hdepth, hle => by
    simp only [FieldKind.dynamicDepth] at hdepth
    obtain ⟨child, hchild, hemits⟩ := type.marshalMessage_wire hV hlist held msg (levels - 1)
      (nesting - 1) hwf hheld (by omega) (by omega)
    have hmessage := (hemits.message number).mono (show levels - 1 + 1 ≤ levels by omega)
    exact ⟨wrap V number child, ⟨child, hchild, fun _ => by omega, rfl⟩, fun _ => hmessage, nofun⟩
  | .repeated type, held, vec, levels, nesting, hwf, hheld, hdepth, hle => by
    simp only [FieldKind.dynamicDepth] at hdepth
    -- The elements, each with a budget that is one smaller.
    have hone : ∀ element ∈ held, ∀ msg, type.Holds element msg →
        ∃ child, type.WireBelow V levels msg child ∧
          Emits V (marshalFieldMessage number
            (type.marshalMessage V listFields element (nesting - 1))) (wrap V number child)
            levels := by
      intro element helement msg hheld
      have hlevels := (le_maximum (List.mem_map_of_mem helement)).trans hdepth
      obtain ⟨child, hchild, hemits⟩ := type.marshalMessage_wire hV hlist element msg (levels - 1)
        (nesting - 1) hwf hheld (by omega) (by omega)
      have hmessage := (hemits.message number).mono (show levels - 1 + 1 ≤ levels by omega)
      exact ⟨child, ⟨hchild, fun _ => by omega⟩, hmessage⟩
    obtain ⟨children, hchildren, hemits⟩ := Emits.children hone hheld
    have hwire : FieldKind.Wire V number (.repeated type) levels vec
        (children.flatMap (wrap V number)) := ⟨children, hchildren, rfl⟩
    refine ⟨_, hwire, fun _ => hemits, fun hempty => ?_⟩
    simp only [FieldKind.isNonzero, Bool.not_eq_false', List.isEmpty_iff] at hempty
    obtain rfl := hempty
    obtain rfl := List.forall₂_nil_left_iff.mp hheld
    exact (hwire.eq_nil_iff hV).mpr rfl
termination_by k => (sizeOf k, 0)

theorem MessageType.marshalNumber_parts (hV : V.Lawful) (hlist : ListsSetFields listFields) :
    ∀ (T : MessageType) (held : T.Dynamic) (msg : T.Val) (levels : Nat) (nesting : Int),
      T.WellFormed → T.Holds held msg → T.dynamicDepth held ≤ levels → (levels : Int) ≤ nesting →
      ∃ bytes : BitVec 32 → List UInt8,
        T.Parts V levels msg (T.numbers.map fun number => (number, bytes number)) ∧
        ∀ number ∈ T.numbers,
          (T.fieldHas FieldKind.isSet number held = true →
            Emits V (T.marshalNumber V listFields number held nesting) (bytes number) levels) ∧
          (T.fieldHas FieldKind.isNonzero number held = false → bytes number = [])
  | .empty, _, _, _, _, _, _, _, _ => ⟨fun _ => [], rfl, nofun⟩
  | .field number kind rest, (heldVal, heldMsg), (val, msg), levels, nesting, hwf, hheld, hdepth,
      hle => by
    obtain ⟨-, -, hfresh, hkind, hwfRest⟩ := hwf
    simp only [MessageType.dynamicDepth] at hdepth
    obtain ⟨first, hwire, hset, hzero⟩ := kind.marshalFieldValues_wire hV hlist number heldVal val
      levels nesting hkind hheld.1 (by omega) hle
    obtain ⟨bytes, hparts, hfields⟩ := rest.marshalNumber_parts hV hlist heldMsg msg levels nesting
      hwfRest hheld.2 (by omega) hle
    refine ⟨fun n => if n = number then first else bytes n, ?_, ?_⟩
    · -- The number of this field is none of the others'.
      have hsame : (rest.numbers.map fun n => (n, if n = number then first else bytes n)) =
          rest.numbers.map fun n => (n, bytes n) := by
        refine List.map_congr_left fun n hn => ?_
        have hne : n ≠ number := fun heq => hfresh (heq ▸ hn)
        rw [if_neg hne]
      refine ⟨first, _, hwire, hparts, ?_⟩
      simp only [MessageType.numbers, List.map_cons, if_true, hsame]
    · intro n hn
      by_cases heq : n = number
      · subst heq
        simp only [MessageType.fieldHas, MessageType.marshalNumber, if_true]
        exact ⟨hset, hzero⟩
      · simp only [MessageType.fieldHas, MessageType.marshalNumber, if_neg heq]
        exact hfields n ((List.mem_cons.mp hn).resolve_left heq)
termination_by T => (sizeOf T, 0)

/-- What `marshal_message` writes is an encoding of the value the message holds: the
listed fields' bytes, the others having none. -/
theorem MessageType.marshalMessage_wire (hV : V.Lawful) (hlist : ListsSetFields listFields) :
    ∀ (T : MessageType) (held : T.Dynamic) (msg : T.Val) (levels : Nat) (nesting : Int),
      T.WellFormed → T.Holds held msg → T.dynamicDepth held ≤ levels → (levels : Int) ≤ nesting →
      ∃ bytes, T.Wire V levels msg bytes ∧
        Emits V (T.marshalMessage V listFields held nesting) bytes levels
  | T, held, msg, levels, nesting, hwf, hheld, hdepth, hle => by
    obtain ⟨bytes, hparts, hfields⟩ :=
      T.marshalNumber_parts hV hlist held msg levels nesting hwf hheld hdepth hle
    have hperm := (hlist.perm_numbers hwf held).map fun number => (number, bytes number)
    -- What is not listed is zero, and has no bytes.
    have hothers :
        (T.numbers.filter fun number => number ∉ listFields T held).flatMap bytes = [] := by
      refine List.flatMap_eq_nil_iff.mpr fun number hnumber => ?_
      obtain ⟨hmem, hother⟩ := List.mem_filter.mp hnumber
      refine (hfields number hmem).2 (Bool.eq_false_iff.mpr fun hnonzero => ?_)
      exact of_decide_eq_true hother (hlist.complete T held number hnonzero)
    have hemits : Emits V (T.marshalMessage V listFields held nesting)
        ((listFields T held).flatMap bytes) levels := by
      have hvector := Emits.vector (listFields T held) fun number hnumber =>
        (hfields number (T.mem_numbers_of_fieldHas (hlist.isSet T held number hnumber))).1
          (hlist.isSet T held number hnumber)
      have hnonneg : ¬ nesting < 0 := by omega
      intro m hopen hsize
      rw [MessageType.marshalMessage, marshalListed, if_neg hnonneg]
      exact hvector m hopen hsize
    refine ⟨(listFields T held).flatMap bytes, ⟨_, _, hparts, hperm, ?_⟩, hemits⟩
    rw [List.flatMap_map, List.flatMap_append]
    exact ((congrArg _ hothers).trans (List.append_nil _)).symm
termination_by T => (sizeOf T, 1)

end

end Marshal

/-! ## The command-line client's decoder reads every encoding -/

section Unmarshal

variable {readerSkip : Int → Read (List UInt8)}

theorem unmarshalStr_suffix (inp : In) :
    (unmarshalStr V readerSkip inp).2.unread <:+ inp.unread := by
  have hn := Reader.read_unread_suffix V.readUnsigned Err.baselib inp
  have hs := fun n => (Reader.read_unread_suffix (readerSkip n) Err.baselib _).trans hn
  unfold unmarshalStr
  dsimp only
  split
  · exact hn
  · split
    · exact hs _
    · split <;> exact hs _

theorem CppType.unmarshal_suffix (c : CppType) (inp : In) :
    (c.unmarshal V readerSkip inp).2.unread <:+ inp.unread := by
  cases c with
  | bool => exact unmarshalBool_suffix inp
  | float => exact StorageType.float32.unmarshal_suffix (V := V) inp
  | double => exact StorageType.float64.unmarshal_suffix (V := V) inp
  | string => exact unmarshalStr_suffix inp
  | _ => exact Reader.read_unread_suffix _ _ inp

section

variable {α : Type} {switch : Switch α}

theorem dynamicField_consuming (hs : switch.Consumes) (nesting : Int) (tag : Tag) :
    Consuming (dynamicField V switch nesting tag) := by
  intro msg inp
  unfold dynamicField
  cases hsw : switch tag.fieldNum msg inp with
  | some next => exact hs _ _ _ _ hsw
  | none => exact skip_suffix _ _ _

theorem unmarshalInto_suffix (hs : switch.Consumes) (nesting : Int) (msg : α) (inp : In) :
    (unmarshalInto V switch nesting msg inp).2.unread <:+ inp.unread := by
  unfold unmarshalInto
  split
  · exact List.suffix_refl _
  · exact Reader.loop_suffix (tagRound_consuming (dynamicField_consuming hs nesting)) msg inp

/-- The loop makes the rounds and stops at the `End` behind them. -/
theorem Rounds.unmarshalInto_eq (hV : V.Lawful) (hs : switch.Consumes) {nesting : Int}
    (hnesting : 0 ≤ nesting) {bytes : List UInt8} {msg msg' : α}
    (h : Rounds V switch msg bytes msg') (rest : List UInt8) :
    unmarshalInto V switch nesting msg (.ofBytes (bytes ++ endByte :: rest)) =
      (msg', .ofBytes rest) := by
  have hconsuming := dynamicField_consuming (V := V) hs nesting
  rw [unmarshalInto, if_neg (Int.not_lt.mpr hnesting)]
  induction h with
  | nil msg => exact tagLoop_endByte hV hconsuming msg rest
  | @cons number type payload bytes msg msg' msg'' hnumber htype hswitch _ ih =>
    rw [List.append_assoc, List.append_assoc]
    refine (tagLoop_writeTag hV hconsuming hnumber htype ?_).trans ih
    simp only [dynamicField, hswitch]
    rfl

end

mutual

theorem FieldKind.unmarshalDynamic_suffix :
    ∀ (k : FieldKind) (nesting : Int) (val : k.Dynamic) (inp : In),
      (k.unmarshalDynamic V readerSkip nesting val inp).2.unread <:+ inp.unread
  | .scalar type, _, _, inp => type.cppType.unmarshal_suffix inp
  | .message type, nesting, _, inp =>
    unmarshalInto_suffix (type.dynamicSwitch_consumes (nesting - 1)) (nesting - 1) _ inp
  | .repeated type, nesting, _, inp =>
    unmarshalInto_suffix (type.dynamicSwitch_consumes (nesting - 1)) (nesting - 1) _ inp

/-- The cases of the client's switch read forward. -/
theorem MessageType.dynamicSwitch_consumes :
    ∀ (T : MessageType) (nesting : Int), (T.dynamicSwitch V readerSkip nesting).Consumes
  | .empty, _, _, _, _, _, h => by cases h
  | .field number kind rest, nesting, fieldNum, (val, msg), inp, next, h => by
    simp only [MessageType.dynamicSwitch] at h
    split at h
    · cases h
      exact kind.unmarshalDynamic_suffix nesting val inp
    · obtain ⟨next', hnext', rfl⟩ := Option.map_eq_some_iff.mp h
      exact rest.dynamicSwitch_consumes nesting fieldNum msg inp next' hnext'

end

/-- The `switch` with the one case of a field. -/
def FieldKind.dynamicCase (V : Varint) (readerSkip : Int → Read (List UInt8))
    (number : BitVec 32) (k : FieldKind) (nesting : Int) : Switch k.Dynamic :=
  fun fieldNum val inp =>
    if fieldNum = number then some (k.unmarshalDynamic V readerSkip nesting val inp) else none

/-- The cases of the client's switch are those of the numbers of the type. -/
theorem MessageType.dynamicSwitch_mem_numbers {fieldNum : BitVec 32} {nesting : Int} {inp : In} :
    ∀ {T : MessageType} {msg : T.Dynamic} {next : T.Dynamic × In},
      T.dynamicSwitch V readerSkip nesting fieldNum msg inp = some next → fieldNum ∈ T.numbers
  | .empty, _, _, h => by cases h
  | .field number kind rest, (val, msg), next, h => by
    simp only [MessageType.dynamicSwitch] at h
    split at h
    case isTrue heq => exact heq ▸ List.mem_cons_self
    case isFalse =>
      obtain ⟨next', hnext', -⟩ := Option.map_eq_some_iff.mp h
      exact List.mem_cons_of_mem number (dynamicSwitch_mem_numbers hnext')

/-- `Rounds.head` for `unmarshal_message`. -/
theorem Rounds.dynamicHead {number : BitVec 32} {kind : FieldKind} {rest : MessageType}
    {nesting : Int} {bytes : List UInt8} {val val' : kind.Dynamic} (msg : rest.Dynamic)
    (h : Rounds V (kind.dynamicCase V readerSkip number nesting) val bytes val') :
    Rounds V ((MessageType.field number kind rest).dynamicSwitch V readerSkip nesting) (val, msg)
      bytes (val', msg) := by
  refine h.lift (β := kind.Dynamic × rest.Dynamic) (fun v => (v, msg)) ?_
  intro fieldNum v v' inp inp' hcase
  simp only [FieldKind.dynamicCase] at hcase
  split at hcase
  case isTrue heq =>
    have hval := Option.some.inj hcase
    simp only [MessageType.dynamicSwitch, heq, if_true, hval]
  case isFalse => cases hcase

/-- `Rounds.tail` for `unmarshal_message`. -/
theorem Rounds.dynamicTail {number : BitVec 32} {kind : FieldKind} {rest : MessageType}
    {nesting : Int} {bytes : List UInt8} {msg msg' : rest.Dynamic} (hnumber : number ∉ rest.numbers)
    (val : kind.Dynamic) (h : Rounds V (rest.dynamicSwitch V readerSkip nesting) msg bytes msg') :
    Rounds V ((MessageType.field number kind rest).dynamicSwitch V readerSkip nesting) (val, msg)
      bytes (val, msg') := by
  refine h.lift (β := kind.Dynamic × rest.Dynamic) (fun m => (val, m)) ?_
  intro fieldNum m m' inp inp' hswitch
  have hne : fieldNum ≠ number := fun heq =>
    hnumber (heq ▸ MessageType.dynamicSwitch_mem_numbers hswitch)
  simp only [MessageType.dynamicSwitch, hne, if_false, hswitch, Option.map_some]

/-- The documented behaviour of `io::Reader::skip`: it returns the next bytes. -/
def SkipReturns (readerSkip : Int → Read (List UInt8)) : Prop :=
  ∀ bytes : List UInt8, (readerSkip bytes.length).Reads bytes bytes

/-- A string is read back behind its length. -/
theorem unmarshalStr_bytes (hV : V.Lawful) (hskip : SkipReturns readerSkip) {s : List UInt8}
    (hs : s.length < 2 ^ 63) (rest : List UInt8) :
    unmarshalStr V readerSkip (.ofBytes (V.writeUnsigned s.length ++ s ++ rest)) =
      (s, .ofBytes rest) := by
  have hlen := Reader.read_ofBytes (hV.unsigned s.length hs) Err.baselib (s ++ rest)
  have hdata := Reader.read_ofBytes (hskip s) Err.baselib rest
  rw [List.append_assoc]
  simp [unmarshalStr, hlen, hdata]

/-- The client reads back a scalar that the generated codec wrote. -/
theorem ScalarType.dynamic_payload (hV : V.Lawful) (hskip : SkipReturns readerSkip)
    (s : ScalarType) (hbounded : s.storage.Bounded) (val : s.storage.Val)
    (h : s.storage.isDefault val = false) (rest : List UInt8) :
    s.cppType.unmarshal V readerSkip (.ofBytes (s.storage.payload V val ++ rest)) =
      (s.toCpp val, .ofBytes rest) := by
  have hgenerated := s.storage.unmarshal_payload hV hbounded val h rest
  cases s with
  | string size =>
    exact unmarshalStr_bytes hV hskip (val.length_le.trans_lt (lt_trans hbounded (by decide))) rest
  | bytes size =>
    exact unmarshalStr_bytes hV hskip (val.length_le.trans_lt (lt_trans hbounded (by decide))) rest
  | _ => exact hgenerated

mutual

theorem FieldKind.Wire.dynamicRounds (hV : V.Lawful) (hskip : SkipReturns readerSkip)
    {number : BitVec 32} (hnumber : number.toNat < 2 ^ 28) :
    ∀ {k : FieldKind} {levels : Nat} {val : k.Val} {bytes : List UInt8} {nesting : Int},
      k.Wire V number levels val bytes → k.WellFormed → (levels : Int) ≤ nesting →
      ∃ held : k.Dynamic,
        Rounds V (k.dynamicCase V readerSkip number nesting) k.dynamicDefault bytes held ∧
        k.Holds held (k.received val)
  | .scalar type, _, val, bytes, nesting, h, hbounded, _ => by
    obtain rfl : bytes = type.storage.ref V number val := h
    cases hval : type.storage.isDefault val with
    | true =>
      have href := (type.storage.ref_eq_nil_iff hV number val).mpr hval
      have hreceived := type.storage.identifyZeros_of_isDefault val hval
      refine ⟨type.cppType.default, ?_, ?_⟩
      · rw [href]
        exact .nil _
      · exact type.toCpp_default.symm.trans (congrArg type.toCpp hreceived.symm)
    | false =>
      have hreceived := type.storage.identifyZeros_of_not_isDefault val hval
      refine ⟨type.toCpp val, ?_, congrArg type.toCpp hreceived.symm⟩
      simp only [StorageType.ref, hval]
      refine Rounds.one hnumber type.storage.wireType_ne_endTag fun rest => ?_
      simp only [FieldKind.dynamicCase, if_true]
      exact congrArg some (type.dynamic_payload hV hskip hbounded val hval rest)
  | .message type, levels, msg, _, nesting, ⟨child, hchild, hlevels, hbytes⟩, hwf, hle => by
    have hwire : type.Wire V (levels - 1) msg child := hchild
    by_cases hnil : child = []
    · -- No round: the field is left unset, which holds the default.
      have hdefault := (hwire.eq_nil_iff hV).mp hnil
      refine ⟨none, ?_, type.received_of_isDefault msg hdefault⟩
      rw [hbytes, wrap, if_pos hnil]
      exact .nil _
    · -- One round, one level down.
      have hpos := hlevels hnil
      have hbudget : ((levels - 1 : Nat) : Int) ≤ nesting - 1 := by omega
      obtain ⟨held, hbody, hheld⟩ := hwire.unmarshalInto_eq hV hskip hwf hbudget
      refine ⟨some held, ?_, hheld⟩
      rw [hbytes]
      refine Rounds.wrapped hnumber hnil fun rest => ?_
      simp only [FieldKind.dynamicCase, if_true, FieldKind.unmarshalDynamic,
        FieldKind.dynamicDefault, Option.getD_none, hbody rest]
  | .repeated type, levels, vec, _, nesting, ⟨children, hchildren, hbytes⟩, hwf, hle => by
    have hone : ∀ msg child, type.WireBelow V levels msg child → child ≠ [] →
        ∃ held, type.Holds held (type.received msg) ∧ ∀ acc,
          Rounds V (FieldKind.dynamicCase V readerSkip number (.repeated type) nesting) acc
            (wrap V number child) (acc ++ [held]) := by
      rintro msg child ⟨hwire, hlevels⟩ hne
      have hpos := hlevels hne
      have hbudget : ((levels - 1 : Nat) : Int) ≤ nesting - 1 := by omega
      obtain ⟨held, hbody, hheld⟩ := hwire.unmarshalInto_eq hV hskip hwf hbudget
      refine ⟨held, hheld, fun acc => Rounds.wrapped hnumber hne fun rest => ?_⟩
      simp only [FieldKind.dynamicCase, if_true, FieldKind.unmarshalDynamic, hbody rest]
    obtain ⟨held, hheld, hrounds⟩ :=
      Rounds.children (fun _ _ h => h.1.eq_nil_iff hV) hone hchildren
    refine ⟨held, hbytes ▸ hrounds [], ?_⟩
    rw [FieldKind.received, FieldKind.Holds, List.forall₂_map_right_iff]
    exact hheld
termination_by k => (sizeOf k, 0)

/-- The fields of an encoding are read in whatever order they are. -/
theorem MessageType.Parts.dynamicChain (hV : V.Lawful) (hskip : SkipReturns readerSkip) :
    ∀ {T : MessageType} {levels : Nat} {msg : T.Val} {parts : List Part} {nesting : Int},
      T.Parts V levels msg parts → T.WellFormed → (levels : Int) ≤ nesting →
      ∃ held : T.Dynamic, T.Holds held (T.received msg) ∧
        ∀ order : List Part, order.Perm parts →
          Chain V (T.dynamicSwitch V readerSkip nesting) T.dynamicDefault order held
  | .empty, _, _, parts, _, h, _, _ => by
    obtain rfl : parts = [] := h
    refine ⟨(), trivial, fun order hperm => ?_⟩
    rw [hperm.eq_nil]
    rfl
  | .field number kind rest, _, (val, msg), _, nesting, ⟨bytes, parts', hfield, hrest, hparts⟩,
      hwf, hle => by
    obtain ⟨-, hlt, hfresh, hkind, hwfRest⟩ := hwf
    obtain ⟨heldVal, hrounds, hheldVal⟩ := hfield.dynamicRounds hV hskip hlt hkind hle
    obtain ⟨heldMsg, hheldMsg, hchain⟩ := hrest.dynamicChain hV hskip hwfRest hle
    refine ⟨(heldVal, heldMsg), ⟨hheldVal, hheldMsg⟩, fun order hperm => ?_⟩
    rw [hparts] at hperm
    exact Chain.insert (fun msg _ _ _ h => Rounds.dynamicHead msg h)
      (fun val _ _ _ h => Rounds.dynamicTail hfresh val h) hperm hrounds hchain
termination_by T => (sizeOf T, 0)

/-- `unmarshal_message` reads every encoding of a message, and its `End`, into a message
that holds what comes back. -/
theorem MessageType.Wire.unmarshalInto_eq (hV : V.Lawful) (hskip : SkipReturns readerSkip) :
    ∀ {T : MessageType} {levels : Nat} {msg : T.Val} {bytes : List UInt8} {nesting : Int},
      T.Wire V levels msg bytes → T.WellFormed → (levels : Int) ≤ nesting →
      ∃ held : T.Dynamic,
        (∀ rest, unmarshalInto V (T.dynamicSwitch V readerSkip nesting) nesting T.dynamicDefault
          (.ofBytes (bytes ++ endByte :: rest)) = (held, .ofBytes rest)) ∧
        T.Holds held (T.received msg)
  | T, _, _, _, nesting, ⟨parts, order, hparts, hperm, hbytes⟩, hwf, hle => by
    obtain ⟨held, hheld, hchain⟩ := hparts.dynamicChain hV hskip hwf hle
    refine ⟨held, fun rest => ?_, hheld⟩
    rw [hbytes]
    exact (hchain order hperm).rounds.unmarshalInto_eq hV (T.dynamicSwitch_consumes nesting)
      (by omega) rest
termination_by T => (sizeOf T, 1)

end

end Unmarshal

/-! ## Both directions -/

/-- The generated decoder reads what the command-line client encodes for a value, and the
client reads what the generated encoder writes for one. No error is reported, exactly the
encoding is consumed, and the value comes back without the repeated elements that encode
to nothing; a message that encodes to nothing may come back absent. -/
theorem codecs_interoperate (V : Varint) (hV : V.Lawful) (listFields : ListFields)
    (hlist : ListsSetFields listFields) (readerSkip : Int → Read (List UInt8))
    (hskip : SkipReturns readerSkip) (T : MessageType) (hwf : T.WellFormed) :
    (∀ (held : T.Dynamic) (msg : T.Val), T.Holds held msg → T.dynamicDepth held ≤ MaxNesting →
      ∀ (out : Writer Err), out.Open → ∀ rest : List UInt8,
        ∃ bytes, cliMarshal V listFields T held out = .ok (out.append bytes) ∧
          unmarshal V T (.ofBytes (bytes ++ rest)) = (T.received msg, .ofBytes rest)) ∧
    (∀ msg : T.Val, T.depth msg ≤ MaxNesting →
      ∀ (out : Writer Err), out.Open → ∀ rest : List UInt8,
        ∃ bytes held, marshal V T msg out = .ok (out.append bytes) ∧
          cliUnmarshal V readerSkip T T.dynamicDefault (.ofBytes (bytes ++ rest)) =
            (held, .ofBytes rest) ∧
          T.Holds held (T.received msg)) := by
  constructor
  · intro held msg hheld hdepth out hopen rest
    obtain ⟨bytes, hwire, hemits⟩ := T.marshalMessage_wire hV hlist held msg MaxNesting MaxNesting
      hwf hheld hdepth (le_refl _)
    refine ⟨bytes ++ [endByte], ?_, unmarshal_wire hV hwf hwire (le_refl _) rest⟩
    exact hemits.top (le_refl _) hopen
  · intro msg hdepth out hopen rest
    have hwire := T.ref_wire (V := V) msg MaxNesting hdepth
    have hbudget : ((MaxNesting : Nat) : Int) ≤ MaxNesting := le_refl _
    obtain ⟨held, hread, hheld⟩ := hwire.unmarshalInto_eq hV hskip hwf hbudget
    refine ⟨T.ref V msg ++ [endByte], held, marshal_open hV hopen hdepth, ?_, hheld⟩
    rw [List.append_assoc, List.singleton_append]
    exact hread rest

/-- A message with the higher number declared first. -/
def highNumberFirst : MessageType :=
  .field 3 (.scalar .int32)
    (.field 1 (.repeated (.field 2 (.scalar (.string 4)) .empty)) .empty)

theorem highNumberFirst_wellFormed : highNumberFirst.WellFormed := by
  simp [highNumberFirst, MessageType.WellFormed, FieldKind.WellFormed, MessageType.numbers,
    StorageType.Bounded]

/-- The number 7 and two elements, one of them empty. -/
def sevenAndHi : highNumberFirst.Val :=
  (7, [(⟨[104, 105], by decide⟩, ()), (⟨[], by decide⟩, ())], ())

/-- The same in a protobuf message. -/
def dynamicSevenAndHi : highNumberFirst.Dynamic := (7, [([104, 105], ()), ([], ())], ())

theorem codecs_interoperate_sevenAndHi :
    (∃ bytes, cliMarshal Varint.leb128 listFieldsByNumber highNumberFirst dynamicSevenAndHi {} =
        .ok (Writer.append bytes {}) ∧
      unmarshal Varint.leb128 highNumberFirst (.ofBytes (bytes ++ [9])) =
        (highNumberFirst.received sevenAndHi, .ofBytes [9])) ∧
    (∃ bytes held, marshal Varint.leb128 highNumberFirst sevenAndHi {} =
        .ok (Writer.append bytes {}) ∧
      cliUnmarshal Varint.leb128 (fun n => Read.full n.toNat) highNumberFirst
        highNumberFirst.dynamicDefault (.ofBytes (bytes ++ [9])) = (held, .ofBytes [9]) ∧
      highNumberFirst.Holds held (highNumberFirst.received sevenAndHi)) := by
  have h := codecs_interoperate Varint.leb128 Varint.leb128_lawful listFieldsByNumber
    listFieldsByNumber_listsSetFields (fun n => Read.full n.toNat) Read.full_reads highNumberFirst
    highNumberFirst_wellFormed
  have hheld : highNumberFirst.Holds dynamicSevenAndHi sevenAndHi :=
    ⟨rfl, .cons ⟨rfl, trivial⟩ (.cons ⟨rfl, trivial⟩ .nil), trivial⟩
  exact ⟨h.1 dynamicSevenAndHi sevenAndHi hheld (by decide) {} ⟨rfl, rfl⟩ [9],
    h.2 sevenAndHi (by decide) {} ⟨rfl, rfl⟩ [9]⟩

end SerialRpc
