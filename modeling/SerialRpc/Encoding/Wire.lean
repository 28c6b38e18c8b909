import Mathlib.Data.List.Forall2
import SerialRpc.Encoding.Rounds

/-!
# Encodings with the fields in any order

An encoder need not write the fields of a message in declaration order. The relation
`MessageType.Wire` says that some bytes encode a message: they are the bytes of its
fields one after the other, in some order, and the same holds of every message inside.
It also bounds the message levels that leave bytes.

The relation is what encoders and decoders are proved against, each on its own:

- `MessageType.ref_wire`: the reference bytes encode the message.
- `Chain`: rounds of a decoder, field by field. A field that is decoded on its own can be
  decoded anywhere among the others (`Chain.insert`).
- `unmarshal_wire`: the generated decoder reads every encoding back.
-/

namespace SerialRpc

open ByteStream

/-- A field's number and its bytes. -/
abbrev Part := BitVec 32 × List UInt8

/-- The bytes are those of some parts, in any order. -/
def InSomeOrder (p : List Part → Prop) (bytes : List UInt8) : Prop :=
  ∃ parts order : List Part, p parts ∧ order.Perm parts ∧ bytes = order.flatMap Prod.snd

section Wire

variable (V : Varint)

mutual

/-- The bytes encode a field, with at most `levels` message levels in them. -/
def FieldKind.Wire (number : BitVec 32) : (k : FieldKind) → Nat → k.Val → List UInt8 → Prop
  | .scalar type, _, val, bytes => bytes = type.storage.ref V number val
  | .message type, levels, msg, bytes =>
    ∃ child, InSomeOrder (type.Parts (levels - 1) msg) child ∧ (child ≠ [] → 0 < levels) ∧
      bytes = wrap V number child
  | .repeated type, levels, vec, bytes =>
    ∃ children, List.Forall₂
      (fun msg child =>
        InSomeOrder (type.Parts (levels - 1) msg) child ∧ (child ≠ [] → 0 < levels))
      vec children ∧ bytes = children.flatMap (wrap V number)

/-- The fields' encodings, in declaration order. -/
def MessageType.Parts : (T : MessageType) → Nat → T.Val → List Part → Prop
  | .empty, _, _, parts => parts = []
  | .field number kind rest, levels, (val, msg), parts =>
    ∃ bytes parts', kind.Wire number levels val bytes ∧ rest.Parts levels msg parts' ∧
      parts = (number, bytes) :: parts'

end

/-- The bytes encode a message, with at most `levels` message levels in them. -/
def MessageType.Wire (T : MessageType) (levels : Nat) (msg : T.Val) (bytes : List UInt8) : Prop :=
  InSomeOrder (T.Parts V levels msg) bytes

/-- The bytes encode a message one level down. -/
def MessageType.WireBelow (T : MessageType) (levels : Nat) (msg : T.Val)
    (bytes : List UInt8) : Prop :=
  T.Wire V (levels - 1) msg bytes ∧ (bytes ≠ [] → 0 < levels)

end Wire

variable {V : Varint}

/-! ## The reference bytes are an encoding -/

mutual

theorem FieldKind.ref_wire (number : BitVec 32) :
    ∀ (k : FieldKind) (val : k.Val) (levels : Nat), k.depth val ≤ levels →
      k.Wire V number levels val (k.ref V number val)
  | .scalar _, _, _, _ => rfl
  | .message type, msg, levels, hdepth => by
    simp only [FieldKind.depth] at hdepth
    have hchild := type.ref_wire msg (levels - 1) (by omega)
    exact ⟨type.ref V msg, hchild, fun _ => by omega, rfl⟩
  | .repeated type, vec, levels, hdepth => by
    refine ⟨vec.map (type.ref V), ?_, (List.flatMap_map ..).symm⟩
    rw [List.forall₂_map_right_iff, List.forall₂_same]
    intro msg hmsg
    have hle : type.depth msg + 1 ≤ FieldKind.depth (.repeated type) vec :=
      le_maximum (List.mem_map_of_mem hmsg)
    exact ⟨type.ref_wire msg (levels - 1) (by omega), fun _ => by omega⟩
termination_by k => (sizeOf k, 0)

/-- The fields of the reference encoding are parts of an encoding. -/
theorem MessageType.ref_parts :
    ∀ (T : MessageType) (msg : T.Val) (levels : Nat), T.depth msg ≤ levels →
      ∃ parts, T.Parts V levels msg parts ∧ parts.flatMap Prod.snd = T.ref V msg
  | .empty, _, _, _ => ⟨[], rfl, rfl⟩
  | .field number kind rest, (val, msg), levels, hdepth => by
    simp only [MessageType.depth] at hdepth
    have hfield := kind.ref_wire number val levels (by omega)
    obtain ⟨parts, hparts, hbytes⟩ := rest.ref_parts msg levels (by omega)
    refine ⟨(number, kind.ref V number val) :: parts, ⟨_, parts, hfield, hparts, rfl⟩, ?_⟩
    rw [List.flatMap_cons, hbytes]
    rfl
termination_by T => (sizeOf T, 0)

/-- The reference bytes, whose order is that of the declarations. -/
theorem MessageType.ref_wire :
    ∀ (T : MessageType) (msg : T.Val) (levels : Nat), T.depth msg ≤ levels →
      T.Wire V levels msg (T.ref V msg)
  | T, msg, levels, hdepth => by
    obtain ⟨parts, hparts, hbytes⟩ := T.ref_parts msg levels hdepth
    exact ⟨parts, parts, hparts, .refl parts, hbytes.symm⟩
termination_by T => (sizeOf T, 1)

end

/-! ## Messages that encode to nothing -/

/-- There are no bytes exactly if no part has any. -/
theorem flatMap_snd_eq_nil_iff {parts order : List Part} (h : order.Perm parts) :
    order.flatMap Prod.snd = [] ↔ ∀ part ∈ parts, part.2 = [] := by
  rw [List.flatMap_eq_nil_iff]
  exact forall_congr' fun part => by rw [h.mem_iff]

mutual

/-- A field has no bytes exactly if it is a default. -/
theorem FieldKind.Wire.eq_nil_iff (hV : V.Lawful) {number : BitVec 32} :
    ∀ {k : FieldKind} {levels : Nat} {val : k.Val} {bytes : List UInt8},
      k.Wire V number levels val bytes → (bytes = [] ↔ k.isDefault val = true)
  | .scalar type, _, val, bytes, h => by
    obtain rfl : bytes = type.storage.ref V number val := h
    exact type.storage.ref_eq_nil_iff hV number val
  | .message type, _, msg, _, ⟨child, ⟨parts, order, hparts, hperm, hchild⟩, _, hbytes⟩ => by
    have hall := MessageType.Parts.all_nil_iff hV hparts
    rw [hbytes, wrap_eq_nil_iff, hchild, flatMap_snd_eq_nil_iff hperm, hall]
    rfl
  | .repeated type, levels, vec, _, ⟨children, hchildren, hbytes⟩ => by
    rw [hbytes, List.flatMap_eq_nil_iff, FieldKind.isDefault]
    clear hbytes
    induction hchildren with
    | nil => simp
    | @cons msg child vec children hmsg _ ih =>
      obtain ⟨⟨parts, order, hparts, hperm, rfl⟩, -⟩ := hmsg
      have hall := MessageType.Parts.all_nil_iff hV hparts
      rw [List.forall_mem_cons, List.all_cons, Bool.and_eq_true_iff, ih, wrap_eq_nil_iff,
        flatMap_snd_eq_nil_iff hperm, hall]

theorem MessageType.Parts.all_nil_iff (hV : V.Lawful) :
    ∀ {T : MessageType} {levels : Nat} {msg : T.Val} {parts : List Part},
      T.Parts V levels msg parts → ((∀ part ∈ parts, part.2 = []) ↔ T.isDefault msg = true)
  | .empty, _, _, parts, h => by
    obtain rfl : parts = [] := h
    simp [MessageType.isDefault]
  | .field number kind rest, _, (val, msg), _, ⟨bytes, parts', hfield, hrest, hparts⟩ => by
    have hnil := FieldKind.Wire.eq_nil_iff hV hfield
    have hall := MessageType.Parts.all_nil_iff hV hrest
    rw [hparts, List.forall_mem_cons, MessageType.isDefault, Bool.and_eq_true_iff, ← hnil, ← hall]

end

/-- Only a message that encodes to nothing has an encoding without bytes. -/
theorem MessageType.Wire.eq_nil_iff (hV : V.Lawful) {T : MessageType} {levels : Nat}
    {msg : T.Val} {bytes : List UInt8} (h : T.Wire V levels msg bytes) :
    bytes = [] ↔ T.isDefault msg = true := by
  obtain ⟨parts, order, hparts, hperm, rfl⟩ := h
  rw [flatMap_snd_eq_nil_iff hperm, hparts.all_nil_iff hV]

/-! ## Decoding part by part -/

/-- Rounds that take one part after the other. -/
def Chain (V : Varint) {α : Type} (switch : Switch α) : α → List Part → α → Prop
  | msg, [], msg' => msg = msg'
  | msg, part :: parts, msg' =>
    ∃ mid, Rounds V switch msg part.2 mid ∧ Chain V switch mid parts msg'

namespace Chain

variable {α β : Type} {switch : Switch α}

/-- A chain of parts goes on behind another. -/
theorem append_iff {parts parts' : List Part} :
    ∀ {msg msg' : α}, Chain V switch msg (parts ++ parts') msg' ↔
      ∃ mid, Chain V switch msg parts mid ∧ Chain V switch mid parts' msg' := by
  induction parts with
  | nil =>
    intro msg msg'
    exact ⟨fun h => ⟨msg, rfl, h⟩, fun ⟨_, hmid, h⟩ => hmid ▸ h⟩
  | cons part parts ih =>
    intro msg msg'
    constructor
    · rintro ⟨first, hfirst, hrest⟩
      obtain ⟨mid, hmid, hlast⟩ := ih.mp hrest
      exact ⟨mid, ⟨first, hfirst, hmid⟩, hlast⟩
    · rintro ⟨mid, ⟨first, hfirst, hmid⟩, hlast⟩
      exact ⟨first, hfirst, ih.mpr ⟨mid, hmid, hlast⟩⟩

/-- The rounds of all parts. -/
theorem rounds :
    ∀ {parts : List Part} {msg msg' : α}, Chain V switch msg parts msg' →
      Rounds V switch msg (parts.flatMap Prod.snd) msg'
  | [], msg, _, h => h ▸ .nil msg
  | _ :: _, _, _, ⟨_, hfirst, hrest⟩ => hfirst.trans hrest.rounds

/-- Chains lift along a map that rounds lift along. -/
theorem lift {switch' : Switch β} (f : α → β)
    (hf : ∀ {msg msg' : α} {bytes : List UInt8}, Rounds V switch msg bytes msg' →
      Rounds V switch' (f msg) bytes (f msg')) :
    ∀ {parts : List Part} {msg msg' : α}, Chain V switch msg parts msg' →
      Chain V switch' (f msg) parts (f msg')
  | [], _, _, h => congrArg f h
  | _ :: _, _, _, ⟨mid, hfirst, hrest⟩ => ⟨f mid, hf hfirst, hrest.lift f hf⟩

/-- One field's part can stand anywhere among the other fields' parts. -/
theorem insert {switch : Switch (α × β)} {head : Switch α} {tail : Switch β}
    (hhead : ∀ (b : β) {a a' : α} {bytes : List UInt8}, Rounds V head a bytes a' →
      Rounds V switch (a, b) bytes (a', b))
    (htail : ∀ (a : α) {b b' : β} {bytes : List UInt8}, Rounds V tail b bytes b' →
      Rounds V switch (a, b) bytes (a, b'))
    {part : Part} {parts order : List Part} (hperm : order.Perm (part :: parts))
    {a a' : α} (ha : Rounds V head a part.2 a') {b b' : β}
    (hb : ∀ order' : List Part, order'.Perm parts → Chain V tail b order' b') :
    Chain V switch (a, b) order (a', b') := by
  obtain ⟨before, after, rfl⟩ := List.append_of_mem (hperm.mem_iff.mpr List.mem_cons_self)
  have hrest : (before ++ after).Perm parts := (List.perm_middle.symm.trans hperm).cons_inv
  obtain ⟨mid, hbefore, hafter⟩ := append_iff.mp (hb _ hrest)
  refine append_iff.mpr ⟨(a, mid), hbefore.lift (fun b => (a, b)) (htail a), (a', mid), ?_, ?_⟩
  · exact hhead mid ha
  · exact hafter.lift (fun b => (a', b)) (htail a')

end Chain

/-- A message that is not empty is one round. -/
theorem Rounds.wrapped {α : Type} {switch : Switch α} {number : BitVec 32}
    (hnumber : number.toNat < 2 ^ 28) {child : List UInt8} (hchild : child ≠ []) {msg msg' : α}
    (h : ∀ rest, switch number msg (.ofBytes (child ++ endByte :: rest)) =
      some (msg', .ofBytes rest)) :
    Rounds V switch msg (wrap V number child) msg' := by
  rw [wrap, if_neg hchild, List.append_assoc]
  refine Rounds.one hnumber (by decide) fun rest => ?_
  rw [List.append_assoc, List.singleton_append]
  exact h rest

/-- A vector's rounds, element by element; an element without bytes adds nothing. -/
theorem Rounds.children {α γ : Type} {switch : Switch (List α)} {number : BitVec 32}
    {isDefault : γ → Bool} {P : γ → List UInt8 → Prop} {R : α → γ → Prop}
    (hnil : ∀ a child, P a child → (child = [] ↔ isDefault a = true))
    (hone : ∀ a child, P a child → child ≠ [] → ∃ value, R value a ∧
      ∀ acc, Rounds V switch acc (wrap V number child) (acc ++ [value]))
    {vec : List γ} {children : List (List UInt8)} (h : List.Forall₂ P vec children) :
    ∃ values, List.Forall₂ R values (vec.filter fun a => !isDefault a) ∧
      ∀ acc, Rounds V switch acc (children.flatMap (wrap V number)) (acc ++ values) := by
  induction h with
  | nil => exact ⟨[], .nil, fun acc => by simpa using Rounds.nil acc⟩
  | @cons a child vec children hchild _ ih =>
    obtain ⟨values, hvalues, hrest⟩ := ih
    rw [List.filter_cons, List.flatMap_cons]
    by_cases hempty : child = []
    · have hdefault := (hnil a child hchild).mp hempty
      refine ⟨values, by simpa [hdefault] using hvalues, fun acc => ?_⟩
      simpa [wrap, hempty] using hrest acc
    · have hdefault := Bool.eq_false_iff.mpr (mt (hnil a child hchild).mpr hempty)
      obtain ⟨value, hvalue, hfirst⟩ := hone a child hchild hempty
      refine ⟨value :: values, by simpa [hdefault] using And.intro hvalue hvalues, fun acc => ?_⟩
      simpa using (hfirst acc).trans (hrest (acc ++ [value]))

/-! ## The generated decoder -/

mutual

theorem FieldKind.Wire.rounds (hV : V.Lawful) {number : BitVec 32}
    (hnumber : number.toNat < 2 ^ 28) :
    ∀ {k : FieldKind} {levels : Nat} {val : k.Val} {bytes : List UInt8} {nesting : Int},
      k.Wire V number levels val bytes → k.WellFormed → (levels : Int) ≤ nesting →
      Rounds V (k.case V number nesting) k.default bytes (k.received val)
  | .scalar type, _, val, bytes, nesting, h, hbounded, _ => by
    obtain rfl : bytes = type.storage.ref V number val := h
    exact FieldKind.scalar_rounds hV hnumber type hbounded val nesting
  | .message type, levels, msg, _, nesting, ⟨child, hchild, hlevels, hbytes⟩, hwf, hle => by
    have hwire : type.Wire V (levels - 1) msg child := hchild
    by_cases hnil : child = []
    · have hdefault := (hwire.eq_nil_iff hV).mp hnil
      have hreceived := type.received_of_isDefault msg hdefault
      rw [hbytes, wrap, if_pos hnil, FieldKind.received, hreceived]
      exact .nil _
    · have hpos := hlevels hnil
      have hbudget : ((levels - 1 : Nat) : Int) ≤ nesting - 1 := by omega
      have hbody := hwire.unmarshalNested_eq hV hwf hbudget
      rw [hbytes]
      refine Rounds.wrapped hnumber hnil fun rest => ?_
      simp only [FieldKind.case, if_true, FieldKind.unmarshal, FieldKind.received]
      exact congrArg some (hbody rest)
  | .repeated type, levels, vec, _, nesting, ⟨children, hchildren, hbytes⟩, hwf, hle => by
    have hone : ∀ msg child, type.WireBelow V levels msg child → child ≠ [] →
        ∃ value, value = type.received msg ∧ ∀ acc,
          Rounds V (FieldKind.case V number (.repeated type) nesting) acc (wrap V number child)
            (acc ++ [value]) := by
      rintro msg child ⟨hwire, hlevels⟩ hne
      have hpos := hlevels hne
      have hbudget : ((levels - 1 : Nat) : Int) ≤ nesting - 1 := by omega
      have hbody := hwire.unmarshalNested_eq hV hwf hbudget
      refine ⟨_, rfl, fun acc => Rounds.wrapped hnumber hne fun rest => ?_⟩
      simp only [FieldKind.case, if_true, FieldKind.unmarshal, hbody rest]
    obtain ⟨values, hvalues, hrounds⟩ :=
      Rounds.children (fun _ _ h => h.1.eq_nil_iff hV) hone hchildren
    have heq : values = FieldKind.received (.repeated type) vec := by
      rw [FieldKind.received, ← List.forall₂_eq_eq_eq, List.forall₂_map_right_iff]
      exact hvalues
    rw [hbytes, ← heq]
    exact hrounds []
termination_by k => (sizeOf k, 0)

/-- The parts are read in whatever order they are. -/
theorem MessageType.Parts.chain (hV : V.Lawful) :
    ∀ {T : MessageType} {levels : Nat} {msg : T.Val} {parts : List Part} {nesting : Int},
      T.Parts V levels msg parts → T.WellFormed → (levels : Int) ≤ nesting →
      ∀ {order : List Part}, order.Perm parts →
        Chain V (T.switch V nesting) T.default order (T.received msg)
  | .empty, _, _, parts, _, h, _, _, order, hperm => by
    obtain rfl : parts = [] := h
    rw [hperm.eq_nil]
    rfl
  | .field number kind rest, _, (val, msg), _, nesting, ⟨bytes, parts', hfield, hrest, hparts⟩,
      hwf, hle, order, hperm => by
    obtain ⟨-, hlt, hfresh, hkind, hwfRest⟩ := hwf
    rw [hparts] at hperm
    refine Chain.insert (fun msg _ _ _ h => Rounds.head msg h)
      (fun val _ _ _ h => Rounds.tail hfresh val h) hperm ?_ ?_
    · exact hfield.rounds hV hlt hkind hle
    · exact fun order' hperm' => hrest.chain hV hwfRest hle hperm'
termination_by T => (sizeOf T, 0)

theorem MessageType.Wire.unmarshalNested_eq (hV : V.Lawful) :
    ∀ {T : MessageType} {levels : Nat} {msg : T.Val} {bytes : List UInt8} {nesting : Int},
      T.Wire V levels msg bytes → T.WellFormed → (levels : Int) ≤ nesting → ∀ rest,
      unmarshalNested T.default (fun n => messageLoop V (T.switch V n) n T.default) nesting
        (.ofBytes (bytes ++ endByte :: rest)) = (T.received msg, .ofBytes rest)
  | T, _, _, _, nesting, ⟨parts, order, hparts, hperm, hbytes⟩, hwf, hle, rest => by
    have hnonneg : ¬ nesting < 0 := by omega
    rw [unmarshalNested, if_neg hnonneg, hbytes]
    exact (hparts.chain hV hwf hle hperm).rounds.messageLoop_eq hV (T.switch_consumes nesting)
      nesting rest
termination_by T => (sizeOf T, 1)

end

/-- `unmarshal` reads back every encoding. -/
theorem unmarshal_wire (hV : V.Lawful) {T : MessageType} (hwf : T.WellFormed) {levels : Nat}
    {msg : T.Val} {bytes : List UInt8} (h : T.Wire V levels msg bytes)
    (hlevels : levels ≤ MaxNesting) (rest : List UInt8) :
    unmarshal V T (.ofBytes (bytes ++ [endByte] ++ rest)) = (T.received msg, .ofBytes rest) := by
  rw [List.append_assoc, List.singleton_append]
  exact h.unmarshalNested_eq hV hwf (Int.ofNat_le.mpr hlevels) rest

end SerialRpc
