import SerialRpc.Encoding.Framing
import SerialRpc.Encoding.Interop
import SerialRpc.Encoding.RoundTrip

/-!
# Programs of two generations (encoding_impl.cc:31-85, protoc_serialrpc_plugin.cc:1468-1525)

A message type grows by fields, at any level, and programs that know the older type and
programs that know the newer one exchange its values. What the older one decodes is the
newer one's value without the fields it does not know; what the newer one decodes of the
older one's has its own fields at their defaults.

- `MessageType.Extension`: a message type with fields added. `restrict` forgets them and
  `extend` gives them their defaults.
- `MessageType.Extension.body_takes`: both decoders read a body of the newer type.
- `Varint.SkipsWritten`: of `lib.varint`, that `skip` passes over what was written.
- `MessageType.Extension.wire`: an encoding of an older value encodes the extended one.
- `older_reads_newer`, `generations_interoperate`: the two directions.
-/

namespace SerialRpc

open ByteStream

/-! ## Message types that grow -/

mutual

/-- A field of a message type that may have grown. -/
inductive FieldKind.Extension : FieldKind → FieldKind → Type where
  | scalar (type : ScalarType) : FieldKind.Extension (.scalar type) (.scalar type)
  | message {S S' : MessageType} (type : MessageType.Extension S S') :
      FieldKind.Extension (.message S) (.message S')
  | repeated {S S' : MessageType} (type : MessageType.Extension S S') :
      FieldKind.Extension (.repeated S) (.repeated S')

/-- A message type, and the same with fields added, here or in the messages within. -/
inductive MessageType.Extension : MessageType → MessageType → Type where
  | empty : MessageType.Extension .empty .empty
  | kept (number : BitVec 32) {k k' : FieldKind} {T T' : MessageType}
      (kind : FieldKind.Extension k k') (rest : MessageType.Extension T T') :
      MessageType.Extension (.field number k T) (.field number k' T')
  | added (number : BitVec 32) (kind : FieldKind) {T T' : MessageType}
      (rest : MessageType.Extension T T') : MessageType.Extension T (.field number kind T')

end

mutual

def FieldKind.Extension.restrict : {k k' : FieldKind} → k.Extension k' → k'.Val → k.Val
  | _, _, .scalar _, val => val
  | _, _, .message type, msg => type.restrict msg
  | _, _, .repeated type, vec => vec.map type.restrict

/-- A newer value without the added fields. -/
def MessageType.Extension.restrict : {T T' : MessageType} → T.Extension T' → T'.Val → T.Val
  | _, _, .empty, _ => ()
  | _, _, .kept _ kind rest, msg => (kind.restrict msg.1, rest.restrict msg.2)
  | _, _, .added _ _ rest, msg => rest.restrict msg.2

end

mutual

def FieldKind.Extension.extend : {k k' : FieldKind} → k.Extension k' → k.Val → k'.Val
  | _, _, .scalar _, val => val
  | _, _, .message type, msg => type.extend msg
  | _, _, .repeated type, vec => vec.map type.extend

/-- An older value with the added fields at their defaults. -/
def MessageType.Extension.extend : {T T' : MessageType} → T.Extension T' → T.Val → T'.Val
  | _, _, .empty, _ => ()
  | _, _, .kept _ kind rest, msg => (kind.extend msg.1, rest.extend msg.2)
  | _, _, .added _ kind rest, msg => (kind.default, rest.extend msg)

end

mutual

theorem FieldKind.Extension.restrict_extend :
    ∀ {k k' : FieldKind} (e : k.Extension k') (val : k.Val), e.restrict (e.extend val) = val
  | _, _, .scalar _, _ => rfl
  | _, _, .message type, msg => type.restrict_extend msg
  | _, _, .repeated type, vec => by
    have hsame : type.restrict ∘ type.extend = id := funext type.restrict_extend
    rw [FieldKind.Extension.extend, FieldKind.Extension.restrict, List.map_map, hsame, List.map_id]

/-- Nothing of an older value is lost. -/
theorem MessageType.Extension.restrict_extend :
    ∀ {T T' : MessageType} (e : T.Extension T') (msg : T.Val), e.restrict (e.extend msg) = msg
  | _, _, .empty, _ => rfl
  | _, _, .kept _ kind rest, msg =>
    Prod.ext (kind.restrict_extend msg.1) (rest.restrict_extend msg.2)
  | _, _, .added _ _ rest, msg => rest.restrict_extend msg

end

mutual

theorem FieldKind.Extension.restrict_default :
    ∀ {k k' : FieldKind} (e : k.Extension k'), e.restrict k'.default = k.default
  | _, _, .scalar _ => rfl
  | _, _, .message type => type.restrict_default
  | _, _, .repeated _ => rfl

/-- The default of the newer type is the default of the older one. -/
theorem MessageType.Extension.restrict_default :
    ∀ {T T' : MessageType} (e : T.Extension T'), e.restrict T'.default = T.default
  | _, _, .empty => rfl
  | _, _, .kept _ kind rest => Prod.ext kind.restrict_default rest.restrict_default
  | _, _, .added _ _ rest => rest.restrict_default

end

/-! ## What the decoders know -/

theorem MessageType.kind?_of_not_mem {number : BitVec 32} :
    ∀ {T : MessageType}, number ∉ T.numbers → T.kind? number = none
  | .empty, _ => rfl
  | .field number' kind rest, h => by
    rw [MessageType.numbers, List.mem_cons, not_or] at h
    rw [MessageType.kind?, if_neg h.1, rest.kind?_of_not_mem h.2]

/-- The fields of a well-formed type are well formed. -/
theorem MessageType.WellFormed.kind {number : BitVec 32} {kind : FieldKind} :
    ∀ {T : MessageType}, T.WellFormed → T.kind? number = some kind → kind.WellFormed
  | .empty, _, h => by cases h
  | .field number' kind' rest, hwf, h => by
    rw [MessageType.kind?] at h
    split at h
    · cases h
      exact hwf.2.2.2.1
    · exact MessageType.WellFormed.kind hwf.2.2.2.2 h

namespace MessageType.Extension

variable {T T' : MessageType}

/-- The older decoder knows no field that the newer one does not know. -/
theorem kind?_eq_none {number : BitVec 32} :
    ∀ {T T' : MessageType}, T.Extension T' → T'.kind? number = none → T.kind? number = none
  | _, _, .empty, _ => rfl
  | _, _, .kept number' _ rest, h => by
    rw [MessageType.kind?] at h ⊢
    split at h
    · cases h
    · rename_i hne
      rw [if_neg hne, kind?_eq_none rest h]
  | _, _, .added number' _ rest, h => by
    rw [MessageType.kind?] at h
    split at h
    · cases h
    · exact kind?_eq_none rest h

variable (V : Varint)

/-- A field that was added: the older decoder does not know it, and assigning it changes
nothing that the older one sees. -/
structure Adds (e : T.Extension T') (number : BitVec 32) (k' : FieldKind) where
  unknown : T.kind? number = none
  get : T'.Val → k'.Val
  set : T'.Val → k'.Val → T'.Val
  switch : ∀ nesting msg inp, T'.switch V nesting number msg inp =
    some (set msg (k'.unmarshal V nesting (get msg) inp).1,
      (k'.unmarshal V nesting (get msg) inp).2)
  restrict_set : ∀ msg val, e.restrict (set msg val) = e.restrict msg

/-- A field that both decoders know: they assign it alike. -/
structure Keeps (e : T.Extension T') (number : BitVec 32) (k' : FieldKind) where
  kind : FieldKind
  extension : kind.Extension k'
  known : T.kind? number = some kind
  get : T.Val → kind.Val
  get' : T'.Val → k'.Val
  set : T.Val → kind.Val → T.Val
  set' : T'.Val → k'.Val → T'.Val
  switch : ∀ nesting msg inp, T.switch V nesting number msg inp =
    some (set msg (kind.unmarshal V nesting (get msg) inp).1,
      (kind.unmarshal V nesting (get msg) inp).2)
  switch' : ∀ nesting msg inp, T'.switch V nesting number msg inp =
    some (set' msg (k'.unmarshal V nesting (get' msg) inp).1,
      (k'.unmarshal V nesting (get' msg) inp).2)
  get_restrict : ∀ msg, get (e.restrict msg) = extension.restrict (get' msg)
  restrict_set : ∀ msg val,
    e.restrict (set' msg val) = set (e.restrict msg) (extension.restrict val)

variable {V}

section Behind

variable {number number' : BitVec 32} {k' : FieldKind}

/-- Behind a field that both know. -/
def Adds.kept {e : T.Extension T'} (a : e.Adds V number k') {kind kind' : FieldKind}
    (first : kind.Extension kind') (hne : number ≠ number') :
    (MessageType.Extension.kept number' first e).Adds V number k' where
  unknown := by rw [MessageType.kind?, if_neg hne, a.unknown]
  get msg := a.get msg.2
  set msg val := (msg.1, a.set msg.2 val)
  switch nesting msg inp := by
    simp only [MessageType.switch, hne, if_false, a.switch nesting msg.2 inp, Option.map_some]
  restrict_set msg val := Prod.ext rfl (a.restrict_set msg.2 val)

def Keeps.kept {e : T.Extension T'} (a : e.Keeps V number k') {kind kind' : FieldKind}
    (first : kind.Extension kind') (hne : number ≠ number') :
    (MessageType.Extension.kept number' first e).Keeps V number k' where
  kind := a.kind
  extension := a.extension
  known := by rw [MessageType.kind?, if_neg hne, a.known]
  get msg := a.get msg.2
  get' msg := a.get' msg.2
  set msg val := (msg.1, a.set msg.2 val)
  set' msg val := (msg.1, a.set' msg.2 val)
  switch nesting msg inp := by
    simp only [MessageType.switch, hne, if_false, a.switch nesting msg.2 inp, Option.map_some]
  switch' nesting msg inp := by
    simp only [MessageType.switch, hne, if_false, a.switch' nesting msg.2 inp, Option.map_some]
  get_restrict msg := a.get_restrict msg.2
  restrict_set msg val := Prod.ext rfl (a.restrict_set msg.2 val)

/-- Behind an added field. -/
def Adds.added {e : T.Extension T'} (a : e.Adds V number k') (kind : FieldKind)
    (hne : number ≠ number') :
    (MessageType.Extension.added number' kind e).Adds V number k' where
  unknown := a.unknown
  get msg := a.get msg.2
  set msg val := (msg.1, a.set msg.2 val)
  switch nesting msg inp := by
    simp only [MessageType.switch, hne, if_false, a.switch nesting msg.2 inp, Option.map_some]
  restrict_set msg val := a.restrict_set msg.2 val

def Keeps.added {e : T.Extension T'} (a : e.Keeps V number k') (kind : FieldKind)
    (hne : number ≠ number') :
    (MessageType.Extension.added number' kind e).Keeps V number k' where
  kind := a.kind
  extension := a.extension
  known := a.known
  get := a.get
  get' msg := a.get' msg.2
  set := a.set
  set' msg val := (msg.1, a.set' msg.2 val)
  switch := a.switch
  switch' nesting msg inp := by
    simp only [MessageType.switch, hne, if_false, a.switch' nesting msg.2 inp, Option.map_some]
  get_restrict msg := a.get_restrict msg.2
  restrict_set msg val := a.restrict_set msg.2 val

end Behind

/-- The fields of the newer type are the added ones and those that both know. -/
theorem adds_or_keeps {number : BitVec 32} {k' : FieldKind} :
    ∀ {T T' : MessageType} (e : T.Extension T'), T'.WellFormed → T'.kind? number = some k' →
      Nonempty (e.Adds V number k') ∨ Nonempty (e.Keeps V number k')
  | _, _, .empty, _, h => by cases h
  | _, _, @kept number' k _ _ _ kind rest, hwf, h => by
    rw [MessageType.kind?] at h
    split at h
    · rename_i heq
      cases h
      refine .inr ⟨{
        kind := k
        extension := kind
        known := by rw [MessageType.kind?, if_pos heq]
        get := Prod.fst
        get' := Prod.fst
        set := fun msg val => (val, msg.2)
        set' := fun msg val => (val, msg.2)
        switch := fun nesting msg inp => by simp only [MessageType.switch, heq, if_true]
        switch' := fun nesting msg inp => by simp only [MessageType.switch, heq, if_true]
        get_restrict := fun _ => rfl
        restrict_set := fun _ _ => rfl }⟩
    · rename_i hne
      rcases adds_or_keeps rest hwf.2.2.2.2 h with ⟨⟨a⟩⟩ | ⟨⟨a⟩⟩
      · exact .inl ⟨a.kept kind hne⟩
      · exact .inr ⟨a.kept kind hne⟩
  | _, _, .added number' kind rest, hwf, h => by
    rw [MessageType.kind?] at h
    split at h
    · rename_i heq
      cases h
      have hfresh := MessageType.kind?_of_not_mem hwf.2.2.1
      refine .inl ⟨{
        unknown := heq ▸ rest.kind?_eq_none hfresh
        get := Prod.fst
        set := fun msg val => (val, msg.2)
        switch := fun nesting msg inp => by simp only [MessageType.switch, heq, if_true]
        restrict_set := fun _ _ => rfl }⟩
    · rename_i hne
      rcases adds_or_keeps rest hwf.2.2.2.2 h with ⟨⟨a⟩⟩ | ⟨⟨a⟩⟩
      · exact .inl ⟨a.added kind hne⟩
      · exact .inr ⟨a.added kind hne⟩

end MessageType.Extension

/-! ## The older decoder -/

section Older

variable {V : Varint} {IsVarint : List UInt8 → Prop} {T T' : MessageType} {nesting : Int}
  {tag : Tag} {payload : List UInt8}

/-- What a field's payload does to the newer decoder's message and to the older one's. -/
def MessageType.Extension.FieldTakes (V : Varint) (e : T.Extension T') (nesting : Int) (tag : Tag)
    (payload : List UInt8) : Prop :=
  ∀ msg, ∃ next,
    Reader.Takes (Reader.round (messageField V (T'.switch V nesting) nesting tag) msg) payload
      (true, next) ∧
    Reader.Takes (Reader.round (messageField V (T.switch V nesting) nesting tag) (e.restrict msg))
      payload (true, e.restrict next)

/-- A nested message, as a field and as an element of a repeated one. -/
theorem FieldKind.message_takes {S : MessageType} {level : Nat} {inner : List UInt8} {m : S.Val}
    (h : Reader.Takes (messageLoop V (S.switch V level) level S.default) inner m)
    (held : S.Val) :
    Reader.Takes (FieldKind.unmarshal V (.message S) ((level + 1 : Nat) : Int) held) inner m :=
  unmarshalNested_takes h

/-- A repeated field takes the bytes of an element, and has it at the end. -/
theorem FieldKind.repeated_takes {S : MessageType} {level : Nat} {inner : List UInt8}
    {m : S.Val} (h : Reader.Takes (messageLoop V (S.switch V level) level S.default) inner m)
    (held : List S.Val) :
    Reader.Takes (FieldKind.unmarshal V (.repeated S) ((level + 1 : Nat) : Int) held) inner
      (held ++ [m]) := by
  intro rest
  simp only [FieldKind.unmarshal, unmarshalNested_takes h rest]

/-- Both know a scalar as the same scalar. -/
theorem FieldKind.Extension.scalar_takes {k : FieldKind} {type : ScalarType}
    (e : k.Extension (.scalar type)) {val : type.storage.Val}
    (h : Reader.Takes (type.storage.unmarshal V) payload val) (held : type.storage.Val) :
    Reader.Takes (k.unmarshal V nesting (e.restrict held)) payload (e.restrict val) := by
  cases e with
  | scalar => exact h

/-- The older decoder of a nested message reads the newer one's. -/
theorem FieldKind.Extension.message_takes {k : FieldKind} {S' : MessageType}
    (e : k.Extension (.message S')) {level : Nat} {inner : List UInt8} {m : S'.Val}
    (h : ∀ {S : MessageType} (within : S.Extension S'),
      Reader.Takes (messageLoop V (S.switch V level) level S.default) inner (within.restrict m))
    (held : S'.Val) :
    Reader.Takes (k.unmarshal V ((level + 1 : Nat) : Int) (e.restrict held)) inner
      (e.restrict m) := by
  cases e with
  | message within => exact FieldKind.message_takes (h within) _

theorem FieldKind.Extension.repeated_takes {k : FieldKind} {S' : MessageType}
    (e : k.Extension (.repeated S')) {level : Nat} {inner : List UInt8} {m : S'.Val}
    (h : ∀ {S : MessageType} (within : S.Extension S'),
      Reader.Takes (messageLoop V (S.switch V level) level S.default) inner (within.restrict m))
    (held : List S'.Val) :
    Reader.Takes (k.unmarshal V ((level + 1 : Nat) : Int) (e.restrict held)) inner
      (e.restrict (held ++ [m])) := by
  cases e with
  | repeated within =>
    show Reader.Takes _ inner ((held ++ [m]).map within.restrict)
    rw [List.map_append]
    exact FieldKind.repeated_takes (h within) _

namespace MessageType.Extension

/-- The newer decoder assigns an added field, and the older one passes over it. -/
theorem Adds.takes {e : T.Extension T'} {k' : FieldKind} (a : e.Adds V tag.fieldNum k')
    {val : k'.Val → k'.Val}
    (hread : ∀ held, Reader.Takes (k'.unmarshal V nesting held) payload (val held))
    (hskip : Reader.Takes (skipping (skip V tag.type (nesting - 1))) payload ()) :
    e.FieldTakes V nesting tag payload := by
  intro msg
  refine ⟨a.set msg (val (a.get msg)), fun rest => ?_, ?_⟩
  · simp only [Reader.round, messageField, a.switch, hread _ rest]
  · rw [a.restrict_set]
    exact messageField_unknown a.unknown hskip _

/-- Both decoders assign a field that both know. -/
theorem Keeps.takes {e : T.Extension T'} {k' : FieldKind} (a : e.Keeps V tag.fieldNum k')
    (val : k'.Val → k'.Val)
    (hread' : ∀ held, Reader.Takes (k'.unmarshal V nesting held) payload (val held))
    (hread : ∀ held, Reader.Takes (a.kind.unmarshal V nesting (a.extension.restrict held)) payload
      (a.extension.restrict (val held))) : e.FieldTakes V nesting tag payload := by
  intro msg
  refine ⟨a.set' msg (val (a.get' msg)), fun rest => ?_, fun rest => ?_⟩
  · simp only [Reader.round, messageField, a.switch', hread' _ rest]
  · simp only [Reader.round, messageField, a.switch, a.get_restrict, hread _ rest,
      a.restrict_set]

/-- A payload that both pass over or assign. -/
theorem FieldTakes.step {e : T.Extension T'} {nesting : Nat} {bytes rest : List UInt8}
    (hfield : e.FieldTakes V nesting tag payload) (htag : Tagged V tag bytes)
    (htype : tag.type ≠ .endTag)
    (hrest : ∀ msg, ∃ next,
      Reader.Takes (messageLoop V (T'.switch V nesting) nesting msg) rest next ∧
      Reader.Takes (messageLoop V (T.switch V nesting) nesting (e.restrict msg)) rest
        (e.restrict next)) (msg : T'.Val) :
    ∃ next, Reader.Takes (messageLoop V (T'.switch V nesting) nesting msg)
        (bytes ++ payload ++ rest) next ∧
      Reader.Takes (messageLoop V (T.switch V nesting) nesting (e.restrict msg))
        (bytes ++ payload ++ rest) (e.restrict next) := by
  obtain ⟨mid, hmid', hmid⟩ := hfield msg
  obtain ⟨next, hnext', hnext⟩ := hrest mid
  exact ⟨next, .again (messageField_productive T' nesting) (htag.round htype hmid') hnext',
    .again (messageField_productive T nesting) (htag.round htype hmid) hnext⟩

/-- Of a body of the newer type, the older decoder reads the newer one's message without the
fields that it does not know. -/
theorem body_takes (hlocal : V.Local) (hskips : V.Skips IsVarint) {depth : Nat}
    {body : List UInt8} (h : Grammar.Aligned V IsVarint T' depth body) :
    ∀ {T : MessageType} (e : T.Extension T'), T'.WellFormed →
      ∀ {nesting : Nat}, depth ≤ nesting → ∀ msg, ∃ next,
        Reader.Takes (messageLoop V (T'.switch V nesting) nesting msg) body next ∧
        Reader.Takes (messageLoop V (T.switch V nesting) nesting (e.restrict msg)) body
          (e.restrict next) := by
  induction h with
  | @stop T' tag bytes htag htype =>
    intro T e _ nesting _ msg
    exact ⟨msg, .last (messageField_productive T' nesting) (htag.endTag htype msg),
      .last (messageField_productive T nesting) (htag.endTag htype (e.restrict msg))⟩
  | @unknown T' tag depth depth' bytes payload rest htag htype hkind hpayload _ ih =>
    intro T e hwf nesting hdepth
    have hskip := hpayload.skip hskips ((Nat.le_max_left depth depth').trans hdepth)
    rw [← skip_level] at hskip
    have hfield : e.FieldTakes V nesting tag payload := fun msg =>
      ⟨msg, messageField_unknown hkind hskip msg,
        messageField_unknown (e.kind?_eq_none hkind) hskip _⟩
    exact hfield.step htag htype (ih e hwf ((Nat.le_max_right depth depth').trans hdepth))
  | @scalar T' tag depth bytes payload rest type val htag htype hkind htakes hpayload _ ih =>
    intro T e hwf nesting hdepth
    have hskip := hpayload.skip hskips (Nat.zero_le nesting)
    rw [← skip_level] at hskip
    have hfield : e.FieldTakes V nesting tag payload := by
      rcases e.adds_or_keeps (V := V) hwf hkind with ⟨⟨a⟩⟩ | ⟨⟨a⟩⟩
      · exact a.takes (fun _ => htakes) hskip
      · exact a.takes (fun _ => val) (fun _ => htakes) (a.extension.scalar_takes htakes)
    exact hfield.step htag (htype ▸ type.storage.wireType_ne_endTag) (ih e hwf hdepth)
  | @message T' S' tag kind' depth depth' bytes inner rest htag htype hkind hmessage hbody _
      ihinner ih =>
    intro T e hwf nesting hdepth
    have hend : tag.type ≠ .endTag := by
      rw [htype]
      rintro ⟨⟩
    have hinner := (Nat.le_max_left (depth + 1) depth').trans hdepth
    obtain ⟨level, rfl⟩ : ∃ level, nesting = level + 1 := ⟨nesting - 1, by omega⟩
    have hlevel := Nat.le_of_succ_le_succ hinner
    have hwf' : S'.WellFormed := by
      rcases hmessage with rfl | rfl
      · exact hwf.kind hkind
      · exact hwf.kind hkind
    -- To `skip`, the nested message is a group.
    have hgroup : Grammar.Payload V IsVarint tag.type (depth + 1) inner :=
      htype ▸ .start hbody.fields
    have hskip := hgroup.skip hskips hinner
    rw [← skip_level] at hskip
    obtain ⟨m, hm⟩ := hbody.body.takes hlocal hskips hlevel S'.default
    have hwithin : ∀ {S : MessageType} (within : S.Extension S'),
        Reader.Takes (messageLoop V (S.switch V level) level S.default) inner
          (within.restrict m) := by
      intro S within
      obtain ⟨m', hm', hwithin⟩ := ihinner within hwf' hlevel S'.default
      rw [within.restrict_default] at hwithin
      have hsame : inner ++ [] = inner ++ [] := rfl
      obtain ⟨-, rfl⟩ := hm.unique hm' hsame
      exact hwithin
    have hfield : e.FieldTakes V (level + 1 : Nat) tag inner := by
      rcases e.adds_or_keeps (V := V) hwf hkind with ⟨⟨a⟩⟩ | ⟨⟨a⟩⟩
      · rcases hmessage with rfl | rfl
        · exact a.takes (FieldKind.message_takes hm) hskip
        · exact a.takes (FieldKind.repeated_takes hm) hskip
      · rcases hmessage with rfl | rfl
        · exact a.takes (fun _ => m) (FieldKind.message_takes hm)
            (a.extension.message_takes hwithin)
        · exact a.takes (fun held => held ++ [m]) (FieldKind.repeated_takes hm)
            (a.extension.repeated_takes hwithin)
    exact hfield.step htag hend
      (ih e hwf ((Nat.le_max_right (depth + 1) depth').trans hdepth))

end MessageType.Extension

end Older

/-! ## What is encoded is a body -/

section Bodies

variable {V : Varint} {T : MessageType} {number : BitVec 32}

/-- The documented behaviour of `lib.varint` that one program relies on in another: `skip` passes
over what was written, and a length that was written is read the same as a `uint32`. -/
structure Varint.SkipsWritten (V : Varint) : Prop where
  uint32 : ∀ v, V.skip.Reads (V.writeUint32 v) ()
  uint64 : ∀ v, V.skip.Reads (V.writeUint64 v) ()
  sint32 : ∀ v, V.skip.Reads (V.writeSint32 v) ()
  sint64 : ∀ v, V.skip.Reads (V.writeSint64 v) ()
  length : ∀ n : Nat, n < 2 ^ 32 → V.readUint32.Reads (V.writeUnsigned n) (UInt32.ofNat n)

/-- LEB128 skips what it writes. -/
theorem Varint.leb128_skipsWritten : leb128.SkipsWritten where
  uint32 _ := Leb128.decodeAs_reads (f := fun _ => ()) rfl
  uint64 _ := Leb128.decodeAs_reads (f := fun _ => ()) rfl
  sint32 _ := Leb128.decodeAs_reads (f := fun _ => ()) rfl
  sint64 _ := Leb128.decodeAs_reads (f := fun _ => ()) rfl
  length _ _ := Leb128.decodeAs_reads rfl

/-- What `skip` passes over as a varint. -/
def Varint.IsSkipped (V : Varint) (bytes : List UInt8) : Prop := V.skip.Reads bytes ()

/-- A local `skip` passes over what it is said to skip. -/
theorem Varint.Local.skips (hlocal : V.Local) : V.Skips V.IsSkipped where
  reads _ h := h
  isVarint bs h := by
    obtain ⟨taken, hbs, hreads⟩ := hlocal.skip bs h
    exact ⟨taken, hreads, hbs⟩

/-- What is written of a value is a payload of its wire type. -/
theorem StorageType.payload_written (hV : V.Lawful) (hwritten : V.SkipsWritten)
    {type : StorageType} (hbounded : type.Bounded) (val : type.Val)
    (hdefault : type.isDefault val = false) :
    Grammar.Payload V V.IsSkipped type.wireType 0 (type.payload V val) := by
  cases type with
  | int32 => exact .varInt (hwritten.sint32 val)
  | int64 => exact .varInt (hwritten.sint64 val)
  | uint32 => exact .varInt (hwritten.uint32 val)
  | uint64 => exact .varInt (hwritten.uint64 val)
  | bool =>
    have hone : V.skip.Reads (V.writeUint32 (1 : UInt8).toUInt32) () := hwritten.uint32 _
    rw [hV.small 1 (by decide)] at hone
    exact .varInt hone
  | float32 => exact .i32 (LittleEndian.length_bytes 4 _)
  | float64 => exact .i64 (LittleEndian.length_bytes 8 _)
  | inlineString capacity =>
    have hlt : val.data.length < 2 ^ 32 := val.length_le.trans_lt hbounded
    refine .len (hwritten.length val.data.length hlt) ?_
    rw [UInt32.toNat_ofNat', Nat.mod_eq_of_lt hlt]

/-- The bytes of some fields make a body of what is a body behind them, and add so many
levels. -/
def Prepends (V : Varint) (T : MessageType) (levels : Nat) (bytes : List UInt8) : Prop :=
  ∀ depth rest, Grammar.Aligned V V.IsSkipped T depth rest → depth ≤ levels →
    ∃ depth' ≤ levels, Grammar.Aligned V V.IsSkipped T depth' (bytes ++ rest)

theorem Prepends.nil (levels : Nat) : Prepends V T levels [] :=
  fun depth _ hrest hdepth => ⟨depth, hdepth, hrest⟩

/-- Fields may be put before fields. -/
theorem Prepends.append {levels : Nat} {as bs : List UInt8} (ha : Prepends V T levels as)
    (hb : Prepends V T levels bs) : Prepends V T levels (as ++ bs) := by
  intro depth rest hrest hdepth
  obtain ⟨mid, hmid, hbody⟩ := hb depth rest hrest hdepth
  rw [List.append_assoc]
  exact ha mid (bs ++ rest) hbody hmid

/-- In front of an `End` they are a body. -/
theorem Prepends.body {levels : Nat} {bytes : List UInt8} (hV : V.Lawful)
    (h : Prepends V T levels bytes) :
    ∃ depth ≤ levels, Grammar.Aligned V V.IsSkipped T depth (bytes ++ [endByte]) :=
  h 0 [endByte] (.stop (Tagged.byte hV (b := endByte) (by decide)) rfl) (Nat.zero_le _)

/-- A scalar that a type knows may be put before its body. -/
theorem StorageType.ref_prepends (hV : V.Lawful) (hwritten : V.SkipsWritten)
    (hnumber : number.toNat < 2 ^ 28) (type : ScalarType) (hbounded : type.storage.Bounded)
    (hkind : T.kind? number = some (.scalar type)) (val : type.storage.Val) (levels : Nat) :
    Prepends V T levels (type.storage.ref V number val) := by
  unfold StorageType.ref
  split
  · exact .nil levels
  · rename_i hdefault
    intro depth rest hrest hdepth
    have htag : Tagged V ⟨type.storage.wireType, number⟩
        (tagBytes V number type.storage.wireType) := readTag_writeTag hV hnumber _
    have hdefault' := Bool.eq_false_iff.mpr hdefault
    exact ⟨depth, hdepth, .scalar htag rfl hkind (type.storage.unmarshal_payload hV hbounded val
      hdefault') (StorageType.payload_written hV hwritten hbounded val hdefault') hrest⟩

theorem wrap_prepends (hV : V.Lawful) (hnumber : number.toNat < 2 ^ 28) {S : MessageType}
    {kind : FieldKind} (hkind : T.kind? number = some kind)
    (hmessage : kind = .message S ∨ kind = .repeated S) {levels : Nat} {child : List UInt8}
    (hlevels : child ≠ [] → 0 < levels) (h : Prepends V S (levels - 1) child) :
    Prepends V T levels (wrap V number child) := by
  unfold wrap
  split
  · exact .nil _
  · rename_i hne
    have hpos := hlevels hne
    intro depth rest hrest hdepth
    obtain ⟨inner, hinner, hbody⟩ := h.body hV
    have htag : Tagged V ⟨.start, number⟩ (tagBytes V number .start) :=
      readTag_writeTag hV hnumber _
    refine ⟨max (inner + 1) depth, Nat.max_le.mpr ⟨by omega, hdepth⟩, ?_⟩
    rw [List.append_assoc (tagBytes V number .start)]
    exact .message htag rfl hkind hmessage hbody hrest

mutual

theorem FieldKind.Wire.prepends (hV : V.Lawful) (hwritten : V.SkipsWritten)
    {number : BitVec 32} (hnumber : number.toNat < 2 ^ 28) :
    ∀ {k : FieldKind} {levels : Nat} {val : k.Val} {bytes : List UInt8},
      k.Wire V number levels val bytes → k.WellFormed → ∀ {T : MessageType},
        T.kind? number = some k → Prepends V T levels bytes
  | .scalar type, levels, val, bytes, h, hbounded, T, hkind => by
    obtain rfl : bytes = type.storage.ref V number val := h
    exact StorageType.ref_prepends hV hwritten hnumber type hbounded hkind val levels
  | .message type, levels, msg, _, ⟨child, hchild, hlevels, hbytes⟩, hwf, T, hkind => by
    have hwire : type.Wire V (levels - 1) msg child := hchild
    rw [hbytes]
    exact wrap_prepends hV hnumber hkind (.inl rfl) hlevels (hwire.prepends hV hwritten hwf)
  | .repeated type, levels, vec, _, ⟨children, hchildren, hbytes⟩, hwf, T, hkind => by
    have hone : ∀ msg child, type.WireBelow V levels msg child →
        Prepends V T levels (wrap V number child) := fun msg child h =>
      wrap_prepends hV hnumber hkind (.inr rfl) h.2
        (MessageType.Wire.prepends hV hwritten (T := type) h.1 hwf)
    rw [hbytes]
    clear hbytes
    induction hchildren with
    | nil => exact .nil levels
    | cons hmsg _ ih => exact (hone _ _ hmsg).append ih
termination_by k => (sizeOf k, 0)

theorem MessageType.Parts.prepends (hV : V.Lawful) (hwritten : V.SkipsWritten)
    {whole : MessageType} :
    ∀ {T : MessageType} {levels : Nat} {msg : T.Val} {parts : List Part},
      T.Parts V levels msg parts → T.WellFormed →
      (∀ number k, T.kind? number = some k → whole.kind? number = some k) →
      ∀ part ∈ parts, Prepends V whole levels part.2
  | .empty, _, _, parts, h, _, _, part, hmem => by
    obtain rfl : parts = [] := h
    cases hmem
  | .field number kind rest, levels, (val, msg), _, ⟨bytes, parts', hfield, hrest, hparts⟩, hwf,
      hknown, part, hmem => by
    obtain ⟨-, hlt, hfresh, hkind, hwfRest⟩ := hwf
    rw [hparts] at hmem
    rcases List.mem_cons.mp hmem with heq | hmem
    · rw [heq]
      exact hfield.prepends hV hwritten hlt hkind
        (hknown number kind (by rw [MessageType.kind?, if_pos rfl]))
    · refine hrest.prepends hV hwritten hwfRest (fun number' k hk => hknown number' k ?_) part hmem
      have hne : number' ≠ number := by
        intro heq
        rw [heq, MessageType.kind?_of_not_mem hfresh] at hk
        cases hk
      rw [MessageType.kind?, if_neg hne, hk]
termination_by T => (sizeOf T, 0)

/-- The fields of an encoding make a body, whatever order they are in. -/
theorem MessageType.Wire.prepends (hV : V.Lawful) (hwritten : V.SkipsWritten) :
    ∀ {T : MessageType} {levels : Nat} {msg : T.Val} {bytes : List UInt8},
      T.Wire V levels msg bytes → T.WellFormed → Prepends V T levels bytes
  | T, levels, _, _, ⟨parts, order, hparts, hperm, hbytes⟩, hwf => by
    have hall : ∀ part ∈ order, Prepends V T levels part.2 := fun part hmem =>
      hparts.prepends hV hwritten hwf (fun _ _ hk => hk) part (hperm.mem_iff.mp hmem)
    rw [hbytes]
    clear hbytes hperm
    induction order with
    | nil => exact .nil levels
    | cons part order ih =>
      exact (hall part (.head _)).append (ih fun part' hmem => hall part' (.tail _ hmem))
termination_by T => (sizeOf T, 1)

end

end Bodies

/-! ## The older encoder -/

section Defaults

variable {V : Varint}

/-- A field's default is left out by the encoder. -/
theorem FieldKind.isDefault_default (k : FieldKind) : k.isDefault k.default = true :=
  (FieldKind.Wire.eq_nil_iff Varint.leb128_lawful (k.default_wire 0 0)).mp rfl

mutual

theorem FieldKind.Extension.wire (number : BitVec 32) :
    ∀ {k k' : FieldKind} (e : k.Extension k') {levels : Nat} {val : k.Val} {bytes : List UInt8},
      k.Wire V number levels val bytes → k'.Wire V number levels (e.extend val) bytes
  | _, _, .scalar _, _, _, _, h => h
  | _, _, .message type, levels, msg, _, ⟨child, ⟨parts, order, hparts, hperm, hchild⟩, hrest⟩ => by
    obtain ⟨parts', added, hparts', hperm', hadded⟩ := type.parts hparts
    refine ⟨child, ⟨parts', order ++ added, hparts', ?_, ?_⟩, hrest⟩
    · exact (hperm.append_right added).trans hperm'.symm
    · rw [List.flatMap_append, List.flatMap_eq_nil_iff.mpr hadded, List.append_nil, hchild]
  | _, _, .repeated type, levels, vec, _, ⟨children, hchildren, hbytes⟩ => by
    refine ⟨children, ?_, hbytes⟩
    rw [FieldKind.Extension.extend, List.forall₂_map_left_iff]
    refine hchildren.imp ?_
    rintro msg child ⟨⟨parts, order, hparts, hperm, hchild⟩, hlevels⟩
    obtain ⟨parts', added, hparts', hperm', hadded⟩ := type.parts hparts
    refine ⟨⟨parts', order ++ added, hparts', ?_, ?_⟩, hlevels⟩
    · exact (hperm.append_right added).trans hperm'.symm
    · rw [List.flatMap_append, List.flatMap_eq_nil_iff.mpr hadded, List.append_nil, hchild]

/-- The fields of an older value encode the extended one, with nothing for those added. -/
theorem MessageType.Extension.parts :
    ∀ {T T' : MessageType} (e : T.Extension T') {levels : Nat} {msg : T.Val} {parts : List Part},
      T.Parts V levels msg parts → ∃ parts' added, T'.Parts V levels (e.extend msg) parts' ∧
        parts'.Perm (parts ++ added) ∧ ∀ part ∈ added, part.2 = []
  | _, _, .empty, _, _, parts, h => ⟨[], [], rfl, by rw [show parts = [] from h]; exact .refl _,
      by simp⟩
  | _, _, .kept number kind rest, _, (val, msg), _, ⟨bytes, tail, hfield, hrest, hparts⟩ => by
    obtain ⟨parts', added, hparts', hperm, hadded⟩ := rest.parts hrest
    refine ⟨(number, bytes) :: parts', added,
      ⟨bytes, parts', kind.wire number hfield, hparts', rfl⟩,
      ?_, hadded⟩
    rw [hparts, List.cons_append]
    exact hperm.cons _
  | _, _, .added number kind rest, levels, msg, parts, h => by
    obtain ⟨parts', added, hparts', hperm, hadded⟩ := rest.parts h
    refine ⟨(number, []) :: parts', (number, []) :: added,
      ⟨[], parts', kind.default_wire number levels, hparts', rfl⟩, ?_, ?_⟩
    · exact (hperm.cons _).trans List.perm_middle.symm
    · exact List.forall_mem_cons.mpr ⟨rfl, hadded⟩

end

/-- An encoding of an older value encodes the extended one. -/
theorem MessageType.Extension.wire {T T' : MessageType} (e : T.Extension T') {levels : Nat}
    {msg : T.Val} {bytes : List UInt8} (h : T.Wire V levels msg bytes) :
    T'.Wire V levels (e.extend msg) bytes := by
  obtain ⟨parts, order, hparts, hperm, hbytes⟩ := h
  obtain ⟨parts', added, hparts', hperm', hadded⟩ := e.parts hparts
  refine ⟨parts', order ++ added, hparts', (hperm.append_right added).trans hperm'.symm, ?_⟩
  rw [List.flatMap_append, List.flatMap_eq_nil_iff.mpr hadded, List.append_nil, hbytes]

/-- An older value encodes to nothing if the extended one does. -/
theorem MessageType.Extension.isDefault_extend {T T' : MessageType} (e : T.Extension T')
    (msg : T.Val) : T'.isDefault (e.extend msg) = T.isDefault msg := by
  have hwire := T.ref_wire (V := .leb128) msg _ (le_refl (T.depth msg))
  have hnil := hwire.eq_nil_iff Varint.leb128_lawful
  have hnil' := (e.wire hwire).eq_nil_iff Varint.leb128_lawful
  exact Bool.eq_iff_iff.mpr (hnil'.symm.trans hnil)

mutual

theorem FieldKind.Extension.received_extend :
    ∀ {k k' : FieldKind} (e : k.Extension k') (val : k.Val),
      k'.received (e.extend val) = e.extend (k.received val)
  | _, _, .scalar _, _ => rfl
  | _, _, .message type, msg => type.received_extend msg
  | _, _, @FieldKind.Extension.repeated S S' type, vec => by
    have hfilter : (fun msg => !S'.isDefault msg) ∘ type.extend = fun msg => !S.isDefault msg :=
      funext fun msg => congrArg not (type.isDefault_extend msg)
    have hreceived : S'.received ∘ type.extend = type.extend ∘ S.received :=
      funext type.received_extend
    show ((vec.map type.extend).filter fun msg => !S'.isDefault msg).map S'.received =
      ((vec.filter fun msg => !S.isDefault msg).map S.received).map type.extend
    rw [List.filter_map, hfilter, List.map_map, hreceived, List.map_map]

/-- What comes back of an extended value is what comes back of the older one, extended. -/
theorem MessageType.Extension.received_extend :
    ∀ {T T' : MessageType} (e : T.Extension T') (msg : T.Val),
      T'.received (e.extend msg) = e.extend (T.received msg)
  | _, _, .empty, _ => rfl
  | _, _, .kept _ kind rest, (val, msg) =>
    Prod.ext (kind.received_extend val) (rest.received_extend msg)
  | _, _, .added _ kind rest, msg =>
    Prod.ext (kind.received_of_isDefault _ kind.isDefault_default) (rest.received_extend msg)

end

end Defaults

/-! ## The two directions -/

section Directions

variable {V : Varint} {IsVarint : List UInt8 → Prop} {T T' : MessageType}

/-- `unmarshal` of the older type reads what that of the newer one does off a body. -/
theorem MessageType.Extension.unmarshal_body (hlocal : V.Local) (hskips : V.Skips IsVarint)
    (e : T.Extension T') (hwf : T'.WellFormed) {depth : Nat} {body : List UInt8}
    (h : Grammar.Aligned V IsVarint T' depth body) (hdepth : depth ≤ MaxNesting)
    (rest : List UInt8) :
    unmarshal V T (.ofBytes (body ++ rest)) =
      (e.restrict (unmarshal V T' (.ofBytes (body ++ rest))).1, .ofBytes rest) := by
  have heq : ∀ S : MessageType, unmarshal V S (.ofBytes (body ++ rest)) =
      messageLoop V (S.switch V MaxNesting) MaxNesting S.default (.ofBytes (body ++ rest)) :=
    fun _ => rfl
  obtain ⟨msg, htakes', htakes⟩ := e.body_takes hlocal hskips h hwf hdepth T'.default
  rw [e.restrict_default] at htakes
  rw [heq, heq, htakes rest, htakes' rest]

end Directions

/-- Newer senders can add fields that older receivers ignore. Off every stream whose message
the newer decoder accepts, with the wire types that the newer type declares and no string of
a negative length, the older one reads the same message without the fields that were added, at
any level, and stops at the same byte. -/
theorem older_reads_newer {V : Varint} {IsVarint : List UInt8 → Prop} (hV : V.Lawful)
    (hlocal : V.Local) (hframed : V.Framed IsVarint) {T T' : MessageType} (e : T.Extension T')
    (hwf : T'.WellFormed) {bs : List UInt8}
    (haccept : (unmarshal V T' (.ofBytes bs)).2.err = none)
    (hdeclared : Declared V T' MaxNesting (.ofBytes bs))
    (hmeasured : Measured V T' MaxNesting (.ofBytes bs)) :
    unmarshal V T (.ofBytes bs) =
      (e.restrict (unmarshal V T' (.ofBytes bs)).1, (unmarshal V T' (.ofBytes bs)).2) := by
  obtain ⟨depth, body, rest, rfl, hbody, hdepth⟩ :=
    Grammar.Aligned.of_accepts hV hlocal hframed hwf.bounded haccept ⟨hdeclared, hmeasured⟩
  have hread := e.unmarshal_body hlocal hframed.toSkips hwf hbody hdepth rest
  obtain ⟨msg, htakes⟩ := hbody.body.takes hlocal hframed.toSkips hdepth T'.default
  have hread' : unmarshal V T' (.ofBytes (body ++ rest)) = (msg, .ofBytes rest) := htakes rest
  rw [hread, hread']

namespace Sample

/-- A message with a counter, before and after it had a flag and further counters. -/
def older : MessageType := .field 1 (.message counted) .empty

def newer : MessageType :=
  .field 1 (.message (.field 1 (.scalar .uint32) (.field 2 (.scalar .bool) .empty)))
    (.field 3 (.repeated counted) .empty)

def grown : older.Extension newer :=
  .kept 1 (.message (.kept 1 (.scalar .uint32) (.added 2 (.scalar .bool) .empty)))
    (.added 3 (.repeated counted) .empty)

theorem newer_wellFormed : newer.WellFormed := by
  simp [newer, counted, MessageType.WellFormed, FieldKind.WellFormed, MessageType.numbers,
    StorageType.Bounded]

end Sample

/-- A message type that had no fields grows a number, and the older decoder passes over it. -/
theorem older_reads_newer_counted :
    unmarshal .leb128 .empty (.ofBytes [0x08, 0x03, 0x04, 0xf0]) =
      ((MessageType.Extension.added 1 (.scalar .uint32) .empty).restrict
          (unmarshal .leb128 Sample.counted (.ofBytes [0x08, 0x03, 0x04, 0xf0])).1,
        (unmarshal .leb128 Sample.counted (.ofBytes [0x08, 0x03, 0x04, 0xf0])).2) :=
  older_reads_newer Varint.leb128_lawful Varint.leb128_local Varint.leb128_framed
    (.added 1 (.scalar .uint32) .empty)
    (by simp [MessageType.WellFormed, FieldKind.WellFormed, MessageType.numbers,
      StorageType.Bounded])
    rfl (Sample.counted_declared MaxNesting) (Sample.counted_measured MaxNesting)

/-- Programs of two generations understand one another. What the newer one's encoder writes
the older one's decoder reads as the codec returns it, without the fields that were added, and
what the older one's encoder writes the newer one's decoder reads as the codec returns it, with
these at their defaults; each stops behind the message. Forgetting the added fields of an older
value that was given them leaves the older value. -/
theorem generations_interoperate {V : Varint} (hV : V.Lawful) (hlocal : V.Local)
    (hwritten : V.SkipsWritten) {T T' : MessageType} (e : T.Extension T')
    (hwf : T'.WellFormed) :
    (∀ msg : T'.Val, T'.depth msg ≤ MaxNesting → ∃ bytes,
      marshal V T' msg {} = .ok { written := bytes } ∧
      ∀ rest, unmarshal V T (.ofBytes (bytes ++ rest)) =
        (e.restrict (T'.received msg), .ofBytes rest)) ∧
    (∀ msg : T.Val, T.depth msg ≤ MaxNesting → ∃ bytes,
      marshal V T msg {} = .ok { written := bytes } ∧
      ∀ rest, unmarshal V T' (.ofBytes (bytes ++ rest)) =
        (e.extend (T.received msg), .ofBytes rest)) ∧
    ∀ msg : T.Val, e.restrict (e.extend msg) = msg := by
  refine ⟨fun msg hdepth => ?_, fun msg hdepth => ?_, e.restrict_extend⟩
  · refine ⟨T'.ref V msg ++ [endByte], marshal_open hV ⟨rfl, rfl⟩ hdepth, fun rest => ?_⟩
    have hwire := T'.ref_wire (V := V) msg _ (le_refl (T'.depth msg))
    obtain ⟨depth, hle, hbody⟩ := (hwire.prepends hV hwritten hwf).body hV
    have hread := e.unmarshal_body hlocal hlocal.skips hwf hbody (hle.trans hdepth) rest
    rwa [unmarshal_ref hV hwf hdepth rest] at hread
  · refine ⟨T.ref V msg ++ [endByte], marshal_open hV ⟨rfl, rfl⟩ hdepth, fun rest => ?_⟩
    have hwire := e.wire (T.ref_wire (V := V) msg _ (le_refl (T.depth msg)))
    have hread := unmarshal_wire hV hwf hwire hdepth rest
    rwa [e.received_extend] at hread

theorem generations_interoperate_grown :
    (∀ msg : Sample.newer.Val, Sample.newer.depth msg ≤ MaxNesting → ∃ bytes,
      marshal .leb128 Sample.newer msg {} = .ok { written := bytes } ∧
      ∀ rest, unmarshal .leb128 Sample.older (.ofBytes (bytes ++ rest)) =
        (Sample.grown.restrict (Sample.newer.received msg), .ofBytes rest)) ∧
    (∀ msg : Sample.older.Val, Sample.older.depth msg ≤ MaxNesting → ∃ bytes,
      marshal .leb128 Sample.older msg {} = .ok { written := bytes } ∧
      ∀ rest, unmarshal .leb128 Sample.newer (.ofBytes (bytes ++ rest)) =
        (Sample.grown.extend (Sample.older.received msg), .ofBytes rest)) ∧
    ∀ msg : Sample.older.Val, Sample.grown.restrict (Sample.grown.extend msg) = msg :=
  generations_interoperate Varint.leb128_lawful Varint.leb128_local Varint.leb128_skipsWritten
    Sample.grown Sample.newer_wellFormed

/-- The flag is not seen by the older program, and the counter is. -/
example : unmarshal .leb128 Sample.older
    (.ofBytes [0x0b, 0x08, 0x03, 0x10, 0x01, 0x04, 0x1b, 0x08, 0x05, 0x04, 0x04]) =
    (((3, ()), ()), .ofBytes []) := by rfl

end SerialRpc
