import SerialRpc.Encoding.Nesting

/-!
# Where a message ends (protoc_serialrpc_plugin.cc:1468-1525, encoding_impl.cc:31-167)

A decoder reads a known field by its declared type and `skip` passes over it by the wire
type of its tag. No decoder compares the two: they end a message at the same byte where
they are the same, and need not where they are not. Nor do they read a length alike: to a
decoder it is signed, and one below zero fits every string; to `skip` it is a `uint32`.

- `Varint.Framed`: of `lib.varint`, that what is read of a type is what `skip` passes over.
- `ReadsTag`: a tag that a decoder reads, at any level; `Declared`: every tag of a known
  field has the wire type of its declared kind; `Measured`: no length is negative.
- `Aligned`: the bodies that are groups to `skip` too.
- `Aligned.of_accepts`: what a decoder accepts with declared wire types and no negative
  lengths is one of them.
- `skip_agrees`: of such a message, `skip` stops where the decoder does.
-/

namespace SerialRpc

open ByteStream

/-- What `lib.varint` reads is one varint, whatever its type, and a length that is not negative
reads the same as a `uint32`. -/
structure Varint.Framed (V : Varint) (IsVarint : List UInt8 → Prop) : Prop
    extends V.Skips IsVarint where
  uint32 : ∀ bytes v, V.readUint32.Reads bytes v → IsVarint bytes
  uint64 : ∀ bytes v, V.readUint64.Reads bytes v → IsVarint bytes
  sint32 : ∀ bytes v, V.readSint32.Reads bytes v → IsVarint bytes
  sint64 : ∀ bytes v, V.readSint64.Reads bytes v → IsVarint bytes
  length : ∀ bytes n, V.readUnsigned.Reads bytes n → 0 ≤ n → n < 2 ^ 32 →
    V.readUint32.Reads bytes (UInt32.ofNat n.toNat)

theorem Varint.leb128_framed : leb128.Framed Leb128.Terminated where
  toSkips := leb128_skips
  uint32 _ _ h := .of_reads h
  uint64 _ _ h := .of_reads h
  sint32 _ _ h := .of_reads (f := fun n => Int32.ofInt (Leb128.unzigzag n)) h
  sint64 _ _ h := .of_reads (f := fun n => Int64.ofInt (Leb128.unzigzag n)) h
  length bytes n h _ _ rest := by
    have hvalue : Int.ofNat (Leb128.decodeRun (bytes ++ rest)).value = n :=
      congrArg ReadResult.value (h rest)
    have hrest : (Leb128.decodeRun (bytes ++ rest)).rest = rest :=
      congrArg ReadResult.rest (h rest)
    have hfailed : (Leb128.decodeRun (bytes ++ rest)).failed = false :=
      congrArg ReadResult.failed (h rest)
    show ReadResult.mk (UInt32.ofNat (Leb128.decodeRun (bytes ++ rest)).value) _ _ = _
    rw [hrest, hfailed, ← hvalue]
    rfl

/-- Lengths of 64 bits are read the same as a `uint32` while they are not negative. -/
theorem Varint.leb128Signed_framed : leb128Signed.Framed Leb128.Terminated where
  toSkips := ⟨leb128_skips.reads, leb128_skips.isVarint⟩
  uint32 := leb128_framed.uint32
  uint64 := leb128_framed.uint64
  sint32 := leb128_framed.sint32
  sint64 := leb128_framed.sint64
  length bytes n h hpos _ rest := by
    have hvalue : (BitVec.ofNat 64 (Leb128.decodeRun (bytes ++ rest)).value).toInt = n :=
      congrArg ReadResult.value (h rest)
    have hrest : (Leb128.decodeRun (bytes ++ rest)).rest = rest :=
      congrArg ReadResult.rest (h rest)
    have hfailed : (Leb128.decodeRun (bytes ++ rest)).failed = false :=
      congrArg ReadResult.failed (h rest)
    -- Of a number in 64 bits that is not negative, the low 32 bits are those of its value.
    have hsame : UInt32.ofNat (Leb128.decodeRun (bytes ++ rest)).value = UInt32.ofNat n.toNat := by
      have hmod : n.toNat % 2 ^ 32 = (Leb128.decodeRun (bytes ++ rest)).value % 2 ^ 32 := by
        rw [BitVec.toInt_eq_toNat_cond, BitVec.toNat_ofNat] at hvalue
        split at hvalue
        · omega
        · omega
      apply UInt32.toNat_inj.mp
      rw [UInt32.toNat_ofNat', UInt32.toNat_ofNat', hmod]
    show ReadResult.mk (UInt32.ofNat (Leb128.decodeRun (bytes ++ rest)).value) _ _ = _
    rw [hrest, hfailed, hsame]

/-! ## Wire types -/

/-- The wire type that a field is written with. -/
def FieldKind.wireType : FieldKind → WireType
  | .scalar type => type.storage.wireType
  | .message _ => .start
  | .repeated _ => .start

mutual

/-- The bounds of a field's strings, at every level. -/
def FieldKind.Bounded : FieldKind → Prop
  | .scalar type => type.storage.Bounded
  | .message type => type.Bounded
  | .repeated type => type.Bounded

/-- The bounds of a message type's strings, at every level. -/
def MessageType.Bounded : MessageType → Prop
  | .empty => True
  | .field _ kind rest => kind.Bounded ∧ rest.Bounded

end

mutual

theorem FieldKind.WellFormed.bounded : ∀ {k : FieldKind}, k.WellFormed → k.Bounded
  | .scalar _, h => h
  | .message type, h => MessageType.WellFormed.bounded (T := type) h
  | .repeated type, h => MessageType.WellFormed.bounded (T := type) h

/-- The strings of a well-formed type are bounded. -/
theorem MessageType.WellFormed.bounded : ∀ {T : MessageType}, T.WellFormed → T.Bounded
  | .empty, _ => trivial
  | .field _ kind rest, h =>
    ⟨FieldKind.WellFormed.bounded (k := kind) h.2.2.2.1,
      MessageType.WellFormed.bounded (T := rest) h.2.2.2.2⟩

end

theorem MessageType.Bounded.kind :
    ∀ {T : MessageType}, T.Bounded → ∀ {fieldNum : BitVec 32} {kind : FieldKind},
      T.kind? fieldNum = some kind → kind.Bounded
  | .empty, _, _, _, hkind => by cases hkind
  | .field number kind rest, h, fieldNum, kind', hkind => by
    simp only [MessageType.kind?] at hkind
    split at hkind
    · cases hkind
      exact h.1
    · exact MessageType.Bounded.kind h.2 hkind

section Definitions

variable (V : Varint)

/-- A decoder of a message type reads a tag, in a message of a type, itself or one in it, and
stands behind the tag. -/
inductive ReadsTag : MessageType → Int → In → MessageType → Tag → In → Prop where
  | here {T : MessageType} {nesting : Int} {inp : In} (htag : (readTag V inp).2.err = none) :
      ReadsTag T nesting inp T (readTag V inp).1 (readTag V inp).2
  | behind {T S : MessageType} {nesting : Int} {inp after : In} {tag : Tag} {msg : T.Val}
      (hagain : (tagRound V (messageField V (T.switch V nesting) nesting) msg inp).again = true)
      (h : ReadsTag T nesting
        (tagRound V (messageField V (T.switch V nesting) nesting) msg inp).reader S tag after) :
      ReadsTag T nesting inp S tag after
  | inside {T S S' : MessageType} {kind : FieldKind} {nesting : Int} {inp after : In} {tag : Tag}
      (htag : (readTag V inp).2.err = none) (htype : (readTag V inp).1.type ≠ .endTag)
      (hkind : T.kind? (readTag V inp).1.fieldNum = some kind)
      (hmessage : kind = .message S ∨ kind = .repeated S)
      (h : ReadsTag S (nesting - 1) (readTag V inp).2 S' tag after) :
      ReadsTag T nesting inp S' tag after

/-- The wire types are those of the declared kinds, wherever the decoder knows the field. -/
def Declared (T : MessageType) (nesting : Int) (inp : In) : Prop :=
  ∀ S tag after kind, ReadsTag V T nesting inp S tag after → tag.type ≠ .endTag →
    S.kind? tag.fieldNum = some kind → tag.type = kind.wireType

/-- The lengths are not negative, wherever the decoder reads a string. -/
def Measured (T : MessageType) (nesting : Int) (inp : In) : Prop :=
  ∀ S tag after type capacity, ReadsTag V T nesting inp S tag after → tag.type ≠ .endTag →
    S.kind? tag.fieldNum = some (.scalar type) → type.storage = .inlineString capacity →
    0 ≤ (after.read V.readUnsigned .baselib).1

end Definitions

variable {V : Varint} {IsVarint : List UInt8 → Prop}

section Reads

variable {T S S' : MessageType} {nesting : Int} {bytes rest : List UInt8} {tag tag' : Tag}
  {kind : FieldKind} {after : In}

/-- The tag at hand is read. -/
theorem ReadsTag.tagged (htag : Tagged V tag bytes) :
    ReadsTag V T nesting (.ofBytes (bytes ++ rest)) T tag (.ofBytes rest) := by
  have hread := htag rest
  have hreads : ReadsTag V T nesting (.ofBytes (bytes ++ rest)) T
      (readTag V (.ofBytes (bytes ++ rest))).1 (readTag V (.ofBytes (bytes ++ rest))).2 :=
    .here (by rw [hread, Reader.err_ofBytes])
  rwa [hread] at hreads

/-- Behind a round, the tags are read that are read from there. -/
theorem ReadsTag.round {msg msg' : T.Val}
    (hround : Reader.Takes (Reader.round
      (tagRound V (messageField V (T.switch V nesting) nesting)) msg) bytes (true, msg'))
    (h : ReadsTag V T nesting (.ofBytes rest) S tag after) :
    ReadsTag V T nesting (.ofBytes (bytes ++ rest)) S tag after := by
  have hbody := hround rest
  simp only [Reader.round, Prod.mk.injEq] at hbody
  obtain ⟨⟨hagain, -⟩, hreader⟩ := hbody
  exact .behind hagain (hreader ▸ h)

/-- Behind the tag of a nested message, its tags are read. -/
theorem ReadsTag.nested (htag : Tagged V tag bytes) (htype : tag.type ≠ .endTag)
    (hkind : T.kind? tag.fieldNum = some kind) (hmessage : kind = .message S ∨ kind = .repeated S)
    (h : ReadsTag V S (nesting - 1) (.ofBytes rest) S' tag' after) :
    ReadsTag V T nesting (.ofBytes (bytes ++ rest)) S' tag' after := by
  have hread := htag rest
  refine .inside ?_ ?_ ?_ hmessage ?_
  · rw [hread, Reader.err_ofBytes]
  · rw [hread]
    exact htype
  · rw [hread]
    exact hkind
  · rw [hread]
    exact h

/-- The wire type of the tag at hand. -/
theorem Declared.wireType (h : Declared V T nesting (.ofBytes (bytes ++ rest)))
    (htag : Tagged V tag bytes) (htype : tag.type ≠ .endTag)
    (hkind : T.kind? tag.fieldNum = some kind) : tag.type = kind.wireType :=
  h T tag _ kind (.tagged htag) htype hkind

/-- The length of the string at hand. -/
theorem Measured.length (h : Measured V T nesting (.ofBytes (bytes ++ rest)))
    (htag : Tagged V tag bytes) (htype : tag.type ≠ .endTag) {type : ScalarType}
    (hkind : T.kind? tag.fieldNum = some (.scalar type)) {capacity : Nat}
    (hstorage : type.storage = .inlineString capacity) :
    0 ≤ ((Reader.ofBytes rest).read V.readUnsigned Err.baselib).1 :=
  h T tag _ type capacity (.tagged htag) htype hkind hstorage

/-- A stream with the declared wire types and no negative lengths, as far as a decoder reads. -/
structure Conforms (V : Varint) (T : MessageType) (nesting : Int) (inp : In) : Prop where
  declared : Declared V T nesting inp
  measured : Measured V T nesting inp

/-- What follows a round conforms. -/
theorem Conforms.behind (h : Conforms V T nesting (.ofBytes (bytes ++ rest))) {msg msg' : T.Val}
    (hround : Reader.Takes (Reader.round
      (tagRound V (messageField V (T.switch V nesting) nesting)) msg) bytes (true, msg')) :
    Conforms V T nesting (.ofBytes rest) where
  declared S tag after kind hreads := h.declared S tag after kind (hreads.round hround)
  measured S tag after type capacity hreads :=
    h.measured S tag after type capacity (hreads.round hround)

/-- A nested message conforms. -/
theorem Conforms.inside (h : Conforms V T nesting (.ofBytes (bytes ++ rest)))
    (htag : Tagged V tag bytes) (htype : tag.type ≠ .endTag)
    (hkind : T.kind? tag.fieldNum = some kind) (hmessage : kind = .message S ∨ kind = .repeated S) :
    Conforms V S (nesting - 1) (.ofBytes rest) where
  declared S' tag' after kind' hreads :=
    h.declared S' tag' after kind' (hreads.nested htag htype hkind hmessage)
  measured S' tag' after type capacity hreads :=
    h.measured S' tag' after type capacity (hreads.nested htag htype hkind hmessage)

end Reads

namespace Grammar

/-! ## Bodies are groups -/

/-- All that there is, is as much as was asked for. -/
theorem read_full_all {n : Nat} {bs : List UInt8}
    (h : ((Reader.ofBytes bs).read (Read.full n) Err.baselib).2 = .ofBytes []) :
    bs.length = n := by
  by_cases hle : n ≤ bs.length
  · simp [Reader.read, Reader.ofBytes, Read.full, hle] at h
    exact Nat.le_antisymm h hle
  · simp [Reader.read, Reader.ofBytes, Read.full, hle] at h

theorem full_length {α : Type} (n : Nat) (zero : α) (value : List UInt8 → α)
    {payload : List UInt8} {val : α}
    (h : Reader.Takes (fun inp : In =>
      let bytes := inp.read (Read.full n) .baselib
      if bytes.2.err.isSome then (zero, bytes.2) else (value bytes.1, bytes.2)) payload val) :
    payload.length = n := by
  have hread := congrArg Prod.snd (h [])
  rw [List.append_nil] at hread
  refine read_full_all (Eq.trans ?_ hread)
  dsimp only
  split <;> rfl

/-- A `bool` is one byte, 0 or 1. -/
theorem unmarshalBool_takes {payload : List UInt8} {val : Bool}
    (h : Reader.Takes unmarshalBool payload val) : payload = [0] ∨ payload = [1] := by
  have hread := congrArg Prod.snd (h [])
  rw [List.append_nil] at hread
  cases payload with
  | nil => simp [unmarshalBool, Reader.read, Reader.ofBytes, Read.byte] at hread
  | cons b bs =>
    by_cases hb : b ≠ 0 ∧ b ≠ 1
    · have herr := congrArg Reader.err hread
      simp [unmarshalBool, Reader.read, Reader.ofBytes, Read.byte, hb, Reader.report] at herr
    · have hrest := congrArg Reader.unread hread
      simp [unmarshalBool, Reader.read, Reader.ofBytes, Read.byte, hb] at hrest
      subst hrest
      rw [not_and_or, not_not, not_not] at hb
      rcases hb with rfl | rfl
      · exact .inl rfl
      · exact .inr rfl

/-- A string is a length within its capacity and as many bytes. -/
theorem unmarshalInlineString_takes (hlocal : V.Local) {capacity : Nat} {payload : List UInt8}
    {val : InlineString capacity}
    (h : Reader.Takes (unmarshalInlineString V capacity) payload val) :
    ∃ length data n, V.readUnsigned.Reads length n ∧ n ≤ capacity ∧ payload = length ++ data ∧
      data.length = n.toNat := by
  have hread := congrArg Prod.snd (h [])
  rw [List.append_nil] at hread
  have herr := congrArg Reader.err hread
  simp only [unmarshalInlineString, unmarshalBytes] at hread herr
  have hfailed : (V.readUnsigned.run payload).failed = false := by
    by_contra hfailed
    rw [Bool.not_eq_false] at hfailed
    simp [Reader.read, Reader.ofBytes, hfailed] at herr
  obtain ⟨length, hpayload, hreads⟩ := hlocal.unsigned payload hfailed
  have hlength := Reader.read_ofBytes hreads Err.baselib (V.readUnsigned.run payload).rest
  rw [← hpayload] at hlength
  simp only [hlength, Reader.err_ofBytes, Option.isSome_none, Bool.false_eq_true, if_false]
    at hread herr
  have hn : (V.readUnsigned.run payload).value ≤ capacity := by
    by_contra hn
    rw [if_pos (Int.not_le.mp hn)] at herr
    cases herr
  rw [if_neg (Int.not_lt.mpr hn)] at hread
  exact ⟨length, _, _, hreads, hn, hpayload, read_full_all hread⟩

/-- A value that is read by its type is a payload of the type's wire type, if it is no string
of a negative length. -/
theorem Payload.of_unmarshal (hV : V.Lawful) (hlocal : V.Local) (hframed : V.Framed IsVarint)
    {type : StorageType} (hbounded : type.Bounded) {payload rest : List UInt8} {val : type.Val}
    (hmeasured : ∀ capacity, type = .inlineString capacity →
      0 ≤ ((Reader.ofBytes (payload ++ rest)).read V.readUnsigned Err.baselib).1)
    (h : Reader.Takes (type.unmarshal V) payload val) :
    Payload V IsVarint type.wireType 0 payload := by
  cases type with
  | int32 => exact .varInt (hframed.sint32 payload val h.reads)
  | int64 => exact .varInt (hframed.sint64 payload val h.reads)
  | uint32 => exact .varInt (hframed.uint32 payload val h.reads)
  | uint64 => exact .varInt (hframed.uint64 payload val h.reads)
  | bool =>
    -- A bool is read as one byte, and both of its values are varints.
    have hbyte : ∀ b : UInt8, b < 128 → IsVarint [b] :=
      fun b hb => hframed.uint32 _ _ (hV.byte hb)
    rcases unmarshalBool_takes h with rfl | rfl
    · exact .varInt (hbyte 0 (by decide))
    · exact .varInt (hbyte 1 (by decide))
  | float32 =>
    exact .i32 (full_length 4 0 (fun bytes => UInt32.ofNat (LittleEndian.value bytes)) h)
  | float64 =>
    exact .i64 (full_length 8 0 (fun bytes => UInt64.ofNat (LittleEndian.value bytes)) h)
  | inlineString capacity =>
    obtain ⟨length, data, n, hreads, hn, rfl, hdata⟩ := unmarshalInlineString_takes hlocal h
    -- The capacity keeps the length in 32 bits, where `skip` reads the same one.
    have hpos : 0 ≤ n := by
      have hlength := hmeasured capacity rfl
      rwa [List.append_assoc, Reader.read_ofBytes hreads] at hlength
    have hcapacity : (capacity : Int) < 2 ^ 32 := by exact_mod_cast hbounded
    refine .len (hframed.length length n hreads hpos (by omega)) ?_
    rw [hdata, UInt32.toNat_ofNat', Nat.mod_eq_of_lt (by omega)]

section Aligned

variable (V : Varint) (IsVarint : List UInt8 → Prop)

/-- The bodies that `skip` reads as the decoder does: what is read of a known field is a payload
of its wire type. -/
inductive Aligned : MessageType → Nat → List UInt8 → Prop where
  | stop {T : MessageType} {tag : Tag} {bytes : List UInt8} (htag : Tagged V tag bytes)
      (htype : tag.type = .endTag) : Aligned T 0 bytes
  | unknown {T : MessageType} {tag : Tag} {depth depth' : Nat} {bytes payload rest : List UInt8}
      (htag : Tagged V tag bytes) (htype : tag.type ≠ .endTag)
      (hkind : T.kind? tag.fieldNum = none)
      (hpayload : Payload V IsVarint tag.type depth payload) (h : Aligned T depth' rest) :
      Aligned T (max depth depth') (bytes ++ payload ++ rest)
  | scalar {T : MessageType} {tag : Tag} {depth : Nat} {bytes payload rest : List UInt8}
      {type : ScalarType} {val : type.storage.Val} (htag : Tagged V tag bytes)
      (htype : tag.type = type.storage.wireType)
      (hkind : T.kind? tag.fieldNum = some (.scalar type))
      (htakes : Reader.Takes (type.storage.unmarshal V) payload val)
      (hpayload : Payload V IsVarint tag.type 0 payload) (h : Aligned T depth rest) :
      Aligned T depth (bytes ++ payload ++ rest)
  | message {T S : MessageType} {tag : Tag} {kind : FieldKind} {depth depth' : Nat}
      {bytes inner rest : List UInt8} (htag : Tagged V tag bytes) (htype : tag.type = .start)
      (hkind : T.kind? tag.fieldNum = some kind)
      (hmessage : kind = .message S ∨ kind = .repeated S) (hinner : Aligned S depth inner)
      (h : Aligned T depth' rest) : Aligned T (max (depth + 1) depth') (bytes ++ inner ++ rest)

end Aligned

/-- The decoder reads it. -/
theorem Aligned.body {T : MessageType} {depth : Nat} {body : List UInt8}
    (h : Aligned V IsVarint T depth body) : Body V IsVarint T depth body := by
  induction h with
  | stop htag htype => exact .stop htag htype
  | unknown htag htype hkind hpayload _ ih => exact .unknown htag htype hkind hpayload ih
  | scalar htag htype hkind htakes _ _ ih => exact .scalar htag htype hkind htakes ih
  | message htag htype hkind hmessage _ _ ihinner ih =>
    exact .message htag htype hkind hmessage ihinner ih

/-- It is a group to `skip`. -/
theorem Aligned.fields {T : MessageType} {depth : Nat} {body : List UInt8}
    (h : Aligned V IsVarint T depth body) : Fields V IsVarint depth body := by
  induction h with
  | stop htag htype => exact .stop htag htype
  | unknown htag htype _ hpayload _ ih => exact .field htag htype hpayload ih
  | @scalar T tag depth bytes payload rest type val htag htype _ _ hpayload _ ih =>
    rw [← Nat.zero_max depth]
    exact .field htag (htype ▸ type.storage.wireType_ne_endTag) hpayload ih
  | @message T S tag kind depth depth' bytes inner rest htag htype _ _ _ _ ihinner ih =>
    have hgroup : Payload V IsVarint tag.type (depth + 1) inner := htype ▸ .start ihinner
    exact .field htag (htype ▸ nofun) hgroup ih

/-! ## What is accepted is aligned -/

/-- A message that conforms is aligned, within the decoder's budget. -/
theorem Aligned.of_inserted (hV : V.Lawful) (hlocal : V.Local) (hframed : V.Framed IsVarint)
    {T : MessageType} {nesting : Nat} {body body' : List UInt8}
    (h : Inserted V T nesting body body') :
    T.Bounded → ∀ {rest}, Conforms V T nesting (.ofBytes (body ++ rest)) →
      ∃ depth, Aligned V IsVarint T depth body ∧ depth ≤ nesting := by
  induction h with
  | stop htag htype => exact fun _ _ _ => ⟨0, .stop htag htype, Nat.zero_le _⟩
  | insert _ _ _ _ ih => exact ih
  | @unknown T nesting tag bytes payload after _ htag htype hkind htakes _ ih =>
    intro hbounded rest hconforms
    rw [List.append_assoc] at hconforms
    -- What is passed over by `skip` is a payload of the grammar.
    have hafter := hconforms.behind
      (htag.round htype (messageField_unknown hkind htakes T.default))
    obtain ⟨depth', hbody, hdepth'⟩ := ih hbounded hafter
    rw [skip_level] at htakes
    obtain ⟨depth, hpayload, hdepth⟩ := Payload.of_takes hlocal hframed.toSkips htakes
    exact ⟨max depth depth', .unknown htag htype hkind hpayload hbody,
      Nat.max_le.mpr ⟨hdepth, hdepth'⟩⟩
  | @scalar T nesting tag bytes payload after _ type val htag htype hkind htakes _ ih =>
    intro hbounded rest hconforms
    rw [List.append_assoc] at hconforms
    obtain ⟨next, hfield, -⟩ := messageField_known nesting hkind
      (fun _ => ⟨val, htakes, htakes⟩) T.default
    obtain ⟨depth, hbody, hdepth⟩ := ih hbounded (hconforms.behind (htag.round htype hfield))
    rw [List.append_assoc] at hconforms
    -- The value is a payload of the declared wire type, which is the one of the tag.
    have hwire := hconforms.declared.wireType htag htype hkind
    have hscalar := Payload.of_unmarshal hV hlocal hframed (hbounded.kind hkind)
      (fun _ hstorage => hconforms.measured.length htag htype hkind hstorage) htakes
    exact ⟨depth, .scalar htag hwire hkind htakes (hwire ▸ hscalar) hbody, hdepth⟩
  | @message T S nesting tag kind bytes inner inner' after _ htag htype hkind hS hinserted _
      ihinner ih =>
    intro hbounded rest hconforms
    rw [List.append_assoc] at hconforms
    obtain ⟨m, htakes, -⟩ := hinserted.takes hlocal S.default
    obtain ⟨next, hfield, -⟩ := messageField_known _ hkind
      (FieldKind.unmarshal_takes hS htakes htakes) T.default
    obtain ⟨depth', hbody', hdepth'⟩ :=
      ih hbounded (hconforms.behind (htag.round htype hfield))
    rw [List.append_assoc] at hconforms
    have hboundedS : S.Bounded := by
      rcases hS with rfl | rfl
      · exact hbounded.kind hkind
      · exact hbounded.kind hkind
    -- The nested message has one level less, and so has its budget.
    have hinside := hconforms.inside htag htype hkind hS
    have hnesting : ((nesting + 1 : Nat) : Int) - 1 = nesting := by omega
    rw [hnesting] at hinside
    obtain ⟨depth, hbody, hdepth⟩ := ihinner hboundedS hinside
    have hstart : tag.type = .start := by
      have hwire := hconforms.declared.wireType htag htype hkind
      rcases hS with rfl | rfl
      · exact hwire
      · exact hwire
    exact ⟨max (depth + 1) depth', .message htag hstart hkind hS hbody hbody',
      Nat.max_le.mpr ⟨Nat.succ_le_succ hdepth, hdepth'⟩⟩

/-- What the decoder accepts of a stream that conforms is aligned, within its budget. -/
theorem Aligned.of_accepts (hV : V.Lawful) (hlocal : V.Local) (hframed : V.Framed IsVarint)
    {T : MessageType} (hbounded : T.Bounded) {nesting : Nat} {msg : T.Val} {bs : List UInt8}
    (h : (messageLoop V (T.switch V nesting) nesting msg (.ofBytes bs)).2.err = none)
    (hconforms : Conforms V T nesting (.ofBytes bs)) :
    ∃ depth body rest, bs = body ++ rest ∧ Aligned V IsVarint T depth body ∧ depth ≤ nesting := by
  obtain ⟨body, rest, rfl, hinserted⟩ := Inserted.of_accepts hlocal h
  obtain ⟨depth, hbody, hdepth⟩ :=
    Aligned.of_inserted hV hlocal hframed hinserted hbounded hconforms
  exact ⟨depth, body, rest, rfl, hbody, hdepth⟩

end Grammar

open Grammar

/-- Where a decoder accepts a message, every tag of a field that it knows has the wire type of
the declared kind, and no string comes with a negative length, `skip` accepts it as a group, and
stops at the same byte. -/
theorem skip_agrees {V : Varint} {IsVarint : List UInt8 → Prop} (hV : V.Lawful)
    (hlocal : V.Local) (hframed : V.Framed IsVarint) {T : MessageType} (hbounded : T.Bounded)
    {nesting : Int} {bs : List UInt8}
    (haccept : (unmarshal V T (.ofBytes bs) nesting).2.err = none)
    (hdeclared : Declared V T nesting (.ofBytes bs))
    (hmeasured : Measured V T nesting (.ofBytes bs)) :
    skip V .start nesting (.ofBytes bs) = (unmarshal V T (.ofBytes bs) nesting).2 := by
  by_cases hneg : nesting < 0
  · rw [unmarshal, unmarshalNested, if_pos hneg] at haccept
    exact absurd haccept (Reader.report_err_ne_none _ _)
  · -- The body that is accepted is a group, and both take it whole.
    obtain ⟨level, rfl⟩ : ∃ level : Nat, nesting = level := ⟨nesting.toNat, by omega⟩
    have hunmarshal : unmarshal V T (.ofBytes bs) level =
        messageLoop V (T.switch V level) level T.default (.ofBytes bs) := by
      rw [unmarshal, unmarshalNested, if_neg hneg]
      rfl
    rw [hunmarshal] at haccept ⊢
    obtain ⟨depth, body, rest, rfl, haligned, hdepth⟩ :=
      Aligned.of_accepts hV hlocal hframed hbounded haccept ⟨hdeclared, hmeasured⟩
    obtain ⟨msg, htakes⟩ := haligned.body.takes hlocal hframed.toSkips hdepth T.default
    have hgroup := haligned.fields.skip hframed.toSkips (Nat.lt_succ_of_le hdepth)
    rw [htakes rest]
    exact congrArg Prod.snd (hgroup rest)

namespace Sample

/-- A message with a number. -/
def counted : MessageType := .field 1 (.scalar .uint32) .empty

/-- The one tag of a field that is read of it. -/
theorem counted_reads {nesting : Int} {S : MessageType} {tag : Tag} {after : In}
    (hreads : ReadsTag .leb128 counted nesting (.ofBytes [0x08, 0x03, 0x04, 0xf0]) S tag after)
    (htype : tag.type ≠ .endTag) : S = counted ∧ tag = ⟨.varInt, 1⟩ := by
  cases hreads with
  | here htag => exact ⟨rfl, rfl⟩
  | @behind _ _ _ _ _ _ msg hagain h =>
    have hreader : (tagRound .leb128
        (messageField .leb128 (counted.switch .leb128 nesting) nesting) msg
        (.ofBytes [0x08, 0x03, 0x04, 0xf0])).reader = .ofBytes [0x04, 0xf0] := rfl
    rw [hreader] at h
    cases h with
    | here htag => exact absurd rfl htype
    | behind hagain h => cases hagain
    | inside htag htype' hkind hmessage h => exact absurd rfl htype'
  | inside htag htype' hknown hmessage h =>
    obtain rfl := Option.some.inj ((rfl : counted.kind? 1 = _).symm.trans hknown)
    rcases hmessage with hscalar | hscalar
    · cases hscalar
    · cases hscalar

/-- It is sent as it is declared. -/
theorem counted_declared (nesting : Int) :
    Declared .leb128 counted nesting (.ofBytes [0x08, 0x03, 0x04, 0xf0]) := by
  intro S tag after kind hreads htype hkind
  obtain ⟨rfl, rfl⟩ := counted_reads hreads htype
  obtain rfl := Option.some.inj ((rfl : counted.kind? 1 = some (.scalar .uint32)).symm.trans hkind)
  rfl

/-- There are no strings in it. -/
theorem counted_measured (nesting : Int) :
    Measured .leb128 counted nesting (.ofBytes [0x08, 0x03, 0x04, 0xf0]) := by
  intro S tag after type capacity hreads htype hkind hstorage
  obtain ⟨rfl, rfl⟩ := counted_reads hreads htype
  obtain rfl : ScalarType.uint32 = type := FieldKind.scalar.inj
    (Option.some.inj ((rfl : counted.kind? 1 = some (.scalar .uint32)).symm.trans hkind))
  cases hstorage

end Sample

/-- A number, as it is declared. -/
theorem skip_agrees_counted :
    skip .leb128 .start 0 (.ofBytes [0x08, 0x03, 0x04, 0xf0]) =
      (unmarshal .leb128 Sample.counted (.ofBytes [0x08, 0x03, 0x04, 0xf0]) 0).2 :=
  skip_agrees (T := Sample.counted) Varint.leb128_lawful Varint.leb128_local
    Varint.leb128_framed ⟨trivial, trivial⟩ rfl (Sample.counted_declared 0)
    (Sample.counted_measured 0)

/-- A `float` that comes as a varint: the decoder reads four bytes, and `skip` one. -/
theorem skip_disagrees :
    (unmarshal .leb128 (.field 1 (.scalar .float) .empty)
      (.ofBytes [0x08, 0x01, 0x04, 0x04, 0x04, 0x04])).2 = .ofBytes [] ∧
    skip .leb128 .start MaxNesting (.ofBytes [0x08, 0x01, 0x04, 0x04, 0x04, 0x04]) =
      .ofBytes [0x04, 0x04, 0x04] := by
  exact ⟨rfl, rfl⟩

/-- A string of the length -1: the decoder reads none of its bytes, and `skip` wants
4294967295 of them. -/
theorem skip_negative_length :
    (unmarshal .leb128Signed (.field 1 (.scalar (.bytes 16)) .empty)
      (.ofBytes [0x0a, 255, 255, 255, 255, 255, 255, 255, 255, 255, 1, 4])).2 = .ofBytes [] ∧
    (skip .leb128Signed .start MaxNesting
      (.ofBytes [0x0a, 255, 255, 255, 255, 255, 255, 255, 255, 255, 1, 4])).err =
        some .baselib := by
  exact ⟨rfl, rfl⟩

end SerialRpc
