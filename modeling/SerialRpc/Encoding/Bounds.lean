import SerialRpc.Encoding.Rounds
import SerialRpc.Encoding.UnknownFields

/-!
# Strings that need not fit

An encoder that writes strings from elsewhere may write more than the reader's field
holds (`unmarshal_bytes`, encoding_impl.cc:391-404). One string that does not fit is enough:
the loop that reads it ends with the error, and so do the loops around it.

- `ReadsIf`: bytes that the loop of a message reads under a condition, and reports an error
  in otherwise. Such bytes compose (`ReadsIf.append`, `ReadsIf.vector`), also from a message
  to the one around it (`ReadsIf.wrapped`).
- `ReadsIf.string`: a string is read if it fits.
- `ReadsIf.unmarshal_iff`: the decoder of a message.
-/

namespace SerialRpc

open ByteStream

/-- The loop of a message reads the bytes if `fits` holds, and reports an error in them
otherwise, whatever it has read before and whatever follows. -/
structure ReadsIf (V : Varint) (T : MessageType) (nesting : Int) (fits : Prop)
    (bytes : List UInt8) : Prop where
  reads : fits → ∀ msg, ∃ msg', Rounds V (T.switch V nesting) msg bytes msg'
  reports : ¬ fits → ∀ msg rest,
    (messageLoop V (T.switch V nesting) nesting msg (.ofBytes (bytes ++ rest))).2.err ≠ none

variable {V : Varint} {T S : MessageType} {nesting : Int} {number : BitVec 32}

/-- A string that does not fit is reported. -/
theorem unmarshalInlineString_err (hV : V.Lawful) {capacity : Nat} (hcapacity : capacity < 2 ^ 32)
    {s : List UInt8} (h : ¬ s.length ≤ capacity) (rest : List UInt8) :
    (unmarshalInlineString V capacity
      (.ofBytes (V.writeUnsigned s.length ++ s ++ rest))).2.err ≠ none := by
  obtain ⟨size, hsize, hbig⟩ : ∃ size : Int,
      V.readUnsigned.Reads (V.writeUnsigned s.length) size ∧ size > capacity := by
    rcases Nat.lt_or_ge s.length (2 ^ 63) with hlt | hge
    · exact ⟨s.length, hV.unsigned s.length hlt, by omega⟩
    · obtain ⟨size, hsize, hle⟩ := hV.unsigned_uncounted s.length hge
      exact ⟨size, hsize, by omega⟩
  have hlen := Reader.read_ofBytes hsize Err.baselib (s ++ rest)
  rw [List.append_assoc]
  simp [unmarshalInlineString, unmarshalBytes, hlen, hbig, Reader.report]

namespace ReadsIf

variable {fits fits' : Prop} {bytes bytes' : List UInt8}

theorem of_iff (h : ReadsIf V T nesting fits bytes) (hfits : fits ↔ fits') :
    ReadsIf V T nesting fits' bytes :=
  ⟨fun h' => h.reads (hfits.mpr h'), fun h' => h.reports (mt hfits.mp h')⟩

/-- No bytes are read as no field. -/
theorem nil : ReadsIf V T nesting True [] :=
  ⟨fun _ msg => ⟨msg, .nil msg⟩, fun h => absurd trivial h⟩

/-- No bytes hold no string that does not fit: an `End` may follow. -/
theorem of_nil (hV : V.Lawful) (h : ReadsIf V T nesting fits []) : fits := by
  by_contra hfits
  have herr := h.reports hfits T.default [endByte]
  have hend : messageLoop V (T.switch V nesting) nesting T.default (.ofBytes [endByte]) =
      (T.default, .ofBytes []) :=
    tagLoop_endByte hV (messageField_consuming (T.switch_consumes nesting) nesting) _ []
  rw [List.nil_append, hend] at herr
  exact herr rfl

/-- Fields behind fields: both must fit. -/
theorem append (hV : V.Lawful) (h : ReadsIf V T nesting fits bytes)
    (h' : ReadsIf V T nesting fits' bytes') :
    ReadsIf V T nesting (fits ∧ fits') (bytes ++ bytes') where
  reads hboth msg := by
    obtain ⟨mid, hmid⟩ := h.reads hboth.1 msg
    obtain ⟨msg', hmsg'⟩ := h'.reads hboth.2 mid
    exact ⟨msg', hmid.trans hmsg'⟩
  reports hnot msg rest := by
    rw [List.append_assoc]
    by_cases hfits : fits
    · -- The first fields are read, so the error is in the second ones.
      obtain ⟨mid, hmid⟩ := h.reads hfits msg
      rw [hmid.messageLoop_append hV (T.switch_consumes nesting)]
      exact h'.reports (fun hfits' => hnot ⟨hfits, hfits'⟩) mid rest
    · exact h.reports hfits msg (bytes' ++ rest)

/-- The elements of a vector: all must fit. -/
theorem vector {α : Type} {fits : α → Prop} {bytes : α → List UInt8} (hV : V.Lawful) :
    ∀ vec : List α, (∀ a ∈ vec, ReadsIf V T nesting (fits a) (bytes a)) →
      ReadsIf V T nesting (∀ a ∈ vec, fits a) (vec.flatMap bytes)
  | [], _ => nil.of_iff (by simp)
  | a :: vec, h => by
    have hvec := vector hV vec fun b hb => h b (List.mem_cons_of_mem a hb)
    exact ((h a List.mem_cons_self).append hV hvec).of_iff List.forall_mem_cons.symm

/-- One known field, with a payload that its case reads if it fits. -/
theorem field (hV : V.Lawful) {kind : FieldKind} (hkind : T.kind? number = some kind)
    (hnumber : number.toNat < 2 ^ 28) {type : WireType} (htype : type ≠ .endTag)
    {payload : List UInt8}
    (hreads : fits → ∀ val, ∃ val', ∀ rest,
      kind.unmarshal V nesting val (.ofBytes (payload ++ rest)) = (val', .ofBytes rest))
    (hreports : ¬ fits → ∀ val rest,
      (kind.unmarshal V nesting val (.ofBytes (payload ++ rest))).2.err ≠ none) :
    ReadsIf V T nesting fits (tagBytes V number type ++ payload) := by
  obtain ⟨get, set, hswitch⟩ := MessageType.switch_of_kind (V := V) hkind
  refine ⟨fun hfits msg => ?_, fun hfits msg rest => ?_⟩
  · -- The payload is read, and the loop goes on behind it.
    obtain ⟨val', hval'⟩ := hreads hfits (get msg)
    refine ⟨set msg val', .one hnumber htype fun rest => ?_⟩
    rw [hswitch, hval']
  · have htag : Tagged V ⟨type, number⟩ (tagBytes V number type) := readTag_writeTag hV hnumber type
    rw [List.append_assoc]
    obtain ⟨val, hval⟩ := messageLoop_known_err htag htype hkind
      (fun val => hreports hfits val rest) msg
    rw [hval]
    exact hreports hfits val rest

/-- A scalar of the declared type is always read. -/
theorem scalar (hV : V.Lawful) (type : ScalarType) (hbounded : type.storage.Bounded)
    (hkind : T.kind? number = some (.scalar type)) (hnumber : number.toNat < 2 ^ 28)
    (val : type.storage.Val) : ReadsIf V T nesting True (type.storage.ref V number val) := by
  unfold StorageType.ref
  split
  · exact nil
  · rename_i hdefault
    refine field hV hkind hnumber type.storage.wireType_ne_endTag (fun _ _ => ⟨val, fun rest => ?_⟩)
      fun h => absurd trivial h
    exact type.storage.unmarshal_payload hV hbounded val (Bool.eq_false_iff.mpr hdefault) rest

/-- A string is read into a bounded one if it fits, whatever it was bounded by before. -/
theorem string (hV : V.Lawful) {capacity size : Nat} (hcapacity : capacity < 2 ^ 32)
    (hkind : T.kind? number = some (.scalar (.string capacity))) (hnumber : number.toNat < 2 ^ 28)
    (s : InlineString size) :
    ReadsIf V T nesting (s.data.length ≤ capacity)
      (StorageType.ref V number (.inlineString size) s) := by
  unfold StorageType.ref
  split
  · rename_i hdefault
    have hempty : s.data.length = 0 := of_decide_eq_true hdefault
    exact nil.of_iff (by simp [hempty])
  · refine field hV hkind hnumber (StorageType.wireType_ne_endTag _) (fun hfits _ => ?_)
      fun hfits _ rest => ?_
    · exact ⟨⟨s.data, hfits⟩,
        unmarshalInlineString_bytes hV (lt_trans hcapacity (by decide)) ⟨s.data, hfits⟩⟩
    · exact unmarshalInlineString_err hV hcapacity hfits rest

/-- The decoder of a message reads its fields and the `End` behind them if the strings fit,
and reports an error otherwise. -/
theorem unmarshalNested (hV : V.Lawful) (hnesting : 0 ≤ nesting)
    (h : ReadsIf V T nesting fits bytes) :
    (fits → ∃ msg, ∀ rest, unmarshalNested T.default
      (fun n => messageLoop V (T.switch V n) n T.default) nesting
        (.ofBytes (bytes ++ endByte :: rest)) = (msg, .ofBytes rest)) ∧
    (¬ fits → ∀ rest, (unmarshalNested T.default
      (fun n => messageLoop V (T.switch V n) n T.default) nesting
        (.ofBytes (bytes ++ rest))).2.err ≠ none) := by
  simp only [SerialRpc.unmarshalNested, if_neg (not_lt.mpr hnesting)]
  refine ⟨fun hfits => ?_, fun hfits => h.reports hfits T.default⟩
  obtain ⟨msg, hmsg⟩ := h.reads hfits T.default
  exact ⟨msg, hmsg.messageLoop_eq hV (T.switch_consumes nesting) nesting⟩

/-- An element of a repeated field, around the fields of its own message. -/
theorem wrapped (hV : V.Lawful) (hkind : T.kind? number = some (.repeated S))
    (hnumber : number.toNat < 2 ^ 28) (hnesting : 0 < nesting)
    (h : ReadsIf V S (nesting - 1) fits bytes) :
    ReadsIf V T nesting fits (wrap V number bytes) := by
  unfold wrap
  split
  · rename_i hbytes
    -- No bytes, so that there is nothing to report.
    have hfits := of_nil hV (hbytes ▸ h)
    exact nil.of_iff (iff_of_true trivial hfits)
  · obtain ⟨hreads, hreports⟩ := h.unmarshalNested hV (by omega)
    rw [List.append_assoc]
    refine field hV hkind hnumber (by decide) (fun hfits vec => ?_) fun hfits vec rest => ?_
    · obtain ⟨msg, hmsg⟩ := hreads hfits
      refine ⟨vec ++ [msg], fun rest => ?_⟩
      rw [List.append_assoc, List.singleton_append, FieldKind.unmarshal, hmsg rest]
    · rw [List.append_assoc, FieldKind.unmarshal]
      exact hreports hfits ([endByte] ++ rest)

/-- `unmarshal` of the bytes and an `End`: whether there is an error is whether the strings
fit. -/
theorem unmarshal_iff (hV : V.Lawful) (h : ReadsIf V T MaxNesting fits bytes)
    (rest : List UInt8) :
    (unmarshal V T (.ofBytes (bytes ++ [endByte] ++ rest))).2.err = none ↔ fits := by
  obtain ⟨hreads, hreports⟩ := h.unmarshalNested hV (Int.natCast_nonneg MaxNesting)
  rw [List.append_assoc]
  constructor
  · intro herr
    by_contra hfits
    exact hreports hfits ([endByte] ++ rest) herr
  · intro hfits
    obtain ⟨msg, hmsg⟩ := hreads hfits
    have hread : unmarshal V T (.ofBytes (bytes ++ ([endByte] ++ rest))) = (msg, .ofBytes rest) :=
      hmsg rest
    rw [hread]
    rfl

end ReadsIf

/-! ## Encoder calls -/

/-- A scalar overload emits bytes that the loop of a message reads if `fits` holds. -/
def ScalarIf (V : Varint) (T : MessageType) (fits : Prop) (scalar : Marshaller → Marshaller) :
    Prop :=
  ∃ bytes, (∀ m : Marshaller, m.Open → scalar m = m.emit V bytes) ∧
    ∀ nesting, ReadsIf V T nesting fits bytes

/-- An encoder call emits bytes that the loop of a message reads if `fits` holds. -/
def EmitsIf (V : Varint) (T : MessageType) (levels : Nat) (fits : Prop)
    (marshal : Marshaller → Except Panic Marshaller) : Prop :=
  ∃ bytes, Emits V marshal bytes levels ∧
    ∀ nesting : Int, levels ≤ nesting → ReadsIf V T nesting fits bytes

theorem ScalarIf.scalar (hV : V.Lawful) (type : ScalarType) (hbounded : type.storage.Bounded)
    (hkind : T.kind? number = some (.scalar type)) (hnumber : number.toNat < 2 ^ 28)
    (val : type.storage.Val) : ScalarIf V T True (type.storage.marshalField V number val) :=
  ⟨_, fun _ h => StorageType.marshalField_emit hV h number type.storage val,
    fun _ => .scalar hV type hbounded hkind hnumber val⟩

theorem ScalarIf.string (hV : V.Lawful) {capacity : Nat} (hcapacity : capacity < 2 ^ 32)
    (hkind : T.kind? number = some (.scalar (.string capacity)))
    (hnumber : number.toNat < 2 ^ 28) (s : List UInt8) :
    ScalarIf V T (s.length ≤ capacity) (marshalStr V number s) := by
  let val : InlineString s.length := ⟨s, le_refl s.length⟩
  exact ⟨_, fun _ h => StorageType.marshalField_emit hV h number (.inlineString s.length) val,
    fun _ => .string hV hcapacity hkind hnumber val⟩

namespace EmitsIf

variable {levels : Nat} {p q : Prop} {f g : Marshaller → Except Panic Marshaller}

theorem of_iff (h : EmitsIf V T levels p f) (hpq : p ↔ q) : EmitsIf V T levels q f := by
  obtain ⟨bytes, hemits, hreads⟩ := h
  exact ⟨bytes, hemits, fun nesting hle => (hreads nesting hle).of_iff hpq⟩

theorem mono {levels' : Nat} (h : EmitsIf V T levels p f) (hle : levels ≤ levels') :
    EmitsIf V T levels' p f := by
  obtain ⟨bytes, hemits, hreads⟩ := h
  exact ⟨bytes, hemits.mono hle, fun nesting hle' => hreads nesting (by omega)⟩

theorem done : EmitsIf V T levels True .ok :=
  ⟨[], Emits.done, fun _ _ => .nil⟩

/-- One call after a scalar one. -/
theorem after (hV : V.Lawful) {scalar : Marshaller → Marshaller} (hscalar : ScalarIf V T p scalar)
    (h : EmitsIf V T levels q g) : EmitsIf V T levels (p ∧ q) (fun m => g (scalar m)) := by
  obtain ⟨as, hemit, has⟩ := hscalar
  obtain ⟨bs, hemits, hbs⟩ := h
  exact ⟨as ++ bs, .after hemit hemits,
    fun nesting hle => (has nesting).append hV (hbs nesting hle)⟩

/-- One call after a scalar one, with the check of the error between them. -/
theorem afterChecked (hV : V.Lawful) {scalar : Marshaller → Marshaller}
    (hscalar : ScalarIf V T p scalar) (h : EmitsIf V T levels q g) :
    EmitsIf V T levels (p ∧ q)
      (fun m => if (scalar m).out.err.isSome then .ok (scalar m) else g (scalar m)) := by
  obtain ⟨as, hemit, has⟩ := hscalar
  obtain ⟨bs, hemits, hbs⟩ := h
  exact ⟨as ++ bs, .afterChecked hemit hemits,
    fun nesting hle => (has nesting).append hV (hbs nesting hle)⟩

/-- One call after another, with the check of the error between them. -/
theorem andThen (hV : V.Lawful) (hf : EmitsIf V T levels p f) (hg : EmitsIf V T levels q g) :
    EmitsIf V T levels (p ∧ q) (fun m => do
      let m' ← f m
      if m'.out.err.isSome then return m'
      g m') := by
  obtain ⟨as, hemits, has⟩ := hf
  obtain ⟨bs, hemits', hbs⟩ := hg
  exact ⟨as ++ bs, hemits.andThen hemits',
    fun nesting hle => (has nesting hle).append hV (hbs nesting hle)⟩

/-- A repeated field: the elements must fit. -/
theorem vector (hV : V.Lawful) (T : MessageType) {α : Type} {fits : α → Prop}
    {marshal : α → Marshaller → Except Panic Marshaller} (number : BitVec 32)
    (hkind : T.kind? number = some (.repeated S)) (hnumber : number.toNat < 2 ^ 28)
    (h : ∀ a, EmitsIf V S levels (fits a) (marshal a)) (vec : List α) :
    EmitsIf V T (levels + 1) (∀ a ∈ vec, fits a)
      (marshalFieldVector (fun a => marshalFieldMessage number (marshal a)) vec) := by
  choose bytes hemits hreads using h
  refine ⟨_, Emits.vector vec fun a _ => (hemits a).message number, fun nesting hle => ?_⟩
  -- Every element has one level less.
  refine ReadsIf.vector hV vec fun a _ => ?_
  exact (hreads a (nesting - 1) (by omega)).wrapped hV hkind hnumber (by omega)

/-- A top-level call from an empty stack: what it writes is read if it fits. -/
theorem top (hV : V.Lawful) (h : EmitsIf V T levels p f) (hlevels : levels ≤ MaxNesting) :
    ∃ bytes, (do
        let m ← f ⟨{}, .empty⟩
        if m.out.err.isSome then return m.out
        return m.out.write [endByte] .baselib) =
        (.ok { written := bytes } : Except Panic (Writer Err)) ∧
      ∀ rest, (unmarshal V T (.ofBytes (bytes ++ rest))).2.err = none ↔ p := by
  obtain ⟨bytes, hemits, hreads⟩ := h
  exact ⟨_, hemits.top hlevels ⟨rfl, rfl⟩,
    (hreads MaxNesting (Int.ofNat_le.mpr hlevels)).unmarshal_iff hV⟩

end EmitsIf

end SerialRpc
