import SerialRpc.Lib.Prompt
import SerialRpc.Encoding.Framing

/-!
# Reads after an error (protoc_serialrpc_plugin.cc:1477-1521, encoding_impl.cc:95-179, 391-404)

The generated `switch` looks at the error behind an unknown field, and not behind a known one:
the loop finds out at its next tag, when it has called `read_varint` once more. On a serial
line that is a read that waits for bytes nobody will send.

- `skip_prompt`: what passes over an unknown field stops at the first error.
- `StorageType.takes_iff_isPayload`: which bytes an overload of `unmarshal` reads.
- `Broken`: a stream with a known field whose payload is not one of its declared type, behind
  fields that are all right.
- `lateReads_eq_zero_iff`: the decoder reads after an error exactly on such streams.
-/

namespace SerialRpc

open ByteStream

variable {V : Varint}

/-! ## Parts that stop at the first error -/

theorem readTag_prompt : Reader.Prompt (readTag V) := by
  intro inp h
  rw [readTag_snd]
  exact Reader.Prompt.read _ _ inp h

/-- A round of a loop over tags stops at the first error if what it does with a field does. -/
theorem tagRound_prompt {σ : Type} {field : Tag → Body σ Err}
    (h : ∀ tag s inp, inp.err = none → (field tag s inp).reader.lateReads = inp.lateReads)
    (s : σ) (inp : In) (herr : inp.err = none) :
    (tagRound V field s inp).reader.lateReads = inp.lateReads := by
  have htag := readTag_prompt (V := V) inp herr
  unfold tagRound
  dsimp only
  split_ifs with hfailed hend
  · exact htag
  · exact htag
  · rw [h _ _ _ (by simpa using hfailed), htag]

theorem skipPayload_prompt {group : In → In} (hgroup : Reader.Prompt (skipping group))
    (type : WireType) : Reader.Prompt (skipping (skipPayload V group type)) := by
  cases type with
  | len =>
    have hbind := Reader.Prompt.bind (f := fun inp : In => inp.read V.readUint32 Err.baselib)
      (g := fun n inp => inp.read (Read.discard n.toNat) Err.baselib) (.read V.readUint32 _)
      (fun _ => ()) fun n => .read (Read.discard n.toNat) _
    intro inp h
    refine Eq.trans ?_ (hbind inp h)
    simp only [skipping, skipPayload]
    split <;> rfl
  | start => exact hgroup
  | varInt => exact .read V.skip _
  | i64 => exact .read (Read.discard 8) _
  | i32 => exact .read (Read.discard 4) _
  | endTag => exact .pure ()
  | unnamed6 => exact .report () _
  | unnamed7 => exact .report () _

theorem skipGroup_prompt : ∀ level, Reader.Prompt (skipping (skipGroup V level))
  | 0 => .report () _
  | level + 1 =>
    Reader.Prompt.loop (skipRound_productive level)
      (tagRound_prompt fun tag _ inp h =>
        skipPayload_prompt (skipGroup_prompt level) tag.type inp h)
      (fun _ inp hagain => by
        simp only [skipRound, tagRound] at hagain ⊢
        split_ifs at hagain ⊢
        simpa using hagain) ()

/-- `skip` stops at the first error, at every level of a group. -/
theorem skip_prompt (type : WireType) (nesting : Int) :
    Reader.Prompt (skipping (skip V type nesting)) :=
  skipPayload_prompt (skipGroup_prompt _) type

/-! ## Streams with a broken field -/

/-- A payload of a scalar type. -/
def StorageType.IsPayload (V : Varint) (payload : List UInt8) : StorageType → Prop
  | .int32 => ∃ val, V.readSint32.Reads payload val
  | .int64 => ∃ val, V.readSint64.Reads payload val
  | .uint32 => ∃ val, V.readUint32.Reads payload val
  | .uint64 => ∃ val, V.readUint64.Reads payload val
  | .bool => payload = [0] ∨ payload = [1]
  | .float32 => payload.length = 4
  | .float64 => payload.length = 8
  | .inlineString capacity => ∃ length data n, V.readUnsigned.Reads length n ∧ n ≤ capacity ∧
      payload = length ++ data ∧ data.length = n.toNat

theorem full_value_takes {α : Type} {n : Nat} (zero : α) (value : List UInt8 → α)
    {payload : List UInt8} (h : payload.length = n) :
    Reader.Takes (fun inp : In =>
      let bytes := inp.read (Read.full n) .baselib
      if bytes.2.err.isSome then (zero, bytes.2) else (value bytes.1, bytes.2)) payload
      (value payload) := by
  subst h
  intro rest
  simp [Reader.read_ofBytes (Read.full_reads payload) Err.baselib rest]

theorem unmarshalInlineString_reads {capacity : Nat} {length data : List UInt8} {n : Int}
    (hreads : V.readUnsigned.Reads length n) (hle : n ≤ capacity) (hdata : data.length = n.toNat) :
    ∃ val, Reader.Takes (unmarshalInlineString V capacity) (length ++ data) val := by
  refine ⟨RawBytes.toInlineString capacity ⟨n, data, some n⟩, fun rest => ?_⟩
  have hlength := Reader.read_ofBytes hreads Err.baselib (data ++ rest)
  have hfull := Reader.read_ofBytes (Read.full_reads data) Err.baselib rest
  rw [hdata] at hfull
  rw [unmarshalInlineString, unmarshalBytes, List.append_assoc]
  simp [hlength, not_lt.mpr hle, hfull]

/-- The overload of a type reads its payloads and no other bytes. -/
theorem StorageType.takes_iff_isPayload (hV : V.Local) (type : StorageType)
    (payload : List UInt8) :
    (∃ val, Reader.Takes (type.unmarshal V) payload val) ↔ type.IsPayload V payload := by
  cases type with
  | bool =>
    constructor
    · rintro ⟨val, h⟩
      exact Grammar.unmarshalBool_takes h
    · rintro (rfl | rfl)
      · exact ⟨false, fun _ => rfl⟩
      · exact ⟨true, fun _ => rfl⟩
  | float32 =>
    constructor
    · rintro ⟨val, h⟩
      exact Grammar.full_length 4 0 (fun bytes => UInt32.ofNat (LittleEndian.value bytes)) h
    · intro h
      exact ⟨_, full_value_takes 0 (fun bytes => UInt32.ofNat (LittleEndian.value bytes)) h⟩
  | float64 =>
    constructor
    · rintro ⟨val, h⟩
      exact Grammar.full_length 8 0 (fun bytes => UInt64.ofNat (LittleEndian.value bytes)) h
    · intro h
      exact ⟨_, full_value_takes 0 (fun bytes => UInt64.ofNat (LittleEndian.value bytes)) h⟩
  | inlineString capacity =>
    constructor
    · rintro ⟨val, h⟩
      exact Grammar.unmarshalInlineString_takes hV h
    · rintro ⟨length, data, n, hreads, hle, rfl, hdata⟩
      exact unmarshalInlineString_reads hreads hle hdata
  | _ => exact exists_congr fun val => ⟨fun h => h.reads, fun h => .read h _⟩

/-- A payload of a known field: a scalar of its type, or with a budget left a message. -/
def FieldKind.IsValue (V : Varint) (nesting : Nat) (payload : List UInt8) : FieldKind → Prop
  | .scalar type => type.storage.IsPayload V payload
  | .message S => 0 < nesting ∧ Inserted V S (nesting - 1) payload payload
  | .repeated S => 0 < nesting ∧ Inserted V S (nesting - 1) payload payload

/-- A message's fields are all right up to a known one with a payload that is not of its
type. -/
inductive Broken (V : Varint) (T : MessageType) (nesting : Nat) : List UInt8 → Prop where
  | value {tag : Tag} {kind : FieldKind} {bytes bs : List UInt8} (htag : Tagged V tag bytes)
      (htype : tag.type ≠ .endTag) (hkind : T.kind? tag.fieldNum = some kind)
      (hbroken : ¬ ∃ payload rest, bs = payload ++ rest ∧ kind.IsValue V nesting payload) :
      Broken V T nesting (bytes ++ bs)
  | unknown {tag : Tag} {bytes payload rest : List UInt8} (htag : Tagged V tag bytes)
      (htype : tag.type ≠ .endTag) (hkind : T.kind? tag.fieldNum = none)
      (hpayload : Reader.Takes (skipping (skip V tag.type (nesting - 1))) payload ())
      (h : Broken V T nesting rest) : Broken V T nesting (bytes ++ (payload ++ rest))
  | known {tag : Tag} {kind : FieldKind} {bytes payload rest : List UInt8}
      (htag : Tagged V tag bytes) (htype : tag.type ≠ .endTag)
      (hkind : T.kind? tag.fieldNum = some kind) (hpayload : kind.IsValue V nesting payload)
      (h : Broken V T nesting rest) : Broken V T nesting (bytes ++ (payload ++ rest))

variable {T : MessageType} {nesting : Nat}

/-- A payload of a known field is read, whatever follows. -/
theorem FieldKind.IsValue.takes (hV : V.Local) {kind : FieldKind} {payload : List UInt8}
    (h : kind.IsValue V nesting payload) (val : kind.Val) :
    ∃ val', Reader.Takes (kind.unmarshal V nesting val) payload val' := by
  have hmessage : ∀ S, kind = .message S ∨ kind = .repeated S →
      0 < nesting → Inserted V S (nesting - 1) payload payload →
      ∃ val', Reader.Takes (kind.unmarshal V nesting val) payload val' := by
    intro S hS hpos hinserted
    obtain ⟨level, rfl⟩ := Nat.exists_eq_add_one.mpr hpos
    obtain ⟨m, htakes, -⟩ := hinserted.takes hV S.default
    obtain ⟨val', htakes', -⟩ := FieldKind.unmarshal_takes hS htakes htakes val
    exact ⟨val', htakes'⟩
  cases kind with
  | scalar type => exact (type.storage.takes_iff_isPayload hV payload).mpr h
  | message S => exact hmessage S (.inl rfl) h.1 h.2
  | repeated S => exact hmessage S (.inr rfl) h.1 h.2

/-- What is read without an error is a payload. -/
theorem FieldKind.isValue_of_accepts (hV : V.Local) {kind : FieldKind} {val : kind.Val}
    {bs : List UInt8} (h : (kind.unmarshal V nesting val (.ofBytes bs)).2.err = none) :
    ∃ payload rest, bs = payload ++ rest ∧ kind.IsValue V nesting payload := by
  rcases FieldKind.unmarshal_accepts hV h with
    ⟨type, rfl, payload, val', rest, rfl, htakes⟩ | ⟨S, level, hS, hlevel, hinner⟩
  · exact ⟨payload, rest, rfl, (type.storage.takes_iff_isPayload hV payload).mp ⟨val', htakes⟩⟩
  · obtain rfl : nesting = level + 1 := by omega
    obtain ⟨payload, rest, rfl, hinserted⟩ := Inserted.of_accepts hV hinner
    rcases hS with rfl | rfl
    · exact ⟨payload, rest, rfl, Nat.succ_pos level, hinserted⟩
    · exact ⟨payload, rest, rfl, Nat.succ_pos level, hinserted⟩

/-- What a broken stream has behind its first tag. -/
theorem Broken.split {tag : Tag} {bytes bs : List UInt8} (htag : Tagged V tag bytes)
    (h : Broken V T nesting (bytes ++ bs)) :
    tag.type ≠ .endTag ∧
      ((T.kind? tag.fieldNum = none ∧ ∃ payload rest, bs = payload ++ rest ∧
          Reader.Takes (skipping (skip V tag.type (nesting - 1))) payload () ∧
          Broken V T nesting rest) ∨
        ∃ kind, T.kind? tag.fieldNum = some kind ∧
          ((¬ ∃ payload rest, bs = payload ++ rest ∧ kind.IsValue V nesting payload) ∨
            ∃ payload rest, bs = payload ++ rest ∧ kind.IsValue V nesting payload ∧
              Broken V T nesting rest)) := by
  generalize hbs : bytes ++ bs = stream at h
  cases h with
  | value htag' htype hkind hbroken =>
    obtain ⟨rfl, rfl⟩ := htag.unique htag' hbs
    obtain rfl := List.append_cancel_left hbs
    exact ⟨htype, .inr ⟨_, hkind, .inl hbroken⟩⟩
  | unknown htag' htype hkind hpayload h =>
    obtain ⟨rfl, rfl⟩ := htag.unique htag' hbs
    obtain rfl := List.append_cancel_left hbs
    exact ⟨htype, .inl ⟨hkind, _, _, rfl, hpayload, h⟩⟩
  | known htag' htype hkind hpayload h =>
    obtain ⟨rfl, rfl⟩ := htag.unique htag' hbs
    obtain rfl := List.append_cancel_left hbs
    exact ⟨htype, .inr ⟨_, hkind, .inr ⟨_, _, rfl, hpayload, h⟩⟩⟩

/-- A broken stream begins with a tag. -/
theorem Broken.tag {bs : List UInt8} (h : Broken V T nesting bs) :
    ∃ tag bytes rest, bs = bytes ++ rest ∧ Tagged V tag bytes := by
  cases h with
  | value htag _ _ _ => exact ⟨_, _, _, rfl, htag⟩
  | unknown htag _ _ _ _ => exact ⟨_, _, _, rfl, htag⟩
  | known htag _ _ _ _ => exact ⟨_, _, _, rfl, htag⟩

/-- Behind an unknown field that is all right. -/
theorem broken_unknown_iff {tag : Tag} {bytes payload rest : List UInt8}
    (htag : Tagged V tag bytes) (htype : tag.type ≠ .endTag)
    (hkind : T.kind? tag.fieldNum = none)
    (hpayload : Reader.Takes (skipping (skip V tag.type (nesting - 1))) payload ()) :
    Broken V T nesting (bytes ++ (payload ++ rest)) ↔ Broken V T nesting rest := by
  constructor
  · intro h
    rcases (h.split htag).2 with ⟨-, payload', rest', heq, hpayload', h'⟩ | ⟨kind, hkind', -⟩
    · obtain ⟨rfl, -⟩ := hpayload.unique hpayload' heq
      rwa [List.append_cancel_left heq]
    · exact absurd (hkind.symm.trans hkind') nofun
  · exact .unknown htag htype hkind hpayload

/-- Behind a known field that is all right. -/
theorem broken_known_iff (hV : V.Local) {tag : Tag} {kind : FieldKind}
    {bytes payload rest : List UInt8} (htag : Tagged V tag bytes) (htype : tag.type ≠ .endTag)
    (hkind : T.kind? tag.fieldNum = some kind) (hpayload : kind.IsValue V nesting payload) :
    Broken V T nesting (bytes ++ (payload ++ rest)) ↔ Broken V T nesting rest := by
  constructor
  · intro h
    rcases (h.split htag).2 with ⟨hkind', -⟩ | ⟨kind', hkind', hbroken | hgood⟩
    · exact absurd (hkind.symm.trans hkind') nofun
    · obtain rfl := Option.some.inj (hkind.symm.trans hkind')
      exact absurd ⟨payload, rest, rfl, hpayload⟩ hbroken
    · obtain rfl := Option.some.inj (hkind.symm.trans hkind')
      obtain ⟨payload', rest', heq, hpayload', h'⟩ := hgood
      -- Both are what the field's decoder takes.
      obtain ⟨val, htakes⟩ := hpayload.takes hV kind.default
      obtain ⟨val', htakes'⟩ := hpayload'.takes hV kind.default
      obtain ⟨rfl, -⟩ := htakes.unique htakes' heq
      rwa [List.append_cancel_left heq]
  · exact .known htag htype hkind hpayload

/-! ## Late reads -/

/-- A loop that is entered with an error reads one tag more. -/
theorem messageLoop_late {nesting : Int} {msg : T.Val} {inp : In} (herr : inp.err ≠ none) :
    (messageLoop V (T.switch V nesting) nesting msg inp).2.lateReads = inp.lateReads + 1 := by
  have htag : (readTag V inp).2.err ≠ none := by
    rw [readTag_snd, Reader.read_err_of_err _ _ herr]
    exact herr
  rw [messageLoop, tagLoop_eq (messageField_productive T nesting), if_pos (.inl htag)]
  show (readTag V inp).2.lateReads = inp.lateReads + 1
  rw [readTag_snd, Reader.read_lateReads _ _ herr]

section Fields

variable {bytes rest : List UInt8} {tag : Tag}

/-- An unknown field, given what comes of the stream behind it. -/
theorem unknown_lateReads_iff (hV : V.Local) (htag : Tagged V tag bytes)
    (htype : tag.type ≠ .endTag) (hkind : T.kind? tag.fieldNum = none) (msg : T.Val)
    (ih : ∀ rest', rest' <:+ rest →
      ((messageLoop V (T.switch V nesting) nesting msg (.ofBytes rest')).2.lateReads = 0 ↔
        ¬ Broken V T nesting rest')) :
    (messageLoop V (T.switch V nesting) nesting msg (.ofBytes (bytes ++ rest))).2.lateReads = 0 ↔
      ¬ Broken V T nesting (bytes ++ rest) := by
  rw [messageLoop_tagged htag htype]
  simp only [messageField, MessageType.switch_of_none _ hkind]
  by_cases hskip : (skip V tag.type ((nesting : Int) - 1) (.ofBytes rest)).err = none
  · obtain ⟨payload, ⟨⟩, rest', rfl, htakes⟩ := skip_local hV tag.type _ rest hskip
    have hafter := congrArg Prod.snd (htakes rest')
    simp only [skipping] at hafter
    simp only [hafter, Reader.err_ofBytes, Option.isNone_none, if_true]
    rw [ih rest' (List.suffix_append payload rest'), broken_unknown_iff htag htype hkind htakes]
  · -- The `default` case looks at the error itself.
    have hnone : (skip V tag.type ((nesting : Int) - 1) (.ofBytes rest)).err.isNone = false := by
      rwa [Option.isNone_eq_false_iff, Option.isSome_iff_ne_none]
    simp only [hnone, Bool.false_eq_true, if_false]
    refine iff_of_true (skip_prompt tag.type _ (.ofBytes rest) rfl) fun h => ?_
    rcases (h.split htag).2 with ⟨-, payload, rest', rfl, htakes, -⟩ | ⟨kind, hkind', -⟩
    · have hafter := congrArg Prod.snd (htakes rest')
      simp only [skipping] at hafter
      exact hskip (by rw [hafter, Reader.err_ofBytes])
    · cases hkind.symm.trans hkind'

/-- A known field, given what comes of the stream behind it. -/
theorem known_lateReads_iff (hV : V.Local) (htag : Tagged V tag bytes)
    (htype : tag.type ≠ .endTag) {kind : FieldKind} (hkind : T.kind? tag.fieldNum = some kind)
    (msg : T.Val)
    (ih : ∀ rest', rest' <:+ rest → ∀ msg,
      ((messageLoop V (T.switch V nesting) nesting msg (.ofBytes rest')).2.lateReads = 0 ↔
        ¬ Broken V T nesting rest')) :
    (messageLoop V (T.switch V nesting) nesting msg (.ofBytes (bytes ++ rest))).2.lateReads = 0 ↔
      ¬ Broken V T nesting (bytes ++ rest) := by
  obtain ⟨get, set, hswitch⟩ := MessageType.switch_of_kind (V := V) hkind
  rw [messageLoop_tagged htag htype]
  simp only [messageField, hswitch, if_true]
  by_cases hval : (kind.unmarshal V nesting (get msg) (.ofBytes rest)).2.err = none
  · obtain ⟨payload, rest', rfl, hpayload⟩ := FieldKind.isValue_of_accepts hV hval
    obtain ⟨val, htakes⟩ := hpayload.takes hV (get msg)
    rw [htakes rest', ih rest' (List.suffix_append payload rest'),
      broken_known_iff hV htag htype hkind hpayload]
  · -- The loop goes on with the error, and reads a tag.
    rw [messageLoop_late hval]
    refine iff_of_false (Nat.succ_ne_zero _) (not_not.mpr (.value htag htype hkind ?_))
    rintro ⟨payload, rest', rfl, hpayload⟩
    obtain ⟨val, htakes⟩ := hpayload.takes hV (get msg)
    exact hval (by rw [htakes rest', Reader.err_ofBytes])

end Fields

/-- The loop of a message reads after an error exactly on a broken stream. -/
theorem messageLoop_lateReads_iff (hV : V.Local) (T : MessageType) (nesting : Nat) (msg : T.Val)
    (bs : List UInt8) :
    (messageLoop V (T.switch V nesting) nesting msg (.ofBytes bs)).2.lateReads = 0 ↔
      ¬ Broken V T nesting bs := by
  -- On the length of the stream: what follows a tag is shorter.
  induction hlen : bs.length using Nat.strongRecOn generalizing msg bs with
  | ind len ih =>
    subst hlen
    have hproductive := messageField_productive (V := V) T nesting
    by_cases herr : (readTag V (.ofBytes bs)).2.err = none
    · obtain ⟨bytes, tag, rest, rfl, htag⟩ := readTag_local hV bs herr
      have hshorter : rest.length < (bytes ++ rest).length := by
        have hconsumes := readTag_consumes herr
        rwa [htag rest] at hconsumes
      have hrest : ∀ rest', rest' <:+ rest → ∀ msg,
          ((messageLoop V (T.switch V nesting) nesting msg (.ofBytes rest')).2.lateReads = 0 ↔
            ¬ Broken V T nesting rest') :=
        fun rest' hsuffix msg => ih _ (hsuffix.length_le.trans_lt hshorter) msg rest' rfl
      by_cases htype : tag.type = .endTag
      · -- The message ends.
        have hstop : (messageLoop V (T.switch V nesting) nesting msg
            (.ofBytes (bytes ++ rest))).2 = .ofBytes rest := by
          rw [messageLoop, tagLoop_eq hproductive, htag rest, if_pos (.inr htype)]
        rw [hstop]
        exact iff_of_true rfl fun h => (h.split htag).1 htype
      cases hkind : T.kind? tag.fieldNum with
      | none =>
        exact unknown_lateReads_iff hV htag htype hkind msg
          fun rest' hsuffix => hrest rest' hsuffix msg
      | some kind => exact known_lateReads_iff hV htag htype hkind msg hrest
    · -- There is no tag: that error is looked at.
      have hstop : (messageLoop V (T.switch V nesting) nesting msg (.ofBytes bs)).2 =
          (readTag V (.ofBytes bs)).2 := by
        rw [messageLoop, tagLoop_eq hproductive, if_pos (.inl herr)]
      rw [hstop]
      refine iff_of_true (readTag_prompt _ rfl) fun h => ?_
      obtain ⟨tag, bytes, rest, rfl, htag⟩ := h.tag
      exact herr (by rw [htag rest, Reader.err_ofBytes])

/-- The generated decoder reads after an error exactly if there is a known field whose payload
is not one of its type, behind fields that are all right. -/
theorem lateReads_eq_zero_iff (hV : V.Local) (T : MessageType) (nesting : Int)
    (bs : List UInt8) :
    (unmarshal V T (.ofBytes bs) nesting).2.lateReads = 0 ↔
      ¬ (0 ≤ nesting ∧ Broken V T nesting.toNat bs) := by
  rw [unmarshal, unmarshalNested]
  split_ifs with hneg
  · exact iff_of_true rfl fun h => absurd h.1 (by omega)
  · have hnesting : nesting = (nesting.toNat : Int) := by omega
    have hiff := messageLoop_lateReads_iff hV T nesting.toNat T.default bs
    rw [← hnesting] at hiff
    rw [MessageType.unmarshalBody, hiff]
    exact not_congr ⟨fun h => ⟨by omega, h⟩, fun h => h.2⟩

/-- A message with a `bool` that is one, and an unknown field that is cut short. -/
theorem lateReads_eq_zero_iff_short :
    (unmarshal .leb128 (.field 1 (.scalar .bool) .empty)
      (.ofBytes [0x08, 0x01, 0x10, 0xff])).2.lateReads = 0 ∧
    ¬ (0 ≤ (128 : Int) ∧ Broken .leb128 (.field 1 (.scalar .bool) .empty) (128 : Int).toNat
      [0x08, 0x01, 0x10, 0xff]) :=
  ⟨by decide, (lateReads_eq_zero_iff Varint.leb128_local _ _ _).mp (by decide)⟩

/-- A `bool` that is two: the decoder reads on, once for every level that is open. -/
theorem lateReads_bad_bool :
    (unmarshal .leb128 (.field 1 (.scalar .bool) .empty) (.ofBytes [0x08, 0x02])).2.lateReads = 1 ∧
    (unmarshal .leb128 (.field 1 (.message (.field 1 (.scalar .bool) .empty)) .empty)
      (.ofBytes [0x0b, 0x08, 0x02])).2.lateReads = 2 := by
  decide

end SerialRpc
