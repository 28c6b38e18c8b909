import SerialRpc.Lib.Local
import SerialRpc.Encoding.Unmarshal

/-!
# What the decoders look at

Varints end where their own bytes say, and so does everything the runtime reads: tags,
scalars, and what `skip` passes over. Each of them takes its own bytes and looks at
nothing behind them.

- `Varint.Local`: the documented behaviour of `lib.varint` this rests on; `skip` passes
  over a varint as it would be read.
- `StorageType.unmarshal_local`, `skip_local`.
-/

namespace SerialRpc

open ByteStream

/-- Each function of `lib.varint` that reads takes one varint, and `skip` takes the same. -/
structure Varint.Local (V : Varint) : Prop where
  uint32 : V.readUint32.Local
  uint64 : V.readUint64.Local
  sint32 : V.readSint32.Local
  sint64 : V.readSint64.Local
  unsigned : V.readUnsigned.Local
  skip : V.skip.Local
  skip_uint64 : ∀ taken v, V.readUint64.Reads taken v → V.skip.Reads taken ()

theorem Varint.leb128_local : leb128.Local where
  uint32 := Leb128.decodeAs_local _
  uint64 := Leb128.decodeAs_local _
  sint32 := Leb128.decodeAs_local fun n => Int32.ofInt (Leb128.unzigzag n)
  sint64 := Leb128.decodeAs_local fun n => Int64.ofInt (Leb128.unzigzag n)
  unsigned := Leb128.decodeAs_local _
  skip := Leb128.decodeAs_local fun _ => ()
  skip_uint64 _ _ h := (Leb128.decodeAs_reads_of h fun _ => ()).choose_spec

variable {V : Varint}

/-! ## Tags -/

theorem readTag_local (hV : V.Local) : Reader.Local (readTag V) := by
  intro bs h
  obtain ⟨taken, n, rest, hbs, htakes⟩ := Reader.Local.read hV.uint32 Err.baselib bs (by
    rwa [readTag_snd] at h)
  refine ⟨taken, .ofValue n, rest, hbs, fun rest => ?_⟩
  have hread : (Reader.ofBytes (taken ++ rest)).read V.readUint32 Err.baselib =
      (n, .ofBytes rest) := htakes rest
  simp [readTag, hread]

theorem readTag_sticky : Reader.Sticky (readTag V) := by
  intro r h
  rw [readTag_snd]
  exact Reader.Sticky.read _ _ r h

section Loops

variable {σ : Type} {field : Tag → Body σ Err}

/-- A tag's bytes. -/
def Tagged (V : Varint) (tag : Tag) (taken : List UInt8) : Prop :=
  Reader.Takes (readTag V) taken tag

/-- A tag below 128 is its own single byte. -/
theorem Tagged.byte (hV : V.Lawful) {b : UInt8} (hb : b < 128) :
    Tagged V (.ofValue b.toUInt32) [b] := by
  intro rest
  have hread : (Reader.ofBytes ([b] ++ rest)).read V.readUint32 Err.baselib =
      (b.toUInt32, .ofBytes rest) := Reader.read_ofBytes (hV.byte hb) Err.baselib rest
  simp only [readTag, hread]
  rfl

/-- A loop over tags ends with the first error. -/
theorem tagRound_sticky (s : σ) : Reader.Sticky (Reader.round (tagRound V field) s) := by
  intro r h
  have htag := readTag_sticky (V := V) r h
  simp only [Reader.round, tagRound, Option.isSome_iff_ne_none.mpr htag, if_true]
  exact htag

/-- A round with a field takes its tag and what the field takes. -/
theorem Tagged.round {tag : Tag} {taken taken' : List UInt8} {s s' : σ} {again : Bool}
    (htag : Tagged V tag taken) (htype : tag.type ≠ .endTag)
    (hfield : Reader.Takes (Reader.round (field tag) s) taken' (again, s')) :
    Reader.Takes (Reader.round (tagRound V field) s) (taken ++ taken') (again, s') := by
  intro rest
  have hround := hfield rest
  simp only [Reader.round, Prod.mk.injEq] at hround ⊢
  simp only [tagRound, List.append_assoc, htag (taken' ++ rest), Reader.err_ofBytes,
    Option.isSome_none, Bool.false_eq_true, if_false, htype]
  exact hround

/-- The tag that ends a message, whatever its number. -/
theorem Tagged.endTag {tag : Tag} {taken : List UInt8} (htag : Tagged V tag taken)
    (htype : tag.type = .endTag) (s : σ) :
    Reader.Takes (Reader.round (tagRound V field) s) taken (false, s) := by
  intro rest
  simp [Reader.round, tagRound, htag rest, htype]

/-- A successful round has read a tag, and then ends or reads a field. -/
theorem tagRound_split (hV : V.Local) {s : σ} {bs : List UInt8}
    (h : (Reader.round (tagRound V field) s (.ofBytes bs)).2.err = none) :
    ∃ tag taken rest, bs = taken ++ rest ∧ Tagged V tag taken ∧
      (tag.type ≠ .endTag → Reader.round (tagRound V field) s (.ofBytes bs) =
        Reader.round (field tag) s (.ofBytes rest)) := by
  have herr : (readTag V (.ofBytes bs)).2.err = none := by
    by_contra herr
    simp only [Reader.round, tagRound, Option.isSome_iff_ne_none.mpr herr, if_true] at h
    exact herr h
  obtain ⟨taken, tag, rest, rfl, htag⟩ := readTag_local hV bs herr
  refine ⟨tag, taken, rest, rfl, htag, fun htype => ?_⟩
  simp [Reader.round, tagRound, htag rest, htype]

theorem tagRound_local (hV : V.Local)
    (hfield : ∀ tag s, Reader.Local (Reader.round (field tag) s)) (s : σ) :
    Reader.Local (Reader.round (tagRound V field) s) := by
  intro bs h
  obtain ⟨tag, taken, rest, rfl, htag, hround⟩ := tagRound_split hV h
  by_cases htype : tag.type = .endTag
  · exact ⟨taken, _, rest, rfl, htag.endTag htype s⟩
  · rw [hround htype] at h
    obtain ⟨taken', ⟨again, s'⟩, rest', rfl, htakes⟩ := hfield tag s rest h
    exact ⟨taken ++ taken', _, rest', (List.append_assoc ..).symm, htag.round htype htakes⟩

end Loops

/-! ## Scalars -/

theorem unmarshalBytes_local (hV : V.Local) (capacity : Nat) :
    Reader.Local (unmarshalBytes V capacity) := by
  refine Reader.Local.bind (f := fun inp => inp.read V.readUnsigned Err.baselib)
    (g := fun n inp =>
      if inp.err.isSome then (RawBytes.mk n [] none, inp)
      else if n > capacity then (RawBytes.mk 0 [] none, inp.report (.text "data too big"))
      else (RawBytes.mk n (inp.read (Read.full n.toNat) .baselib).1 (some n),
        (inp.read (Read.full n.toNat) .baselib).2))
    (.read hV.unsigned _) (fun n => .checked _ ?_) fun n => .checked _ _
  by_cases hn : n > capacity
  · simp only [hn, if_true]
    exact .report _ _
  · simp only [hn, if_false]
    exact (Reader.Local.read (Read.full_local _) Err.baselib).map fun data =>
      RawBytes.mk n data (some n)

theorem unmarshalBool_local : Reader.Local unmarshalBool := by
  refine Reader.Local.bind (f := fun inp => inp.read Read.byte Err.baselib)
    (g := fun b inp =>
      if inp.err.isSome then (false, inp)
      else if b ≠ 0 ∧ b ≠ 1 then
        (false, inp.report (.text ("serialrpc: invalid bool value " ++ toString b.toNat)))
      else (b ≠ 0, inp))
    (.read Read.byte_local _) (fun b => .checked _ ?_) fun b => .checked _ _
  by_cases hb : b ≠ 0 ∧ b ≠ 1
  · simp only [hb, ne_eq, not_false_eq_true, and_self, if_true]
    exact .report _ _
  · simp only [hb, if_false]
    exact .pure _

theorem full_value_local {α : Type} (n : Nat) (zero : α) (value : List UInt8 → α) :
    Reader.Local (fun inp : In =>
      let bytes := inp.read (Read.full n) .baselib
      if bytes.2.err.isSome then (zero, bytes.2) else (value bytes.1, bytes.2)) :=
  Reader.Local.bind (f := fun inp : In => inp.read (Read.full n) .baselib)
    (g := fun bytes inp => if inp.err.isSome then (zero, inp) else (value bytes, inp))
    (.read (Read.full_local n) _) (fun bytes => .checked _ (.pure (value bytes)))
    fun _ => .checked _ _

/-- Every overload of `unmarshal` for scalars takes what it reads. -/
theorem StorageType.unmarshal_local (hV : V.Local) (s : StorageType) :
    Reader.Local (s.unmarshal V) := by
  cases s with
  | int32 => exact .read hV.sint32 _
  | int64 => exact .read hV.sint64 _
  | uint32 => exact .read hV.uint32 _
  | uint64 => exact .read hV.uint64 _
  | bool => exact unmarshalBool_local
  | float32 => exact full_value_local 4 0 fun bytes => UInt32.ofNat (LittleEndian.value bytes)
  | float64 => exact full_value_local 8 0 fun bytes => UInt64.ofNat (LittleEndian.value bytes)
  | inlineString capacity =>
    exact (unmarshalBytes_local hV capacity).map (RawBytes.toInlineString capacity)

/-! ## `skip` -/

/-- `skip`, as a reader. -/
def skipping (after : In → In) (inp : In) : Unit × In := ((), after inp)

theorem skipPayload_local (hV : V.Local) {group : In → In}
    (hgroup : Reader.Local (skipping group)) (type : WireType) :
    Reader.Local (skipping (skipPayload V group type)) := by
  cases type with
  | varInt => exact .read hV.skip _
  | i64 => exact .read (Read.discard_local 8) _
  | len =>
    refine Reader.Local.bind (f := fun inp => inp.read V.readUint32 Err.baselib)
      (g := fun n inp =>
        if inp.err.isSome then ((), inp) else inp.read (Read.discard n.toNat) .baselib)
      (.read hV.uint32 _) (fun n => .checked _ (.read (Read.discard_local _) _))
      (fun n => .checked _ _) |> fun h => ?_
    convert h using 2 with inp
    simp only [skipping, skipPayload]
    split <;> rfl
  | start => exact hgroup
  | endTag => exact .pure ()
  | i32 => exact .read (Read.discard_local 4) _
  | unnamed6 => exact .report () _
  | unnamed7 => exact .report () _

/-- A round that skips a payload says whether there was an error. -/
theorem skipPayload_round {payload : WireType → In → In} {tag : Tag}
    (h : Reader.Local (skipping (payload tag.type))) (s : Unit) :
    Reader.Local (Reader.round (fun _ inp =>
      let after := payload tag.type inp
      (⟨after.err.isNone, (), after⟩ : Round Unit Err)) s) := by
  intro bs herr
  obtain ⟨taken, a, rest, hbs, htakes⟩ := h bs herr
  refine ⟨taken, (true, ()), rest, hbs, fun rest => ?_⟩
  have hafter : payload tag.type (.ofBytes (taken ++ rest)) = .ofBytes rest :=
    congrArg Prod.snd (htakes rest)
  simp [Reader.round, hafter]

theorem skipGroup_local (hV : V.Local) :
    ∀ level, Reader.Local (skipping (skipGroup V level))
  | 0 => .report () _
  | level + 1 =>
    (Reader.Local.loop
      (tagRound_productive fun tag _ inp =>
        skipPayload_suffix (skipGroup_suffix level) tag.type inp)
      tagRound_sticky
      (tagRound_local hV fun tag => skipPayload_round
        (skipPayload_local hV (skipGroup_local hV level) tag.type))
      ()).map id

theorem skip_local (hV : V.Local) (type : WireType) (nesting : Int) :
    Reader.Local (skipping (skip V type nesting)) :=
  skipPayload_local hV (skipGroup_local hV _) type

end SerialRpc
