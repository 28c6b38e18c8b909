import SerialRpc.Lib.ReaderLoop
import SerialRpc.Encoding.Varint

/-!
# Tags (encoding.cc, encoding_impl.cc)

A field on the wire is a tag and a payload. The tag is a varuint32 holding the
field number and the wire type, `(field_number << 3) | type`; it is computed and
taken apart in 32-bit signed arithmetic, with C++20's wrapping `<<` and
arithmetic `>>`.

`read_tag` undoes `write_tag` for field numbers below `2 ^ 28`
(`readTag_writeTag`): from there on the shifted number reaches the sign bit.
-/

namespace SerialRpc

open ByteStream

/-- The errors the runtime reports while it reads: a text of its own, one of the
client's handshake errors (client.cc:633-676), formatted from the versions it names, or
whatever baselib reports for a read that failed. -/
inductive Err where
  | baselib
  | text (msg : String)
  | protocolVersionMismatch (server client : UInt32)
  | majorVersionMismatch (server client : Int32)
  | minorVersionTooLow (server client : Int32)
deriving DecidableEq

/-- A reader that reports the runtime's errors (`io::Reader &in, error err`). -/
abbrev In := Reader Err

/-- `MaxNesting` (encoding.cc:36). -/
def MaxNesting : Nat := 128

/-- The wire types, `Tag::Type` (encoding.cc:20-27). A tag has three bits for it,
and the enumeration's `byte` can hold the two values it does not name. -/
inductive WireType where
  | varInt
  | i64
  | len
  | start
  | endTag
  | i32
  | unnamed6
  | unnamed7
deriving DecidableEq, Repr

/-- The enumerator's number. -/
def WireType.toUInt8 : WireType → UInt8
  | .varInt => 0
  | .i64 => 1
  | .len => 2
  | .start => 3
  | .endTag => 4
  | .i32 => 5
  | .unnamed6 => 6
  | .unnamed7 => 7

/-- `Tag::Type(n)` for a three-bit `n`. -/
def WireType.ofBits (n : BitVec 32) : WireType :=
  match n.toNat with
  | 0 => .varInt
  | 1 => .i64
  | 2 => .len
  | 3 => .start
  | 4 => .endTag
  | 5 => .i32
  | 6 => .unnamed6
  | _ => .unnamed7

/-- `struct Tag` (encoding.cc:19-31). -/
structure Tag where
  type : WireType := .varInt
  fieldNum : BitVec 32 := 0
deriving DecidableEq

/-- The value `write_tag` writes: `(field_number << 3) | uint8(type)`
(encoding_impl.cc:26-29). -/
def tagValue (fieldNumber : BitVec 32) (type : WireType) : UInt32 :=
  ⟨(fieldNumber <<< 3) ||| type.toUInt8.toUInt32.toBitVec⟩

/-- The bytes `write_tag` writes. -/
def tagBytes (V : Varint) (fieldNumber : BitVec 32) (type : WireType) : List UInt8 :=
  V.writeUint32 (tagValue fieldNumber type)

/-- The tag held by a varuint32: `Type(n & 7)` and `n >> 3`, with `n` an `int32`
(encoding_impl.cc:21-23). -/
def Tag.ofValue (n : UInt32) : Tag :=
  ⟨.ofBits (n.toBitVec &&& 7#32), n.toBitVec.sshiftRight 3⟩

/-- `read_tag` (encoding_impl.cc:15-24). -/
def readTag (V : Varint) (inp : In) : Tag × In :=
  let n := inp.read V.readUint32 .baselib
  if n.2.err.isSome then ({}, n.2) else (.ofValue n.1, n.2)

/-- The `End` tag of a message: a single byte written with `write_byte`. -/
def endByte : UInt8 := WireType.endTag.toUInt8

theorem WireType.ofBits_toUInt8 (type : WireType) :
    WireType.ofBits type.toUInt8.toUInt32.toBitVec = type := by
  cases type <;> rfl

theorem WireType.toUInt8_lt (type : WireType) : type.toUInt8.toUInt32.toBitVec.toNat < 8 := by
  cases type <;> decide

/-- A number and a type do not overlap in a tag. -/
theorem tagValue_toNat {x t : BitVec 32} (hx : x.toNat < 2 ^ 29) (ht : t.toNat < 8) :
    ((x <<< 3) ||| t).toNat = x.toNat * 8 + t.toNat := by
  have hadd := Nat.shiftLeft_add_eq_or_of_lt (i := 3) (b := t.toNat) ht x.toNat
  rw [Nat.shiftLeft_eq] at hadd
  rw [BitVec.toNat_or, BitVec.toNat_shiftLeft, Nat.shiftLeft_eq, Nat.mod_eq_of_lt (by omega)]
  omega

/-- The arithmetic of a tag whose number stays clear of the sign bit: the
shifted number and the type are added, and come apart again. -/
theorem tagValue_parts {x t : BitVec 32} (hx : x.toNat < 2 ^ 28) (ht : t.toNat < 8) :
    ((x <<< 3) ||| t).sshiftRight 3 = x ∧ ((x <<< 3) ||| t) &&& 7#32 = t := by
  have hsum := tagValue_toNat (x := x) (by omega) ht
  constructor
  · have hmsb : ((x <<< 3) ||| t).msb = false := by
      rw [BitVec.msb_eq_decide, hsum]
      simp
      omega
    rw [BitVec.sshiftRight_eq_of_msb_false hmsb]
    apply BitVec.eq_of_toNat_eq
    rw [BitVec.toNat_ushiftRight, hsum, Nat.shiftRight_eq_div_pow]
    omega
  · apply BitVec.eq_of_toNat_eq
    have hmod := Nat.and_two_pow_sub_one_eq_mod (x.toNat * 8 + t.toNat) 3
    rw [BitVec.toNat_and, hsum]
    show (x.toNat * 8 + t.toNat) &&& 2 ^ 3 - 1 = t.toNat
    rw [hmod]
    omega

/-- The tag is recovered from its value, below field number `2 ^ 28`. -/
theorem Tag.ofValue_tagValue {fieldNumber : BitVec 32} (hn : fieldNumber.toNat < 2 ^ 28)
    (type : WireType) : Tag.ofValue (tagValue fieldNumber type) = ⟨type, fieldNumber⟩ := by
  obtain ⟨hnum, htype⟩ := tagValue_parts hn type.toUInt8_lt
  simp only [Tag.ofValue, tagValue, hnum, htype, WireType.ofBits_toUInt8]

/-- `read_tag` takes apart the value that `write_tag` wrote. -/
theorem readTag_tagBytes {V : Varint} (huint32 : ∀ v, V.readUint32.Reads (V.writeUint32 v) v)
    (fieldNumber : BitVec 32) (type : WireType) (rest : List UInt8) :
    readTag V (.ofBytes (tagBytes V fieldNumber type ++ rest)) =
      (.ofValue (tagValue fieldNumber type), .ofBytes rest) := by
  have hread := Reader.read_ofBytes (huint32 (tagValue fieldNumber type)) Err.baselib rest
  simp [readTag, tagBytes, hread]

/-- `read_tag` reads what `write_tag` wrote, below field number `2 ^ 28`. -/
theorem readTag_writeTag {V : Varint} (hV : V.Lawful) {fieldNumber : BitVec 32}
    (hn : fieldNumber.toNat < 2 ^ 28) (type : WireType) (rest : List UInt8) :
    readTag V (.ofBytes (tagBytes V fieldNumber type ++ rest)) =
      (⟨type, fieldNumber⟩, .ofBytes rest) := by
  rw [readTag_tagBytes hV.uint32, Tag.ofValue_tagValue hn]

/-- `read_tag` on the byte that ends a message. -/
theorem readTag_endByte {V : Varint} (hV : V.Lawful) (rest : List UInt8) :
    readTag V (.ofBytes (endByte :: rest)) = (⟨.endTag, 0⟩, .ofBytes rest) := by
  have hread := Reader.read_ofBytes (hV.byte (b := endByte) (by decide)) Err.baselib rest
  rw [List.singleton_append] at hread
  have htag : Tag.ofValue endByte.toUInt32 = ⟨.endTag, 0⟩ := by decide
  simp [readTag, hread, htag]

/-- `read_tag` touches the stream by one varint read, failed or not. -/
theorem readTag_snd (V : Varint) (inp : In) :
    (readTag V inp).2 = (inp.read V.readUint32 .baselib).2 := by
  simp only [readTag]
  split <;> rfl

/-- A `uint32` that was read took at least one byte. -/
theorem readUint32_shortens {V : Varint} {inp : In}
    (h : (inp.read V.readUint32 .baselib).2.err = none) :
    (inp.read V.readUint32 .baselib).2.unread.length < inp.unread.length := by
  apply V.readUint32_consumes
  by_contra hfail
  rw [Bool.not_eq_false] at hfail
  simp [Reader.read, hfail] at h

/-- A tag that was read took at least one byte. -/
theorem readTag_consumes {V : Varint} {inp : In} (h : (readTag V inp).2.err = none) :
    (readTag V inp).2.unread.length < inp.unread.length := by
  rw [readTag_snd] at h ⊢
  exact readUint32_shortens h

theorem readTag_suffix (V : Varint) (inp : In) : (readTag V inp).2.unread <:+ inp.unread := by
  rw [readTag_snd]
  exact Reader.read_unread_suffix _ _ inp

/-! ## Loops over tags

Every loop of the runtime over the fields of a message opens its rounds the same way:
read a tag, leave on an error, leave on an `End`.
-/

section Loops

variable {σ : Type} (V : Varint)

/-- A round of a loop over tags, with what it does with a field as a parameter. -/
def tagRound (field : Tag → Body σ Err) : Body σ Err := fun s inp =>
  let tag := readTag V inp
  if tag.2.err.isSome then ⟨false, s, tag.2⟩
  else if tag.1.type = .endTag then ⟨false, s, tag.2⟩
  else field tag.1 s tag.2

variable {V} {field : Tag → Body σ Err}

theorem tagRound_consuming (h : ∀ tag, Consuming (field tag)) :
    Consuming (tagRound V field) := by
  intro s inp
  have htag := readTag_suffix V inp
  unfold tagRound
  dsimp only
  split
  · exact htag
  · split
    · exact htag
    · exact (h _ s _).trans htag

/-- A round that goes on has read a tag, hence at least a byte. -/
theorem tagRound_productive (h : ∀ tag, Consuming (field tag)) :
    Productive (tagRound V field) := by
  intro s inp hagain
  simp only [tagRound] at hagain ⊢
  split at hagain
  · cases hagain
  · rename_i herr
    split at hagain
    · cases hagain
    · rename_i hend
      simp only [herr, hend, if_false]
      exact Nat.lt_of_le_of_lt (h _ s _).length_le (readTag_consumes (by simpa using herr))

/-- A loop over tags as the source writes it. -/
theorem tagLoop_eq (hproductive : Productive (tagRound V field)) (s : σ) (inp : In) :
    Reader.loop (tagRound V field) s inp =
      if (readTag V inp).2.err ≠ none ∨ (readTag V inp).1.type = .endTag then
        (s, (readTag V inp).2)
      else
        let next := field (readTag V inp).1 s (readTag V inp).2
        if next.again then Reader.loop (tagRound V field) next.state next.reader
        else (next.state, next.reader) := by
  rw [Reader.loop_eq hproductive]
  cases herr : (readTag V inp).2.err with
  | some e => simp [tagRound, herr]
  | none =>
    by_cases htype : (readTag V inp).1.type = .endTag
    · simp [tagRound, herr, htype]
    · simp [tagRound, herr, htype]

/-- A field that was written opens a round with its payload. -/
theorem tagRound_writeTag (hV : V.Lawful) {fieldNumber : BitVec 32}
    (hn : fieldNumber.toNat < 2 ^ 28) {type : WireType} (htype : type ≠ .endTag) (s : σ)
    (rest : List UInt8) :
    tagRound V field s (.ofBytes (tagBytes V fieldNumber type ++ rest)) =
      field ⟨type, fieldNumber⟩ s (.ofBytes rest) := by
  simp [tagRound, readTag_writeTag hV hn, htype]

/-- The byte that ends a message ends the loop. -/
theorem tagRound_endByte (hV : V.Lawful) (s : σ) (rest : List UInt8) :
    tagRound V field s (.ofBytes (endByte :: rest)) = ⟨false, s, .ofBytes rest⟩ := by
  simp [tagRound, readTag_endByte hV]

/-- The loop leaves at the byte that ends a message. -/
theorem tagLoop_endByte (hV : V.Lawful) (h : ∀ tag, Consuming (field tag)) (s : σ)
    (rest : List UInt8) :
    Reader.loop (tagRound V field) s (.ofBytes (endByte :: rest)) = (s, .ofBytes rest) := by
  simp [Reader.loop_eq (tagRound_productive h), tagRound_endByte hV]

/-- The loop goes on behind a field whose round does. -/
theorem tagLoop_writeTag (hV : V.Lawful) (h : ∀ tag, Consuming (field tag))
    {fieldNumber : BitVec 32} (hn : fieldNumber.toNat < 2 ^ 28) {type : WireType}
    (htype : type ≠ .endTag) {s s' : σ} {payload rest : List UInt8}
    (hfield : field ⟨type, fieldNumber⟩ s (.ofBytes (payload ++ rest)) =
      ⟨true, s', .ofBytes rest⟩) :
    Reader.loop (tagRound V field) s
        (.ofBytes (tagBytes V fieldNumber type ++ (payload ++ rest))) =
      Reader.loop (tagRound V field) s' (.ofBytes rest) := by
  rw [Reader.loop_eq (tagRound_productive h), tagRound_writeTag hV hn htype, hfield]
  rfl

end Loops

end SerialRpc
