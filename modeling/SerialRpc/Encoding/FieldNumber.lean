import Mathlib.Data.BitVec
import SerialRpc.Encoding.UnknownFields

/-!
# Field numbers beyond 2^28 (encoding_impl.cc:15-29)

Protobuf's field numbers end at `2 ^ 29 - 1`. `write_tag` shifts a number to the left in
32 bits without a loss, and `read_tag` shifts it back as an `int32`: a number from
`2 ^ 28` on has reached the sign bit, and comes back negative.

- `Tag.ofValue_msb`: what comes back of such a number has the sign bit.
- `tag_round_trip_iff`: the tags that round trip are those below `2 ^ 28`.
-/

namespace SerialRpc

open ByteStream

/-- A number from `2 ^ 28` on comes back with the sign bit. -/
theorem Tag.ofValue_msb {fieldNumber : BitVec 32} (hlow : 2 ^ 28 ≤ fieldNumber.toNat)
    (hhigh : fieldNumber.toNat < 2 ^ 29) (type : WireType) :
    (Tag.ofValue (tagValue fieldNumber type)).fieldNum.msb = true := by
  have hsum := tagValue_toNat hhigh type.toUInt8_lt
  show ((fieldNumber <<< 3 ||| type.toUInt8.toUInt32.toBitVec).sshiftRight 3).msb = true
  rw [BitVec.msb_sshiftRight, BitVec.msb_eq_decide, hsum]
  simp
  omega

section Switch

variable {V : Varint} (huint32 : ∀ v, V.readUint32.Reads (V.writeUint32 v) v)
include huint32

/-- A tag within protobuf's range comes back, and selects the case of its field, if and
only if its number is below `2 ^ 28`. -/
theorem tag_round_trip_iff {fieldNumber : BitVec 32} (hn : fieldNumber.toNat < 2 ^ 29)
    (type : WireType) :
    (∀ rest, readTag V (.ofBytes (tagBytes V fieldNumber type ++ rest)) =
        (⟨type, fieldNumber⟩, .ofBytes rest) ∧
      ∀ (T : MessageType) (nesting : Int) (msg : T.Val),
        T.switch V nesting
            (readTag V (.ofBytes (tagBytes V fieldNumber type ++ rest))).1.fieldNum msg
            (.ofBytes rest) =
          T.switch V nesting fieldNumber msg (.ofBytes rest)) ↔
      fieldNumber.toNat < 2 ^ 28 := by
  constructor
  · intro h
    by_contra hlow
    have hmsb := Tag.ofValue_msb (Nat.not_lt.mp hlow) hn type
    obtain ⟨hread, -⟩ := h []
    rw [readTag_tagBytes huint32] at hread
    have hnumber : (Tag.ofValue (tagValue fieldNumber type)).fieldNum = fieldNumber :=
      congrArg (fun tag => tag.1.fieldNum) hread
    rw [hnumber, BitVec.msb_eq_decide, decide_eq_true_iff] at hmsb
    omega
  · intro hlow rest
    have hread : readTag V (.ofBytes (tagBytes V fieldNumber type ++ rest)) =
        (⟨type, fieldNumber⟩, .ofBytes rest) := by
      rw [readTag_tagBytes huint32, Tag.ofValue_tagValue hlow]
    refine ⟨hread, fun T nesting msg => ?_⟩
    rw [hread]

end Switch

/-- The greatest number that comes back. -/
theorem tag_round_trip_greatest :
    (∀ rest, readTag .leb128 (.ofBytes (tagBytes .leb128 (2 ^ 28 - 1) .varInt ++ rest)) =
        (⟨.varInt, 2 ^ 28 - 1⟩, .ofBytes rest) ∧
      ∀ (T : MessageType) (nesting : Int) (msg : T.Val),
        T.switch .leb128 nesting
            (readTag .leb128 (.ofBytes (tagBytes .leb128 (2 ^ 28 - 1) .varInt ++ rest))).1.fieldNum
            msg (.ofBytes rest) =
          T.switch .leb128 nesting (2 ^ 28 - 1) msg (.ofBytes rest)) ↔
      (2 ^ 28 - 1 : BitVec 32).toNat < 2 ^ 28 :=
  tag_round_trip_iff Varint.leb128_lawful.uint32 (by decide) .varInt

/-- The next one comes back negative, and its field is lost. -/
theorem tag_sign_lost :
    readTag .leb128 (.ofBytes (tagBytes .leb128 (2 ^ 28) .varInt)) =
        (⟨.varInt, -(2 ^ 28)⟩, .ofBytes []) ∧
      readTag .leb128 (.ofBytes (tagBytes .leb128 (2 ^ 28) .varInt)) ≠
        (⟨.varInt, 2 ^ 28⟩, .ofBytes []) ∧
      unmarshal .leb128 (.field (2 ^ 28) (.scalar .uint32) .empty)
          (.ofBytes (tagBytes .leb128 (2 ^ 28) .varInt ++ [7, endByte])) =
        ((0, ()), .ofBytes []) := by
  have hread : readTag .leb128 (.ofBytes (tagBytes .leb128 (2 ^ 28) .varInt)) =
      (⟨.varInt, -(2 ^ 28)⟩, .ofBytes []) := rfl
  refine ⟨hread, fun heq => ?_, rfl⟩
  have hnumber : (-(2 ^ 28) : BitVec 32) = 2 ^ 28 :=
    congrArg (fun tag => tag.1.fieldNum) (hread.symm.trans heq)
  exact absurd hnumber (by decide)

end SerialRpc
