import SerialRpc.Encoding.Unmarshal

/-!
# Strings in their buffers (encoding.cc:153-158, encoding_impl.cc:391-404)

`unmarshal_bytes` slices the buffer it was given with a length from the stream, and an
`InlineString` keeps the length that is returned. The length is of a signed type, it is
compared with the capacity from above only, and it is also returned when the varint failed.

- `RawBytes.StaysWithin`: the slice and the length stay within the buffer.
- `unmarshalBytes_staysWithin_iff`: exactly when they do.
-/

namespace SerialRpc

open ByteStream

variable {V : Varint} {capacity : Nat} {inp : In}

/-- The buffer is sliced inside its bounds, if it is sliced, and the `InlineString` that
keeps the length has room for that many bytes. -/
structure RawBytes.StaysWithin (capacity : Nat) (raw : RawBytes) : Prop where
  sliceEnd : ∀ n ∈ raw.sliceEnd, 0 ≤ n ∧ n ≤ capacity
  length : 0 ≤ raw.length ∧ raw.length ≤ capacity

/-- The length could not be read: it is returned as it is. -/
theorem unmarshalBytes_of_err (h : (inp.read V.readUnsigned .baselib).2.err.isSome) :
    (unmarshalBytes V capacity inp).1 = ⟨(inp.read V.readUnsigned .baselib).1, [], none⟩ := by
  rw [unmarshalBytes]
  simp only [h, if_true]

/-- The length is too big: it is replaced by 0. -/
theorem unmarshalBytes_of_lt (h : (inp.read V.readUnsigned .baselib).2.err.isSome = false)
    (hbig : (capacity : Int) < (inp.read V.readUnsigned .baselib).1) :
    (unmarshalBytes V capacity inp).1 = ⟨0, [], none⟩ := by
  rw [unmarshalBytes]
  simp [h, hbig]

/-- The length is not too big: the buffer is sliced with it. -/
theorem unmarshalBytes_of_le (h : (inp.read V.readUnsigned .baselib).2.err.isSome = false)
    (hle : (inp.read V.readUnsigned .baselib).1 ≤ capacity) :
    (unmarshalBytes V capacity inp).1.sliceEnd = some (inp.read V.readUnsigned .baselib).1 ∧
      (unmarshalBytes V capacity inp).1.length = (inp.read V.readUnsigned .baselib).1 := by
  rw [unmarshalBytes]
  simp [h, not_lt.mpr hle]

/-- The buffer is respected exactly when the length from the stream is not negative, and
not too big either when it came with an error. -/
theorem unmarshalBytes_staysWithin_iff (V : Varint) (capacity : Nat) (inp : In) :
    (unmarshalBytes V capacity inp).1.StaysWithin capacity ↔
      0 ≤ (inp.read V.readUnsigned .baselib).1 ∧
      ((inp.read V.readUnsigned .baselib).2.err.isSome →
        (inp.read V.readUnsigned .baselib).1 ≤ capacity) := by
  cases herr : (inp.read V.readUnsigned .baselib).2.err.isSome with
  | true =>
    rw [unmarshalBytes_of_err herr]
    constructor
    · rintro ⟨-, hlength⟩
      exact ⟨hlength.1, fun _ => hlength.2⟩
    · rintro ⟨hnonneg, hle⟩
      exact ⟨by simp, hnonneg, hle rfl⟩
  | false =>
    rcases lt_or_ge (capacity : Int) (inp.read V.readUnsigned .baselib).1 with hbig | hle
    · -- The one check there is: `data too big`.
      rw [unmarshalBytes_of_lt herr hbig]
      have hzero : RawBytes.StaysWithin capacity ⟨0, [], none⟩ := ⟨by simp, by simp⟩
      exact iff_of_true hzero ⟨(Int.natCast_nonneg capacity).trans hbig.le, by simp⟩
    · obtain ⟨hslice, hlength⟩ := unmarshalBytes_of_le herr hle
      constructor
      · rintro ⟨-, h⟩
        rw [hlength] at h
        exact ⟨h.1, by simp⟩
      · rintro ⟨hnonneg, -⟩
        refine ⟨fun n hn => ?_, ?_⟩
        · rw [hslice, Option.mem_some_iff] at hn
          exact hn ▸ ⟨hnonneg, hle⟩
        · rw [hlength]
          exact ⟨hnonneg, hle⟩

/-- A length of 2^64 - 1 slices the buffer with the end -1 and is kept as the length of the
string; a length cut off in its first byte is kept although the string has no room for it. -/
theorem unmarshalBytes_out_of_bounds :
    (unmarshalBytes Varint.leb128Signed 16
        (.ofBytes [255, 255, 255, 255, 255, 255, 255, 255, 255, 1])).1.sliceEnd = some (-1) ∧
      ¬ (unmarshalBytes Varint.leb128Signed 16
        (.ofBytes [255, 255, 255, 255, 255, 255, 255, 255, 255, 1])).1.StaysWithin 16 ∧
      ¬ (unmarshalBytes Varint.leb128Signed 16 (.ofBytes [255])).1.StaysWithin 16 := by
  refine ⟨by decide +kernel, fun h => ?_, fun h => ?_⟩
  · have hneg : (unmarshalBytes Varint.leb128Signed 16
        (.ofBytes [255, 255, 255, 255, 255, 255, 255, 255, 255, 1])).1.length = -1 := by
      decide +kernel
    exact absurd (hneg ▸ h.length.1) (by decide)
  · have hbig : (unmarshalBytes Varint.leb128Signed 16 (.ofBytes [255])).1.length = 127 := by
      decide +kernel
    exact absurd (hbig ▸ h.length.2) (by decide)

end SerialRpc
