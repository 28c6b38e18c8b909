import SerialRpc.Lib.Local
import Mathlib.Data.Int.Basic
import Mathlib.Tactic.Ring

/-!
# LEB128 and ZigZag

The little-endian base-128 form of a natural number, seven bits a byte, the high
bit of a byte telling whether another one follows; and the ZigZag numbering of
the integers (`0, -1, 1, -2, 2, …`), which makes small negative numbers short.

- `encode` / `decode`: the writer and the reader; `decode` is a `ByteStream.Read`
  and undoes `encode` with any bytes behind (`decode_reads`).
- `Terminated`: the bytes of one number; whatever is read is such bytes.
- `zigzag` / `unzigzag`: inverse of one another on the integers.
-/

namespace Leb128

open ByteStream

/-- The bytes of `n`, given at least as many steps as it has groups. -/
def encodeWith : Nat → Nat → List UInt8
  | 0, _ => []
  | fuel + 1, n =>
    if n < 128 then [UInt8.ofNat n]
    else UInt8.ofNat (n % 128 + 128) :: encodeWith fuel (n / 128)

/-- LEB128 of a natural number. -/
def encode (n : Nat) : List UInt8 := encodeWith (n + 1) n

/-- Read groups until one without the continuation bit. -/
def decodeRun : List UInt8 → ReadResult Nat
  | [] => ⟨0, [], true⟩
  | b :: bs =>
    if b.toNat < 128 then ⟨b.toNat, bs, false⟩
    else ⟨b.toNat - 128 + 128 * (decodeRun bs).value, (decodeRun bs).rest, (decodeRun bs).failed⟩

theorem decodeRun_suffix (bs : List UInt8) : (decodeRun bs).rest <:+ bs := by
  induction bs with
  | nil => exact List.suffix_refl []
  | cons b bs ih =>
    rw [decodeRun]
    split
    · exact List.suffix_cons b bs
    · exact ih.trans (List.suffix_cons b bs)

/-- The LEB128 reader. -/
def decode : Read Nat := ⟨decodeRun, decodeRun_suffix⟩

/-- A number is decoded from its groups. -/
theorem decodeRun_encodeWith (rest : List UInt8) :
    ∀ {fuel n : Nat}, n < fuel → decodeRun (encodeWith fuel n ++ rest) = ⟨n, rest, false⟩
  | 0, _, h => absurd h (Nat.not_lt_zero _)
  | fuel + 1, n, h => by
    rw [encodeWith]
    by_cases hn : n < 128
    · have hb : (UInt8.ofNat n).toNat = n := by
        simp only [UInt8.toNat_ofNat']
        omega
      simp [hn, decodeRun, hb]
    · have hb : (UInt8.ofNat (n % 128 + 128)).toNat = n % 128 + 128 := by
        simp only [UInt8.toNat_ofNat']
        omega
      have ih : decodeRun (encodeWith fuel (n / 128) ++ rest) = ⟨n / 128, rest, false⟩ :=
        decodeRun_encodeWith rest (by omega)
      have hbig : ¬ n % 128 + 128 < 128 := by omega
      have hn' : n % 128 + 128 - 128 + 128 * (n / 128) = n := by omega
      simp only [hn, if_false, List.cons_append, decodeRun, hb, ih, hbig, hn']

/-- Reading undoes writing, whatever follows. -/
theorem decode_reads (n : Nat) : decode.Reads (encode n) n :=
  fun rest => decodeRun_encodeWith rest (Nat.lt_succ_self n)

/-- A number below 128 is its own single byte. -/
theorem encode_small {n : Nat} (h : n < 128) : encode n = [UInt8.ofNat n] := by
  simp [encode, encodeWith, h]

/-- A successful read uses at least one byte. -/
theorem decodeRun_consumes :
    ∀ bs, (decodeRun bs).failed = false → (decodeRun bs).rest.length < bs.length
  | [], h => by simp [decodeRun] at h
  | b :: bs, h => by
    rw [decodeRun] at h ⊢
    split
    · exact Nat.lt_succ_self bs.length
    · rename_i hb
      rw [if_neg hb] at h
      exact Nat.lt_succ_of_lt (decodeRun_consumes bs h)

/-- Read a natural number and convert it. -/
def decodeAs {α : Type} (f : Nat → α) : Read α where
  run bs := ⟨f (decodeRun bs).value, (decodeRun bs).rest, (decodeRun bs).failed⟩
  rest_suffix := decodeRun_suffix

/-- What was encoded is read back. -/
theorem decodeAs_reads {α : Type} {f : Nat → α} {n : Nat} {v : α} (h : f n = v) :
    (decodeAs f).Reads (encode n) v := by
  intro rest
  have hd : decodeRun (encode n ++ rest) = ⟨n, rest, false⟩ := decode_reads n rest
  simp [decodeAs, hd, h]

/-- A number that was read is read off its groups alone. -/
theorem decodeRun_local :
    ∀ bs, (decodeRun bs).failed = false → ∃ taken, bs = taken ++ (decodeRun bs).rest ∧
      ∀ rest, decodeRun (taken ++ rest) = ⟨(decodeRun bs).value, rest, false⟩
  | [], h => by simp [decodeRun] at h
  | b :: bs, h => by
    rw [decodeRun] at h ⊢
    split
    · rename_i hb
      exact ⟨[b], rfl, fun rest => by simp [decodeRun, hb]⟩
    · rename_i hb
      rw [if_neg hb] at h
      obtain ⟨taken, hbs, hreads⟩ := decodeRun_local bs h
      refine ⟨b :: taken, congrArg (b :: ·) hbs, fun rest => ?_⟩
      rw [List.cons_append, decodeRun, if_neg hb]
      simp only [hreads rest]

theorem decodeAs_local {α : Type} (f : Nat → α) : (decodeAs f).Local := by
  intro bs h
  obtain ⟨taken, hbs, hreads⟩ := decodeRun_local bs h
  exact ⟨taken, hbs, fun rest => by simp [decodeAs, hreads rest]⟩

/-- What one conversion reads, every other one reads. -/
theorem decodeAs_reads_of {α β : Type} {f : Nat → α} {taken : List UInt8} {v : α}
    (h : (decodeAs f).Reads taken v) (g : Nat → β) : ∃ u, (decodeAs g).Reads taken u := by
  have hfailed : (decodeRun taken).failed = false := by
    have := h []
    rw [List.append_nil] at this
    exact congrArg ReadResult.failed this
  obtain ⟨taken', hbs, hreads⟩ := decodeRun_local taken hfailed
  have hrest : (decodeRun taken).rest = [] := by
    have := h []
    rw [List.append_nil] at this
    exact congrArg ReadResult.rest this
  rw [hrest, List.append_nil] at hbs
  subst hbs
  exact ⟨_, fun rest => by simp [decodeAs, hreads rest]; rfl⟩

/-- The bytes of one number: groups with the continuation bit, and one without. -/
inductive Terminated : List UInt8 → Prop where
  | last {b : UInt8} (hb : b.toNat < 128) : Terminated [b]
  | more {b : UInt8} {bs : List UInt8} (hb : ¬ b.toNat < 128) (hbs : Terminated bs) :
      Terminated (b :: bs)

/-- Bytes whose last one alone has no continuation bit are a varint. -/
theorem Terminated.decodeRun {bs : List UInt8} (h : Terminated bs) (rest : List UInt8) :
    ∃ n, decodeRun (bs ++ rest) = ⟨n, rest, false⟩ := by
  induction h with
  | @last b hb => exact ⟨b.toNat, by simp [Leb128.decodeRun, hb]⟩
  | @more b bs hb _ ih =>
    obtain ⟨n, hn⟩ := ih
    exact ⟨b.toNat - 128 + 128 * n, by simp only [List.cons_append, Leb128.decodeRun, hb,
      if_false, hn]⟩

/-- What is decoded ends with the first byte that has no continuation bit. -/
theorem Terminated.of_decodeRun :
    ∀ bs, (Leb128.decodeRun bs).failed = false →
      ∃ taken, Terminated taken ∧ bs = taken ++ (Leb128.decodeRun bs).rest
  | [], h => by simp [Leb128.decodeRun] at h
  | b :: bs, h => by
    rw [Leb128.decodeRun] at h ⊢
    split
    · rename_i hb
      exact ⟨[b], .last hb, rfl⟩
    · rename_i hb
      rw [if_neg hb] at h
      obtain ⟨taken, htaken, hbs⟩ := Terminated.of_decodeRun bs h
      exact ⟨b :: taken, .more hb htaken, congrArg (b :: ·) hbs⟩

theorem Terminated.of_reads {α : Type} {f : Nat → α} {bytes : List UInt8} {v : α}
    (h : (decodeAs f).Reads bytes v) : Terminated bytes := by
  have hread := h []
  rw [List.append_nil] at hread
  obtain ⟨taken, htaken, hbytes⟩ :=
    Terminated.of_decodeRun bytes (congrArg ReadResult.failed hread)
  have hrest : (Leb128.decodeRun bytes).rest = [] := congrArg ReadResult.rest hread
  rw [hrest, List.append_nil] at hbytes
  exact hbytes ▸ htaken

/-- ZigZag: nonnegative numbers to the even ones, negative ones to the odd ones. -/
def zigzag (v : Int) : Nat := if 0 ≤ v then (2 * v).toNat else (-2 * v - 1).toNat

/-- The integer numbered `n`. -/
def unzigzag (n : Nat) : Int := if n % 2 = 0 then (n / 2 : Nat) else -((n + 1) / 2 : Nat)

/-- What ZigZag makes of a number comes back. -/
theorem unzigzag_zigzag (v : Int) : unzigzag (zigzag v) = v := by
  unfold zigzag unzigzag
  by_cases h : 0 ≤ v
  · rw [if_pos h, if_pos (by omega)]
    omega
  · rw [if_neg h, if_neg (by omega)]
    omega

end Leb128
