import Mathlib.Data.List.Basic

/-!
# Hexadecimal digits

A library for bytes that are written as two hexadecimal digits each. Digits are read in
either case and written in lower case.

- `IsDigit`, `value`: the digits that are read; `digit`: the digit that is written.
- `encode`, `decode`: byte strings as digits, and pairs of digits as bytes. They undo each
  other, up to the case of the digits (`decode_encode`, `encode_decode`).
-/

namespace Hex

/-- `0` to `9`, `A` to `F` and `a` to `f`. -/
def IsDigit (c : UInt8) : Prop := 48 ≤ c ∧ c ≤ 57 ∨ 65 ≤ c ∧ c ≤ 70 ∨ 97 ≤ c ∧ c ≤ 102

instance : DecidablePred IsDigit := fun _ => inferInstanceAs (Decidable (_ ∨ _))

/-- The value of a digit. -/
def value (c : UInt8) : Nat :=
  if c ≤ 57 then c.toNat - 48 else if c ≤ 70 then c.toNat - 55 else c.toNat - 87

/-- The digit with a value. -/
def digit (n : Nat) : UInt8 := UInt8.ofNat (if n < 10 then 48 + n else 87 + n)

/-- A letter in lower case. -/
def lower (c : UInt8) : UInt8 := if 65 ≤ c ∧ c ≤ 90 then c + 32 else c

/-- The two digits of a byte. -/
def byteDigits (b : UInt8) : List UInt8 := [digit (b.toNat / 16), digit (b.toNat % 16)]

/-- Every byte as its two digits. -/
def encode (bytes : List UInt8) : List UInt8 := bytes.flatMap byteDigits

/-- The byte with two digits. -/
def pack (high low : UInt8) : UInt8 := UInt8.ofNat (value high * 16 + value low)

/-- The bytes of pairs of digits. -/
def decode : List UInt8 → List UInt8
  | high :: low :: digits => pack high low :: decode digits
  | _ => []

/-! ## Digits -/

/-- What a check of all bytes finds, by their values. -/
theorem of_all_bytes {P : UInt8 → Prop} (h : ∀ n < 256, P (UInt8.ofNat n)) (c : UInt8) : P c := by
  have hc := h c.toNat c.toNat_lt
  rwa [UInt8.ofNat_toNat] at hc

theorem value_lt {c : UInt8} : IsDigit c → value c < 16 :=
  of_all_bytes (P := fun c => IsDigit c → value c < 16) (by decide +kernel) c

/-- The digit of a value is the lower-case one. -/
theorem digit_value {c : UInt8} : IsDigit c → digit (value c) = lower c :=
  of_all_bytes (P := fun c => IsDigit c → digit (value c) = lower c) (by decide +kernel) c

/-- The value of a digit is what was written. -/
theorem value_digit {n : Nat} (h : n < 16) : value (digit n) = n := by
  have hcases : ∀ n < 16, value (digit n) = n := by decide
  exact hcases n h

/-- What is written is a digit. -/
theorem isDigit_digit {n : Nat} (h : n < 16) : IsDigit (digit n) := by
  have hcases : ∀ n < 16, IsDigit (digit n) := by decide
  exact hcases n h

/-- Two digits come back from the byte they make. -/
theorem byteDigits_pack {high low : UInt8} (hhigh : IsDigit high) (hlow : IsDigit low) :
    byteDigits (pack high low) = [lower high, lower low] := by
  have hlt := value_lt hhigh
  have hlt' := value_lt hlow
  have htoNat : (pack high low).toNat = value high * 16 + value low := by
    rw [pack, UInt8.toNat_ofNat', Nat.mod_eq_of_lt (by omega)]
  have hdiv : (value high * 16 + value low) / 16 = value high := by omega
  have hmod : (value high * 16 + value low) % 16 = value low := by omega
  rw [byteDigits, htoNat, hdiv, hmod, digit_value hhigh, digit_value hlow]

theorem toNat_div_lt_sixteen (b : UInt8) : b.toNat / 16 < 16 := by
  have hlt := b.toNat_lt
  omega

/-- A byte comes back from its digits. -/
theorem pack_digits (b : UInt8) : pack (digit (b.toNat / 16)) (digit (b.toNat % 16)) = b := by
  have hlow : b.toNat % 16 < 16 := Nat.mod_lt _ (by decide)
  rw [pack, value_digit (toNat_div_lt_sixteen b), value_digit hlow, Nat.div_add_mod']
  exact UInt8.ofNat_toNat

/-! ## Strings -/

theorem encode_cons (b : UInt8) (bytes : List UInt8) :
    encode (b :: bytes) = digit (b.toNat / 16) :: digit (b.toNat % 16) :: encode bytes := rfl

/-- Each byte has two digits. -/
theorem length_encode (bytes : List UInt8) : (encode bytes).length = 2 * bytes.length := by
  induction bytes with
  | nil => rfl
  | cons b bytes ih =>
    rw [encode_cons, List.length_cons, List.length_cons, List.length_cons, ih]
    omega

/-- All that is written are digits. -/
theorem isDigit_encode (bytes : List UInt8) : ∀ c ∈ encode bytes, IsDigit c := by
  induction bytes with
  | nil => exact fun c hc => absurd hc List.not_mem_nil
  | cons b bytes ih =>
    intro c hc
    rw [encode_cons] at hc
    rcases List.mem_cons.mp hc with rfl | hc
    · exact isDigit_digit (toNat_div_lt_sixteen b)
    · rcases List.mem_cons.mp hc with rfl | hc
      · exact isDigit_digit (Nat.mod_lt _ (by decide))
      · exact ih c hc

/-- Bytes come back from their digits. -/
theorem decode_encode (bytes : List UInt8) : decode (encode bytes) = bytes := by
  induction bytes with
  | nil => rfl
  | cons b bytes ih => rw [encode_cons, decode, ih, pack_digits]

/-- Pairs of digits are written again in lower case. -/
theorem encode_decode :
    ∀ {n : Nat} {digits : List UInt8}, digits.length = 2 * n → (∀ c ∈ digits, IsDigit c) →
      (decode digits).length = n ∧ encode (decode digits) = digits.map lower
  | 0, digits, hlength, _ => by
    obtain rfl := List.length_eq_zero_iff.mp hlength
    exact ⟨rfl, rfl⟩
  | n + 1, [], hlength, _ => absurd hlength (by simp)
  | n + 1, [_], hlength, _ => absurd hlength (by simp; omega)
  | n + 1, high :: low :: digits, hlength, hdigits => by
    have hrest : digits.length = 2 * n := by
      rw [List.length_cons, List.length_cons] at hlength
      omega
    obtain ⟨hcount, ih⟩ := encode_decode hrest fun c hc =>
      hdigits c (List.mem_cons_of_mem _ (List.mem_cons_of_mem _ hc))
    have hpack := byteDigits_pack (hdigits high List.mem_cons_self)
      (hdigits low (List.mem_cons_of_mem _ List.mem_cons_self))
    refine ⟨congrArg Nat.succ hcount, ?_⟩
    show byteDigits (pack high low) ++ encode (decode digits) = _
    rw [hpack, ih]
    rfl

end Hex
