import SerialRpc.Lib.ByteStream
import Mathlib.Data.Nat.Bitwise

/-!
# Little-endian words

The bytes of a number from the least significant one up, and the number they
are put together to, by shifts and ors.

- `bytes n v`: the `n` low bytes of `v`.
- `value bs`: the number, `b₀ | b₁ << 8 | …`.
- `value_bytes`: the number comes back when it fits.
-/

namespace LittleEndian

/-- The `n` low bytes of `v`, least significant first. -/
def bytes : Nat → Nat → List UInt8
  | 0, _ => []
  | n + 1, v => UInt8.ofNat (v % 256) :: bytes n (v / 256)

/-- The number the bytes spell, least significant first. -/
def value : List UInt8 → Nat
  | [] => 0
  | b :: bs => b.toNat ||| (value bs <<< 8)

@[simp] theorem length_bytes : ∀ n v, (bytes n v).length = n
  | 0, _ => rfl
  | n + 1, v => congrArg Nat.succ (length_bytes n (v / 256))

/-- The shifted bytes do not overlap, so the `|` is a sum. -/
theorem value_cons (b : UInt8) (bs : List UInt8) : value (b :: bs) = b.toNat + 256 * value bs := by
  have hb : b.toNat < 2 ^ 8 := b.toNat_lt
  have hsum := Nat.shiftLeft_add_eq_or_of_lt hb (value bs)
  rw [Nat.shiftLeft_eq] at hsum
  show b.toNat ||| (value bs <<< 8) = _
  rw [Nat.or_comm, Nat.shiftLeft_eq, ← hsum]
  omega

theorem value_bytes : ∀ {n v : Nat}, v < 256 ^ n → value (bytes n v) = v
  | 0, v, h => by
    simp only [pow_zero] at h
    simp only [bytes, value]
    omega
  | n + 1, v, h => by
    have hb : (UInt8.ofNat (v % 256)).toNat = v % 256 := by
      simp only [UInt8.toNat_ofNat']
      omega
    have hv : v / 256 < 256 ^ n := by
      rw [pow_succ] at h
      exact Nat.div_lt_of_lt_mul (by omega)
    rw [bytes, value_cons, hb, value_bytes hv]
    omega

end LittleEndian
