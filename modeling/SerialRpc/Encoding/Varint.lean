import SerialRpc.Lib.Leb128

/-!
# baselib's varints (`lib.varint`)

The variable-length integers come from baselib, which is not part of this
repository: the codec is modelled over a parameter `V : Varint`, one field for
each function of `lib.varint` that the runtime calls.

- `Varint`: the functions. A varint that was read took at least one byte; the
  decoders' loops terminate because of it, so it is part of what a varint is
  (`readUint32_consumes`).
- `Varint.Lawful`: what the runtime relies on. Each read undoes the matching
  write whatever bytes follow, and a value below 128 is written as its own
  single byte: the runtime writes the `End` tag, the flag of a subscription and
  the request id 0 with `write_byte` and reads them back as varints.
- `Varint.leb128`, `Varint.leb128Signed`: the LEB128/ZigZag varints of the README, with
  lengths of any size and of 64 bits. Both are lawful.
-/

namespace SerialRpc

open ByteStream

/-- The functions of `lib.varint`. `size` is baselib's signed length type: what is
written is a length, what is read may be any value of the type. -/
structure Varint where
  writeUint32 : UInt32 → List UInt8
  writeUint64 : UInt64 → List UInt8
  writeSint32 : Int32 → List UInt8
  writeSint64 : Int64 → List UInt8
  /-- `varint::write_unsigned` of a length. -/
  writeUnsigned : Nat → List UInt8
  readUint32 : Read UInt32
  readUint64 : Read UInt64
  readSint32 : Read Int32
  readSint64 : Read Int64
  /-- `varint::read_unsigned<size>`. -/
  readUnsigned : Read Int
  skip : Read Unit
  /-- A varint is at least one byte long. -/
  readUint32_consumes : ∀ bs,
    (readUint32.run bs).failed = false → (readUint32.run bs).rest.length < bs.length

namespace Varint

/-- The documented behaviour of `lib.varint` that the runtime relies on. -/
structure Lawful (V : Varint) : Prop where
  uint32 : ∀ v, V.readUint32.Reads (V.writeUint32 v) v
  uint64 : ∀ v, V.readUint64.Reads (V.writeUint64 v) v
  sint32 : ∀ v, V.readSint32.Reads (V.writeSint32 v) v
  sint64 : ∀ v, V.readSint64.Reads (V.writeSint64 v) v
  unsigned : ∀ n : Nat, n < 2 ^ 63 → V.readUnsigned.Reads (V.writeUnsigned n) n
  /-- A `size` counts no length from `2 ^ 63` on: it is written as no smaller one. -/
  unsigned_uncounted : ∀ n : Nat, 2 ^ 63 ≤ n → ∃ size : Int,
    V.readUnsigned.Reads (V.writeUnsigned n) size ∧ 2 ^ 63 - 1 ≤ size
  /-- A value below 128 is its own single byte. -/
  small : ∀ b : UInt8, b < 128 → V.writeUint32 b.toUInt32 = [b]

/-- A byte below 128 reads as the varint of that value. -/
theorem Lawful.byte {V : Varint} (hV : V.Lawful) {b : UInt8} (hb : b < 128) :
    V.readUint32.Reads [b] b.toUInt32 := by
  rw [← hV.small b hb]
  exact hV.uint32 b.toUInt32

/-- A written `uint32` is not empty. -/
theorem Lawful.writeUint32_ne_nil {V : Varint} (hV : V.Lawful) (v : UInt32) :
    V.writeUint32 v ≠ [] := by
  intro h
  have hread := hV.uint32 v []
  have hlt := V.readUint32_consumes (V.writeUint32 v ++ []) (by rw [hread])
  rw [hread, h] at hlt
  exact absurd hlt (Nat.lt_irrefl 0)

/-- Varints as the README describes them: LEB128, signed ones through ZigZag. -/
def leb128 : Varint where
  writeUint32 v := Leb128.encode v.toNat
  writeUint64 v := Leb128.encode v.toNat
  writeSint32 v := Leb128.encode (Leb128.zigzag v.toInt)
  writeSint64 v := Leb128.encode (Leb128.zigzag v.toInt)
  writeUnsigned n := Leb128.encode n
  readUint32 := Leb128.decodeAs UInt32.ofNat
  readUint64 := Leb128.decodeAs UInt64.ofNat
  readSint32 := Leb128.decodeAs fun n => Int32.ofInt (Leb128.unzigzag n)
  readSint64 := Leb128.decodeAs fun n => Int64.ofInt (Leb128.unzigzag n)
  readUnsigned := Leb128.decodeAs Int.ofNat
  skip := Leb128.decodeAs fun _ => ()
  readUint32_consumes bs h := Leb128.decodeRun_consumes bs h

/-- The same, with lengths of 64 bits in two's complement. -/
def leb128Signed : Varint :=
  { leb128 with
    writeUnsigned := fun n => Leb128.encode (min n (2 ^ 63 - 1))
    readUnsigned := Leb128.decodeAs fun n => (BitVec.ofNat 64 n).toInt }

theorem leb128_lawful : leb128.Lawful where
  uint32 v := Leb128.decodeAs_reads (by simp)
  uint64 v := Leb128.decodeAs_reads (by simp)
  sint32 v := Leb128.decodeAs_reads (f := fun n => Int32.ofInt (Leb128.unzigzag n)) (by
    simp [Leb128.unzigzag_zigzag])
  sint64 v := Leb128.decodeAs_reads (f := fun n => Int64.ofInt (Leb128.unzigzag n)) (by
    simp [Leb128.unzigzag_zigzag])
  unsigned n _ := Leb128.decodeAs_reads rfl
  unsigned_uncounted n hn := ⟨n, Leb128.decodeAs_reads rfl, by omega⟩
  small b hb := by
    have hlt : b.toUInt32.toNat < 128 := by simpa using UInt8.lt_iff_toNat_lt.mp hb
    show Leb128.encode b.toUInt32.toNat = [b]
    rw [Leb128.encode_small hlt]
    simp

/-- A length that a `size` counts is its own two's complement. -/
theorem ofNat_toInt {n : Nat} (hn : n < 2 ^ 63) : (BitVec.ofNat 64 n).toInt = n := by
  rw [BitVec.toInt_eq_toNat_of_lt, BitVec.toNat_ofNat, Nat.mod_eq_of_lt (by omega)]
  rw [BitVec.toNat_ofNat]
  omega

theorem leb128Signed_lawful : leb128Signed.Lawful where
  uint32 := leb128_lawful.uint32
  uint64 := leb128_lawful.uint64
  sint32 := leb128_lawful.sint32
  sint64 := leb128_lawful.sint64
  unsigned n hn := Leb128.decodeAs_reads (f := fun n => (BitVec.ofNat 64 n).toInt) (by
    rw [min_eq_left (by omega)]
    exact ofNat_toInt hn)
  unsigned_uncounted n hn := by
    refine ⟨2 ^ 63 - 1, Leb128.decodeAs_reads (f := fun n => (BitVec.ofNat 64 n).toInt) ?_, le_rfl⟩
    rw [min_eq_right (by omega)]
    exact ofNat_toInt (by omega)
  small := leb128_lawful.small

end Varint

end SerialRpc
