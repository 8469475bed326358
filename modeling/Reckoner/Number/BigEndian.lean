/-!
# Numbers as bytes

A natural number in a given number of bytes, the most significant one first. A number that fits is
read back from its bytes (`ofBigEndian_bigEndian`).
-/

namespace Reckoner

/-- How many numbers can be told apart by so many bytes. -/
def byteCapacity : Nat → Nat
  | 0 => 1
  | width + 1 => byteCapacity width * 256

/-- A number as `width` bytes, the most significant one first; higher digits are lost. -/
def bigEndian : Nat → Nat → List UInt8
  | 0, _ => []
  | width + 1, n => (n / byteCapacity width).toUInt8 :: bigEndian width n

/-- The number that bytes denote, the most significant one first. -/
def ofBigEndian (bytes : List UInt8) : Nat :=
  bytes.foldl (fun value byte => 256 * value + byte.toNat) 0

/-- The bytes of a number are as many as asked for. -/
@[simp] theorem length_bigEndian (width n : Nat) : (bigEndian width n).length = width := by
  induction width with
  | zero => rfl
  | succ width ih => simp [bigEndian, ih]

/-- Reading the bytes of a number behind those of another one. -/
theorem foldl_bigEndian (width n value : Nat) :
    (bigEndian width n).foldl (fun value byte => 256 * value + byte.toNat) value =
      value * byteCapacity width + n % byteCapacity width := by
  induction width generalizing value with
  | zero => simp [bigEndian, byteCapacity, Nat.mod_one]
  | succ width ih =>
    have hbyte : ((n / byteCapacity width).toUInt8).toNat = n / byteCapacity width % 256 := by
      simp
    rw [bigEndian, List.foldl_cons, ih, hbyte, byteCapacity, Nat.mod_mul]
    grind

/-- A number that fits is read back from its bytes. -/
theorem ofBigEndian_bigEndian {width n : Nat} (h : n < byteCapacity width) :
    ofBigEndian (bigEndian width n) = n := by
  rw [ofBigEndian, foldl_bigEndian, Nat.mod_eq_of_lt h, Nat.zero_mul, Nat.zero_add]

end Reckoner
