/-!
# Words and bytes

Little-endian numbers of a fixed number of bytes, in both directions, and rotation of 32-bit words.
-/

namespace Membranes

/-- A number as `count` bytes, lowest first; what does not fit is cut off. -/
def littleEndian : Nat → Nat → List UInt8
  | 0, _ => []
  | count + 1, n => UInt8.ofNat n :: littleEndian count (n / 256)

/-- The number that bytes stand for, lowest first. -/
def ofLittleEndian : List UInt8 → Nat
  | [] => 0
  | b :: bytes => b.toNat + 256 * ofLittleEndian bytes

theorem length_littleEndian (count n : Nat) : (littleEndian count n).length = count := by
  induction count generalizing n with
  | zero => rfl
  | succ count ih => simp [littleEndian, ih]

theorem ofLittleEndian_lt (bytes : List UInt8) :
    ofLittleEndian bytes < Nat.pow 256 bytes.length := by
  induction bytes with
  | nil => decide
  | cons b bytes ih =>
    have := b.toNat_lt
    have step : Nat.pow 256 (b :: bytes).length = Nat.pow 256 bytes.length * 256 := rfl
    rw [step]
    simp only [ofLittleEndian]
    omega

/-- Reading back the bytes of a number that fits them. -/
theorem ofLittleEndian_littleEndian (count n : Nat) (h : n < Nat.pow 256 count) :
    ofLittleEndian (littleEndian count n) = n := by
  induction count generalizing n with
  | zero =>
    have : Nat.pow 256 0 = 1 := rfl
    simp only [littleEndian, ofLittleEndian]
    omega
  | succ count ih =>
    have step : Nat.pow 256 (count + 1) = Nat.pow 256 count * 256 := rfl
    rw [step] at h
    have low : (UInt8.ofNat n).toNat = n % 256 := UInt8.toNat_ofNat'
    simp only [littleEndian, ofLittleEndian, ih (n / 256) (by omega), low]
    omega

/-- Writing back the number that bytes stand for. -/
theorem littleEndian_ofLittleEndian (bytes : List UInt8) :
    littleEndian bytes.length (ofLittleEndian bytes) = bytes := by
  induction bytes with
  | nil => rfl
  | cons b bytes ih =>
    have small := b.toNat_lt
    have low : UInt8.ofNat (b.toNat + 256 * ofLittleEndian bytes) = b := by
      apply UInt8.toNat_inj.mp
      rw [UInt8.toNat_ofNat']
      omega
    have high : (b.toNat + 256 * ofLittleEndian bytes) / 256 = ofLittleEndian bytes := by omega
    simp only [ofLittleEndian, List.length_cons, littleEndian, low, high, ih]

/-- A word with its bits moved `count` places towards the low end, those that fall off returning at the
high end; for counts from 1 to 31. -/
@[inline] def rotateRight (word count : UInt32) : UInt32 :=
  (word >>> count) ||| (word <<< (32 - count))

end Membranes
