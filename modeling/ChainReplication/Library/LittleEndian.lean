import Mathlib.Data.Nat.Digits.Lemmas

/-!
# Little-endian numbers

A number below `256 ^ k` as `k` bytes, the lowest first.
-/

namespace LittleEndian

/-- The number that the bytes stand for. -/
def value (l : List UInt8) : ℕ := Nat.ofDigits 256 (l.map UInt8.toNat)

/-- The lowest `k` bytes of a number. -/
def bytes : ℕ → ℕ → List UInt8
  | 0, _ => []
  | k + 1, n => UInt8.ofNat n :: bytes k (n / 256)

@[simp] lemma value_nil : value [] = 0 := rfl

@[simp] lemma value_cons (b : UInt8) (l : List UInt8) :
    value (b :: l) = b.toNat + 256 * value l := by
  simp [value, Nat.ofDigits_cons]

@[simp] lemma length_bytes (k n : ℕ) : (bytes k n).length = k := by
  induction k generalizing n with
  | zero => rfl
  | succ k ih => simp [bytes, ih]

lemma value_lt (l : List UInt8) : value l < 256 ^ l.length := by
  induction l with
  | nil => simp
  | cons b l ih =>
    have hb := b.toNat_lt
    simp only [value_cons, List.length_cons, pow_succ]
    omega

/-- Reading the bytes of a number gives the number back. -/
lemma value_bytes {k n : ℕ} (h : n < 256 ^ k) : value (bytes k n) = n := by
  induction k generalizing n with
  | zero => simp_all [bytes]
  | succ k ih =>
    have hdiv : n / 256 < 256 ^ k := by
      rw [Nat.div_lt_iff_lt_mul (by norm_num)]
      rwa [pow_succ] at h
    simp only [bytes, value_cons, ih hdiv, UInt8.toNat_ofNat']
    omega

end LittleEndian
