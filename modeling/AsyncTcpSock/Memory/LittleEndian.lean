import Mathlib.Data.Nat.Notation
import Mathlib.Algebra.Order.Ring.Nat

/-!
# Little-endian memory

Numbers as runs of bytes, least significant byte first, and the fields of a struct that lies in
memory.
-/

namespace Memory

/-- The lowest `n` bytes of a number. -/
def toBytes : ℕ → ℕ → List UInt8
  | 0, _ => []
  | n + 1, x => UInt8.ofNat x :: toBytes n (x / 256)

/-- The number that a run of bytes stands for. -/
def ofBytes : List UInt8 → ℕ
  | [] => 0
  | b :: rest => b.toNat + 256 * ofBytes rest

/-- A number is stored in as many bytes as it is given. -/
@[simp]
theorem length_toBytes (n x : ℕ) : (toBytes n x).length = n := by
  induction n generalizing x with
  | zero => rfl
  | succ n ih => rw [toBytes, List.length_cons, ih]

/-- A number that fits is read as it has been stored. -/
theorem ofBytes_toBytes {n x : ℕ} (h : x < 256 ^ n) : ofBytes (toBytes n x) = x := by
  induction n generalizing x with
  | zero =>
      rw [pow_zero] at h
      rw [toBytes, ofBytes]
      omega
  | succ n ih =>
      have hdiv : x / 256 < 256 ^ n := by
        rw [pow_succ] at h
        exact Nat.div_lt_of_lt_mul (by omega)
      rw [toBytes, ofBytes, ih hdiv, UInt8.toNat_ofNat']
      omega

/-- Zeros are read as zero. -/
@[simp]
theorem ofBytes_replicate_zero (n : ℕ) : ofBytes (List.replicate n 0) = 0 := by
  induction n with
  | zero => rfl
  | succ n ih => rw [List.replicate_succ, ofBytes, ih]; rfl

/-- A machine word survives a trip through memory. -/
theorem ofNat_ofBytes_toBytes {n k : ℕ} (x : BitVec k) (h : 2 ^ k ≤ 256 ^ n) :
    BitVec.ofNat k (ofBytes (toBytes n x.toNat)) = x := by
  rw [ofBytes_toBytes (Nat.lt_of_lt_of_le x.isLt h), BitVec.ofNat_toNat, BitVec.setWidth_eq]

/-- The `n` bytes at offset `off`. -/
def field (off n : ℕ) (mem : List UInt8) : List UInt8 := (mem.drop off).take n

/-- The field is the first part of a struct. -/
theorem field_zero {n : ℕ} {a : List UInt8} (h : a.length = n) (b : List UInt8) :
    field 0 n (a ++ b) = a := by
  rw [field, List.drop_zero, ← h, List.take_left]

/-- The field lies behind the first part of a struct. -/
theorem field_append {off n k : ℕ} {a : List UInt8} (ha : a.length = k) (hk : k ≤ off)
    (b : List UInt8) : field off n (a ++ b) = field (off - k) n b := by
  subst ha
  rw [field, field, List.drop_append, List.drop_eq_nil_of_le hk, List.nil_append]

/-- A field of a struct that is copied as a whole. -/
theorem field_take {off n k : ℕ} (h : off + n ≤ k) (mem : List UInt8) :
    field off n (mem.take k) = field off n mem := by
  rw [field, field, List.drop_take, List.take_take, Nat.min_eq_left (by omega)]

end Memory
