import Mathlib.Data.List.Basic
import Mathlib.Tactic.Ring

/-!
# Little-endian words in byte lists

Fixed-width little-endian encoding of natural numbers.  A width `w` word takes `w` bytes;
numbers are reduced modulo `256 ^ w`, as a cast to a machine word does.  The two directions are
inverse on words that fit (`leNat_leBytes_of_lt`) and on byte lists of the right length
(`leBytes_leNat`).  The last section has rounding up to a multiple.
-/

namespace LeBytes

/-- The `w` little-endian bytes of `n`, modulo `256 ^ w`. -/
def leBytes : Nat → Nat → List UInt8
  | 0, _ => []
  | w + 1, n => UInt8.ofNat n :: leBytes w (n / 256)

/-- The number whose little-endian digits in base 256 are the given bytes. -/
def leNat : List UInt8 → Nat
  | [] => 0
  | b :: bs => b.toNat + 256 * leNat bs

@[simp] theorem length_leBytes (w n : Nat) : (leBytes w n).length = w := by
  induction w generalizing n with
  | zero => rfl
  | succ w ih => simp [leBytes, ih]

theorem leNat_lt (bs : List UInt8) : leNat bs < 256 ^ bs.length := by
  induction bs with
  | nil => simp [leNat]
  | cons b bs ih =>
    have hb : b.toNat < 256 := b.toNat_lt
    simp only [leNat, List.length_cons, pow_succ]
    omega

theorem leNat_leBytes (w n : Nat) : leNat (leBytes w n) = n % 256 ^ w := by
  induction w generalizing n with
  | zero => simp [leBytes, leNat, Nat.mod_one]
  | succ w ih =>
    have byte : (UInt8.ofNat n).toNat = n % 256 := UInt8.toNat_ofNat'
    rw [leBytes, leNat, ih, byte, Nat.pow_succ, Nat.mul_comm (256 ^ w) 256, Nat.mod_mul]

theorem leNat_leBytes_of_lt {w n : Nat} (h : n < 256 ^ w) : leNat (leBytes w n) = n := by
  rw [leNat_leBytes, Nat.mod_eq_of_lt h]

theorem leBytes_leNat (bs : List UInt8) : leBytes bs.length (leNat bs) = bs := by
  induction bs with
  | nil => rfl
  | cons b bs ih =>
    have hb : b.toNat < 256 := b.toNat_lt
    have hdiv : (b.toNat + 256 * leNat bs) / 256 = leNat bs := by omega
    have hhead : UInt8.ofNat (b.toNat + 256 * leNat bs) = b := by
      apply UInt8.toNat_inj.mp
      rw [UInt8.toNat_ofNat']
      omega
    simp only [List.length_cons, leBytes, leNat, hdiv, hhead, ih]

/-! ## Rounding up -/

/-- The least multiple of `y` that is at least `x`, for positive `y`. -/
def roundUp (x y : Nat) : Nat := y * ((x + (y - 1)) / y)

theorem dvd_roundUp (x y : Nat) : y ∣ roundUp x y := Dvd.intro _ rfl

theorem le_roundUp (x : Nat) {y : Nat} (hy : 0 < y) : x ≤ roundUp x y := by
  have h := Nat.div_add_mod (x + (y - 1)) y
  have hm := Nat.mod_lt (x + (y - 1)) hy
  unfold roundUp
  omega

theorem roundUp_lt (x : Nat) {y : Nat} (hy : 0 < y) : roundUp x y < x + y := by
  have h := Nat.div_add_mod (x + (y - 1)) y
  unfold roundUp
  omega

theorem roundUp_of_dvd {x y : Nat} (hy : 0 < y) (h : y ∣ x) : roundUp x y = x := by
  obtain ⟨k, rfl⟩ := h
  unfold roundUp
  rw [Nat.mul_add_div hy, Nat.div_eq_of_lt (by omega), Nat.add_zero]

end LeBytes
