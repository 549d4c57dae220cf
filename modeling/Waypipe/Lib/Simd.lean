import Mathlib.Data.BitVec
import Mathlib.Data.List.Basic

/-!
# 256-bit registers

The lane semantics of some vector instructions.  A register is its 32 bytes, from the least
significant on; a word lane `k` is the bytes `4 k` to `4 k + 3`.  The counts of leading and trailing
zeros are those of `BitVec`, which are the width for zero.  `compareMask` is the mask of two
registers compared with two others word by word: bit `j` of it says whether word `j / 4` is the same
(`getLsbD_compareMask`).
-/

/-- A register, as its bytes. -/
abbrev M256 := Fin 32 → UInt8

namespace M256

open List

/-- 32 bytes of a list. -/
def load (l : List UInt8) (pos : Nat) : M256 := fun i => l.getD (pos + i) 0

def bytes (v : M256) : List UInt8 := ofFn v

@[simp] theorem length_bytes (v : M256) : v.bytes.length = 32 := length_ofFn

theorem bytes_load {l : List UInt8} {pos : Nat} (h : pos + 32 ≤ l.length) :
    (load l pos).bytes = (l.drop pos).take 32 := by
  apply ext_getElem?
  intro i
  by_cases hi : i < 32
  · rw [getElem?_take_of_lt hi, getElem?_drop, bytes, List.getElem?_ofFn, dif_pos hi,
      getElem?_eq_getElem (by omega)]
    show some (l.getD (pos + i) 0) = _
    rw [getD_eq_getElem?_getD, getElem?_eq_getElem (by omega)]
    rfl
  · rw [getElem?_eq_none (by rw [length_bytes]; omega),
      getElem?_eq_none (by rw [length_take]; omega)]

/-! ## Instructions -/

/-- Byte `j` of the word lane that has byte `i`. -/
def inWord (i : Fin 32) (j : Fin 4) : Fin 32 := ⟨4 * (i / 4) + j, by omega⟩

/-- `_mm256_cmpeq_epi32`: a word lane of ones where the words are equal, and of zeros elsewhere. -/
def cmpeqEpi32 (a b : M256) : M256 := fun i =>
  if ∀ j, a (inWord i j) = b (inWord i j) then 0xff else 0

/-- `_mm256_blend_epi16`: lane `k` of 16 bits is from `b` if bit `k % 8` of `imm` is set. -/
def blendEpi16 (imm : BitVec 8) (a b : M256) : M256 := fun i =>
  if imm.getLsbD (i / 2 % 8) then b i else a i

/-- `_mm256_testc_si256`: whether `b` has no bit that `a` does not have. -/
def testcSi256 (a b : M256) : Bool := decide (∀ i, ~~~(a i) &&& b i = 0)

/-- `_mm256_movemask_epi8`: the most significant bits of the bytes. -/
def movemaskEpi8 (a : M256) : BitVec 32 :=
  (BitVec.ofBoolListLE (ofFn fun i => (a i).toBitVec.msb)).setWidth 32

/-- `_mm256_set1_epi64x` of minus one. -/
def ones : M256 := fun _ => 0xff

/-- `_mm256_cvtepi8_epi64`: the four low bytes, extended with their signs to 64 bits each.  The
argument is the low half of the register, which has all four of them. -/
def cvtepi8Epi64 (x : BitVec 64) : M256 := fun i =>
  let byte := (x >>> (8 * (i.val / 8))).setWidth 8
  if i.val % 8 = 0 then UInt8.ofBitVec byte else if byte.msb then 0xff else 0

/-- The word lanes that a masked store writes, by the most significant bits of the mask's. -/
def wordSelected (mask : M256) (k : Fin 8) : Bool := (mask ⟨4 * k + 3, by omega⟩).toBitVec.msb

def word (v : M256) (k : Fin 8) : List UInt8 :=
  ofFn fun j : Fin 4 => v ⟨4 * k + j, by omega⟩

/-! ## Comparing words -/

/-- Word `k` of two lists is the same. -/
def SameWord (l r : List UInt8) (k : Nat) : Prop := ∀ j < 4, l.getD (4 * k + j) 0 = r.getD (4 * k + j) 0

instance (l r : List UInt8) (k : Nat) : Decidable (SameWord l r k) :=
  inferInstanceAs (Decidable (∀ j < 4, l.getD (4 * k + j) 0 = r.getD (4 * k + j) 0))

theorem cmpeqEpi32_load (l r : List UInt8) (i : Fin 32) {pos : Nat} (hpos : pos % 4 = 0) :
    cmpeqEpi32 (load l pos) (load r pos) i =
      if SameWord l r ((pos + i) / 4) then 0xff else 0 := by
  have hword : (∀ j, load l pos (inWord i j) = load r pos (inWord i j)) ↔
      SameWord l r ((pos + i) / 4) := by
    have hpos' : ∀ j, pos + (4 * (i.val / 4) + j) = 4 * ((pos + i) / 4) + j := by omega
    constructor
    · intro h j hj
      have := h ⟨j, hj⟩
      simp only [load, inWord, hpos'] at this
      exact this
    · intro h j
      simp only [load, inWord, hpos']
      exact h j j.isLt
  unfold cmpeqEpi32
  simp only [hword]

theorem getLsbD_movemaskEpi8 (a : M256) {j : Nat} (hj : j < 32) :
    (movemaskEpi8 a).getLsbD j = (a ⟨j, hj⟩).toBitVec.msb := by
  unfold movemaskEpi8
  rw [BitVec.getLsbD_setWidth, BitVec.getLsbD_ofBoolListLE, getD_eq_getElem?_getD,
    List.getElem?_ofFn, dif_pos hj]
  simp [hj]

/-- Both masks of a comparison with movemask, the second one in the upper half. -/
def compareMask (l r : List UInt8) : BitVec 64 :=
  let m1 := movemaskEpi8 (cmpeqEpi32 (load l 0) (load r 0))
  let m2 := movemaskEpi8 (cmpeqEpi32 (load l 32) (load r 32))
  (m2.setWidth 64 <<< 32) ||| m1.setWidth 64

theorem getLsbD_compareMask (l r : List UInt8) {j : Nat} (hj : j < 64) :
    (compareMask l r).getLsbD j = decide (SameWord l r (j / 4)) := by
  have hbyte : ∀ p : Prop, ∀ [Decidable p],
      ((if p then (0xff : UInt8) else 0).toBitVec.msb) = decide p := by
    intro p _
    by_cases hp : p
    · rw [if_pos hp, decide_eq_true hp]
      decide
    · rw [if_neg hp, decide_eq_false hp]
      decide
  unfold compareMask
  simp only [BitVec.getLsbD_or, BitVec.getLsbD_shiftLeft, BitVec.getLsbD_setWidth]
  by_cases hlow : j < 32
  · rw [getLsbD_movemaskEpi8 _ hlow, cmpeqEpi32_load _ _ _ rfl, hbyte]
    simp [hlow, hj]
  · have hhigh : (movemaskEpi8 (cmpeqEpi32 (load l 0) (load r 0))).getLsbD j = false :=
      BitVec.getLsbD_of_ge _ _ (by omega)
    rw [getLsbD_movemaskEpi8 _ (show j - 32 < 32 by omega), cmpeqEpi32_load _ _ _ rfl, hbyte, hhigh]
    have hword : 32 + (j - 32) = j := by omega
    simp only [hword]
    simp [hlow, hj]
    omega

/-- All words of two lists of 64 bytes are the same. -/
theorem eq_of_sameWord {l r : List UInt8} (hl : l.length = 64) (hr : r.length = 64) {n : Nat}
    (h : ∀ k, n ≤ k → k < 16 → SameWord l r k) : l.drop (4 * n) = r.drop (4 * n) := by
  apply ext_getElem?
  intro i
  rw [getElem?_drop, getElem?_drop]
  by_cases hi : 4 * n + i < 64
  · have hword := h ((4 * n + i) / 4) (by omega) (by omega) ((4 * n + i) % 4) (by omega)
    rw [show 4 * ((4 * n + i) / 4) + (4 * n + i) % 4 = 4 * n + i by omega,
      getD_eq_getElem?_getD, getD_eq_getElem?_getD, getElem?_eq_getElem (by omega),
      getElem?_eq_getElem (by omega)] at hword
    rw [getElem?_eq_getElem (by omega), getElem?_eq_getElem (by omega)]
    exact congrArg some hword
  · rw [getElem?_eq_none (by omega), getElem?_eq_none (by omega)]

/-! ## Counting zeros -/

theorem clz_eq_zero {x : BitVec 64} (h : x.getLsbD 63 = true) : x.clz.toNat = 0 := by
  by_contra hne
  have hlt := BitVec.toNat_lt_two_pow_sub_clz (x := x)
  have hfalse : x.toNat.testBit 63 = false := by
    apply Nat.testBit_lt_two_pow
    exact Nat.lt_of_lt_of_le hlt (Nat.pow_le_pow_right (by decide) (by omega))
  rw [← BitVec.testBit_toNat, hfalse] at h
  cases h

theorem ctz_eq_zero {x : BitVec 64} (h : x.getLsbD 0 = true) : x.ctz.toNat = 0 := by
  by_contra hne
  rw [BitVec.getLsbD_false_of_lt_ctz (Nat.pos_of_ne_zero hne)] at h
  cases h

/-- A bit among the leading zeros. -/
theorem getLsbD_of_clz {x : BitVec 64} {j : Nat} (h : 64 ≤ j + x.clz.toNat) : x.getLsbD j = false := by
  rw [← BitVec.testBit_toNat]
  apply Nat.testBit_lt_two_pow
  exact Nat.lt_of_lt_of_le BitVec.toNat_lt_two_pow_sub_clz (Nat.pow_le_pow_right (by decide) (by omega))

end M256
