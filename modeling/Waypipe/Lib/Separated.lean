import Mathlib.Data.List.Chain
import Mathlib.Tactic.Linarith

/-!
# Separated intervals, and stacks that double

`Separated g l` lists have nonempty intervals of integers in order, with gaps of at least `g`.  As
many as lie below a bound are at most as many as gaps fit below it (`Separated.length_le`).

A stack whose sizes at least double from one entry to the next one below is no higher than the
logarithm of its largest size (`two_pow_length_le`).
-/

namespace Ranges

open List

/-- The integer is in one of the intervals. -/
def Covers (l : List (ℤ × ℤ)) (p : ℤ) : Prop := ∃ x ∈ l, x.1 ≤ p ∧ p < x.2

theorem covers_cons {x : ℤ × ℤ} {l : List (ℤ × ℤ)} {p : ℤ} :
    Covers (x :: l) p ↔ (x.1 ≤ p ∧ p < x.2) ∨ Covers l p := by
  simp only [Covers, mem_cons, exists_eq_or_imp]

theorem Covers.append_left {l : List (ℤ × ℤ)} {p : ℤ} (h : Covers l p) (l' : List (ℤ × ℤ)) :
    Covers (l ++ l') p := by
  obtain ⟨x, hx, hp⟩ := h
  exact ⟨x, mem_append_left _ hx, hp⟩

/-- Nonempty intervals in order, with gaps of at least `g`. -/
structure Separated (g : ℤ) (l : List (ℤ × ℤ)) : Prop where
  nonempty : ∀ x ∈ l, x.1 < x.2
  apart : l.Pairwise fun x y => x.2 + g ≤ y.1

namespace Separated

variable {g : ℤ} {l l' : List (ℤ × ℤ)} {x y : ℤ × ℤ}

theorem nil : Separated g [] := ⟨fun _ h => (nomatch h), List.Pairwise.nil⟩

theorem singleton (h : x.1 < x.2) : Separated g [x] :=
  ⟨forall_mem_singleton.mpr h, pairwise_singleton _ _⟩

theorem tail (h : Separated g (x :: l)) : Separated g l :=
  ⟨fun y hy => h.nonempty y (mem_cons_of_mem x hy), (pairwise_cons.mp h.apart).2⟩

theorem append_singleton_iff : Separated g (l ++ [x]) ↔
    Separated g l ∧ x.1 < x.2 ∧ ∀ y ∈ l, y.2 + g ≤ x.1 := by
  constructor
  · rintro ⟨hne, hap⟩
    obtain ⟨hl, -, hlast⟩ := pairwise_append.mp hap
    obtain ⟨hne, hx⟩ := forall_mem_append.mp hne
    exact ⟨⟨hne, hl⟩, hx x (mem_singleton_self x),
      fun y hy => hlast y hy x (mem_singleton_self x)⟩
  · rintro ⟨hl, hx, hlast⟩
    refine ⟨forall_mem_append.mpr ⟨hl.nonempty, forall_mem_singleton.mpr hx⟩,
      pairwise_append.mpr ⟨hl.apart, pairwise_singleton _ _, fun y hy => ?_⟩⟩
    exact forall_mem_singleton.mpr (hlast y hy)

/-- The first interval ends before all others start. -/
theorem head_le (h : Separated g (x :: l)) (hy : y ∈ l) : x.2 + g ≤ y.1 :=
  (pairwise_cons.mp h.apart).1 y hy

/-- The gaps have to fit below a bound of the ends. -/
theorem length_le {bound : ℤ} (h : Separated g (x :: l)) (hbound : ∀ y ∈ x :: l, y.2 ≤ bound) :
    x.2 + g * l.length ≤ bound := by
  induction l generalizing x with
  | nil => simpa using hbound x mem_cons_self
  | cons y l ih =>
    have hxy := h.head_le (mem_cons_self (a := y) (l := l))
    have hy := h.tail.nonempty y mem_cons_self
    have hrest := ih h.tail fun z hz => hbound z (mem_cons_of_mem x hz)
    rw [length_cons]
    push_cast
    linarith

end Separated

/-- The sizes of a stack, from the top on, of which each is at least twice the one above it. -/
theorem two_pow_length_le {bound : ℕ} (sizes : List ℕ) (top : ℕ)
    (hchain : List.IsChain (fun a b => 2 * a ≤ b) (top :: sizes))
    (hbound : ∀ n ∈ top :: sizes, n ≤ bound) : 2 ^ sizes.length * top ≤ bound := by
  induction sizes generalizing top with
  | nil => simpa using hbound top mem_cons_self
  | cons next sizes ih =>
    obtain ⟨hle, hrest⟩ := isChain_cons_cons.mp hchain
    have hnext := ih next hrest fun n hn => hbound n (mem_cons_of_mem top hn)
    calc 2 ^ (next :: sizes).length * top = 2 ^ sizes.length * (2 * top) := by
          rw [length_cons, pow_succ, Nat.mul_assoc]
      _ ≤ 2 ^ sizes.length * next := Nat.mul_le_mul_left _ hle
      _ ≤ bound := hnext

end Ranges
