import Mathlib.Data.Nat.Find
import Mathlib.Data.Set.Lattice
import Mathlib.Order.Closure
import Mathlib.Order.CompletePartialOrder

/-!
# Lists of intervals

A list of half-open intervals of natural numbers stands for a set of points.  `Spaced g` lists are
sorted, with nonempty intervals and gaps of at least `g` between them; for `0 < g` a set of points has
one such list (`Spaced.eq_of_points_eq`).

`gapClosure g` adds the gaps of a set that are shorter than `g`.  It is a closure operator, and the
sets that spaced lists stand for are closed.
-/

namespace Intervals

open List

/-- The points of a list of intervals. -/
def points (l : List (ℕ × ℕ)) : Set ℕ := {p | ∃ x ∈ l, x.1 ≤ p ∧ p < x.2}

section points

variable {l l' : List (ℕ × ℕ)} {x : ℕ × ℕ} {p : ℕ}

theorem mem_points : p ∈ points l ↔ ∃ x ∈ l, x.1 ≤ p ∧ p < x.2 := Iff.rfl

@[simp] theorem points_nil : points [] = ∅ := by
  ext p
  simp [mem_points]

@[simp] theorem points_cons : points (x :: l) = Set.Ico x.1 x.2 ∪ points l := by
  ext p
  simp [mem_points]

@[simp] theorem points_append : points (l ++ l') = points l ∪ points l' := by
  ext p
  simp [mem_points, or_and_right, exists_or]

theorem points_perm (h : l.Perm l') : points l = points l' := by
  ext p
  simp [mem_points, h.mem_iff]

end points

/-! ## Gaps -/

/-- The gaps of a set that have fewer than `g` points. -/
def shortGaps (g : ℕ) (s : Set ℕ) : Set ℕ :=
  {p | p ∉ s ∧ ∃ lo ∈ s, ∃ hi ∈ s, lo < p ∧ p < hi ∧ (∀ q, lo < q → q < hi → q ∉ s) ∧
    hi - lo - 1 < g}

/-- The points between two points of the set that are at most `g` apart. -/
def gapClosure (g : ℕ) : ClosureOperator (Set ℕ) :=
  .mk' (fun s => {p | ∃ a ∈ s, ∃ b ∈ s, a ≤ p ∧ p ≤ b ∧ b ≤ a + g})
    (by
      rintro s t hst p ⟨a, ha, b, hb, h⟩
      exact ⟨a, hst ha, b, hst hb, h⟩)
    (fun s p hp => ⟨p, hp, p, hp, le_rfl, le_rfl, Nat.le_add_right p g⟩)
    (by
      rintro s p ⟨a, ⟨a₁, ha₁, a₂, ha₂, ha⟩, b, ⟨b₁, hb₁, b₂, hb₂, hb⟩, hab⟩
      -- the point is next to `a`, next to `b`, or between what is next to them
      by_cases h₁ : p ≤ a₂
      · exact ⟨a₁, ha₁, a₂, ha₂, by omega, h₁, by omega⟩
      · by_cases h₂ : b₁ ≤ p
        · exact ⟨b₁, hb₁, b₂, hb₂, h₂, by omega, by omega⟩
        · exact ⟨a₂, ha₂, b₁, hb₁, by omega, by omega, by omega⟩)

section gapClosure

variable {g : ℕ} {s t : Set ℕ} {p : ℕ}

theorem mem_gapClosure :
    p ∈ gapClosure g s ↔ ∃ a ∈ s, ∃ b ∈ s, a ≤ p ∧ p ≤ b ∧ b ≤ a + g := Iff.rfl

/-- The closure adds exactly the gaps with fewer than `g` points. -/
theorem gapClosure_eq : gapClosure g s = s ∪ shortGaps g s := by
  classical
  ext p
  constructor
  · rintro ⟨a, ha, b, hb, hap, hpb, hba⟩
    by_cases hp : p ∈ s
    · exact .inl hp
    · -- the neighbours of the point in the set
      refine .inr ⟨hp, ?_⟩
      have hlo : Nat.findGreatest (· ∈ s) p ∈ s := Nat.findGreatest_spec hap ha
      have hhi : ∃ q, p ≤ q ∧ q ∈ s := ⟨b, hpb, hb⟩
      have hfind := Nat.find_spec hhi
      have hle : Nat.findGreatest (· ∈ s) p ≤ p := Nat.findGreatest_le p
      have hmax : a ≤ Nat.findGreatest (· ∈ s) p := Nat.le_findGreatest hap ha
      have hmin : Nat.find hhi ≤ b := Nat.find_min' hhi ⟨hpb, hb⟩
      have hlt : Nat.findGreatest (· ∈ s) p ≠ p := fun h => hp (h ▸ hlo)
      have hgt : Nat.find hhi ≠ p := fun h => hp (h ▸ hfind.2)
      refine ⟨_, hlo, _, hfind.2, by omega, by omega, fun q hq hq' hmem => ?_, by omega⟩
      by_cases hqp : q ≤ p
      · exact absurd hq (Nat.not_lt.mpr (Nat.le_findGreatest hqp hmem))
      · exact absurd hq' (Nat.not_lt.mpr (Nat.find_min' hhi ⟨Nat.le_of_not_le hqp, hmem⟩))
  · rintro (hp | ⟨hp, lo, hlo, hi, hhi, hlt, hgt, -, hshort⟩)
    · exact ⟨p, hp, p, hp, le_rfl, le_rfl, Nat.le_add_right p g⟩
    · exact ⟨lo, hlo, hi, hhi, by omega, by omega, by omega⟩

end gapClosure

/-! ## Spaced lists -/

/-- Nonempty intervals in order, with gaps of at least `g`. -/
structure Spaced (g : ℕ) (l : List (ℕ × ℕ)) : Prop where
  nonempty : ∀ x ∈ l, x.1 < x.2
  apart : l.Pairwise fun x y => x.2 + g ≤ y.1

namespace Spaced

variable {g : ℕ} {l l' : List (ℕ × ℕ)} {x y : ℕ × ℕ}

theorem nil : Spaced g [] := ⟨fun _ h => (nomatch h), List.Pairwise.nil⟩

theorem singleton (h : x.1 < x.2) : Spaced g [x] := by
  refine ⟨fun y hy => ?_, pairwise_singleton _ _⟩
  cases mem_singleton.mp hy
  exact h

theorem cons_iff : Spaced g (x :: l) ↔
    x.1 < x.2 ∧ (∀ y ∈ l, x.2 + g ≤ y.1) ∧ Spaced g l := by
  constructor
  · rintro ⟨hne, hap⟩
    obtain ⟨hx, hap⟩ := pairwise_cons.mp hap
    exact ⟨hne x mem_cons_self, hx, fun y hy => hne y (mem_cons_of_mem _ hy), hap⟩
  · rintro ⟨hx, hgap, hne, hap⟩
    refine ⟨fun y hy => ?_, pairwise_cons.mpr ⟨hgap, hap⟩⟩
    obtain rfl | hy := mem_cons.mp hy
    · exact hx
    · exact hne y hy

theorem append_iff : Spaced g (l ++ l') ↔
    Spaced g l ∧ Spaced g l' ∧ ∀ x ∈ l, ∀ y ∈ l', x.2 + g ≤ y.1 := by
  constructor
  · rintro ⟨hne, hap⟩
    obtain ⟨hl, hl', hgap⟩ := pairwise_append.mp hap
    exact ⟨⟨fun x hx => hne x (mem_append_left _ hx), hl⟩,
      ⟨fun x hx => hne x (mem_append_right _ hx), hl'⟩, hgap⟩
  · rintro ⟨hl, hl', hgap⟩
    refine ⟨fun x hx => ?_, pairwise_append.mpr ⟨hl.apart, hl'.apart, hgap⟩⟩
    obtain hx | hx := mem_append.mp hx
    · exact hl.nonempty x hx
    · exact hl'.nonempty x hx

theorem sublist (h : Spaced g l) (hsub : l'.Sublist l) : Spaced g l' where
  nonempty x hx := h.nonempty x (hsub.subset hx)
  apart := h.apart.sublist hsub

/-- The sets that spaced lists stand for have no short gaps. -/
theorem isClosed (h : Spaced g l) : (gapClosure g).IsClosed (points l) := by
  rw [ClosureOperator.isClosed_iff_closure_le]
  rintro p ⟨a, ha, b, hb, hap, hpb, hba⟩
  induction l with
  | nil => simp at ha
  | cons x l ih =>
    obtain ⟨hx, hgap, hl⟩ := cons_iff.mp h
    have hlater {q : ℕ} (hq : q ∈ points l) : x.2 + g ≤ q := by
      obtain ⟨y, hy, hle, _⟩ := hq
      exact (hgap y hy).trans hle
    rw [points_cons] at ha hb ⊢
    obtain ha | ha := ha
    · obtain hb | hb := hb
      · exact .inl ⟨ha.1.trans hap, hpb.trans_lt hb.2⟩
      · have hb' := hlater hb
        have ha' := ha.2
        omega
    · obtain hb | hb := hb
      · have ha' := hlater ha
        have hb' := hb.2
        omega
      · exact .inr (ih hl ha hb)

/-- A set of points has one spaced list. -/
theorem eq_of_points_eq (hg : 0 < g) (h : Spaced g l) (h' : Spaced g l')
    (heq : points l = points l') : l = l' := by
  induction l generalizing l' with
  | nil =>
    cases l' with
    | nil => rfl
    | cons y l' =>
      have hy : y.1 ∈ points (y :: l') := by simp [(cons_iff.mp h').1]
      rw [← heq] at hy
      simp at hy
  | cons x l ih =>
    obtain ⟨hx, hgap, hl⟩ := cons_iff.mp h
    cases l' with
    | nil =>
      have hx' : x.1 ∈ points (x :: l) := by simp [hx]
      rw [heq] at hx'
      simp at hx'
    | cons y l' =>
      obtain ⟨hy, hgap', hl'⟩ := cons_iff.mp h'
      have hmem (q : ℕ) : (q ∈ Set.Ico x.1 x.2 ∨ q ∈ points l) ↔
          (q ∈ Set.Ico y.1 y.2 ∨ q ∈ points l') := by
        have := congrArg (q ∈ ·) heq
        simpa using this
      have hlater {q : ℕ} (hq : q ∈ points l) : x.2 + g ≤ q := by
        obtain ⟨z, hz, hle, _⟩ := hq
        exact (hgap z hz).trans hle
      have hlater' {q : ℕ} (hq : q ∈ points l') : y.2 + g ≤ q := by
        obtain ⟨z, hz, hle, _⟩ := hq
        exact (hgap' z hz).trans hle
      simp only [Set.mem_Ico] at hmem
      have hx₁ := (hmem x.1).mp (.inl ⟨le_rfl, hx⟩)
      have hy₁ := (hmem y.1).mpr (.inl ⟨le_rfl, hy⟩)
      have hfirst : x.1 = y.1 := by
        obtain h₁ | h₁ := hx₁
        · obtain h₂ | h₂ := hy₁
          · omega
          · have := hlater h₂
            omega
        · have h₁' := hlater' h₁
          obtain h₂ | h₂ := hy₁
          · omega
          · have := hlater h₂
            omega
      have hlast : x.2 = y.2 := by
        -- the end of the shorter interval is in a gap of its list
        rcases Nat.lt_trichotomy x.2 y.2 with hlt | heq | hlt
        · obtain h₁ | h₁ := (hmem x.2).mpr (.inl ⟨by omega, hlt⟩)
          · omega
          · have := hlater h₁
            omega
        · exact heq
        · obtain h₁ | h₁ := (hmem y.2).mp (.inl ⟨by omega, hlt⟩)
          · omega
          · have := hlater' h₁
            omega
      have htail : points l = points l' := by
        ext q
        have hq := hmem q
        constructor
        · intro h₁
          obtain h₂ | h₂ := hq.mp (.inr h₁)
          · have := hlater h₁
            omega
          · exact h₂
        · intro h₁
          obtain h₂ | h₂ := hq.mpr (.inr h₁)
          · have := hlater' h₁
            omega
          · exact h₂
      rw [ih hl hl' htail, Prod.ext hfirst hlast]

end Spaced

/-! ## Consecutive intervals -/

/-- Nonempty intervals from `lo` to `hi`, each of which starts where the one before it ends. -/
def Consecutive : ℕ → ℕ → List (ℕ × ℕ) → Prop
  | lo, hi, [] => lo = hi
  | lo, hi, x :: l => x.1 = lo ∧ x.1 < x.2 ∧ Consecutive x.2 hi l

theorem Consecutive.le {lo hi : ℕ} {l : List (ℕ × ℕ)} (h : Consecutive lo hi l) : lo ≤ hi := by
  induction l generalizing lo with
  | nil => exact Nat.le_of_eq h
  | cons x l ih =>
    obtain ⟨rfl, hlt, hl⟩ := h
    exact hlt.le.trans (ih hl)

theorem Consecutive.mem {lo hi : ℕ} {l : List (ℕ × ℕ)} (h : Consecutive lo hi l) :
    ∀ x ∈ l, x.1 < x.2 ∧ x.2 ≤ hi := by
  induction l generalizing lo with
  | nil => exact fun _ h => (nomatch h)
  | cons x l ih =>
    obtain ⟨rfl, hlt, hl⟩ := h
    exact forall_mem_cons.mpr ⟨⟨hlt, hl.le⟩, ih hl⟩

end Intervals
