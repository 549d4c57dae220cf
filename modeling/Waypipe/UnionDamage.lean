import Waypipe.Damage
import Waypipe.Lib.Intervals

/-!
# Union of damage

`unionDamage` is the union of two lists of intervals with its short gaps closed.  The lists that pass
`validateOutput` are the spaced ones with aligned ends, so the result is determined by its points
(`unionDamage_gap_closed`), and the laws of a semilattice follow from those of the closure.
-/

namespace Waypipe

open Intervals List

variable {c x : Nat × Nat}

/-! ## Lists that are valid -/

/-- The ends of all intervals are multiples of `2 ^ alignBits`. -/
def EndsAligned (alignBits : Nat) (l : List (Nat × Nat)) : Prop :=
  ∀ x ∈ l, 2 ^ alignBits ∣ x.1 ∧ 2 ^ alignBits ∣ x.2

theorem validateOutput_iff {a : List (Nat × Nat)} {alignBits minGap : Nat} :
    validateOutput a alignBits minGap = true ↔ Spaced minGap a ∧ EndsAligned alignBits a := by
  induction a with
  | nil => simp [validateOutput, EndsAligned, Spaced.nil]
  | cons x a ih =>
    have htail : validateOutput (x :: a) alignBits minGap = true ↔
        ((x.1 < x.2 ∧ 2 ^ alignBits ∣ x.1 ∧ 2 ^ alignBits ∣ x.2) ∧
          ∀ y ∈ a.head?, x.2 + minGap ≤ y.1) ∧ validateOutput a alignBits minGap = true := by
      cases a with
      | nil => simp [validateOutput, Nat.dvd_iff_mod_eq_zero, and_assoc]
      | cons y a =>
        simp only [validateOutput, all_cons, tail_cons, zip_cons_cons,
          Bool.and_eq_true, decide_eq_true_eq, beq_iff_eq, Nat.dvd_iff_mod_eq_zero, head?_cons,
          Option.mem_def, Option.some.injEq, forall_eq']
        tauto
    rw [htail, ih, Spaced.cons_iff]
    simp only [EndsAligned, forall_mem_cons]
    constructor
    · rintro ⟨⟨⟨hx, halign⟩, hhead⟩, hspaced, haligned⟩
      refine ⟨⟨hx, ?_, hspaced⟩, halign, haligned⟩
      cases a with
      | nil => exact fun y hy => (nomatch hy)
      | cons y a =>
        -- later intervals start after the next one
        have hxy := hhead y rfl
        obtain ⟨hy, hgap, _⟩ := Spaced.cons_iff.mp hspaced
        intro z hz
        obtain rfl | hz := mem_cons.mp hz
        · exact hxy
        · have hyz := hgap z hz
          omega
    · rintro ⟨⟨hx, hgap, hspaced⟩, halign, haligned⟩
      exact ⟨⟨⟨hx, halign⟩, fun y hy => hgap y (mem_of_head? hy)⟩, hspaced, haligned⟩

theorem validateOutput_zero_iff {a : List (Nat × Nat)} {minGap : Nat} :
    validateOutput a 0 minGap = true ↔ Spaced minGap a := by
  simp [validateOutput_iff, EndsAligned]

/-! ## Closing gaps -/

section closeGaps

variable {minGap : Nat} {l : List (Nat × Nat)} {last : Option (Nat × Nat)}

theorem closeGaps_join (h : x.1 ≤ c.2 ∨ x.1 - c.2 < minGap) :
    closeGaps minGap (x :: l) (some c) = closeGaps minGap l (some (c.1, max c.2 x.2)) := by
  simp only [closeGaps, joinSegment, if_pos h, nil_append]

theorem closeGaps_push (h : ¬(x.1 ≤ c.2 ∨ x.1 - c.2 < minGap)) :
    closeGaps minGap (x :: l) (some c) = c :: closeGaps minGap l (some x) := by
  simp only [closeGaps, joinSegment, if_neg h, singleton_append]

/-- Ends of intervals are kept. -/
theorem mem_closeGaps {y : Nat × Nat} (h : y ∈ closeGaps minGap l last) :
    (∃ x ∈ last.toList ++ l, y.1 = x.1) ∧ ∃ x ∈ last.toList ++ l, y.2 = x.2 := by
  induction l generalizing last with
  | nil =>
    rw [append_nil]
    exact ⟨⟨y, h, rfl⟩, y, h, rfl⟩
  | cons x l ih =>
    cases last with
    | none => exact ih h
    | some c =>
      by_cases hjoin : x.1 ≤ c.2 ∨ x.1 - c.2 < minGap
      · rw [closeGaps_join hjoin] at h
        obtain ⟨⟨u, hu, hyu⟩, v, hv, hyv⟩ := ih h
        simp only [Option.toList_some, singleton_append, mem_cons] at hu hv ⊢
        constructor
        · obtain rfl | hu := hu
          · exact ⟨c, .inl rfl, hyu⟩
          · exact ⟨u, .inr (.inr hu), hyu⟩
        · obtain rfl | hv := hv
          · obtain hmax | hmax := max_choice c.2 x.2
            · exact ⟨c, .inl rfl, hyv.trans hmax⟩
            · exact ⟨x, .inr (.inl rfl), hyv.trans hmax⟩
          · exact ⟨v, .inr (.inr hv), hyv⟩
      · rw [closeGaps_push hjoin] at h
        obtain rfl | h := mem_cons.mp h
        · exact ⟨⟨y, by simp, rfl⟩, y, by simp, rfl⟩
        · obtain ⟨⟨u, hu, hyu⟩, v, hv, hyv⟩ := ih h
          exact ⟨⟨u, mem_cons_of_mem _ hu, hyu⟩, v, mem_cons_of_mem _ hv, hyv⟩

/-- Nonempty intervals in the order of their starts; the list may start with the interval that is
being built. -/
structure StartsSorted (l : List (Nat × Nat)) : Prop where
  nonempty : ∀ x ∈ l, x.1 < x.2
  sorted : l.Pairwise fun x y => x.1 ≤ y.1

theorem StartsSorted.of_cons {x : Nat × Nat} (h : StartsSorted (x :: l)) : StartsSorted l :=
  ⟨fun y hy => h.nonempty y (mem_cons_of_mem _ hy), h.sorted.of_cons⟩

theorem StartsSorted.join (h : StartsSorted (c :: x :: l)) :
    StartsSorted ((c.1, max c.2 x.2) :: l) := by
  obtain ⟨hc, hsorted⟩ := pairwise_cons.mp h.sorted
  refine ⟨?_, pairwise_cons.mpr ⟨fun y hy => hc y (mem_cons_of_mem _ hy),
    hsorted.of_cons⟩⟩
  intro y hy
  obtain rfl | hy := mem_cons.mp hy
  · exact lt_max_of_lt_left (h.nonempty c mem_cons_self)
  · exact h.nonempty y (by simp [hy])

/-- The points between two intervals that are joined are in a short gap. -/
theorem gapClosure_join {s : Set Nat} (hc : c.1 < c.2) (hx : x.1 < x.2)
    (hcx : c.1 ≤ x.1) (h : x.1 ≤ c.2 ∨ x.1 - c.2 < minGap) :
    gapClosure minGap (Set.Ico c.1 (max c.2 x.2) ∪ s) =
      gapClosure minGap (Set.Ico c.1 c.2 ∪ (Set.Ico x.1 x.2 ∪ s)) := by
  apply le_antisymm
  · rw [(gapClosure minGap).le_closure_iff.symm]
    rintro p (⟨hlo, hhi⟩ | hp)
    · rw [mem_gapClosure]
      by_cases hpc : p < c.2
      · exact ⟨p, .inl ⟨hlo, hpc⟩, p, .inl ⟨hlo, hpc⟩, le_rfl, le_rfl, Nat.le_add_right _ _⟩
      · have hpx : p < x.2 := by
          obtain hlt | hlt := lt_max_iff.mp hhi
          · exact absurd hlt hpc
          · exact hlt
        by_cases hxp : x.1 ≤ p
        · have hmem : p ∈ Set.Ico c.1 c.2 ∪ (Set.Ico x.1 x.2 ∪ s) := .inr (.inl ⟨hxp, hpx⟩)
          exact ⟨p, hmem, p, hmem, le_rfl, le_rfl, Nat.le_add_right _ _⟩
        · refine ⟨c.2 - 1, .inl ⟨by omega, by omega⟩, x.1, .inr (.inl ⟨le_rfl, hx⟩), ?_, ?_, ?_⟩
          · omega
          · omega
          · omega
    · exact (gapClosure minGap).le_closure _ (.inr (.inr hp))
  · apply (gapClosure minGap).monotone
    rintro p (hp | hp | hp)
    · exact .inl ⟨hp.1, lt_max_of_lt_left hp.2⟩
    · exact .inl ⟨hcx.trans hp.1, lt_max_of_lt_right hp.2⟩
    · exact .inr hp

/-- What comes out has no short gaps, and covers what went in and its short gaps. -/
theorem closeGaps_spec (h : StartsSorted (last.toList ++ l)) :
    Spaced minGap (closeGaps minGap l last) ∧
      points (closeGaps minGap l last) = gapClosure minGap (points (last.toList ++ l)) := by
  induction l generalizing last with
  | nil =>
    rw [append_nil] at h ⊢
    have hspaced : Spaced minGap last.toList := by
      cases last with
      | none => exact .nil
      | some c => exact .singleton (h.nonempty c mem_cons_self)
    exact ⟨hspaced, hspaced.isClosed.closure_eq.symm⟩
  | cons x l ih =>
    cases last with
    | none => exact ih h
    | some c =>
      have hc := h.nonempty c mem_cons_self
      have hx := h.nonempty x (by simp)
      have hcx := rel_of_pairwise_cons h.sorted mem_cons_self
      by_cases hjoin : x.1 ≤ c.2 ∨ x.1 - c.2 < minGap
      · obtain ⟨hspaced, hpoints⟩ := @ih (some (c.1, max c.2 x.2)) h.join
        rw [closeGaps_join hjoin]
        refine ⟨hspaced, hpoints.trans ?_⟩
        simp only [Option.toList_some, singleton_append, points_cons]
        exact gapClosure_join hc hx hcx hjoin
      · obtain ⟨hspaced, hpoints⟩ := @ih (some x) h.of_cons
        rw [closeGaps_push hjoin]
        have hlater : ∀ y ∈ closeGaps minGap l (some x), c.2 + minGap ≤ y.1 := by
          intro y hy
          obtain ⟨⟨u, hu, hyu⟩, -⟩ := mem_closeGaps hy
          have hxu : x.1 ≤ u.1 := by
            obtain rfl | hu := mem_cons.mp hu
            · exact le_rfl
            · exact rel_of_pairwise_cons h.of_cons.sorted hu
          omega
        have hcons : Spaced minGap (c :: closeGaps minGap l (some x)) :=
          Spaced.cons_iff.mpr ⟨hc, hlater, hspaced⟩
        refine ⟨hcons, le_antisymm ?_ ?_⟩
        · rw [points_cons, hpoints]
          refine Set.union_subset (fun p hp => ?_) ((gapClosure minGap).monotone ?_)
          · exact (gapClosure minGap).le_closure _ (by simp [hp])
          · simp
        · rw [hcons.isClosed.closure_le_iff]
          have hle := (gapClosure minGap).le_closure (points (x :: l))
          rw [show points (x :: l) = points ((some x).toList ++ l) from rfl, ← hpoints] at hle
          intro p hp
          rw [points_cons]
          simp only [Option.toList_some, singleton_append] at hp
          rw [points_cons] at hp
          obtain hp | hp := hp
          · exact .inl hp
          · exact .inr (hle hp)

end closeGaps

/-! ## The union -/

section Union

variable {minGap : Nat} {a b : List (Nat × Nat)}

theorem StartsSorted.of_spaced (h : Spaced minGap a) : StartsSorted a := by
  refine ⟨h.nonempty, h.apart.imp_of_mem ?_⟩
  intro x y hx _ hxy
  have hne := h.nonempty x hx
  omega

theorem mergeByStart_perm : (mergeByStart a b).Perm (a ++ b) := merge_perm_append _

theorem mergeByStart_sorted (ha : StartsSorted a) (hb : StartsSorted b) :
    StartsSorted (mergeByStart a b) := by
  constructor
  · intro x hx
    obtain hx | hx := mem_merge.mp hx
    · exact ha.nonempty x hx
    · exact hb.nonempty x hx
  · have hmerged : (mergeByStart a b).Pairwise fun x y => decide (x.1 ≤ y.1) = true := by
      refine pairwise_merge ?_ ?_ a b (ha.sorted.imp decide_eq_true)
        (hb.sorted.imp decide_eq_true)
      · intro x y z
        simp only [decide_eq_true_eq]
        exact Nat.le_trans
      · intro x y
        simp only [Bool.or_eq_true, decide_eq_true_eq]
        exact Nat.le_total x.1 y.1
    exact hmerged.imp of_decide_eq_true

/-- What the union is, for lists that pass the asserts. -/
theorem unionDamage_ok (ha : Spaced minGap a) (hb : Spaced minGap b) :
    ∃ out, unionDamage a b minGap = .ok out ∧ Spaced minGap out ∧
      points out = gapClosure minGap (points a ∪ points b) ∧
      ∀ y ∈ out, (∃ x ∈ a ++ b, y.1 = x.1) ∧ ∃ x ∈ a ++ b, y.2 = x.2 := by
  refine ⟨closeGaps minGap (mergeByStart a b) none, ?_, ?_⟩
  · unfold unionDamage
    rw [assert_of (validateOutput_zero_iff.mpr ha), assert_of (validateOutput_zero_iff.mpr hb)]
    rfl
  · have hsorted : StartsSorted (none.toList ++ mergeByStart a b) :=
      mergeByStart_sorted (.of_spaced ha) (.of_spaced hb)
    obtain ⟨hspaced, hpoints⟩ := @closeGaps_spec minGap _ none hsorted
    refine ⟨hspaced, ?_, fun y hy => ?_⟩
    · rw [hpoints, ← points_append]
      exact congrArg _ (points_perm mergeByStart_perm)
    · obtain ⟨⟨x, hx, hyx⟩, z, hz, hyz⟩ := mem_closeGaps hy
      exact ⟨⟨x, mergeByStart_perm.mem_iff.mp hx, hyx⟩, z, mergeByStart_perm.mem_iff.mp hz, hyz⟩

variable (hgap : 0 < minGap) (ha : Spaced minGap a) (hb : Spaced minGap b)
include hgap ha hb

/-- The union is the only spaced list with these points. -/
theorem unionDamage_eq_ok_iff {out : List (Nat × Nat)} : unionDamage a b minGap = .ok out ↔
      Spaced minGap out ∧ points out = gapClosure minGap (points a ∪ points b) := by
  obtain ⟨out', hok, hspaced, hpoints, -⟩ := unionDamage_ok ha hb
  rw [hok]
  constructor
  · intro heq
    cases heq
    exact ⟨hspaced, hpoints⟩
  · rintro ⟨hspaced', hpoints'⟩
    rw [hspaced.eq_of_points_eq hgap hspaced' (hpoints.trans hpoints'.symm)]

theorem unionDamage_comm : unionDamage a b minGap = unionDamage b a minGap := by
  obtain ⟨out, hok, hspaced, hpoints, -⟩ := unionDamage_ok hb ha
  rw [hok, unionDamage_eq_ok_iff hgap ha hb]
  exact ⟨hspaced, by rw [hpoints, Set.union_comm]⟩

/-- Intervals that are in the list already change nothing. -/
theorem unionDamage_of_subset (hsub : points b ⊆ points a) : unionDamage a b minGap = .ok a := by
  rw [unionDamage_eq_ok_iff hgap ha hb, Set.union_eq_self_of_subset_right hsub]
  exact ⟨ha, ha.isClosed.closure_eq.symm⟩

theorem unionDamage_assoc {c : List (Nat × Nat)} (hc : Spaced minGap c) :
    (unionDamage a b minGap >>= fun ab => unionDamage ab c minGap) =
      (unionDamage b c minGap >>= fun bc => unionDamage a bc minGap) := by
  obtain ⟨ab, hab, hab', hpoints, -⟩ := unionDamage_ok ha hb
  obtain ⟨bc, hbc, hbc', hpoints', -⟩ := unionDamage_ok hb hc
  obtain ⟨abc, habc, habc', hpoints'', -⟩ := unionDamage_ok ha hbc'
  rw [hab, hbc, Res.ok_bind, Res.ok_bind, habc, unionDamage_eq_ok_iff hgap hab' hc]
  refine ⟨habc', ?_⟩
  calc points abc = gapClosure minGap (points a ∪ gapClosure minGap (points b ∪ points c)) := by
        rw [hpoints'', hpoints']
    _ = gapClosure minGap (points a ∪ (points b ∪ points c)) :=
        (gapClosure minGap).closure_sup_closure_right _ _
    _ = gapClosure minGap ((points a ∪ points b) ∪ points c) := by rw [Set.union_assoc]
    _ = gapClosure minGap (gapClosure minGap (points a ∪ points b) ∪ points c) :=
        ((gapClosure minGap).closure_sup_closure_left _ _).symm
    _ = gapClosure minGap (points ab ∪ points c) := by rw [hpoints]

end Union

/-- The union of valid lists is valid, has the ends that they have, and covers what they cover and
the gaps with fewer than `minGap` bytes; so it is commutative, associative and idempotent, and the
empty list is neutral. -/
theorem unionDamage_gap_closed (minGap : Nat) (hgap : 1 ≤ minGap) (a b : List (Nat × Nat))
    (ha : validateOutput a 0 minGap = true) (hb : validateOutput b 0 minGap = true) :
    (∃ out, unionDamage a b minGap = .ok out ∧ validateOutput out 0 minGap = true ∧
      (∀ y ∈ out, (∃ x ∈ a ++ b, y.1 = x.1) ∧ ∃ x ∈ a ++ b, y.2 = x.2) ∧
      points out = (points a ∪ points b) ∪ shortGaps minGap (points a ∪ points b)) ∧
    unionDamage a b minGap = unionDamage b a minGap ∧
    unionDamage a a minGap = .ok a ∧
    unionDamage a [] minGap = .ok a ∧ unionDamage [] a minGap = .ok a ∧
    ∀ c, validateOutput c 0 minGap = true →
      (unionDamage a b minGap >>= fun ab => unionDamage ab c minGap) =
        (unionDamage b c minGap >>= fun bc => unionDamage a bc minGap) := by
  have ha := validateOutput_zero_iff.mp ha
  have hb := validateOutput_zero_iff.mp hb
  have hright : unionDamage a [] minGap = .ok a := unionDamage_of_subset hgap ha .nil (by simp)
  refine ⟨?_, unionDamage_comm hgap ha hb, unionDamage_of_subset hgap ha ha le_rfl, hright, ?_, ?_⟩
  · obtain ⟨out, hok, hspaced, hpoints, hends⟩ := unionDamage_ok ha hb
    exact ⟨out, hok, validateOutput_zero_iff.mpr hspaced, hends, hpoints.trans gapClosure_eq⟩
  · rw [unionDamage_comm hgap .nil ha, hright]
  · intro c hc
    exact unionDamage_assoc hgap ha hb (validateOutput_zero_iff.mp hc)

theorem unionDamage_gap_closed_rows :
    validateOutput [(8, 10), (14, 20)] 0 4 = true ∧
      ∃ out, unionDamage [(0, 6)] [(8, 10), (14, 20)] 4 = .ok out ∧ 7 ∈ points out := by
  refine ⟨by decide, ?_⟩
  obtain ⟨⟨out, hok, -, -, hpoints⟩, -⟩ := unionDamage_gap_closed 4 (by decide) [(0, 6)]
    [(8, 10), (14, 20)] (by decide) (by decide)
  refine ⟨out, hok, ?_⟩
  rw [hpoints, ← gapClosure_eq]
  exact ⟨5, by simp, 8, by simp, by decide, by decide, by decide⟩

end Waypipe
