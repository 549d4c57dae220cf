import Mathlib.Data.List.Basic
import Mathlib.Logic.Function.Basic

/-!
# Patches

A segment is a run of values for a place in a store; a patch is a list of segments, which are written
one after the other.  `Turns ss a old new` says that the patch `ss` turns a store that holds `old`
from `a` on into one that holds `new` there, and that it changes nothing else.  Patches for adjacent
places are put together with `Turns.append`, and patches for one place with `Turns.trans`.
-/

open List

variable {α : Type}

structure Segment (α : Type) where
  offset : Nat
  data : List α

namespace Segment

/-- The store after the segment has been written. -/
def apply (s : Segment α) (f : Nat → α) : Nat → α := fun x =>
  if s.offset ≤ x then (s.data[x - s.offset]?).getD (f x) else f x

theorem apply_of_lt {s : Segment α} {f : Nat → α} {x : Nat} (h : x < s.offset) :
    s.apply f x = f x := if_neg (Nat.not_le.mpr h)

theorem apply_of_ge {s : Segment α} {f : Nat → α} {x : Nat} (h : s.offset + s.data.length ≤ x) :
    s.apply f x = f x := by
  unfold apply
  rw [getElem?_eq_none (by omega)]
  exact ite_self _

@[simp] theorem apply_nil (a : Nat) (f : Nat → α) : apply ⟨a, []⟩ f = f := by
  funext x
  unfold apply
  rw [getElem?_nil]
  exact ite_self _

/-- The values of a segment are written one after the other. -/
theorem apply_cons (a : Nat) (v : α) (l : List α) (f : Nat → α) :
    apply ⟨a, v :: l⟩ f = apply ⟨a + 1, l⟩ (Function.update f a v) := by
  funext x
  rcases Nat.lt_trichotomy x a with hx | rfl | hx
  · rw [apply_of_lt hx, apply_of_lt (by show x < a + 1; omega), Function.update_of_ne (by omega)]
  · have hlater : apply ⟨x + 1, l⟩ (Function.update f x v) x = v :=
      (apply_of_lt (Nat.lt_succ_self x)).trans (Function.update_self ..)
    rw [hlater]
    unfold apply
    simp
  · obtain ⟨k, rfl⟩ : ∃ k, x = a + 1 + k := ⟨x - (a + 1), by omega⟩
    unfold apply
    rw [if_pos (by show a ≤ a + 1 + k; omega), if_pos (Nat.le_add_right _ _),
      Function.update_of_ne (by omega), Nat.add_sub_cancel_left,
      show a + 1 + k - a = k + 1 by omega, getElem?_cons_succ]

end Segment

namespace Patch

/-- The store after all segments have been written. -/
def applyAll (ss : List (Segment α)) (f : Nat → α) : Nat → α := ss.foldl (fun f s => s.apply f) f

@[simp] theorem applyAll_cons (s : Segment α) (ss : List (Segment α)) (f : Nat → α) :
    applyAll (s :: ss) f = applyAll ss (s.apply f) := rfl

theorem applyAll_append (ss ss' : List (Segment α)) (f : Nat → α) :
    applyAll (ss ++ ss') f = applyAll ss' (applyAll ss f) := foldl_append

/-- The store holds the values of a list from `a` on. -/
def Holds (f : Nat → α) (a : Nat) (l : List α) : Prop := ∀ i x, l[i]? = some x → f (a + i) = x

theorem holds_append {f : Nat → α} {a : Nat} {l l' : List α} :
    Holds f a (l ++ l') ↔ Holds f a l ∧ Holds f (a + l.length) l' := by
  constructor
  · intro h
    constructor
    · intro i x hi
      have hlt : i < l.length := (List.getElem?_eq_some_iff.mp hi).1
      exact h i x (by rw [getElem?_append_left hlt]; exact hi)
    · intro i x hi
      rw [Nat.add_assoc]
      refine h (l.length + i) x ?_
      rw [getElem?_append_right (Nat.le_add_right _ _), Nat.add_sub_cancel_left]
      exact hi
  · rintro ⟨h, h'⟩ i x hi
    by_cases hlt : i < l.length
    · rw [getElem?_append_left hlt] at hi
      exact h i x hi
    · have hle : l.length ≤ i := Nat.not_lt.mp hlt
      rw [getElem?_append_right hle] at hi
      have hx := h' (i - l.length) x hi
      rwa [show a + l.length + (i - l.length) = a + i by omega] at hx

/-- Only what the store holds in the range of the list matters. -/
theorem Holds.congr {f g : Nat → α} {a : Nat} {l : List α} (h : Holds f a l)
    (hfg : ∀ x, a ≤ x → x < a + l.length → g x = f x) : Holds g a l := by
  intro i x hi
  have hlt : i < l.length := (List.getElem?_eq_some_iff.mp hi).1
  rw [hfg (a + i) (Nat.le_add_right _ _) (by omega)]
  exact h i x hi

/-- The patch turns `old` at `a` into `new`, and changes nothing else. -/
structure Turns (ss : List (Segment α)) (a : Nat) (old new : List α) : Prop where
  length_eq : old.length = new.length
  inside : ∀ f, Holds f a old → Holds (applyAll ss f) a new
  outside : ∀ f x, x < a ∨ a + new.length ≤ x → applyAll ss f x = f x

namespace Turns

variable {a : Nat} {old new old' new' : List α} {ss ss' : List (Segment α)}

theorem nil (l : List α) : Turns [] a l l where
  length_eq := rfl
  inside := fun _ h => h
  outside := fun _ _ _ => rfl

theorem single (h : old.length = new.length) : Turns [⟨a, new⟩] a old new where
  length_eq := h
  inside := by
    intro f _ i x hi
    show Segment.apply ⟨a, new⟩ f (a + i) = x
    unfold Segment.apply
    rw [if_pos (Nat.le_add_right a i), Nat.add_sub_cancel_left, hi]
    rfl
  outside := by
    rintro f x (hx | hx)
    · exact Segment.apply_of_lt hx
    · exact Segment.apply_of_ge hx

theorem append (h : Turns ss a old new) (h' : Turns ss' (a + new.length) old' new') :
    Turns (ss ++ ss') a (old ++ old') (new ++ new') where
  length_eq := by
    rw [length_append, length_append, h.length_eq, h'.length_eq]
  inside := by
    intro f hf
    obtain ⟨hold, hold'⟩ := holds_append.mp hf
    rw [h.length_eq] at hold'
    rw [applyAll_append]
    refine holds_append.mpr ⟨?_, h'.inside _ (hold'.congr fun x hx _ => h.outside f x (.inr hx))⟩
    exact (h.inside f hold).congr fun x _ hx => h'.outside _ x (.inl hx)
  outside := by
    intro f x hx
    rw [length_append] at hx
    rw [applyAll_append, h'.outside _ x (by omega), h.outside f x (by omega)]

/-- Two patches for the same place, one after the other. -/
theorem trans {mid : List α} (h : Turns ss a old mid) (h' : Turns ss' a mid new) :
    Turns (ss ++ ss') a old new where
  length_eq := h.length_eq.trans h'.length_eq
  inside := by
    intro f hf
    rw [applyAll_append]
    exact h'.inside _ (h.inside f hf)
  outside := by
    intro f x hx
    have hlen := h'.length_eq
    rw [applyAll_append, h'.outside _ x hx, h.outside f x (by omega)]

/-- On a store that holds the old values, the patch is the segment with the new ones. -/
theorem applyAll_eq (h : Turns ss a old new) {f : Nat → α} (hf : Holds f a old) :
    applyAll ss f = Segment.apply ⟨a, new⟩ f := by
  funext x
  by_cases hx : a ≤ x ∧ x < a + new.length
  · obtain ⟨k, rfl⟩ : ∃ k, x = a + k := ⟨x - a, by omega⟩
    have hk : k < new.length := by omega
    rw [h.inside f hf k new[k] (getElem?_eq_getElem hk)]
    unfold Segment.apply
    rw [if_pos (Nat.le_add_right a k), Nat.add_sub_cancel_left, getElem?_eq_getElem hk]
    rfl
  · rw [h.outside f x (by omega)]
    by_cases hlt : x < a
    · rw [Segment.apply_of_lt hlt]
    · rw [Segment.apply_of_ge (by show a + new.length ≤ x; omega)]

end Turns

end Patch
