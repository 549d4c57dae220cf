import Mathlib.Data.List.Basic

/-!
# Records of a fixed size

A list of records of `k` elements each, one after another, is read back record by record.
-/

namespace List

variable {α β γ : Type} {f : α → List β} {k : Nat} {l : List α}

theorem length_flatMap_of_forall (hlen : ∀ a ∈ l, (f a).length = k) :
    (l.flatMap f).length = l.length * k := by
  induction l with
  | nil => simp
  | cons a l ih =>
    rw [flatMap_cons, length_append, hlen a mem_cons_self, ih fun b hb => hlen b (mem_cons_of_mem _ hb),
      length_cons, Nat.succ_mul, Nat.add_comm]

theorem drop_flatMap_of_forall (hlen : ∀ a ∈ l, (f a).length = k) (i : Nat) :
    (l.flatMap f).drop (k * i) = (l.drop i).flatMap f := by
  induction i generalizing l with
  | zero => rfl
  | succ i ih =>
    cases l with
    | nil => simp
    | cons a l =>
      rw [flatMap_cons, Nat.mul_succ, Nat.add_comm, ← drop_drop, drop_left' (hlen a mem_cons_self),
        ih fun b hb => hlen b (mem_cons_of_mem _ hb), drop_succ_cons]

/-- Whatever is read from the front of a record, is read from every record. -/
theorem map_range_flatMap {g : List β → γ} {h : α → γ} (hk : 0 < k)
    (hlen : ∀ a ∈ l, (f a).length = k) (hg : ∀ a ∈ l, ∀ rest, g (f a ++ rest) = h a) :
    (range ((l.flatMap f).length / k)).map (fun i => g ((l.flatMap f).drop (k * i))) = l.map h := by
  rw [length_flatMap_of_forall hlen, Nat.mul_div_cancel _ hk]
  apply ext_getElem
  · simp
  · intro i h₁ h₂
    have hi : i < l.length := by simpa using h₂
    rw [getElem_map, getElem_range, getElem_map, drop_flatMap_of_forall hlen, drop_eq_getElem_cons hi,
      flatMap_cons]
    exact hg _ (getElem_mem hi) _

end List
