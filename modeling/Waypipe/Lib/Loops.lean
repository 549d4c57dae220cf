import Mathlib.Data.List.Forall2

/-!
# Loops that do not fail

A loop over a list returns when its body does for every element, and what the body ensures for an
element holds between the lists, place by place.
-/

variable {ε α β : Type}

theorem Except.mapM_eq_ok {f : α → Except ε β} {P : α → β → Prop} {l : List α}
    (h : ∀ a ∈ l, ∃ b, f a = .ok b ∧ P a b) : ∃ bs, l.mapM f = .ok bs ∧ List.Forall₂ P l bs := by
  induction l with
  | nil => exact ⟨[], rfl, .nil⟩
  | cons a l ih =>
    obtain ⟨b, hb, hP⟩ := h a List.mem_cons_self
    obtain ⟨bs, hbs, hall⟩ := ih fun x hx => h x (List.mem_cons_of_mem _ hx)
    refine ⟨b :: bs, ?_, .cons hP hall⟩
    rw [List.mapM_cons, hb, hbs]
    rfl

theorem Except.forM_eq_ok {f : α → Except ε PUnit} {l : List α} (h : ∀ a ∈ l, f a = .ok ⟨⟩) :
    l.forM f = .ok ⟨⟩ := by
  induction l with
  | nil => rfl
  | cons a l ih =>
    show (f a >>= fun _ => l.forM f) = _
    rw [h a List.mem_cons_self]
    exact ih fun x hx => h x (List.mem_cons_of_mem _ hx)

theorem Except.filterAuxM_eq_ok {f : α → Except ε Bool} {p : α → Bool} {l acc : List α}
    (h : ∀ a ∈ l, f a = .ok (p a)) : l.filterAuxM f acc = .ok ((l.filter p).reverse ++ acc) := by
  induction l generalizing acc with
  | nil => rfl
  | cons a l ih =>
    show (f a >>= fun b => l.filterAuxM f (cond b (a :: acc) acc)) = _
    rw [h a List.mem_cons_self]
    refine (ih fun x hx => h x (List.mem_cons_of_mem _ hx)).trans ?_
    cases hp : p a with
    | true => simp [hp]
    | false => simp [hp]

theorem Except.filterM_eq_ok {f : α → Except ε Bool} {p : α → Bool} {l : List α}
    (h : ∀ a ∈ l, f a = .ok (p a)) : l.filterM f = .ok (l.filter p) := by
  show (l.filterAuxM f [] >>= fun as => pure as.reverse) = _
  rw [Except.filterAuxM_eq_ok h]
  simp [bind, Except.bind, pure, Except.pure]

section Forall₂

variable {R : α → β → Prop} {l : List α} {l' : List β}

theorem List.Forall₂.exists_left (h : List.Forall₂ R l l') {b : β} (hb : b ∈ l') :
    ∃ a ∈ l, R a b := by
  induction h with
  | nil => cases hb
  | cons hR _ ih =>
    obtain rfl | hb := List.mem_cons.mp hb
    · exact ⟨_, List.mem_cons_self, hR⟩
    · obtain ⟨a, ha, hab⟩ := ih hb
      exact ⟨a, List.mem_cons_of_mem _ ha, hab⟩

theorem List.Forall₂.exists_right (h : List.Forall₂ R l l') {a : α} (ha : a ∈ l) :
    ∃ b ∈ l', R a b := by
  obtain ⟨b, hb, hab⟩ := h.flip.exists_left ha
  exact ⟨b, hb, hab⟩

end Forall₂
