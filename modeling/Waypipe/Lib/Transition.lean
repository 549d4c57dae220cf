import Mathlib.Order.Defs.Unbundled

/-!
# Runs of a partial transition function

`run step s es` performs the events `es` one after the other from `s`.  `Along step C s es` says
that every step of that run meets the condition `C`.  An invariant kept by every step that meets
the condition holds at the end of every such run (`run_invariant`), and so does a preorder that
every step respects (`run_rel`).
-/

namespace Transition

variable {σ ε : Type} {step : σ → ε → Option σ} {C : σ → ε → Prop} {P : σ → Prop}
  {s t u : σ} {e : ε} {es fs : List ε}

/-- The state after the events of a list; `none` when one of them is not enabled. -/
def run (step : σ → ε → Option σ) : σ → List ε → Option σ
  | s, [] => some s
  | s, e :: es => (step s e).bind fun t => run step t es

/-- Every step of the run over `es` from `s` meets `C`. -/
def Along (step : σ → ε → Option σ) (C : σ → ε → Prop) : σ → List ε → Prop
  | _, [] => True
  | s, e :: es => C s e ∧ ∀ t, step s e = some t → Along step C t es

instance decidableAlong (step : σ → ε → Option σ) (C : σ → ε → Prop) [∀ s e, Decidable (C s e)] :
    ∀ s es, Decidable (Along step C s es)
  | _, [] => isTrue trivial
  | s, e :: es =>
    match h : step s e with
    | none => decidable_of_iff (C s e) (by simp [Along, h])
    | some t =>
      have := decidableAlong step C t es
      decidable_of_iff (C s e ∧ Along step C t es) (by simp [Along, h])

theorem run_cons (h : run step s (e :: es) = some u) :
    ∃ t, step s e = some t ∧ run step t es = some u := Option.bind_eq_some_iff.mp h

theorem run_append : run step s (es ++ fs) = (run step s es).bind fun t => run step t fs := by
  induction es generalizing s with
  | nil => rfl
  | cons e es ih =>
    simp only [List.cons_append, run]
    cases step s e with
    | none => rfl
    | some t => exact ih

theorem run_trans (hrun : run step s es = some t) (hrun' : run step t fs = some u) :
    run step s (es ++ fs) = some u := by
  rw [run_append, hrun]
  exact hrun'

theorem Along.mono {D : σ → ε → Prop} (hCD : ∀ s e, C s e → D s e) (h : Along step C s es) :
    Along step D s es := by
  induction es generalizing s with
  | nil => trivial
  | cons e es ih => exact ⟨hCD s e h.1, fun t ht => ih (h.2 t ht)⟩

theorem Along.of_forall (h : ∀ s e, C s e) : Along step C s es := by
  induction es generalizing s with
  | nil => trivial
  | cons e es ih => exact ⟨h s e, fun t _ => ih⟩

theorem Along.of_forall_mem {D : ε → Prop} (h : ∀ e ∈ es, D e) :
    Along step (fun _ e => D e) s es := by
  induction es generalizing s with
  | nil => trivial
  | cons e es ih =>
    exact ⟨h e List.mem_cons_self, fun t _ => ih fun e he => h e (List.mem_cons_of_mem _ he)⟩

theorem Along.and {D : σ → ε → Prop} (h : Along step C s es) (h' : Along step D s es) :
    Along step (fun s e => C s e ∧ D s e) s es := by
  induction es generalizing s with
  | nil => trivial
  | cons e es ih => exact ⟨⟨h.1, h'.1⟩, fun t ht => ih (h.2 t ht) (h'.2 t ht)⟩

theorem Along.append_right (h : Along step C s (es ++ fs)) (hrun : run step s es = some t) :
    Along step C t fs := by
  induction es generalizing s with
  | nil => cases hrun; exact h
  | cons e es ih =>
    obtain ⟨u, hu, hrest⟩ := run_cons hrun
    exact ih (h.2 u hu) hrest

theorem Along.append_left (h : Along step C s (es ++ fs)) : Along step C s es := by
  induction es generalizing s with
  | nil => trivial
  | cons e es ih => exact ⟨h.1, fun t ht => ih (h.2 t ht)⟩

/-- What every step that meets the condition preserves, a whole run preserves. -/
theorem run_invariant (hstep : ∀ s e t, P s → C s e → step s e = some t → P t) (hs : P s)
    (halong : Along step C s es) (hrun : run step s es = some t) : P t := by
  induction es generalizing s with
  | nil => cases hrun; exact hs
  | cons e es ih =>
    obtain ⟨u, hu, hrest⟩ := run_cons hrun
    exact ih (hstep s e u hs halong.1 hu) (halong.2 u hu) hrest

/-- A preorder that every step respects, under an invariant, relates the ends of a run. -/
theorem run_rel {R : σ → σ → Prop} (hrefl : ∀ s, R s s) (htrans : ∀ s t u, R s t → R t u → R s u)
    (hinv : ∀ s e t, P s → C s e → step s e = some t → P t)
    (hstep : ∀ s e t, P s → C s e → step s e = some t → R s t) (hs : P s)
    (halong : Along step C s es) (hrun : run step s es = some t) : R s t := by
  induction es generalizing s with
  | nil => cases hrun; exact hrefl _
  | cons e es ih =>
    obtain ⟨u, hu, hrest⟩ := run_cons hrun
    exact htrans s u t (hstep s e u hs halong.1 hu)
      (ih (hinv s e u hs halong.1 hu) (halong.2 u hu) hrest)

end Transition
