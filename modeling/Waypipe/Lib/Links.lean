import Mathlib.Data.List.Basic

/-!
# Computations that lose their state when they fail

For a computation in `StateT σ (Except ε)` only the runs that return matter: `Links R m` says that
each of them relates the state before to the state after by `R`.  The rules follow the operations;
`bind` composes two relations, so that `R` can also count what is taken from the state.
-/

section

variable {ε σ α β : Type}

theorem StateT.run_bind_eq_ok {m : StateT σ (Except ε) α} {f : α → StateT σ (Except ε) β}
    {s u : σ} {b : β} :
    (m >>= f).run s = .ok (b, u) ↔ ∃ a t, m.run s = .ok (a, t) ∧ (f a).run t = .ok (b, u) := by
  rw [StateT.run_bind]
  cases h : m.run s with
  | error e => simp [bind, Except.bind]
  | ok x =>
    obtain ⟨a, t⟩ := x
    simp [bind, Except.bind]

theorem StateT.run_lift_eq_ok {x : Except ε α} {s t : σ} {a : α} :
    (liftM x : StateT σ (Except ε) α).run s = .ok (a, t) ↔ x = .ok a ∧ t = s := by
  show (x >>= fun b => Except.ok (b, s)) = _ ↔ _
  cases x with
  | error e => simp [bind, Except.bind]
  | ok b => simp [bind, Except.bind, eq_comm]

/-- Every run that returns relates the states before and after. -/
def Links (R : σ → σ → Prop) (m : StateT σ (Except ε) α) : Prop :=
  ∀ s a t, m.run s = .ok (a, t) → R s t

namespace Links

variable {R S T : σ → σ → Prop}

theorem bind {m : StateT σ (Except ε) α} {f : α → StateT σ (Except ε) β}
    (hcomp : ∀ s t u, R s t → S t u → T s u) (hm : Links R m) (hf : ∀ a, Links S (f a)) :
    Links T (m >>= f) := by
  intro s b u hrun
  obtain ⟨a, t, ha, hb⟩ := StateT.run_bind_eq_ok.mp hrun
  exact hcomp s t u (hm s a t ha) (hf a t b u hb)

theorem pure (hrefl : ∀ s, R s s) (a : α) : Links R (pure a : StateT σ (Except ε) α) := by
  intro s b t hrun
  cases hrun
  exact hrefl s

theorem get (hrefl : ∀ s, R s s) : Links R (get : StateT σ (Except ε) σ) := by
  intro s b t hrun
  cases hrun
  exact hrefl s

theorem modify {f : σ → σ} (hf : ∀ s, R s (f s)) :
    Links R (modify f : StateT σ (Except ε) PUnit) := by
  intro s b t hrun
  cases hrun
  exact hf s

theorem lift (hrefl : ∀ s, R s s) (x : Except ε α) :
    Links R (liftM x : StateT σ (Except ε) α) := by
  intro s a t hrun
  cases (StateT.run_lift_eq_ok.mp hrun).2
  exact hrefl s

theorem throw (e : ε) : Links R (throw e : StateT σ (Except ε) α) := by
  intro s a t hrun
  cases hrun

end Links

end
