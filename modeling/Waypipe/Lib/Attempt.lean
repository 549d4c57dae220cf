import Mathlib.Logic.Basic

/-!
# Attempts

An attempt is a step of a program that may find that it cannot be taken yet: it then gives a
verdict other than `done` and is made again later.  Attempts are put together from four pieces:
looking at the state (`reading`), a check that may stop the attempt (`gate`), the step itself
(`commit`), and changes made before it is known whether the step can be taken (`first`).

* `Stalls`: what an attempt that is not done does to the state; `StallsInPlace`: nothing.
* `Transparent`: making the attempt again after it stalled is the same as making it once.  It
  follows from `StallsInPlace`, and for `first` from the change being idempotent.  `TransparentAt`
  is the same for one state.
-/

/-- A verdict and the state that is left, or an error. -/
abbrev Attempt (ε σ π : Type) := σ → Except ε (π × σ)

namespace Attempt

variable {ε σ π α : Type}

def stop (p : π) : Attempt ε σ π := fun s => .ok (p, s)

/-- Look at the state and go on with what is found. -/
def reading (r : σ → Except ε α) (k : α → Attempt ε σ π) : Attempt ε σ π := fun s =>
  match r s with
  | .ok a => k a s
  | .error e => .error e

/-- Stop when the check gives a verdict. -/
def gate (check : σ → Except ε (Option π)) (k : Attempt ε σ π) : Attempt ε σ π :=
  reading check fun
    | some p => stop p
    | none => k

/-- Take the step. -/
def commit (done : π) (m : σ → Except ε σ) : Attempt ε σ π := fun s =>
  match m s with
  | .ok t => .ok (done, t)
  | .error e => .error e

/-- Change the state, then go on. -/
def first (m : σ → Except ε σ) (k : Attempt ε σ π) : Attempt ε σ π := fun s =>
  match m s with
  | .ok t => k t
  | .error e => .error e

variable {h k : Attempt ε σ π} {done p : π} {m : σ → Except ε σ} {s t : σ}

theorem reading_eq_ok {r : σ → Except ε α} {k : α → Attempt ε σ π} {x : π × σ} :
    reading r k s = .ok x ↔ ∃ a, r s = .ok a ∧ k a s = .ok x := by
  unfold reading
  cases r s with
  | ok a => simp
  | error e => simp

theorem gate_eq_ok {check : σ → Except ε (Option π)} {x : π × σ} :
    gate check k s = .ok x ↔
      (∃ p, check s = .ok (some p) ∧ x = (p, s)) ∨ (check s = .ok none ∧ k s = .ok x) := by
  unfold gate
  rw [reading_eq_ok]
  constructor
  · rintro ⟨a, ha, hx⟩
    cases a with
    | none => exact Or.inr ⟨ha, hx⟩
    | some p => exact Or.inl ⟨p, ha, by cases hx; rfl⟩
  · rintro (⟨p, hp, rfl⟩ | ⟨hn, hx⟩)
    · exact ⟨some p, hp, rfl⟩
    · exact ⟨none, hn, hx⟩

theorem commit_eq_ok {x : π × σ} :
    commit done m s = .ok x ↔ x.1 = done ∧ m s = .ok x.2 := by
  unfold commit
  cases m s with
  | ok t =>
    constructor
    · intro hx
      cases hx
      exact ⟨rfl, rfl⟩
    · rintro ⟨h1, h2⟩
      cases h2
      rw [← h1]
  | error e => simp

theorem first_eq_ok {x : π × σ} :
    first m k s = .ok x ↔ ∃ t, m s = .ok t ∧ k t = .ok x := by
  unfold first
  cases m s with
  | ok t => simp
  | error e => simp

/-! ## What a stall leaves behind -/

/-- An attempt that is not done leaves a state that is related to the one before. -/
def Stalls (done : π) (R : σ → σ → Prop) (h : Attempt ε σ π) : Prop :=
  ∀ s p t, h s = .ok (p, t) → p ≠ done → R s t

namespace Stalls

variable {R : σ → σ → Prop}

theorem stop (hrefl : ∀ s, R s s) (p : π) : Stalls done R (stop p : Attempt ε σ π) := by
  intro s q t hst _
  cases hst
  exact hrefl s

theorem reading {r : σ → Except ε α} {k : α → Attempt ε σ π}
    (hk : ∀ a, Stalls done R (k a)) : Stalls done R (reading r k) := by
  intro s p t hst hp
  obtain ⟨a, _, ha⟩ := reading_eq_ok.mp hst
  exact hk a s p t ha hp

theorem gate {check : σ → Except ε (Option π)} (hrefl : ∀ s, R s s) (hk : Stalls done R k) :
    Stalls done R (gate check k) := by
  apply Stalls.reading
  intro a
  cases a with
  | none => exact hk
  | some p => exact Stalls.stop hrefl p

theorem commit : Stalls done R (commit done m) := by
  intro s p t hst hp
  exact absurd (commit_eq_ok.mp hst).1 hp

end Stalls

/-- An attempt that is not done leaves the state as it was. -/
def StallsInPlace (done : π) (h : Attempt ε σ π) : Prop := Stalls done (fun s t => t = s) h

/-! ## Attempts that can be made again -/

section Transparency

-- how the state may change between a verdict and the next attempt
variable {moves : π → (σ → σ) → Prop}

/-- Making the attempt again, after it stalled in `s` and the surroundings changed, is the same as
making it only then. -/
def TransparentAt (done : π) (moves : π → (σ → σ) → Prop) (h : Attempt ε σ π) (s : σ) : Prop :=
  ∀ p t, h s = .ok (p, t) → p ≠ done → ∀ f, moves p f → h (f t) = h (f s)

def Transparent (done : π) (moves : π → (σ → σ) → Prop) (h : Attempt ε σ π) : Prop :=
  ∀ s, TransparentAt done moves h s

theorem TransparentAt.of_eq (hs : ∀ p t, h s = .ok (p, t) → p ≠ done → t = s) :
    TransparentAt done moves h s := by
  intro p t hst hp f _
  rw [hs p t hst hp]

theorem StallsInPlace.transparent (hk : StallsInPlace done h) : Transparent done moves h :=
  fun s => .of_eq (hk s)

/-- What does not depend on the state can be looked up before. -/
theorem TransparentAt.of_const {x : Except ε α} {k : α → Attempt ε σ π}
    (hk : ∀ a, x = .ok a → TransparentAt done moves (k a) s) :
    TransparentAt done moves (Attempt.reading (fun _ => x) k) s := by
  intro p t hst hp f hf
  obtain ⟨a, ha, hka⟩ := reading_eq_ok.mp hst
  cases ha
  exact hk a rfl p t hka hp f hf

/-- A change before the check is harmless when making it again does nothing, and when it does not
depend on the surroundings. -/
theorem Transparent.first (hk : StallsInPlace done k) (hidem : ∀ s t, m s = .ok t → m t = .ok t)
    (hcomm : ∀ s p t, k s = .ok (p, t) → p ≠ done → ∀ f, moves p f →
      ∀ u v, m u = .ok v → m (f u) = .ok (f v)) :
    Transparent done moves (Attempt.first m k) := by
  intro s p t hst hp f hf
  obtain ⟨u, hu, hku⟩ := first_eq_ok.mp hst
  cases hk u p t hku hp
  have hmove := hcomm t p t hku hp f hf
  have hs : m (f s) = .ok (f t) := hmove s t hu
  have ht : m (f t) = .ok (f t) := hmove t t (hidem s t hu)
  simp only [Attempt.first, hs, ht]

end Transparency

end Attempt
