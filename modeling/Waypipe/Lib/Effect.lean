import Mathlib.Data.List.Basic

/-!
# Computations that keep their state when they fail

`Eff ε σ α` is a computation over a state `σ` that can fail with `ε`.  Unlike in
`StateT σ (Except ε)`, the changes made before a failure are kept, as they are in a program that
mutates its arguments and then returns an error.  `exec` runs a computation.  `Always R m` says
that the states before and after `m` are related by `R`, however `m` ends; for a preorder `R` it
is proved piece by piece (`Always.bind`, `Always.forM`).  `Ends m s Q` is a postcondition of the
runs of `m` from `s` that return.
-/

abbrev Eff (ε σ α : Type) := ExceptT ε (StateM σ) α

namespace Eff

variable {ε σ α β γ : Type}

/-- The outcome of a computation and the state it leaves. -/
def exec (m : Eff ε σ α) (s : σ) : Except ε α × σ := StateT.run (ExceptT.run m) s

@[simp] theorem exec_pure (a : α) (s : σ) : exec (pure a : Eff ε σ α) s = (.ok a, s) := rfl

theorem exec_bind (m : Eff ε σ α) (f : α → Eff ε σ β) (s : σ) :
    exec (m >>= f) s = match exec m s with
      | (.ok a, t) => exec (f a) t
      | (.error e, t) => (.error e, t) := by
  unfold exec
  rw [ExceptT.run_bind, StateT.run_bind]
  cases h : StateT.run (ExceptT.run m) s with
  | mk x t => cases x <;> rfl

@[simp] theorem exec_throw (e : ε) (s : σ) : exec (throw e : Eff ε σ α) s = (.error e, s) := rfl

@[simp] theorem exec_get (s : σ) : exec (get : Eff ε σ σ) s = (.ok s, s) := rfl

@[simp] theorem exec_modify (f : σ → σ) (s : σ) :
    exec (modify f : Eff ε σ Unit) s = (.ok (), f s) := rfl

/-- A computation without state. -/
def ofExcept (x : Except ε α) : Eff ε σ α := ExceptT.mk (pure x)

@[simp] theorem exec_ofExcept (x : Except ε α) (s : σ) : exec (ofExcept x) s = (x, s) := rfl

theorem ofExcept_ok_bind (a : α) (f : α → Eff ε σ β) : ofExcept (.ok a) >>= f = f a := rfl

/-- A loop whose rounds all return changes the state round by round. -/
theorem exec_forM {f : γ → Eff ε σ PUnit} {g : σ → γ → σ} {l : List γ}
    (h : ∀ c ∈ l, ∀ s, exec (f c) s = (.ok ⟨⟩, g s c)) (s : σ) :
    exec (l.forM f) s = (.ok ⟨⟩, l.foldl g s) := by
  induction l generalizing s with
  | nil => rfl
  | cons c l ih =>
    show exec (f c >>= fun _ => l.forM f) s = _
    rw [exec_bind, h c List.mem_cons_self s]
    exact ih (fun d hd => h d (List.mem_cons_of_mem _ hd)) (g s c)

/-- A computation that returns went through both of its parts. -/
theorem exec_bind_ok {m : Eff ε σ α} {f : α → Eff ε σ β} {s u : σ} {b : β} :
    exec (m >>= f) s = (.ok b, u) ↔ ∃ a t, exec m s = (.ok a, t) ∧ exec (f a) t = (.ok b, u) := by
  rw [exec_bind]
  cases h : exec m s with
  | mk x t =>
    cases x with
    | ok a => simp
    | error e => simp

/-- A computation whose first part returns. -/
theorem exec_bind_of_ok {m : Eff ε σ α} {s t : σ} {a : α} (h : exec m s = (.ok a, t))
    (f : α → Eff ε σ β) : exec (m >>= f) s = exec (f a) t := by
  rw [exec_bind, h]

/-- A computation whose first part fails. -/
theorem exec_bind_error {m : Eff ε σ α} {s : σ} {e : ε} (h : (exec m s).1 = .error e)
    (f : α → Eff ε σ β) : (exec (m >>= f) s).1 = .error e := by
  rw [exec_bind]
  cases hrun : exec m s with
  | mk x t =>
    rw [hrun] at h
    obtain rfl : x = .error e := h
    rfl

/-! ## Relations between the states before and after -/

/-- Whatever the outcome, the final state is related to the initial one. -/
def Always (R : σ → σ → Prop) (m : Eff ε σ α) : Prop := ∀ s, R s (exec m s).2

section Preorder

variable {R : σ → σ → Prop} (hrefl : ∀ s, R s s) (htrans : ∀ s t u, R s t → R t u → R s u)
include hrefl

theorem Always.pure (a : α) : Always R (Pure.pure a : Eff ε σ α) := fun s => hrefl s

theorem Always.throw (e : ε) : Always R (MonadExcept.throw e : Eff ε σ α) := fun s => hrefl s

theorem Always.get : Always R (MonadState.get : Eff ε σ σ) := fun s => hrefl s

omit hrefl in
include htrans in
theorem Always.bind {m : Eff ε σ α} {f : α → Eff ε σ β} (hm : Always R m)
    (hf : ∀ a, Always R (f a)) : Always R (m >>= f) := by
  intro s
  have h := hm s
  rw [exec_bind]
  cases hx : exec m s with
  | mk x t =>
    rw [hx] at h
    cases x with
    | ok a => exact htrans s t _ h (hf a t)
    | error e => exact h

/-- After a stateless part, only the values that it can return matter. -/
theorem Always.ofExcept_bind {x : Except ε α} {f : α → Eff ε σ β}
    (hf : ∀ a, x = .ok a → Always R (f a)) : Always R (ofExcept x >>= f) := by
  intro s
  rw [exec_bind, exec_ofExcept]
  cases x with
  | ok a => exact hf a rfl s
  | error e => exact hrefl s

include htrans in
theorem Always.forM {f : γ → Eff ε σ PUnit} (l : List γ) (hf : ∀ c ∈ l, Always R (f c)) :
    Always R (l.forM f) := by
  induction l with
  | nil => exact fun s => hrefl s
  | cons c l ih =>
    show Always R (f c >>= fun _ => l.forM f)
    exact Always.bind htrans (hf c (by simp)) fun _ => ih fun d hd => hf d (by simp [hd])

include htrans in
/-- A loop whose rounds all return, and relate the states before and after. -/
theorem exec_forM_of_rel {f : γ → Eff ε σ PUnit} (l : List γ)
    (hf : ∀ c ∈ l, ∀ s, ∃ t, exec (f c) s = (.ok ⟨⟩, t) ∧ R s t) (s : σ) :
    ∃ t, exec (l.forM f) s = (.ok ⟨⟩, t) ∧ R s t := by
  induction l generalizing s with
  | nil => exact ⟨s, rfl, hrefl s⟩
  | cons c l ih =>
    obtain ⟨t, hrun, hst⟩ := hf c List.mem_cons_self s
    obtain ⟨u, hrun', htu⟩ := ih (fun d hd => hf d (List.mem_cons_of_mem c hd)) t
    exact ⟨u, exec_bind_ok.mpr ⟨⟨⟩, t, hrun, hrun'⟩, htrans s t u hst htu⟩

end Preorder

/-- A loop whose first round fails. -/
theorem exec_forM_cons_error {f : γ → Eff ε σ PUnit} {c : γ} {s : σ} {e : ε}
    (h : (exec (f c) s).1 = .error e) (l : List γ) : (exec ((c :: l).forM f) s).1 = .error e :=
  exec_bind_error h fun _ => l.forM f

/-! ## Postconditions -/

/-- If the computation returns, `Q` holds of its value and of the state it leaves. -/
def Ends (m : Eff ε σ α) (s : σ) (Q : α → σ → Prop) : Prop :=
  ∀ a t, exec m s = (.ok a, t) → Q a t

namespace Ends

variable {s : σ} {m : Eff ε σ α} {f : α → Eff ε σ β} {Q : α → σ → Prop}

theorem mono {P : α → σ → Prop} (h : Ends m s P)
    (hPQ : ∀ a t, P a t → Q a t) : Ends m s Q := fun a t hrun => hPQ a t (h a t hrun)

@[simp] theorem bind_iff {Q : β → σ → Prop} :
    Ends (m >>= f) s Q ↔ Ends m s fun a t => Ends (f a) t Q := by
  constructor
  · intro h a t ha b u hb
    exact h b u (exec_bind_ok.mpr ⟨a, t, ha, hb⟩)
  · intro h b u hrun
    obtain ⟨a, t, ha, hb⟩ := exec_bind_ok.mp hrun
    exact h a t ha b u hb

@[simp] theorem pure_iff {a : α} :
    Ends (Pure.pure a : Eff ε σ α) s Q ↔ Q a s := by
  simp [Ends]

@[simp] theorem throw_iff {e : ε} :
    Ends (MonadExcept.throw e : Eff ε σ α) s Q ↔ True := by
  simp [Ends]

@[simp] theorem get_iff {Q : σ → σ → Prop} :
    Ends (MonadState.get : Eff ε σ σ) s Q ↔ Q s s := by
  simp [Ends]

@[simp] theorem modify_iff {f : σ → σ} {Q : PUnit → σ → Prop} :
    Ends (modify f : Eff ε σ PUnit) s Q ↔ Q ⟨⟩ (f s) := by
  constructor
  · intro h
    exact h ⟨⟩ (f s) rfl
  · intro h a t hrun
    cases hrun
    exact h

@[simp] theorem ofExcept_iff {x : Except ε α} :
    Ends (ofExcept x) s Q ↔ ∀ a, x = .ok a → Q a s := by
  constructor
  · intro h a ha
    exact h a s (by rw [exec_ofExcept, ha])
  · intro h a t hrun
    obtain ⟨hx, rfl⟩ := Prod.mk.inj hrun
    exact h a hx

@[simp] theorem ite_iff {c : Prop} [Decidable c] {m n : Eff ε σ α} :
    Ends (if c then m else n) s Q ↔ (c → Ends m s Q) ∧ (¬c → Ends n s Q) := by
  by_cases hc : c <;> simp [hc]

/-- A loop keeps what each of its iterations keeps. -/
theorem forM {f : γ → Eff ε σ PUnit} {I : σ → Prop} {l : List γ}
    (hf : ∀ c ∈ l, ∀ t, I t → Ends (f c) t fun _ u => I u) (hs : I s) :
    Ends (l.forM f) s fun _ t => I t := by
  induction l generalizing s with
  | nil => exact pure_iff.mpr hs
  | cons c l ih =>
    show Ends (f c >>= fun _ => l.forM f) s _
    refine bind_iff.mpr ((hf c List.mem_cons_self s hs).mono fun _ t ht => ?_)
    exact ih (fun d hd => hf d (List.mem_cons_of_mem _ hd)) ht

end Ends

end Eff
