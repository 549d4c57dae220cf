import Waypipe.Lib.Links

/-!
# Postconditions

`Post m s P` says that every run of `m` from `s` that returns ends with `P`, and `Yields m s P` that
the run from `s` returns and ends with `P`.  `Avoids bad m s P` is between the two: the run either
returns and ends with `P`, or fails with an error that is not `bad`.  Each operation has a rule for
each of them, which is an equivalence and a `simp` lemma: rewriting with the rules turns a
postcondition of a program into a statement about the values that its parts return.
-/

section

variable {ε σ α β γ : Type} {s : σ} {m k : StateT σ (Except ε) α} {f : α → StateT σ (Except ε) β}
  {P Q : α → σ → Prop} {R : β → σ → Prop} {U : PUnit → σ → Prop} {p : Prop} [Decidable p]

/-- Every run from `s` that returns ends with a value and a state that satisfy `P`. -/
def Post (m : StateT σ (Except ε) α) (s : σ) (P : α → σ → Prop) : Prop :=
  ∀ a t, m.run s = .ok (a, t) → P a t

namespace Post

theorem mono (h : Post m s P) (hPQ : ∀ a t, P a t → Q a t) : Post m s Q :=
  fun a t hrun => hPQ a t (h a t hrun)

@[simp] theorem true : Post m s fun _ _ => True := fun _ _ _ => trivial

@[simp] theorem bind_iff : Post (m >>= f) s R ↔ Post m s fun a t => Post (f a) t R := by
  constructor
  · intro h a t ha b u hb
    exact h b u (StateT.run_bind_eq_ok.mpr ⟨a, t, ha, hb⟩)
  · intro h b u hrun
    obtain ⟨a, t, ha, hb⟩ := StateT.run_bind_eq_ok.mp hrun
    exact h a t ha b u hb

@[simp] theorem map_iff {f : α → β} :
    Post (f <$> m) s R ↔ Post m s fun a t => R (f a) t := by
  rw [map_eq_pure_bind, bind_iff]
  constructor
  · intro h a t ha
    exact h a t ha (f a) t rfl
  · intro h a t ha b u hb
    cases hb
    exact h a t ha

/-- A run that is known has one end. -/
theorem of_run {a : α} {t : σ} (hrun : m.run s = .ok (a, t)) : Post m s P ↔ P a t := by
  constructor
  · intro h
    exact h a t hrun
  · intro h b u hrun'
    cases hrun.symm.trans hrun'
    exact h

@[simp] theorem pure_iff {a : α} : Post (pure a : StateT σ (Except ε) α) s P ↔ P a s := of_run rfl

@[simp] theorem get_iff {P : σ → σ → Prop} :
    Post (get : StateT σ (Except ε) σ) s P ↔ P s s := of_run rfl

@[simp] theorem set_iff {t : σ} :
    Post (set t : StateT σ (Except ε) PUnit) s U ↔ U ⟨⟩ t := of_run rfl

@[simp] theorem modify_iff {f : σ → σ} :
    Post (modify f : StateT σ (Except ε) PUnit) s U ↔ U ⟨⟩ (f s) := of_run rfl

@[simp] theorem lift_iff {x : Except ε α} :
    Post (liftM x : StateT σ (Except ε) α) s P ↔ ∀ a, x = .ok a → P a s := by
  constructor
  · intro h a ha
    exact h a s (StateT.run_lift_eq_ok.mpr ⟨ha, rfl⟩)
  · intro h a t hrun
    obtain ⟨ha, rfl⟩ := StateT.run_lift_eq_ok.mp hrun
    exact h a ha

@[simp] theorem throw_iff {e : ε} :
    Post (throw e : StateT σ (Except ε) α) s P ↔ True :=
  iff_true_intro fun _ _ hrun => by cases hrun

@[simp] theorem ite_iff :
    Post (if p then m else k) s P ↔ (p → Post m s P) ∧ (¬ p → Post k s P) := by
  split
  · rename_i h
    simp [h]
  · rename_i h
    simp [h]

/-- A loop keeps what each of its rounds keeps. -/
theorem forM {f : γ → StateT σ (Except ε) PUnit} {I : σ → Prop} {l : List γ}
    (hf : ∀ c ∈ l, ∀ t, I t → Post (f c) t fun _ u => I u) (hs : I s) :
    Post (l.forM f) s fun _ u => I u := by
  induction l generalizing s with
  | nil => exact pure_iff.mpr hs
  | cons c l ih =>
    show Post (f c >>= fun _ => l.forM f) s _
    refine bind_iff.mpr ((hf c List.mem_cons_self s hs).mono fun _ t ht => ?_)
    exact ih (fun d hd => hf d (List.mem_cons_of_mem c hd)) ht

theorem mapM {f : γ → StateT σ (Except ε) α} {I : σ → Prop} {l : List γ}
    (hf : ∀ c ∈ l, ∀ t, I t → Post (f c) t fun _ u => I u) (hs : I s) :
    Post (l.mapM f) s fun _ u => I u := by
  induction l generalizing s with
  | nil => exact pure_iff.mpr hs
  | cons c l ih =>
    rw [List.mapM_cons]
    refine bind_iff.mpr ((hf c List.mem_cons_self s hs).mono fun _ t ht => ?_)
    refine bind_iff.mpr ((ih (fun d hd => hf d (List.mem_cons_of_mem c hd)) ht).mono ?_)
    exact fun _ _ hu => pure_iff.mpr hu

end Post

/-- The run from `s` returns a value and a state that satisfy `P`. -/
def Yields (m : StateT σ (Except ε) α) (s : σ) (P : α → σ → Prop) : Prop :=
  ∃ a t, m.run s = .ok (a, t) ∧ P a t

namespace Yields

theorem mono (h : Yields m s P) (hPQ : ∀ a t, P a t → Q a t) : Yields m s Q := by
  obtain ⟨a, t, hrun, hP⟩ := h
  exact ⟨a, t, hrun, hPQ a t hP⟩

@[simp] theorem bind_iff : Yields (m >>= f) s R ↔ Yields m s fun a t => Yields (f a) t R := by
  constructor
  · rintro ⟨b, u, hrun, hP⟩
    obtain ⟨a, t, ha, hb⟩ := StateT.run_bind_eq_ok.mp hrun
    exact ⟨a, t, ha, b, u, hb, hP⟩
  · rintro ⟨a, t, ha, b, u, hb, hP⟩
    exact ⟨b, u, StateT.run_bind_eq_ok.mpr ⟨a, t, ha, hb⟩, hP⟩

@[simp] theorem map_iff {f : α → β} :
    Yields (f <$> m) s R ↔ Yields m s fun a t => R (f a) t := by
  rw [map_eq_pure_bind, bind_iff]
  constructor
  · rintro ⟨a, t, ha, b, u, hb, hP⟩
    cases hb
    exact ⟨a, t, ha, hP⟩
  · rintro ⟨a, t, ha, hP⟩
    exact ⟨a, t, ha, f a, t, rfl, hP⟩

theorem of_run {a : α} {t : σ} (hrun : m.run s = .ok (a, t)) : Yields m s P ↔ P a t := by
  constructor
  · rintro ⟨b, u, hrun', hP⟩
    cases hrun.symm.trans hrun'
    exact hP
  · intro h
    exact ⟨a, t, hrun, h⟩

@[simp] theorem pure_iff {a : α} : Yields (pure a : StateT σ (Except ε) α) s P ↔ P a s := of_run rfl

@[simp] theorem get_iff {P : σ → σ → Prop} :
    Yields (get : StateT σ (Except ε) σ) s P ↔ P s s := of_run rfl

@[simp] theorem set_iff {t : σ} :
    Yields (set t : StateT σ (Except ε) PUnit) s U ↔ U ⟨⟩ t := of_run rfl

@[simp] theorem modify_iff {f : σ → σ} :
    Yields (modify f : StateT σ (Except ε) PUnit) s U ↔ U ⟨⟩ (f s) := of_run rfl

@[simp] theorem lift_iff {x : Except ε α} :
    Yields (liftM x : StateT σ (Except ε) α) s P ↔ ∃ a, x = .ok a ∧ P a s := by
  constructor
  · rintro ⟨a, t, hrun, hP⟩
    obtain ⟨ha, rfl⟩ := StateT.run_lift_eq_ok.mp hrun
    exact ⟨a, ha, hP⟩
  · rintro ⟨a, ha, hP⟩
    exact ⟨a, s, StateT.run_lift_eq_ok.mpr ⟨ha, rfl⟩, hP⟩

end Yields

/-- The run from `s` returns with `P`, or fails with an error that is not `bad`. -/
def Avoids (bad : ε → Prop) (m : StateT σ (Except ε) α) (s : σ) (P : α → σ → Prop) : Prop :=
  match m.run s with
  | .ok (a, t) => P a t
  | .error e => ¬ bad e

namespace Avoids

variable {bad : ε → Prop}

theorem run_ok {x : α × σ} (h : Avoids bad m s P) (hrun : m.run s = .ok x) : P x.1 x.2 := by
  unfold Avoids at h
  rw [hrun] at h
  exact h

theorem run_error {e : ε} (h : Avoids bad m s P) (hrun : m.run s = .error e) : ¬ bad e := by
  unfold Avoids at h
  rw [hrun] at h
  exact h

theorem mono (h : Avoids bad m s P) (hPQ : ∀ a t, P a t → Q a t) : Avoids bad m s Q := by
  unfold Avoids
  cases hm : m.run s with
  | ok x => exact hPQ x.1 x.2 (h.run_ok hm)
  | error e => exact h.run_error hm

@[simp] theorem bind_iff :
    Avoids bad (m >>= f) s R ↔ Avoids bad m s fun a t => Avoids bad (f a) t R := by
  unfold Avoids
  rw [StateT.run_bind]
  cases m.run s with
  | ok x => exact Iff.rfl
  | error e => exact Iff.rfl

@[simp] theorem map_iff {f : α → β} :
    Avoids bad (f <$> m) s R ↔ Avoids bad m s fun a t => R (f a) t := by
  rw [map_eq_pure_bind]
  exact bind_iff

@[simp] theorem pure_iff {a : α} :
    Avoids bad (pure a : StateT σ (Except ε) α) s P ↔ P a s := Iff.rfl

@[simp] theorem get_iff {P : σ → σ → Prop} :
    Avoids bad (get : StateT σ (Except ε) σ) s P ↔ P s s := Iff.rfl

@[simp] theorem set_iff {t : σ} :
    Avoids bad (set t : StateT σ (Except ε) PUnit) s U ↔ U ⟨⟩ t := Iff.rfl

@[simp] theorem lift_iff {x : Except ε α} :
    Avoids bad (liftM x : StateT σ (Except ε) α) s P ↔
      (∀ a, x = .ok a → P a s) ∧ (∀ e, x = .error e → ¬ bad e) := by
  have hrun : (liftM x : StateT σ (Except ε) α).run s = (x >>= fun a => Except.ok (a, s)) := rfl
  unfold Avoids
  rw [hrun]
  cases x with
  | ok a => simp [bind, Except.bind]
  | error e => simp [bind, Except.bind]

@[simp] theorem ite_iff :
    Avoids bad (if p then m else k) s P ↔ (p → Avoids bad m s P) ∧ (¬ p → Avoids bad k s P) := by
  split
  · rename_i h
    simp [h]
  · rename_i h
    simp [h]

/-- A loop, by what holds when a part of the list is left. -/
theorem forM {f : γ → StateT σ (Except ε) PUnit} {I : List γ → σ → Prop} {l : List γ}
    (hf : ∀ c l t, I (c :: l) t → Avoids bad (f c) t fun _ u => I l u) (hs : I l s) :
    Avoids bad (l.forM f) s fun _ u => I [] u := by
  induction l generalizing s with
  | nil => exact pure_iff.mpr hs
  | cons c l ih =>
    show Avoids bad (f c >>= fun _ => l.forM f) s _
    exact bind_iff.mpr ((hf c l s hs).mono fun _ t ht => ih ht)

end Avoids

end
