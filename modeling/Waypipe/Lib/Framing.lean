import Mathlib.Data.List.Basic

/-!
# Length-prefixed framing

A `Framing` reads the total length of a frame off its first `width` symbols.  `Framed F s` says
that `s` is a concatenation of whole frames.  Frames are prefix free (`IsFrame.unique`), so a
framed stream has only one decomposition and whole frames can be cancelled on the left
(`Framed.cancel_left`); `split` computes the decomposition and decides `Framed`.  Two streams are
`Equiv` when the same continuations complete them; inserting whole frames at a boundary keeps
that (`Equiv.insert`).  A stream may be held in parts, several to a frame (`Parted`); a cut between
two parts is at a frame boundary unless it splits the parts of a frame (`Parted.framed_iff`).
-/

/-- A framing whose first `width` symbols determine how long the frame is. -/
structure Framing (α : Type) where
  width : Nat
  size : List α → Option Nat
  width_pos : 0 < width
  width_le : ∀ h n, size h = some n → width ≤ n

namespace Framing

open List

variable {α : Type} {F : Framing α} {s t m : List α}

/-- `m` is exactly one frame. -/
def IsFrame (F : Framing α) (m : List α) : Prop := F.size (m.take F.width) = some m.length

instance (F : Framing α) (m : List α) : Decidable (F.IsFrame m) :=
  inferInstanceAs (Decidable (_ = _))

/-- `s` is a concatenation of whole frames. -/
def Framed (F : Framing α) (s : List α) : Prop :=
  ∃ ms : List (List α), (∀ m ∈ ms, F.IsFrame m) ∧ ms.flatten = s

theorem IsFrame.width_le_length (h : F.IsFrame m) : F.width ≤ m.length := F.width_le _ _ h

theorem IsFrame.length_pos (h : F.IsFrame m) : 0 < m.length :=
  Nat.lt_of_lt_of_le F.width_pos h.width_le_length

/-- The header of a frame is visible in anything the frame starts. -/
theorem IsFrame.size_append (h : F.IsFrame m) (t : List α) :
    F.size ((m ++ t).take F.width) = some m.length := by
  rw [take_append_of_le_length h.width_le_length]
  exact h

/-- **Prefix freeness.** Two frames that start one stream are the same frame. -/
theorem IsFrame.unique {m₁ m₂ t₁ t₂ : List α} (h₁ : F.IsFrame m₁) (h₂ : F.IsFrame m₂)
    (h : m₁ ++ t₁ = m₂ ++ t₂) : m₁ = m₂ ∧ t₁ = t₂ := by
  have hlen : m₁.length = m₂.length := by
    have := h₁.size_append t₁
    rw [h, h₂.size_append t₂] at this
    exact (Option.some.inj this).symm
  exact append_inj h hlen

theorem Framed.nil : F.Framed [] := ⟨[], by simp, rfl⟩

theorem IsFrame.framed (h : F.IsFrame m) : F.Framed m := ⟨[m], by simpa using h, by simp⟩

theorem Framed.append (hs : F.Framed s) (ht : F.Framed t) : F.Framed (s ++ t) := by
  obtain ⟨ms, hms, rfl⟩ := hs
  obtain ⟨ns, hns, rfl⟩ := ht
  refine ⟨ms ++ ns, ?_, by simp⟩
  intro m hm
  rcases mem_append.mp hm with h | h
  · exact hms m h
  · exact hns m h

/-- Whole frames can be cancelled on the left of a framed stream. -/
theorem Framed.cancel_left (hs : F.Framed s) (h : F.Framed (s ++ t)) : F.Framed t := by
  obtain ⟨ms, hms, rfl⟩ := hs
  induction ms with
  | nil => simpa using h
  | cons m ms ih =>
    obtain ⟨ns, hns, heq⟩ := h
    have hm : F.IsFrame m := hms m (by simp)
    cases ns with
    | nil =>
      have := congrArg List.length heq
      have := hm.length_pos
      simp only [flatten_nil, length_nil, flatten_cons, length_append] at *
      omega
    | cons n ns =>
      simp only [flatten_cons, append_assoc] at heq
      obtain ⟨-, htail⟩ := (hns n (by simp)).unique hm heq
      exact ih (fun m' h' => hms m' (by simp [h'])) ⟨ns, fun n' h' => hns n' (by simp [h']), htail⟩

theorem Framed.append_iff (hs : F.Framed s) : F.Framed (s ++ t) ↔ F.Framed t :=
  ⟨hs.cancel_left, hs.append⟩

/-- The first frame of a framed stream that is long enough to have one. -/
theorem Framed.uncons (h : F.Framed s) (hlen : F.width ≤ s.length) :
    ∃ n, F.size (s.take F.width) = some n ∧ n ≤ s.length ∧ F.IsFrame (s.take n) ∧
      F.Framed (s.drop n) := by
  obtain ⟨ms, hms, rfl⟩ := h
  cases ms with
  | nil =>
    have := F.width_pos
    simp only [flatten_nil, length_nil] at hlen
    omega
  | cons m ms =>
    have hm := hms m (by simp)
    refine ⟨m.length, ?_, ?_, ?_, ?_⟩
    · rw [flatten_cons]
      exact hm.size_append _
    · simp
    · rw [flatten_cons, take_left]
      exact hm
    · rw [flatten_cons, drop_left]
      exact ⟨ms, fun n hn => hms n (by simp [hn]), rfl⟩

/-- The decomposition into frames is unique. -/
theorem flatten_injective {ms ns : List (List α)} (hms : ∀ m ∈ ms, F.IsFrame m)
    (hns : ∀ n ∈ ns, F.IsFrame n) (h : ms.flatten = ns.flatten) : ms = ns := by
  induction ms generalizing ns with
  | nil =>
    cases ns with
    | nil => rfl
    | cons n ns =>
      have := congrArg List.length h
      have := (hns n (by simp)).length_pos
      simp only [flatten_nil, length_nil, flatten_cons, length_append] at *
      omega
  | cons m ms ih =>
    have hm : F.IsFrame m := hms m (by simp)
    cases ns with
    | nil =>
      have := congrArg List.length h
      have := hm.length_pos
      simp only [flatten_nil, length_nil, flatten_cons, length_append] at *
      omega
    | cons n ns =>
      simp only [flatten_cons] at h
      obtain ⟨rfl, htail⟩ := hm.unique (hns n (by simp)) h
      rw [ih (fun m' h' => hms m' (by simp [h'])) (fun n' h' => hns n' (by simp [h'])) htail]

/-! ## Streams with the same continuations -/

/-- `s` and `t` are completed to framed streams by the same continuations. -/
def Equiv (F : Framing α) (s t : List α) : Prop := ∀ z, F.Framed (s ++ z) ↔ F.Framed (t ++ z)

theorem Equiv.refl (F : Framing α) (s : List α) : F.Equiv s s := fun _ => Iff.rfl

theorem Equiv.trans (h : F.Equiv s t) (h' : F.Equiv t m) : F.Equiv s m :=
  fun z => (h z).trans (h' z)

theorem Equiv.framed_iff (h : F.Equiv s t) : F.Framed s ↔ F.Framed t := by
  simpa using h []

theorem Equiv.append_right (h : F.Equiv s t) (z : List α) : F.Equiv (s ++ z) (t ++ z) := by
  intro w
  rw [append_assoc, append_assoc]
  exact h (z ++ w)

/-- **Insertion at a boundary.** Whole frames inserted on one side, where the other side is at a
frame boundary, do not change the continuations. -/
theorem Equiv.insert (h : F.Equiv s t) (ht : F.Framed t) (hm : F.Framed m) :
    F.Equiv (s ++ m) t := by
  intro z
  have hs : F.Framed s := h.framed_iff.mpr ht
  rw [(hs.append hm).append_iff, ht.append_iff]

/-! ## Computing the decomposition -/

/-- Cut `s` into frames, with at most `fuel` cuts. -/
def splitAux (F : Framing α) : Nat → List α → Option (List (List α))
  | _, [] => some []
  | 0, _ :: _ => none
  | fuel + 1, a :: s =>
    match F.size ((a :: s).take F.width) with
    | none => none
    | some n =>
      if n ≤ (a :: s).length then
        (splitAux F fuel ((a :: s).drop n)).map ((a :: s).take n :: ·)
      else none

/-- The frames of a framed stream; `none` when the stream is not framed. -/
def split (F : Framing α) (s : List α) : Option (List (List α)) := F.splitAux s.length s

theorem splitAux_sound {fuel : Nat} {ms : List (List α)} (h : F.splitAux fuel s = some ms) :
    (∀ m ∈ ms, F.IsFrame m) ∧ ms.flatten = s := by
  induction fuel generalizing s ms with
  | zero =>
    cases s with
    | nil => simp [splitAux] at h; subst h; simp
    | cons a s => simp [splitAux] at h
  | succ fuel ih =>
    cases s with
    | nil => simp [splitAux] at h; subst h; simp
    | cons a s =>
      simp only [splitAux] at h
      split at h
      · cases h
      · next n hn =>
        split at h
        · next hle =>
          obtain ⟨ns, hns, rfl⟩ := Option.map_eq_some_iff.mp h
          obtain ⟨hall, hflat⟩ := ih hns
          have hlen : ((a :: s).take n).length = n := length_take_of_le hle
          have hframe : F.IsFrame ((a :: s).take n) := by
            unfold IsFrame
            rw [take_take, Nat.min_eq_left (F.width_le _ _ hn), hlen]
            exact hn
          refine ⟨?_, ?_⟩
          · intro m hm
            rcases mem_cons.mp hm with rfl | hm
            · exact hframe
            · exact hall m hm
          · rw [flatten_cons, hflat, take_append_drop]
        · cases h

theorem splitAux_flatten {ms : List (List α)} (hms : ∀ m ∈ ms, F.IsFrame m) {fuel : Nat}
    (hfuel : ms.length ≤ fuel) : F.splitAux fuel ms.flatten = some ms := by
  induction ms generalizing fuel with
  | nil => cases fuel <;> rfl
  | cons m ms ih =>
    have hm : F.IsFrame m := hms m (by simp)
    cases fuel with
    | zero => simp at hfuel
    | succ fuel =>
      cases m with
      | nil => exact absurd hm.length_pos (by simp)
      | cons a m =>
        have hsize := hm.size_append ms.flatten
        have hrest := ih (fun m' h' => hms m' (by simp [h'])) (by simpa using hfuel)
        simp only [flatten_cons, cons_append] at hsize ⊢
        simp only [splitAux, hsize]
        rw [← cons_append, drop_left, take_left, hrest]
        simp

theorem length_le_flatten {ms : List (List α)} (hms : ∀ m ∈ ms, F.IsFrame m) :
    ms.length ≤ ms.flatten.length := by
  induction ms with
  | nil => simp
  | cons m ms ih =>
    have := (hms m (by simp)).length_pos
    have := ih fun m' h' => hms m' (by simp [h'])
    simp only [length_cons, flatten_cons, length_append]
    omega

theorem split_eq_some_iff {ms : List (List α)} :
    F.split s = some ms ↔ (∀ m ∈ ms, F.IsFrame m) ∧ ms.flatten = s := by
  constructor
  · exact splitAux_sound
  · rintro ⟨hms, rfl⟩
    exact splitAux_flatten hms (length_le_flatten hms)

theorem framed_iff_split : F.Framed s ↔ (F.split s).isSome := by
  rw [Option.isSome_iff_exists]
  exact exists_congr fun ms => split_eq_some_iff.symm

instance (F : Framing α) (s : List α) : Decidable (F.Framed s) :=
  decidable_of_iff _ framed_iff_split.symm

/-! ## Frames in parts -/

variable {vs ws : List (List α)}

/-- `vs` are the parts of whole frames, and no part belongs to two of them. -/
def Parted (F : Framing α) (vs : List (List α)) : Prop :=
  ∃ ms : List (List (List α)), (∀ m ∈ ms, F.IsFrame m.flatten) ∧ ms.flatten = vs

theorem Parted.nil : F.Parted [] := ⟨[], by simp, rfl⟩

theorem IsFrame.parted (h : F.IsFrame vs.flatten) : F.Parted vs := ⟨[vs], by simpa using h, by simp⟩

theorem Parted.append (hv : F.Parted vs) (hw : F.Parted ws) : F.Parted (vs ++ ws) := by
  obtain ⟨ms, hms, rfl⟩ := hv
  obtain ⟨ns, hns, rfl⟩ := hw
  exact ⟨ms ++ ns, forall_mem_append.mpr ⟨hms, hns⟩, by simp⟩

theorem Parted.framed (h : F.Parted vs) : F.Framed vs.flatten := by
  obtain ⟨ms, hms, rfl⟩ := h
  refine ⟨ms.map flatten, ?_, by rw [flatten_flatten]⟩
  intro m hm
  obtain ⟨m', hm', rfl⟩ := mem_map.mp hm
  exact hms m' hm'

/-- A frame is not empty, so there are no parts without content only. -/
theorem Parted.eq_nil (h : F.Parted vs) (h0 : vs.flatten = []) : vs = [] := by
  obtain ⟨ms, hms, rfl⟩ := h
  cases ms with
  | nil => rfl
  | cons m ms =>
    rw [flatten_cons, flatten_append, append_eq_nil_iff] at h0
    have hpos := (hms m mem_cons_self).length_pos
    rw [h0.1] at hpos
    cases hpos

/-- Between the parts `vs` and the parts `ws` a frame is split: it has the parts of `vs` from number
`i` on, and goes on with the first `j` parts of `ws`. -/
def Splits (F : Framing α) (vs ws : List (List α)) : Prop :=
  ∃ i < vs.length, ∃ j ≤ ws.length, F.Framed (vs.take i).flatten ∧
    F.IsFrame ((vs.drop i).flatten ++ (ws.take j).flatten) ∧
    (vs.drop i).flatten ≠ [] ∧ (ws.take j).flatten ≠ []

instance [DecidableEq α] (F : Framing α) (vs ws : List (List α)) : Decidable (F.Splits vs ws) :=
  inferInstanceAs (Decidable (∃ i < _, ∃ j ≤ _, _))

/-- Part of a frame is not a sequence of frames. -/
theorem Splits.not_framed (h : F.Splits vs ws) : ¬ F.Framed vs.flatten := by
  obtain ⟨i, -, j, -, hbefore, hframe, hfirst, hsecond⟩ := h
  intro hvs
  rw [← take_append_drop i vs, flatten_append] at hvs
  obtain ⟨ns, hns, heq⟩ := hbefore.cancel_left hvs
  cases ns with
  | nil => exact hfirst heq.symm
  | cons n ns =>
    rw [flatten_cons] at heq
    have hwhole : (vs.drop i).flatten ++ (ws.take j).flatten ++ [] =
        n ++ (ns.flatten ++ (ws.take j).flatten) := by
      rw [append_nil, ← heq, append_assoc]
    obtain ⟨-, hnil⟩ := hframe.unique (hns n mem_cons_self) hwhole
    exact hsecond (append_eq_nil_iff.mp hnil.symm).2

/-- A cut between parts of whole frames is at a boundary, or it splits the parts of a frame. -/
theorem Parted.framed_or_splits (h : F.Parted (vs ++ ws)) :
    F.Framed vs.flatten ∨ F.Splits vs ws := by
  obtain ⟨ms, hms, heq⟩ := h
  -- the frames before the cut, one after the other; `before` are the parts of those that are done
  suffices hcut : ∀ before : List (List α), F.Framed before.flatten →
      F.Framed (before ++ vs).flatten ∨ F.Splits (before ++ vs) ws from hcut [] .nil
  induction ms generalizing vs with
  | nil =>
    intro before hbefore
    rw [(append_eq_nil_iff.mp heq.symm).1, append_nil]
    exact .inl hbefore
  | cons m ms ih =>
    intro before hbefore
    have hm := hms m mem_cons_self
    rcases append_eq_append_iff.mp (flatten_cons.symm.trans heq) with ⟨a, hvs, hrest⟩ | ⟨a, hm', hws⟩
    · have hnext := ih (fun n hn => hms n (mem_cons_of_mem m hn)) hrest (before ++ m) (by
        rw [flatten_append]
        exact hbefore.append hm.framed)
      rw [hvs, ← append_assoc]
      exact hnext
    · -- the cut is at the beginning, inside or at the end of this frame
      rw [hm', flatten_append] at hm
      by_cases hfirst : vs.flatten = []
      · rw [flatten_append, hfirst, append_nil]
        exact .inl hbefore
      · by_cases hsecond : a.flatten = []
        · rw [hsecond, append_nil] at hm
          rw [flatten_append]
          exact .inl (hbefore.append hm.framed)
        · refine .inr ⟨before.length, ?_, a.length, ?_, ?_⟩
          · have hne : vs ≠ [] := fun h => hfirst (by rw [h]; rfl)
            have := length_pos_iff.mpr hne
            rw [length_append]
            omega
          · rw [hws, length_append]
            omega
          · rw [hws, take_left, drop_left, take_left]
            exact ⟨hbefore, hm, hfirst, hsecond⟩

theorem Parted.framed_iff (h : F.Parted (vs ++ ws)) : F.Framed vs.flatten ↔ ¬ F.Splits vs ws :=
  ⟨fun hvs hsplit => hsplit.not_framed hvs, h.framed_or_splits.resolve_right⟩

end Framing
