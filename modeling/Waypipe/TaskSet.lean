import Mathlib.Data.List.Sort
import Waypipe.Incoming

/-!
# Tasks for the worker threads

The set of tasks that the main thread and the workers share, and `popTask`, with which a worker
chooses what to do next.  An update is first decompressed and then applied.  It gets its sequence
number when a worker takes it for decompression; it may be applied when no update with a smaller
number could still touch the same region.
-/

namespace Waypipe

/-- The two half-open intervals intersect. -/
def intervalOverlaps (a b : Nat × Nat) : Bool := b.1 < a.2 && a.1 < b.2

theorem intervalOverlaps_comm (a b : Nat × Nat) : intervalOverlaps a b = intervalOverlaps b a :=
  Bool.and_comm _ _

/-- An offset that lies in both. -/
theorem intervalOverlaps_of_mem {a b : Nat × Nat} {x : Nat} (ha : a.1 ≤ x ∧ x < a.2)
    (hb : b.1 ≤ x ∧ x < b.2) : intervalOverlaps a b = true := by
  simp only [intervalOverlaps, Bool.and_eq_true, decide_eq_true_eq]
  omega

/-- Destinations for an apply task.  A file or mirror is given by its descriptor, with the length
that it has: it is not replaced while a task refers to it. -/
inductive ApplyTaskTarget where
  | dmabuf (dst : SfdRef) (viewRowStride : Option Nat) (origStart origEnd : Nat)
  | shm (target : SfdRef) (len : Nat) (skipMirror : Bool)
  | mirrorOnly (mirror : SfdRef) (len : Nat) (notifyOnCompletion : Bool)
  deriving DecidableEq, Repr

namespace TaskSet

/-- A task to apply a diff or fill operation to some object. -/
structure ApplyTask where
  sequence : Nat
  remoteId : Rid
  data : List UInt8
  /-- Whether the data is that of a `BufferDiff` or of a `BufferFill` message. -/
  isDiffType : Bool
  ntrailing : Nat
  target : ApplyTaskTarget
  regionStart : Nat
  regionEnd : Nat
  deriving DecidableEq, Repr

def ApplyTask.region (t : ApplyTask) : Nat × Nat := (t.regionStart, t.regionEnd)

def ApplyTask.overlaps (t u : ApplyTask) : Bool := intervalOverlaps t.region u.region

end TaskSet

/-- The tasks.  Those to construct messages are never looked into here, so their type is a
parameter.  The lists that stand for ordered sets are in order of the sequence numbers. -/
structure TaskSet (κ : Type) where
  construct : List κ
  lastSeqno : Nat
  decompress : List DecompTask
  inProgressDecomp : List Nat
  apply : List TaskSet.ApplyTask
  inProgressApply : List (Nat × (Nat × Nat))
  deriving DecidableEq, Repr

namespace TaskSet

variable {κ : Type}

def empty : TaskSet κ where
  construct := []
  lastSeqno := 0
  decompress := []
  inProgressDecomp := []
  apply := []
  inProgressApply := []

/-- What `pop_task` returns; a task to decompress comes with its sequence number. -/
inductive Popped (κ : Type) where
  | apply (t : ApplyTask)
  | decomp (sequence : Nat) (t : DecompTask)
  | construct (t : κ)
  deriving DecidableEq, Repr

def insertApply (t : ApplyTask) (l : List ApplyTask) : List ApplyTask :=
  l.orderedInsert (fun a b => a.sequence ≤ b.sequence) t

def insertInProgress (e : Nat × (Nat × Nat)) (l : List (Nat × (Nat × Nat))) :
    List (Nat × (Nat × Nat)) :=
  l.orderedInsert (fun a b => a.1 ≤ b.1) e

/-- Whether no task that is being applied stands in the way of `t`. -/
def applyClear (t : ApplyTask) : List (Nat × (Nat × Nat)) → Res Bool
  | [] => .ok true
  | (v, r) :: rest =>
    if intervalOverlaps r t.region then do
      assert (decide (v < t.sequence)) "*v < t.sequence"
      return false
    else applyClear t rest

/-- The apply task with the lowest sequence number, if it can be started. -/
def popApply (s : TaskSet κ) : Res (Option (ApplyTask × TaskSet κ)) :=
  match s.apply with
  | [] => .ok none
  | t :: rest => do
    let decompOk := !s.inProgressDecomp.any fun q => decide (q < t.sequence)
    let applyOk ← applyClear t s.inProgressApply
    return if decompOk && applyOk then
      some (t, { s with
        apply := rest
        inProgressApply := insertInProgress (t.sequence, t.region) s.inProgressApply })
    else none

/-- Identify a task which can be run, if one exists. -/
def popTask (s : TaskSet κ) : Res (Option (Popped κ × TaskSet κ)) := do
  match ← s.popApply with
  | some (t, s) => return some (.apply t, s)
  | none =>
    match s.decompress, s.construct with
    | x :: decompress, _ =>
      return some (.decomp s.lastSeqno x, { s with
        decompress
        lastSeqno := s.lastSeqno + 1
        inProgressDecomp := s.lastSeqno :: s.inProgressDecomp })
    | [], x :: construct => return some (.construct x, { s with construct })
    | [], [] => return none

/-- A worker has decompressed the update with the given number. -/
def decompDone (sequence : Nat) (t : ApplyTask) (s : TaskSet κ) : TaskSet κ :=
  { s with
    inProgressDecomp := s.inProgressDecomp.filter (· ≠ sequence)
    apply := insertApply t s.apply }

/-- A worker has applied an update. -/
def applyDone (t : ApplyTask) (s : TaskSet κ) : TaskSet κ :=
  { s with inProgressApply := s.inProgressApply.filter (· ≠ (t.sequence, t.region)) }

/-! ## What `popTask` does -/

theorem applyClear_eq_ok_true {t : ApplyTask} {l : List (Nat × (Nat × Nat))}
    (h : applyClear t l = .ok true) : ∀ e ∈ l, intervalOverlaps e.2 t.region = false := by
  induction l with
  | nil => intro e he; cases he
  | cons e l ih =>
    obtain ⟨v, r⟩ := e
    simp only [applyClear] at h
    split at h
    · obtain ⟨_, _, hfalse⟩ := Res.bind_eq_ok.mp h
      cases hfalse
    · next hno =>
      intro e he
      rcases List.mem_cons.mp he with rfl | he
      · simpa using hno
      · exact ih h e he

/-- The assertion holds when every task that is being applied came before. -/
theorem applyClear_returns {t : ApplyTask} {l : List (Nat × (Nat × Nat))}
    (h : ∀ e ∈ l, e.1 < t.sequence) : ∃ b, applyClear t l = .ok b := by
  induction l with
  | nil => exact ⟨true, rfl⟩
  | cons e l ih =>
    obtain ⟨v, r⟩ := e
    simp only [applyClear]
    split
    · have hlt : v < t.sequence := h (v, r) List.mem_cons_self
      exact ⟨false, by rw [assert_of (decide_eq_true hlt)]; rfl⟩
    · exact ih fun e he => h e (List.mem_cons_of_mem _ he)

theorem popApply_eq_some {s s' : TaskSet κ} {t : ApplyTask} (h : s.popApply = .ok (some (t, s'))) :
    ∃ rest, s.apply = t :: rest ∧ (∀ q ∈ s.inProgressDecomp, t.sequence ≤ q) ∧
      (∀ e ∈ s.inProgressApply, intervalOverlaps e.2 t.region = false) ∧
      s' = { s with
        apply := rest
        inProgressApply := insertInProgress (t.sequence, t.region) s.inProgressApply } := by
  unfold popApply at h
  split at h
  · cases h
  · next u rest happly =>
    obtain ⟨b, hclear, hret⟩ := Res.bind_eq_ok.mp h
    split at hret
    · next hok =>
      rw [Bool.and_eq_true] at hok
      obtain ⟨hdecomp, rfl⟩ := hok
      cases hret
      refine ⟨rest, happly, fun q hq => ?_, applyClear_eq_ok_true hclear, rfl⟩
      simp only [Bool.not_eq_true', List.any_eq_false, decide_eq_true_eq, Nat.not_lt] at hdecomp
      exact hdecomp q hq
    · cases hret

theorem popApply_returns {s : TaskSet κ}
    (h : ∀ t ∈ s.apply, ∀ e ∈ s.inProgressApply, e.1 < t.sequence) : ∃ r, s.popApply = .ok r := by
  unfold popApply
  split
  · exact ⟨none, rfl⟩
  · next t rest happly =>
    obtain ⟨b, hb⟩ := applyClear_returns (h t (by rw [happly]; exact List.mem_cons_self))
    exact ⟨_, by rw [hb]; rfl⟩

theorem popTask_returns {s : TaskSet κ}
    (h : ∀ t ∈ s.apply, ∀ e ∈ s.inProgressApply, e.1 < t.sequence) : ∃ r, s.popTask = .ok r := by
  obtain ⟨r, hr⟩ := popApply_returns h
  unfold popTask
  rw [hr, Res.ok_bind]
  cases r with
  | some p => exact ⟨_, rfl⟩
  | none =>
    cases s.decompress with
    | cons x xs => exact ⟨_, rfl⟩
    | nil =>
      cases s.construct with
      | cons x xs => exact ⟨_, rfl⟩
      | nil => exact ⟨_, rfl⟩

/-- The three kinds of tasks that a worker can get, and what becomes of the set. -/
theorem popTask_eq_some {s s' : TaskSet κ} {p : Popped κ} (h : s.popTask = .ok (some (p, s'))) :
    (∃ t, p = .apply t ∧ s.popApply = .ok (some (t, s'))) ∨
    (∃ x decompress, p = .decomp s.lastSeqno x ∧ s.decompress = x :: decompress ∧
      s' = { s with
        decompress
        lastSeqno := s.lastSeqno + 1
        inProgressDecomp := s.lastSeqno :: s.inProgressDecomp }) ∨
    (∃ x construct, p = .construct x ∧ s.construct = x :: construct ∧ s' = { s with construct }) := by
  unfold popTask at h
  obtain ⟨r, hr, h⟩ := Res.bind_eq_ok.mp h
  cases r with
  | some q =>
    cases h
    exact .inl ⟨q.1, rfl, hr⟩
  | none =>
    dsimp only at h
    split at h
    · next x decompress hd =>
      cases h
      exact .inr (.inl ⟨x, decompress, rfl, hd, rfl⟩)
    · next x construct _ hc =>
      cases h
      exact .inr (.inr ⟨x, construct, rfl, hc, rfl⟩)
    · cases h

end TaskSet

end Waypipe
