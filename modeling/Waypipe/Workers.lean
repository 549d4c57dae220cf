import Waypipe.Lib.Transition
import Waypipe.Lib.Writes
import Waypipe.TaskSet

/-!
# The worker threads

`Workers.step` interleaves the main thread, which queues tasks, with any number of workers.  Taking
a task and reporting it happen under the lock of the task set, one at a time; between the two a
worker decompresses an update, or writes one byte after the other to the memory of its target.
`Work` is what the workers compute: how an update is decompressed, and what applying it writes.
-/

namespace Waypipe

open Writes

/-- A byte of a file, or of the copy of its contents. -/
structure Loc where
  sfd : SfdRef
  inMirror : Bool
  offset : Nat
  deriving DecidableEq, Repr

/-- The work of the workers on updates: how an update is decompressed, which keeps the sequence
number, and what is written when it is applied. -/
structure Work where
  decompress : Nat → DecompTask → Res TaskSet.ApplyTask
  writes : TaskSet.ApplyTask → List (Loc × UInt8)
  sequence_eq : ∀ q t a, decompress q t = .ok a → a.sequence = q

/-- An update that is applied only inside its region. -/
def Work.Inside (work : Work) (t : DecompTask) : Prop :=
  ∀ q a, work.decompress q t = .ok a →
    ∀ w ∈ work.writes a, a.regionStart ≤ w.1.offset ∧ w.1.offset < a.regionEnd

/-- What a worker does at the moment. -/
inductive Worker (κ : Type) where
  | idle
  | decompressing (sequence : Nat) (t : DecompTask)
  /-- With the writes that are left. -/
  | applying (t : TaskSet.ApplyTask) (left : List (Loc × UInt8))
  | constructing (t : κ)

/-- The task set, the workers and the memory, with the tasks that have been received for
decompression and the updates that have been applied so far. -/
structure Workers (κ : Type) (n : Nat) where
  tasks : TaskSet κ
  workers : Fin n → Worker κ
  memory : Loc → UInt8
  received : List DecompTask
  applied : List TaskSet.ApplyTask

inductive WorkersEvent (κ : Type) (n : Nat) where
  | receive (t : DecompTask)
  | receiveConstruct (t : κ)
  | pop (w : Fin n)
  /-- The end of `run_decomp_task`. -/
  | decompressed (w : Fin n)
  | write (w : Fin n)
  /-- The end of `run_apply_task`. -/
  | applied (w : Fin n)
  | constructed (w : Fin n)

namespace Workers

variable {κ : Type} {n : Nat} (work : Work)

variable (s : Workers κ n) (w : Fin n)

def start (memory : Loc → UInt8) : Workers κ n where
  tasks := .empty
  workers := fun _ => .idle
  memory
  received := []
  applied := []

def setWorker (state : Worker κ) : Workers κ n :=
  { s with workers := Function.update s.workers w state }

/-- A worker that is idle takes a task. -/
def popStep : Option (Workers κ n) :=
  match s.workers w, s.tasks.popTask with
  | .idle, .ok (some (.apply t, tasks)) =>
    some { s.setWorker w (.applying t (work.writes t)) with tasks }
  | .idle, .ok (some (.decomp q t, tasks)) => some { s.setWorker w (.decompressing q t) with tasks }
  | .idle, .ok (some (.construct t, tasks)) => some { s.setWorker w (.constructing t) with tasks }
  | _, _ => none

/-- An update that is decompressed is moved to those to apply.  When decompression fails, the error
is reported, and the sequence number stays in the set. -/
def decompressedStep : Option (Workers κ n) :=
  match s.workers w with
  | .decompressing q t =>
    match work.decompress q t with
    | .ok a => some { s.setWorker w .idle with tasks := s.tasks.decompDone q a }
    | .error _ => some (s.setWorker w .idle)
  | _ => none

def writeStep : Option (Workers κ n) :=
  match s.workers w with
  | .applying a (v :: left) =>
    some { s.setWorker w (.applying a left) with memory := write s.memory v }
  | _ => none

def appliedStep : Option (Workers κ n) :=
  match s.workers w with
  | .applying a [] => some { s.setWorker w .idle with
      tasks := s.tasks.applyDone a
      applied := s.applied ++ [a] }
  | _ => none

def constructedStep : Option (Workers κ n) :=
  match s.workers w with
  | .constructing _ => some (s.setWorker w .idle)
  | _ => none

def step : WorkersEvent κ n → Option (Workers κ n)
  | .receive t => some { s with
      tasks := { s.tasks with decompress := s.tasks.decompress ++ [t] }
      received := s.received ++ [t] }
  | .receiveConstruct t => some { s with
      tasks := { s.tasks with construct := s.tasks.construct ++ [t] } }
  | .pop w => s.popStep work w
  | .decompressed w => s.decompressedStep work w
  | .write w => s.writeStep w
  | .applied w => s.appliedStep w
  | .constructed w => s.constructedStep w

/-- Nothing is left to do for the updates that have been received. -/
def Quiet : Prop :=
  s.tasks.decompress = [] ∧ s.tasks.inProgressDecomp = [] ∧ s.tasks.apply = [] ∧
    s.tasks.inProgressApply = []

instance (s : Workers κ n) : Decidable s.Quiet := by unfold Quiet; infer_instance

end Workers

namespace Work

variable (work : Work)

/-- The update that has been received as number `q`, decompressed. -/
def update (received : List DecompTask) (q : Nat) : Option TaskSet.ApplyTask :=
  received[q]?.bind fun t => (work.decompress q t).toOption

/-- The updates applied one by one in the order in which they were received; `q` is the number of
the first. -/
def applyInOrder : Nat → List DecompTask → (Loc → UInt8) → Loc → UInt8
  | _, [], m => m
  | q, t :: ts, m => applyInOrder (q + 1) ts (match work.decompress q t with
    | .ok a => writeAll m (work.writes a)
    | .error _ => m)

variable {work}

theorem update_eq_some {received : List DecompTask} {q : Nat} {a : TaskSet.ApplyTask}
    (h : work.update received q = some a) : ∃ t ∈ received, work.decompress q t = .ok a := by
  obtain ⟨t, hget, ht⟩ := Option.bind_eq_some_iff.mp h
  refine ⟨t, List.mem_of_getElem? hget, ?_⟩
  cases hd : work.decompress q t with
  | error e =>
    rw [hd] at ht
    cases ht
  | ok b =>
    rw [hd] at ht
    cases ht
    rfl

theorem update_receive {received : List DecompTask} {q : Nat} (hq : q < received.length)
    (t : DecompTask) : work.update (received ++ [t]) q = work.update received q := by
  unfold update
  rw [List.getElem?_append_left hq]

/-- Applying all updates in order, as one sequence of writes. -/
theorem applyInOrder_eq (received : List DecompTask) (m : Loc → UInt8) :
    work.applyInOrder 0 received m =
      inOrder m received.length fun q => (work.update received q).elim [] work.writes := by
  have hfrom : ∀ (q : Nat) (ts : List DecompTask), received.drop q = ts → q ≤ received.length →
      work.applyInOrder q ts
        (inOrder m q fun q => (work.update received q).elim [] work.writes) =
      inOrder m received.length fun q => (work.update received q).elim [] work.writes := by
    intro q ts
    induction ts generalizing q with
    | nil =>
      intro hdrop hq
      have hlen := List.drop_eq_nil_iff.mp hdrop
      have hend : q = received.length := by omega
      rw [hend]
      rfl
    | cons t ts ih =>
      intro hdrop hq
      have hget : received[q]? = some t := by
        rw [← List.head?_drop, hdrop]
        rfl
      have hlt : q < received.length := (List.getElem?_eq_some_iff.mp hget).1
      have hnext : received.drop (q + 1) = ts := by
        rw [← List.tail_drop, hdrop]
        rfl
      rw [← ih (q + 1) hnext (by omega), inOrder_succ]
      simp only [applyInOrder, update, hget, Option.bind_some]
      cases work.decompress q t with
      | ok a => rfl
      | error e => rfl
  exact hfrom 0 received rfl (Nat.zero_le _)

end Work

end Waypipe
