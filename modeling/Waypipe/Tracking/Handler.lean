import Waypipe.Lib.Attempt
import Waypipe.Tracking.Objects
import Waypipe.Wayland.Messages

/-!
# Handlers of Wayland messages

A handler translates one message: it is an `Attempt` over the tracked state, the output buffer and
the queues of file descriptors.  The parts of a handler are typed by what they may touch.  A
`GlobAct` changes the tracked state only; an `Act` also writes output; an `FdAct` also works on the
queues; none of them can stall.  A `Look` changes nothing.  Space and pending tasks are checked by
`needs` and `waits`, which are gates.
-/

namespace Waypipe

open Wayland LeBytes

def MAX_OUTGOING_FDS : Nat := 8

/-- Result of a message processing attempt. -/
inductive ProcMsg where
  | done
  /-- The number of bytes and of file descriptors that are needed. -/
  | needsSpace (bytes fds : Nat)
  | waitFor (rid : Rid)
  deriving DecidableEq, Repr

/-! ## State -/

/-- The buffer that output is written to: whole words that fit into it. -/
structure Output where
  data : List UInt8
  capacity : Nat
  aligned : data.length % 4 = 0
  fits : data.length ≤ capacity

namespace Output

def space (out : Output) : Nat := out.capacity - out.data.length

def empty (capacity : Nat) : Output := ⟨[], capacity, Words.empty.aligned, Nat.zero_le _⟩

def write (out : Output) (w : Words) : Res Output :=
  if h : out.data.length + w.bytes.length ≤ out.capacity then
    .ok {
      data := out.data ++ w.bytes
      capacity := out.capacity
      aligned := by
        have h1 := out.aligned
        have h2 := w.aligned
        rw [List.length_append]
        omega
      fits := by
        rw [List.length_append]
        exact h }
  else .error (.panic "range end index out of range for slice")

end Output

/-- Which way messages go, with the queues of what comes in and what goes out. -/
inductive Transl where
  | fromChannel (sfds fds : List SfdRef)
  | fromWayland (fds : List Fd) (rids : List SfdRef)
  deriving DecidableEq, Repr

namespace Transl

def isFromChannel : Transl → Bool
  | fromChannel _ _ => true
  | fromWayland _ _ => false

def outgoing : Transl → List SfdRef
  | fromChannel _ y | fromWayland _ y => y

def withOutgoing : Transl → List SfdRef → Transl
  | fromChannel x _, y => fromChannel x y
  | fromWayland x _, y => fromWayland x y

def push (t : Transl) (sfd : SfdRef) : Transl := t.withOutgoing (t.outgoing ++ [sfd])

/-- Put a descriptor at the end of the queue of those that come from the channel. -/
def inject (sfd : SfdRef) : Transl → Transl
  | fromChannel sfds fds => fromChannel (sfds ++ [sfd]) fds
  | fromWayland fds rids => fromWayland fds rids

end Transl

/-- What every part of a handler can change. -/
structure Core where
  glob : Globals
  out : Output

structure Ctx where
  core : Core
  transl : Transl

abbrev Ctx.glob (c : Ctx) : Globals := c.core.glob

def Ctx.setGlob (c : Ctx) (g : Globals) : Ctx := { c with core := { c.core with glob := g } }

/-- A descriptor that the other instance has opened is now in use. -/
def Ctx.inject (c : Ctx) (rid : Rid) (sfd : SfdRef) : Ctx where
  core := { c.core with glob := { c.glob with fresh := c.glob.fresh.erase rid } }
  transl := c.transl.inject sfd

/-- Whether there is room for the given number of bytes and file descriptors. -/
def Ctx.hasSpace (c : Ctx) (bytes fds : Nat) : Prop :=
  bytes ≤ c.core.out.space ∧ fds ≤ MAX_OUTGOING_FDS - c.transl.outgoing.length

instance (c : Ctx) (bytes fds : Nat) : Decidable (c.hasSpace bytes fds) :=
  inferInstanceAs (Decidable (_ ∧ _))

/-- The message being processed, with what the dispatcher knows about it. -/
structure Request where
  msg : WaylandMsg
  objectId : ObjId
  fromChannel : Bool
  isReq : Bool
  meth : WaylandMethod

abbrev GlobAct (α : Type) := StateT Globals Res α

abbrev Act (α : Type) := StateT Core Res α

abbrev FdAct (α : Type) := StateT Ctx Res α

abbrev Look (α : Type) := ReaderT Ctx Res α

abbrev Handler := Attempt Fault Ctx ProcMsg

/-- An `Err` when there is nothing. -/
def orErr {α : Type} (o : Option α) (msg : String) : Res α :=
  match o with
  | some a => .ok a
  | none => .error (.err msg)

/-- `unwrap` or `expect` -/
def orPanic {α : Type} (o : Option α) (msg : String) : Res α :=
  match o with
  | some a => .ok a
  | none => .error (.panic msg)

theorem orErr_eq_ok {α : Type} {o : Option α} {msg : String} {a : α} :
    orErr o msg = .ok a ↔ o = some a := by
  cases o <;> simp [orErr]

theorem orPanic_eq_ok {α : Type} {o : Option α} {msg : String} {a : α} :
    orPanic o msg = .ok a ↔ o = some a := by
  cases o <;> simp [orPanic]

def UNWRAP_NONE : String := "called unwrap() on a None value"

def fail {α : Type} (msg : String) : Res α := .error (.err msg)

def hex (n : Nat) : String := String.ofList (Nat.toDigits 16 n)

/-! ## Pieces of handlers -/

namespace Handler

def act (m : Act Unit) : Handler := Attempt.commit .done fun c => do
  let (_, core) ← m.run c.core
  return { c with core }

def actFd (m : FdAct Unit) : Handler := Attempt.commit .done fun c => do
  let (_, c) ← m.run c
  return c

/-- Done with the message without any output. -/
def drop : Handler := Attempt.stop .done

def looking {α : Type} (r : Look α) (k : α → Handler) : Handler := Attempt.reading r k

/-- Parse a message, or look something up that does not depend on the state. -/
def parsing {α : Type} (x : Res α) (k : α → Handler) : Handler := Attempt.reading (fun _ => x) k

/-- `check_space!` -/
def needs (bytes fds : Nat) (k : Handler) : Handler :=
  Attempt.gate (fun c => .ok (if c.hasSpace bytes fds then none
    else some (.needsSpace bytes fds))) k

/-- Stop while there are tasks to wait for. -/
def waits (r : Look (Option Rid)) (k : Handler) : Handler :=
  Attempt.gate (fun c => (r.run c).map (Option.map .waitFor)) k

/-- A change of the tracked state that is made before the check for space. -/
def first (m : GlobAct Unit) (k : Handler) : Handler :=
  Attempt.first (fun c => (m.run c.glob).map fun (_, g) => c.setGlob g) k

/-! ### Results of the pieces -/

section Results

variable {α : Type} {k : Handler} {c : Ctx} {x : ProcMsg × Ctx}

theorem act_eq_ok {m : Act Unit} :
    act m c = .ok x ↔ ∃ core, m.run c.core = .ok ((), core) ∧ x = (.done, { c with core }) := by
  unfold act Attempt.commit
  cases hm : m.run c.core with
  | error e => simp [bind, Except.bind, hm]
  | ok y =>
    obtain ⟨_, core⟩ := y
    simp [bind, Except.bind, pure, Except.pure, hm, eq_comm]

theorem actFd_eq_ok {m : FdAct Unit} :
    actFd m c = .ok x ↔ ∃ c', m.run c = .ok ((), c') ∧ x = (.done, c') := by
  unfold actFd Attempt.commit
  cases hm : m.run c with
  | error e => simp [bind, Except.bind, hm]
  | ok y =>
    obtain ⟨_, c'⟩ := y
    simp [bind, Except.bind, pure, Except.pure, hm, eq_comm]

theorem looking_eq_ok {r : Look α} {k : α → Handler} :
    looking r k c = .ok x ↔ ∃ a, r.run c = .ok a ∧ k a c = .ok x := Attempt.reading_eq_ok

theorem parsing_eq_ok {r : Res α} {k : α → Handler} :
    parsing r k c = .ok x ↔ ∃ a, r = .ok a ∧ k a c = .ok x := Attempt.reading_eq_ok

theorem needs_eq_ok {bytes fds : Nat} :
    needs bytes fds k c = .ok x ↔
      (c.hasSpace bytes fds ∧ k c = .ok x) ∨
        (¬ c.hasSpace bytes fds ∧ x = (.needsSpace bytes fds, c)) := by
  unfold needs
  rw [Attempt.gate_eq_ok]
  by_cases h : c.hasSpace bytes fds
  · simp [h]
  · simp [h]

theorem waits_eq_ok {r : Look (Option Rid)} :
    waits r k c = .ok x ↔
      (r.run c = .ok none ∧ k c = .ok x) ∨
        (∃ rid, r.run c = .ok (some rid) ∧ x = (.waitFor rid, c)) := by
  unfold waits
  rw [Attempt.gate_eq_ok]
  cases hr : r.run c with
  | error e => simp [Except.map]
  | ok o =>
    cases o with
    | none => simp [Except.map]
    | some rid => simp [Except.map]

theorem first_eq_ok {m : GlobAct Unit} :
    first m k c = .ok x ↔ ∃ g, m.run c.glob = .ok ((), g) ∧ k (c.setGlob g) = .ok x := by
  unfold first Attempt.first
  cases hm : m.run c.glob with
  | error e => simp [Except.map, hm]
  | ok y =>
    obtain ⟨_, g⟩ := y
    simp [Except.map, hm]

end Results

end Handler

/-! ## Operations on the state -/

def getGlob : GlobAct Globals := get

def modifyGlob (f : Globals → Globals) : GlobAct Unit := modify f

instance : MonadLift (StateT Globals Res) (StateT Core Res) where
  monadLift m := do
    let c ← get
    let (a, g) ← m.run c.glob
    set { c with glob := g }
    return a

def emit (w : Words) : Act Unit := do
  let c ← get
  set { c with out := ← c.out.write w }

/-- Write a message that is made here. -/
def emitMsg (w : Res Words) : Act Unit := do emit (← w)

def copyMsg (msg : WaylandMsg) : Act Unit := emit msg.words

/-- The message with another second header word. -/
def retag (msg : WaylandMsg) (h2 : Nat) : Words where
  bytes := msg.bytes.take 4 ++ u32le h2 ++ msg.bytes.drop 8
  aligned := by
    have h1 := msg.aligned
    have h8 := msg.hasHeader
    simp only [List.length_append, List.length_take, length_u32le, List.length_drop]
    omega

/-- Copy a message, adding or removing the count of file descriptors in its header. -/
def copyMsgTagFd (msg : WaylandMsg) (fromChannel : Bool) : Act Unit := do
  let h2 := msg.header2
  let untagged := h2 / 2 ^ 16 * 2 ^ 16 + h2 % 2 ^ 8
  if fromChannel then
    let header := hex h2
    if h2.testBit 11 then emit (retag msg untagged)
    else fail s!"header part {header} missing fd tag"
  else emit (retag msg (untagged + 2 ^ 11))

/-- Run an action on the tracked state only. -/
def liftAct {α : Type} (m : Act α) : FdAct α := do
  let c ← get
  let (a, core) ← m.run c.core
  set { c with core }
  return a

def pushOut (sfd : SfdRef) : FdAct Unit := modify fun c => { c with transl := c.transl.push sfd }

/-- Take the next file descriptor that came from the Wayland connection. -/
def popFd : FdAct Fd := do
  let c ← get
  match c.transl with
  | .fromWayland (fd :: fds) rids =>
    set { c with transl := .fromWayland fds rids }
    return fd
  | _ => fail "Missing fd"

/-- Take the next descriptor that came from the channel. -/
def popSfd (missing : String) : FdAct SfdRef := do
  let c ← get
  match c.transl with
  | .fromChannel (sfd :: sfds) fds =>
    set { c with transl := .fromChannel sfds fds }
    return sfd
  | _ => fail missing

/-- Pass one file descriptor on: from the channel as it is, from Wayland as a new `ShadowFd`. -/
def passFd (missing : String) (check : SfdRef → Act Unit) (translate : Fd → Act SfdRef) :
    FdAct SfdRef := do
  if (← get).transl.isFromChannel then
    let sfd ← popSfd missing
    liftAct (check sfd)
    pushOut sfd
    return sfd
  else
    let sfd ← liftAct (translate (← popFd))
    pushOut sfd
    return sfd

end Waypipe
