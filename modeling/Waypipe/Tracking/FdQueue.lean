import Waypipe.Lib.Transition
import Waypipe.Tracking.HandlerForms

/-!
# File descriptors from the Wayland connection

File descriptors arrive on a queue beside the messages, and a message does not say which of them
belong to it: that every method takes exactly the descriptors of its signature is what keeps the
queue and the messages in step.  Five methods with a descriptor in their signature have no handler
(`unhandledFds`), and after one of them the queue is ahead of the messages.
-/

namespace Waypipe

open Wayland Transition List

variable (sys : System)

/-! ## The table of signatures -/

/-- The methods with file descriptors that are processed by default. -/
def unhandledFds : List (WaylandInterface × MethodId) :=
  [(.wlDrm, .request 3), (.wpSecurityContextManagerV1, .request 1),
    (.zwlrExportDmabufFrameV1, .event 1), (.zwpInputMethodKeyboardGrabV2, .event 0),
    (.zwpVirtualKeyboardV1, .request 0)]

/-- All methods of an interface. -/
def methodIds (intf : WaylandInterface) : List MethodId :=
  (range intf.data.evts.length).map .event ++ (range intf.data.reqs.length).map .request

theorem mem_methodIds {intf : WaylandInterface} {id : MethodId} {meth : WaylandMethod}
    (h : intf.method id = some meth) : id ∈ methodIds intf := by
  unfold methodIds
  cases id with
  | event n =>
    obtain ⟨hn, _⟩ := List.getElem?_eq_some_iff.mp h
    simp [hn]
  | request n =>
    obtain ⟨hn, _⟩ := List.getElem?_eq_some_iff.mp h
    simp [hn]

/-- Whether a method has a handler of its own does not depend on the system. -/
theorem lookup_handlers_isSome (sys' : System) (key : WaylandInterface × MethodId) :
    ((handlers sys).lookup key).isSome = ((handlers sys').lookup key).isSome := by
  have hkeys : ∀ l : List ((WaylandInterface × MethodId) × (Request → Handler)),
      (l.lookup key).isSome = true ↔ key ∈ l.map Prod.fst := by
    intro l
    rw [lookup_isSome_iff, mem_map]
    simp only [beq_iff_eq, @eq_comm _ key]
  have hfst : (handlers sys).map Prod.fst = (handlers sys').map Prod.fst := by
    simp only [handlers, map_cons, map_nil]
  rw [Bool.eq_iff_iff, hkeys, hkeys, hfst]

theorem signatures_covered : ∀ intf ∈ WaylandInterface.list, ∀ id ∈ methodIds intf,
    ((handlers .headless).lookup (intf, id)).isSome = false →
      (0 < signatureFds (intf, id) ↔ (intf, id) ∈ unhandledFds) := by
  decide +kernel

theorem unhandledFds_unhandled : ∀ key ∈ unhandledFds,
    ((handlers .headless).lookup key).isSome = false := by
  decide +kernel

/-- The number of descriptors that the handler of a method takes. -/
theorem taken_eq {intf : WaylandInterface} {id : MethodId} {meth : WaylandMethod}
    (h : intf.method id = some meth) :
    (if ((handlers sys).lookup (intf, id)).isSome then signatureFds (intf, id) else 0) =
      if (intf, id) ∈ unhandledFds then 0 else meth.fdCount := by
  have hfds : signatureFds (intf, id) = meth.fdCount := by simp [signatureFds, h]
  rw [lookup_handlers_isSome sys .headless]
  by_cases hun : (intf, id) ∈ unhandledFds
  · rw [unhandledFds_unhandled _ hun, if_pos hun]
    rfl
  · rw [if_neg hun]
    cases hs : ((handlers .headless).lookup (intf, id)).isSome with
    | true => exact hfds
    | false =>
      have hcov := signatures_covered intf intf.mem_list id (mem_methodIds h) hs
      have hzero : ¬ 0 < meth.fdCount := by rw [← hfds, hcov]; exact hun
      simp only [Bool.false_eq_true, if_false]
      omega

/-! ## One message -/

variable {sys}

theorem processWayMsg_popped {msg : WaylandMsg} {c c' : Ctx} {m : Method}
    (hc : c.transl.isFromChannel = false) (hm : methodOf msg c = some m)
    (h : processWayMsg sys msg c = .ok (.done, c')) :
    Popped (if (m.intf, m.id) ∈ unhandledFds then 0 else m.meth.fdCount) c c' := by
  have hd := dispatch_of_processWayMsg sys h
  unfold dispatch at hd
  rw [hm] at hd
  dsimp only at hd
  rw [← taken_eq sys (methodOf_eq_some hm).2.2]
  have hform := handlerOf_form sys (requestOf msg c m.meth) m.intf m.id (isReq_requestOf hm)
  refine hform.popped c c' ⟨fromWayland_requestOf hc msg m.meth, fun hkey hbusy => ?_⟩ hd
  -- a busy pool is waited for, so the message is not done
  have hi : m.intf = .wlShmPool := congrArg Prod.fst hkey
  have hid : m.id = .request 2 := congrArg Prod.snd hkey
  rw [hi, hid] at hd
  rcases wlShmPoolResize_of_busy sys _ hbusy hd with ⟨_, hwait⟩ | ⟨_, _, hne⟩
  · exact hwait
  · exact hne rfl

/-- Descriptors are taken as the signature says, by every method that is not in the list. -/
theorem fdsIn_eq_drop_iff {msg : WaylandMsg} {c c' : Ctx} {m : Method}
    (hc : c.transl.isFromChannel = false) (hm : methodOf msg c = some m)
    (hfds : m.meth.fdCount ≤ c.fdsIn.length) (h : processWayMsg sys msg c = .ok (.done, c')) :
    c'.fdsIn = c.fdsIn.drop m.meth.fdCount ↔ (m.intf, m.id) ∉ unhandledFds := by
  obtain ⟨_, _, htaken⟩ := processWayMsg_popped hc hm h hc
  by_cases hun : (m.intf, m.id) ∈ unhandledFds
  · have hmeth := (methodOf_eq_some hm).2.2
    have hpos : 0 < signatureFds (m.intf, m.id) :=
      (signatures_covered m.intf m.intf.mem_list m.id (mem_methodIds hmeth)
        (unhandledFds_unhandled _ hun)).mpr hun
    have hcount : signatureFds (m.intf, m.id) = m.meth.fdCount := by simp [signatureFds, hmeth]
    rw [if_pos hun, drop_zero] at htaken
    constructor
    · intro hdrop
      have hlen := congrArg length (htaken.symm.trans hdrop)
      rw [length_drop] at hlen
      omega
    · intro hnot
      exact absurd hun hnot
  · rw [if_neg hun] at htaken
    exact ⟨fun _ => hun, fun _ => htaken⟩

/-! ## Runs -/

/-- A message on its way in, with the file descriptors that were sent with it. -/
structure Arrived where
  msg : WaylandMsg
  fds : List Fd

/-- The receiving end of the Wayland connection: the messages that have not been processed. -/
structure Inbox where
  ctx : Ctx
  pending : List Arrived

inductive InboxEvent where
  /-- A message arrives, its descriptors at the end of the queue. -/
  | arrive (a : Arrived)
  /-- The first message is processed, or stalls. -/
  | process
  /-- The rest of the program changes the tracked state, empties the output or the queue of
  descriptors that go out. -/
  | other (core : Core) (rids : List SfdRef)

/-- Put descriptors at the end of the incoming queue. -/
def Transl.receive (fds : List Fd) : Transl → Transl
  | .fromWayland queue rids => .fromWayland (queue ++ fds) rids
  | .fromChannel sfds out => .fromChannel sfds out

variable (sys) in
/-- One step; an error ends the connection. -/
def Inbox.step (s : Inbox) : InboxEvent → Option Inbox
  | .arrive a =>
    some { ctx := { s.ctx with transl := s.ctx.transl.receive a.fds }, pending := s.pending ++ [a] }
  | .process =>
    match s.pending with
    | [] => none
    | a :: rest =>
      match processWayMsg sys a.msg s.ctx with
      | .ok (.done, ctx) => some { ctx, pending := rest }
      | .ok (_, ctx) => some { ctx, pending := s.pending }
      | .error _ => none
  | .other core rids => some { s with ctx := { core, transl := s.ctx.transl.withOutgoing rids } }

/-- The message that is processed is of a known method, and has come with as many descriptors as the
signature of the method says. -/
def Inbox.declared (s : Inbox) : InboxEvent → Bool
  | .process =>
    match s.pending with
    | [] => true
    | a :: _ =>
      match methodOf a.msg s.ctx with
      | some m => a.fds.length == m.meth.fdCount
      | none => false
  | _ => true

/-- The method is not one of those with descriptors but without a handler. -/
def Inbox.handled (s : Inbox) : InboxEvent → Bool
  | .process =>
    match s.pending with
    | [] => true
    | a :: _ =>
      match methodOf a.msg s.ctx with
      | some m => !unhandledFds.contains (m.intf, m.id)
      | none => true
  | _ => true

/-- The queue holds the descriptors of the messages that have not been processed, in order. -/
structure Inbox.InStep (s : Inbox) : Prop where
  fromWayland : s.ctx.transl.isFromChannel = false
  queue : s.ctx.fdsIn = s.pending.flatMap Arrived.fds

theorem fdsIn_receive {c : Ctx} (hc : c.transl.isFromChannel = false) (fds : List Fd) :
    ({ c with transl := c.transl.receive fds } : Ctx).transl.isFromChannel = false ∧
      ({ c with transl := c.transl.receive fds } : Ctx).fdsIn = c.fdsIn ++ fds := by
  unfold Ctx.fdsIn
  cases ht : c.transl with
  | fromChannel _ _ =>
    rw [ht] at hc
    cases hc
  | fromWayland _ _ => exact ⟨rfl, rfl⟩

/-- Processing one message keeps the queue in step. -/
theorem inStep_process {s t : Inbox} (hs : s.InStep) (hdecl : s.declared .process)
    (hhand : s.handled .process) (h : s.step sys .process = some t) : t.InStep := by
  obtain ⟨ctx, pending⟩ := s
  cases pending with
  | nil => cases h
  | cons a rest =>
    have hw := hs.fromWayland
    have hqueue : ctx.fdsIn = a.fds ++ rest.flatMap Arrived.fds := hs.queue
    cases hm : methodOf a.msg ctx with
    | none => simp [Inbox.declared, hm] at hdecl
    | some m =>
      simp only [Inbox.declared, hm, beq_iff_eq] at hdecl
      simp only [Inbox.handled, hm, Bool.not_eq_true', contains_eq_mem,
        decide_eq_false_iff_not] at hhand
      cases hr : processWayMsg sys a.msg ctx with
      | error e => simp [Inbox.step, hr] at h
      | ok x =>
        obtain ⟨p, c'⟩ := x
        by_cases hp : p = .done
        · subst hp
          simp only [Inbox.step, hr, Option.some.injEq] at h
          subst h
          obtain ⟨hw', _, htaken⟩ := processWayMsg_popped hw hm hr hw
          refine ⟨hw', ?_⟩
          rw [htaken, if_neg hhand, hqueue]
          exact drop_left' hdecl
        · have hstay := processWayMsg_stayed sys hr hp
          have ht : t = { ctx := c', pending := a :: rest } := by
            cases p with
            | done => exact absurd rfl hp
            | needsSpace _ _ => simpa [Inbox.step, hr, eq_comm] using h
            | waitFor _ => simpa [Inbox.step, hr, eq_comm] using h
          subst ht
          refine ⟨by rw [hstay.transl]; exact hw, ?_⟩
          show c'.fdsIn = _
          unfold Ctx.fdsIn
          rw [hstay.transl]
          exact hs.queue

theorem inStep_step {s t : Inbox} {e : InboxEvent} (hs : s.InStep)
    (hc : s.declared e ∧ s.handled e) (h : s.step sys e = some t) : t.InStep := by
  cases e with
  | arrive a =>
    cases h
    obtain ⟨hw, hfds⟩ := fdsIn_receive hs.fromWayland a.fds
    refine ⟨hw, ?_⟩
    rw [hfds, hs.queue, flatMap_append, flatMap_singleton]
  | process => exact inStep_process hs hc.1 hc.2 h
  | other core rids =>
    cases h
    obtain ⟨hw, _, hfds⟩ := Popped.of_withOutgoing
      (t := { core, transl := s.ctx.transl.withOutgoing rids }) rfl hs.fromWayland
    exact ⟨hw, hfds.trans hs.queue⟩

/-- The descriptors that a method takes are those that were sent with the message: exactly when the
method has a handler, and in a whole run as long as all methods have one. -/
theorem fd_queue_in_step :
    (∀ msg c c' m, c.transl.isFromChannel = false → methodOf msg c = some m →
      m.meth.fdCount ≤ c.fdsIn.length → processWayMsg sys msg c = .ok (.done, c') →
        (c'.fdsIn = c.fdsIn.drop m.meth.fdCount ↔ (m.intf, m.id) ∉ unhandledFds)) ∧
    (∀ s t es, s.InStep →
      Transition.Along (Inbox.step sys) (fun s e => s.declared e ∧ s.handled e) s es →
      Transition.run (Inbox.step sys) s es = some t →
        t.InStep ∧ ∀ a ∈ t.pending.head?, t.ctx.fdsIn.take a.fds.length = a.fds) := by
  refine ⟨fun msg c c' m hc hm hfds h => fdsIn_eq_drop_iff hc hm hfds h,
    fun s t es hs halong hrun => ?_⟩
  have ht : t.InStep := run_invariant (fun s e t => inStep_step) hs halong hrun
  refine ⟨ht, fun a ha => ?_⟩
  obtain ⟨rest, hpending⟩ : ∃ rest, t.pending = a :: rest := by
    cases hp : t.pending with
    | nil => simp [hp] at ha
    | cons b rest =>
      rw [hp] at ha
      cases ha
      exact ⟨rest, rfl⟩
  rw [ht.queue, hpending]
  exact take_left

/-! ### Two connections -/

/-- An application that has just connected. -/
def Inbox.start : Inbox where
  ctx := { core := { glob := .start false .plain, out := .empty 4096 }, transl := .fromWayland [] [] }
  pending := []

/-- A message arrives and is processed. -/
def receive (objectId opcode : Nat) (args : Words) (fds : List Fd) : List InboxEvent :=
  [.arrive { msg := .make objectId opcode args, fds }, .process]

/-- Bind a global to a new id. -/
def receiveBind (intf : WaylandInterface) (newId : Nat) : List InboxEvent :=
  receive 2 0 (.u32 1 ++ .string intf.name ++ .u32 1 ++ .obj newId) []

/-- The registry, and a pool for shared memory with the descriptor 9. -/
def poolEvents : List InboxEvent :=
  receive 1 1 (.obj 2) [] ++ receiveBind .wlShm 3 ++
    receive 3 0 (.obj 4 ++ .i32 64) [9]

theorem start_inStep : Inbox.start.InStep := ⟨rfl, rfl⟩

theorem fd_queue_in_step_pool :
    ∃ t, Transition.run (Inbox.step .headless) Inbox.start poolEvents = some t ∧ t.InStep := by
  have hsome : (run (Inbox.step .headless) Inbox.start poolEvents).isSome = true := by
    decide +kernel
  obtain ⟨t, ht⟩ := Option.isSome_iff_exists.mp hsome
  have halong : Transition.Along (Inbox.step .headless) (fun s e => s.declared e ∧ s.handled e)
      Inbox.start poolEvents := by
    decide +kernel
  exact ⟨t, ht, (fd_queue_in_step.2 Inbox.start t poolEvents start_inStep halong ht).1⟩

/-- A virtual keyboard sends a keymap with the descriptor 8 before the pool is made. -/
def keymapEvents : List InboxEvent :=
  receive 1 1 (.obj 2) [] ++ receiveBind .wlShm 3 ++
    receiveBind .zwpVirtualKeyboardManagerV1 5 ++
    receiveBind .wlSeat 6 ++
    receive 5 0 (.obj 6 ++ .obj 7) [] ++
    receive 7 0 (.u32 1 ++ .u32 64) [8] ++
    receive 3 0 (.obj 4 ++ .i32 64) [9]

/-- The descriptors of the files that are known. -/
def Globals.fileFds (g : Globals) : List Fd :=
  g.sfds.filterMap fun s => match s.data with
    | .file f => some f.fd
    | _ => none

/-- The pool is made from the keymap, and its own descriptor is left on the queue. -/
theorem keymap_shifts_fds :
    Transition.Along (Inbox.step .headless) (fun s e => s.declared e) Inbox.start keymapEvents ∧
      (Transition.run (Inbox.step .headless) Inbox.start keymapEvents).map (fun t =>
        (t.ctx.glob.fileFds, t.ctx.fdsIn, t.pending.length)) = some ([8], [9], 0) := by
  decide +kernel

end Waypipe
