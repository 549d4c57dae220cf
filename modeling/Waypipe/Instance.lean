import Mathlib.Data.List.Sort
import Waypipe.Incoming
import Waypipe.MainLoop
import Waypipe.Tracking.Process

/-!
# An instance

The main thread of one instance with its tracked state: `processWayland1` translates what the local
program or compositor has sent and collects the updates of all descriptors, `processChannel` does
what the other instance has sent, and `Instance.step` is the main loop, with one event for each of
its parts.  Writing is all or nothing here.

The table of descriptors holds weak references.  A descriptor is alive as long as something else
refers to it (`Instance.alive`), and dead ones are skipped and, at the end of an iteration, dropped.
-/

namespace Waypipe

open Wayland

/-! ## References -/

/-- The strong references of an object. -/
def WpExtra.refs : WpExtra → List SfdRef
  | wlSurface s => (s.acquirePt.toList ++ s.releasePt.toList).map (·.2)
  | wlBuffer b => [b.sfd]
  | wlShmPool p => [p.buffer]
  | zwpDmabufFeedback f => f.queuedFormatTable.toList.map (·.1)
  | zwpDmabufParams p => p.dmabuf.toList
  | wpDrmSyncobjTimeline t => [t.timeline]
  | zwlrScreencopyFrame f => f.buffer.toList.map (·.1)
  | extImageCopyCaptureFrame f => f.buffer.toList.map (·.1)
  | _ => []

/-- The strong references between descriptors: buffers and timelines refer to each other. -/
def ShadowFd.refs (s : ShadowFd) : List SfdRef :=
  match s.data with
  | .dmabuf d => d.acquires.map (·.2) ++ d.releases.map (·.2)
  | .timeline t => t.releases.map (·.2)
  | _ => []

/-- The strong references of the tracked state. -/
def Globals.roots (g : Globals) : List SfdRef :=
  g.objects.entries.flatMap (fun e => e.2.extra.refs) ++ g.fresh.entries.map (·.2) ++ g.pipes

/-- Whether a root or one of the given descriptors refers to `r`. -/
def Globals.holds (g : Globals) (roots live : List SfdRef) (r : SfdRef) : Bool :=
  roots.contains r || live.any fun s => (g.sfds[s]?.elim [] ShadowFd.refs).contains r

/-- Drop what nothing refers to, and then what only that referred to.  Cycles stay. -/
def Globals.settle (g : Globals) (roots : List SfdRef) : Nat → List SfdRef → List SfdRef
  | 0, live => live
  | n + 1, live => g.settle roots n (live.filter (g.holds roots live))

/-! ## State -/

/-- A message from the other instance. -/
inductive ChanMsg where
  | injectRIDs (rids : List Rid)
  | protocol (msgs : List WaylandMsg)
  | close
  /-- A message about a descriptor, without padding. -/
  | sfd (typ : WmsgType) (msg : List UInt8)

/-- Messages from the Wayland connection, and the queue of messages for the channel. -/
structure Instance.FromWayland where
  input : List WaylandMsg
  fds : List Fd
  /-- `protocol_data` -/
  protocol : Output
  protocolRids : List SfdRef
  queue : TransferQueue
  /-- Tasks for the worker threads. -/
  construct : List WorkTask

/-- Messages from the channel, and the output for the Wayland connection. -/
structure Instance.FromChannel where
  input : List ChanMsg
  ridQueue : List SfdRef
  output : Output
  fds : List SfdRef
  waitingFor : Option Rid
  /-- Tasks for the worker threads. -/
  decompress : List ApplyTask

structure Instance where
  glob : Globals
  fromWay : Instance.FromWayland
  fromChan : Instance.FromChannel

def BUFFER_SIZE : Nat := 4096

def Instance.start (onDisplaySide : Bool) (opts : Options) : Instance where
  glob := .start onDisplaySide opts
  fromWay := {
    input := []
    fds := []
    protocol := .empty BUFFER_SIZE
    protocolRids := []
    queue := .initial
    construct := [] }
  fromChan := {
    input := []
    ridQueue := []
    output := .empty BUFFER_SIZE
    fds := []
    waitingFor := none
    decompress := [] }

variable (sys : System) (env : CollectEnv) (s : Instance)

namespace Instance

def roots : List SfdRef :=
  s.glob.roots ++ s.fromWay.protocolRids ++ s.fromChan.ridQueue ++ s.fromChan.fds

/-- The descriptors that still exist. -/
def alive : List SfdRef :=
  s.glob.settle s.roots s.glob.sfds.length (List.range s.glob.sfds.length)

/-- `Weak::upgrade` for an entry of the table. -/
def upgrade (rid : Rid) : Option SfdRef :=
  (s.glob.map.lookup rid).filter fun r => s.alive.contains r

/-- The context in which messages from the Wayland connection are translated. -/
def wayCtx : Ctx where
  core := { glob := s.glob, out := s.fromWay.protocol }
  transl := .fromWayland s.fromWay.fds s.fromWay.protocolRids

def setWayCtx (c : Ctx) : Instance where
  glob := c.glob
  fromWay := match c.transl with
    | .fromWayland fds rids => { s.fromWay with protocol := c.core.out, fds, protocolRids := rids }
    | .fromChannel _ _ => s.fromWay
  fromChan := s.fromChan

/-- The context in which messages from the channel are translated. -/
def chanCtx : Ctx where
  core := { glob := s.glob, out := s.fromChan.output }
  transl := .fromChannel s.fromChan.ridQueue s.fromChan.fds

def setChanCtx (c : Ctx) : Instance where
  glob := c.glob
  fromWay := s.fromWay
  fromChan := match c.transl with
    | .fromChannel sfds fds => { s.fromChan with output := c.core.out, ridQueue := sfds, fds }
    | .fromWayland _ _ => s.fromChan

end Instance

/-! ## From Wayland to the channel -/

def noSpace {α : Type} (bytes fds : Nat) : Res α :=
  fail (s!"Failed to send message(s): not enough space, ({bytes}, {fds}) vs " ++
    s!"({BUFFER_SIZE}, {MAX_OUTGOING_FDS})")

/-- The first loop of `process_wayland_1`: translate messages while there is space for the output.
The messages that are left are returned. -/
def translateWayland : List WaylandMsg → Ctx → Res (List WaylandMsg × Ctx)
  | [], c => .ok ([], c)
  | msg :: rest, c =>
    if BUFFER_SIZE ≤ msg.length then
      let objectId := msg.objectId
      let length := msg.length
      fail (s!"Message to object {objectId} (length {length}) is longer than " ++
        s!"{BUFFER_SIZE}-byte receive buffer")
    else do
      match ← processWayMsg sys msg c with
      | (.done, c) => translateWayland rest c
      | (.waitFor _, _) => .error (.panic "Unexpected ProcMsg::WaitFor")
      | (.needsSpace bytes fds, c) =>
        if BUFFER_SIZE < bytes ∨ MAX_OUTGOING_FDS < fds then noSpace bytes fds
        else return (msg :: rest, c)

namespace Instance

/-- Collect the updates of one descriptor, if it is alive; `false` when it should be dropped. -/
def collectOne (rid : Rid) (s : Instance) : Res (Bool × Instance) :=
  match s.upgrade rid with
  | none => .ok (true, s)
  | some r => do
    let sfd ← s.glob.sfd r
    let (keep, c) := Eff.exec (collectUpdates env) { sfd, queue := s.fromWay.queue, tasks := [] }
    let keep ← keep
    return (keep, { s with
      glob := s.glob.setSfd r c.sfd
      fromWay := { s.fromWay with queue := c.queue, construct := s.fromWay.construct ++ c.tasks } })

/-- The second loop of `process_wayland_1`; returns the descriptors to drop. -/
def collectEach : List Rid → Instance → Res (List Rid × Instance)
  | [], s => .ok ([], s)
  | rid :: rids, s => do
    let (keep, s) ← s.collectOne env rid
    let (dropList, s) ← collectEach rids s
    return (if keep then dropList else rid :: dropList, s)

/-- Forget the pipes that are closed. -/
def dropPipes (dropList : List Rid) (s : Instance) : Instance :=
  { s with glob := { s.glob with
      pipes := s.glob.pipes.filter fun r =>
        !(s.glob.sfds[r]?.any fun sfd => dropList.contains sfd.remoteId)
      map := dropList.foldl (fun m rid => m.erase rid) s.glob.map } }

/-- The keys of the table, in order. -/
def rids : List Rid := s.glob.map.keys.insertionSort (· ≤ ·)

def processWayland1 : Res Instance := do
  let (input, c) ← translateWayland sys s.fromWay.input s.wayCtx
  let s := s.setWayCtx c
  let s := { s with fromWay := { s.fromWay with input } }
  let (dropList, s) ← collectEach env s.rids s
  return s.dropPipes dropList

/-- Add the headers for the protocol data.  The data itself stays in the buffer until it is
written. -/
def processWayland2 : Res Instance := do
  let sfds ← s.fromWay.protocolRids.mapM s.glob.sfd
  let queue ← Waypipe.processWayland2 { s.fromWay.queue with
    protocolData := s.fromWay.protocol.data
    protocolRids := sfds.map (·.remoteId) }
  return { s with fromWay := { s.fromWay with queue, protocolRids := [] } }

end Instance

/-! ## From the channel to Wayland -/

/-- What becomes of a protocol message: all of it is processed, or the rest has to wait for space or
for a descriptor. -/
structure Translated where
  rest : List WaylandMsg
  waitingFor : Option Rid
  ctx : Ctx

/-- Translate the Wayland messages of one protocol message. -/
def translateChannel : List WaylandMsg → Ctx → Res Translated
  | [], ctx => .ok { rest := [], waitingFor := none, ctx }
  | msg :: rest, c => do
    match ← processWayMsg sys msg c with
    | (.done, c) => translateChannel rest c
    | (.waitFor rid, ctx) => return { rest := msg :: rest, waitingFor := some rid, ctx }
    | (.needsSpace bytes fds, ctx) =>
      if BUFFER_SIZE < bytes ∨ MAX_OUTGOING_FDS < fds then noSpace bytes fds
      else return { rest := msg :: rest, waitingFor := none, ctx }

namespace Instance

/-- Move a descriptor that the other instance has opened to the queue of those in use. -/
def injectRID (rid : Rid) : Res Instance :=
  match s.glob.fresh.lookup rid with
  | none => fail s!"Injecting RID {rid} which has no matching created ShadowFd"
  | some r => .ok { s with
      glob := { s.glob with fresh := s.glob.fresh.erase rid }
      fromChan := { s.fromChan with ridQueue := s.fromChan.ridQueue ++ [r] } }

/-- Process one message from the channel; a message that is left, in part, is returned. -/
def processChanMsg (msg : ChanMsg) (s : Instance) : Res (Option ChanMsg × Instance) :=
  match msg with
  | .injectRIDs rids => do return (none, ← rids.foldlM injectRID s)
  | .protocol msgs => do
    let t ← translateChannel sys msgs s.chanCtx
    let s := s.setChanCtx t.ctx
    return (if t.rest.isEmpty then none else some (.protocol t.rest),
      { s with fromChan := { s.fromChan with waitingFor := t.waitingFor } })
  | .close => .ok (none, s)
  | .sfd typ msg => do
    let (task, glob) ← (processSfdMsg sys s.alive.contains typ msg).run s.glob
    return (none, { s with
      glob
      fromChan := { s.fromChan with decompress := s.fromChan.decompress ++ task.toList } })

def processChannelFrom : List ChanMsg → Instance → Res Instance
  | [], s => .ok { s with fromChan := { s.fromChan with input := [] } }
  | msg :: rest, s => do
    match ← s.processChanMsg sys msg with
    | (none, s) => processChannelFrom rest s
    | (some left, s) => return { s with fromChan := { s.fromChan with input := left :: rest } }

def processChannel : Res Instance := processChannelFrom sys s.fromChan.input s

end Instance

/-! ## The main loop -/

inductive InstanceEvent where
  /-- The local program or compositor sends messages, with file descriptors. -/
  | wayRead (msgs : List WaylandMsg) (fds : List Fd)
  | chanRead (msg : ChanMsg)
  /-- Everything that is queued for the channel is written. -/
  | chanWrite
  /-- The output for the Wayland connection is written. -/
  | wayWrite
  | processWayland
  | processChannel
  /-- A worker thread has computed an update. -/
  | result (msg : List UInt8)
  /-- A worker thread has applied an update. -/
  | applyDone (rid : Rid)
  /-- The device has copied an update onto a DMABUF. -/
  | vulkanDone (rid : Rid)
  /-- The compositor has reached a point of a timeline. -/
  | timelineReady (rid : Rid) (current : Nat)
  /-- Weak references are cleaned up at the end of an iteration. -/
  | cleanup

namespace Instance

def writeChannel : Instance :=
  { s with fromWay := { s.fromWay with
      protocol := .empty BUFFER_SIZE
      queue := { s.fromWay.queue with
        otherMessages := []
        protocolData := []
        protocolHeaderAdded := false } } }

def writeWayland : Instance :=
  { s with fromChan := { s.fromChan with output := .empty BUFFER_SIZE, fds := [] } }

/-- The wait ends when the last update has been applied. -/
def recheckWait : Res Instance :=
  match s.fromChan.waitingFor with
  | none => .ok s
  | some rid => do
    let r ← orPanic (s.upgrade rid) UNWRAP_NONE
    let done ← match (← s.glob.sfd r).data with
      | .file d => pure (d.pendingApplyTasks = 0 : Bool)
      | .dmabuf d => pure (d.pendingApplyTasks = 0 : Bool)
      | _ => .error (.panic UNREACHABLE)
    return if done then { s with fromChan := { s.fromChan with waitingFor := none } } else s

/-- The work result `ApplyDone`. -/
def handleApplyDone (rid : Rid) : Res Instance :=
  match s.glob.map.lookup rid with
  | none => fail "Completed apply for RID that no longer exists"
  | some _ => do
    let _ ← orPanic (s.upgrade rid) UNWRAP_NONE
    let (_, glob) ← (Waypipe.applyDone rid).run s.glob
    recheckWait { s with glob }

/-- The part of `process_vulkan_updates` for an operation that is complete. -/
def handleVulkanDone (rid : Rid) : Res Instance := do
  if (s.glob.map.lookup rid).isSome ∧ s.upgrade rid = none then
    fail "ShadowFd no longer strongly referenced"
  let (_, glob) ← (vulkanApplied sys rid).run s.glob
  let s := { s with glob }
  match s.fromChan.waitingFor with
  | none => return s
  | some rid =>
    let r ← orPanic (s.upgrade rid) UNWRAP_NONE
    match (← s.glob.sfd r).data with
    | .dmabuf d => return if d.pendingApplyTasks = 0 then
        { s with fromChan := { s.fromChan with waitingFor := none } } else s
    | _ => return s

/-- Only the display side looks at its timelines. -/
def handleTimelineReady (rid : Rid) (current : Nat) : Res Instance :=
  if s.glob.onDisplaySide then
    match s.upgrade rid with
    | none => .ok s
    | some r => do
      let (msg, glob) ← (timelineReached r current).run s.glob
      return { s with
        glob
        fromWay := { s.fromWay with queue := msg.elim s.fromWay.queue s.fromWay.queue.push } }
  else .ok s

/-- A message from a worker thread. -/
def handleResult (msg : List UInt8) : Res Instance := do
  if s.fromWay.queue.expectedRecvdMsgs = 0 then throw (.panic UNWRAP_NONE)
  let queue := { s.fromWay.queue with expectedRecvdMsgs := s.fromWay.queue.expectedRecvdMsgs - 1 }
  recheckWait { s with
    fromWay := { s.fromWay with queue := if msg.isEmpty then queue else queue.push msg } }

def cleanup : Instance :=
  let kept := s.glob.map.keys.filter fun rid => (s.upgrade rid).isSome
  { s with glob := { s.glob with
      map := s.glob.map.keys.foldl (fun m rid => if kept.contains rid then m else m.erase rid)
        s.glob.map } }

def wayProcessable : Bool :=
  !s.fromWay.input.isEmpty || s.glob.pipes.any fun r => s.glob.sfds[r]?.any fun sfd =>
    match sfd.data with
    | .pipe p => p.programClosed || (match p.buf with
      | .readFromWayland buf => 0 < buf.length
      | .readFromChannel _ => false)
    | _ => false

/-- The outgoing queue with the protocol data that is still in the buffer. -/
def wayQueue : TransferQueue :=
  { s.fromWay.queue with protocolData := s.fromWay.protocol.data }

/-- Both parts of `process_wayland`, under the conditions of the main loop. -/
def stepWayland : Res Instance := do
  let s ← if s.wayProcessable && !s.wayQueue.hasFromWayOutput && !s.wayQueue.hasPendingComputeTasks
    then s.processWayland1 sys env else .ok s
  if s.wayQueue.hasPendingComputeTasks then return s else s.processWayland2

def stepChannel : Res Instance :=
  if s.fromChan.waitingFor.isNone && s.fromChan.output.data.isEmpty then s.processChannel sys
  else .ok s

/-- One part of the main loop. -/
def perform : InstanceEvent → Res Instance
  | .wayRead msgs fds => .ok { s with fromWay := { s.fromWay with
      input := s.fromWay.input ++ msgs, fds := s.fromWay.fds ++ fds } }
  | .chanRead msg => .ok { s with fromChan := { s.fromChan with
      input := s.fromChan.input ++ [msg] } }
  | .chanWrite => .ok s.writeChannel
  | .wayWrite => .ok s.writeWayland
  | .processWayland => s.stepWayland sys env
  | .processChannel => s.stepChannel sys
  | .result msg => s.handleResult msg
  | .applyDone rid => s.handleApplyDone rid
  | .vulkanDone rid => s.handleVulkanDone sys rid
  | .timelineReady rid current => s.handleTimelineReady rid current
  | .cleanup => .ok s.cleanup

/-- A step of a connection that is not closed by it. -/
def step (e : InstanceEvent) : Option Instance := (s.perform sys env e).toOption

/-- How the connection ends, if it does. -/
def failure (e : InstanceEvent) : Option Fault :=
  match s.perform sys env e with
  | .ok _ => none
  | .error fault => some fault

end Instance

end Waypipe
