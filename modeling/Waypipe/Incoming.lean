import Waypipe.Tracking.Device

/-!
# Messages to descriptors

`processSfdMsg` is what an instance does with the messages that the other instance sends about a
file, a DMABUF, a timeline or a pipe.  Updates of contents are not applied by the main thread: they
become tasks, which are counted with the descriptor until they are done (`applyDone`).
-/

namespace Waypipe

open LeBytes

-- what a weak reference can be upgraded to
variable (sys : System) (alive : SfdRef → Bool)

/-- What a worker applies an update to. -/
inductive DecompTarget where
  | dmabuf (dst : SfdRef) (viewRowStride : Option Nat)
  | mirrorOnly (mirror : SfdRef) (notifyOnCompletion : Bool)
  | file (target : SfdRef) (skipMirror : Bool)
  deriving DecidableEq, Repr

/-- Task to decompress an update and apply it. -/
structure DecompTask where
  msgView : List UInt8
  fileSize : Nat
  compression : Compression
  target : DecompTarget
  deriving DecidableEq, Repr

/-- The tasks that incoming messages lead to. -/
inductive ApplyTask where
  | decompress (t : DecompTask)
  | videoDecode (msg : List UInt8) (remoteId : Rid)
  deriving DecidableEq, Repr

/-! ## Reading the fields -/

def readU32 (msg : List UInt8) (start : Nat) : Res Nat := do
  return leNat (← slice msg start (start + 4))

def readU64 (msg : List UInt8) (start : Nat) : Res Nat := do
  return leNat (← slice msg start (start + 8))

/-- The two's complement value of a 32-bit word. -/
def toI32 (n : Nat) : Int := if n < 2 ^ 31 then n else (n : Int) - 2 ^ 32

def readI32 (msg : List UInt8) (start : Nat) : Res Int := do return toI32 (← readU32 msg start)

/-! ## Descriptors by their id -/

/-- The entry of the table, if the descriptor is still referred to. -/
def getSfd (rid : Rid) : GlobAct (Option SfdRef) := do
  return ((← getGlob).map.lookup rid).filter alive

def requireSfd (rid : Rid) (missing : String) : GlobAct SfdRef := do
  orErr (← getSfd alive rid) missing

/-- Enter a descriptor that the other instance has opened. -/
def openSfd (remoteId : Rid) (data : ShadowFdVariant) : GlobAct SfdRef := do
  let r ← addSfd { remoteId, onlyHere := false, data }
  modifyGlob fun g => { g with fresh := g.fresh.insert remoteId r }
  return r

variable (remoteId : Rid) (msg : List UInt8)

/-! ## Files -/

def openFile : GlobAct Unit := do
  let size ← readI32 msg 8
  let localFd ← sys.memfdCreate
  sys.ftruncate localFd size
  -- a negative size does not come this far
  let size := size.toNat
  sys.newMirror size
  let mapping ← sys.externalMapping localFd size false
  let _ ← openSfd remoteId (.file {
    fd := localFd
    bufferSize := size
    readonly := false
    remoteBufsize := size
    damage := .intervals []
    core := some { memMirror := List.replicate size 0, mapping, shared := 0 }
    pendingApplyTasks := 0 })

/-- A file with the given size, after the checks that come before the change. -/
def extendTo (data : ShadowFdFile) (newSize : Nat) : Res ShadowFdFile :=
  if newSize < data.bufferSize then fail "ExtendFile would shrink size"
  else if data.bufferSize = newSize then .ok data
  else if data.readonly then fail "Tried to apply ExtendFile to read-only file"
  else do
    sys.ftruncate data.fd newSize
    let core ← updateCoreForNewSize sys data.fd newSize data.core
    return { data with bufferSize := newSize, remoteBufsize := newSize, core := some core }

def extendFile : GlobAct Unit := do
  let size ← readI32 msg 8
  if size < 0 then fail s!"Invalid size: {size}"
  let sfd ← requireSfd alive remoteId "RID does not exist"
  match (← readSfd sfd).data with
  | .file data => putSfdData sfd (.file (← extendTo sys data size.toNat))
  | _ => fail "Applying ExtendFile to non-File ShadowFd"

/-! ## Updates of contents -/

/-- A task holds a reference to the memory of the file. -/
def shareCore (core : Option ShadowFdFileCore) : Res ShadowFdFileCore := do
  let c ← orPanic core UNWRAP_NONE
  return { c with shared := c.shared + 1 }

/-- A GBM buffer gets a mirror with its first update. -/
def updateDmabuf (sfd : SfdRef) (data : ShadowFdDmabuf) : Res (ShadowFdDmabuf × DecompTarget) :=
  let data := { data with pendingApplyTasks := data.pendingApplyTasks + 1 }
  match data.buf with
  | .vulkan _ _ _ => .ok (data, .dmabuf sfd data.viewRowStride)
  | .gbm _ _ _ => do
    (if data.mirror.isNone then sys.newMirror (data.buf.nominalSize data.viewRowStride) else .ok ())
    let size := data.mirror.getD (data.buf.nominalSize data.viewRowStride)
    return ({ data with mirror := some size }, .mirrorOnly sfd true)

/-- `BufferDiff` and `BufferFill` differ in whether a file may be read-only. -/
def bufferUpdate (typ : WmsgType) (allowReadonly : Bool) (remoteId : Rid) (msg : List UInt8) :
    GlobAct ApplyTask := do
  let name := if typ = .bufferDiff then "BufferDiff" else "BufferFill"
  let sfd ← requireSfd alive remoteId "RID not in map"
  let compression := (← getGlob).opts.compression
  match (← readSfd sfd).data with
  | .dmabuf data =>
    let (data', target) ← updateDmabuf sys sfd data
    putSfdData sfd (.dmabuf data')
    let fileSize := data.buf.nominalSize data.viewRowStride
    return .decompress { msgView := msg, fileSize, compression, target }
  | .file data =>
    if data.readonly && !allowReadonly then fail s!"Applying {name} to readonly ShadowFd"
    else
      let core ← shareCore data.core
      putSfdData sfd (.file { data with
        pendingApplyTasks := data.pendingApplyTasks + 1, core := some core })
      let target := .file sfd data.readonly
      return .decompress { msgView := msg, fileSize := data.bufferSize, compression, target }
  | _ => fail s!"Applying {name} to non-File ShadowFd"

/-- `ApplyDone`: a worker has finished one update. -/
def applyDone : GlobAct Unit := do
  let sfd ← orErr ((← getGlob).map.lookup remoteId) "Completed apply for RID that no longer exists"
  match (← readSfd sfd).data with
  | .file d =>
    let pendingApplyTasks ← orPanic (if 0 < d.pendingApplyTasks then some (d.pendingApplyTasks - 1)
      else none) UNWRAP_NONE
    putSfdData sfd (.file { d with pendingApplyTasks })
  | .dmabuf d =>
    let pendingApplyTasks ← orPanic (if 0 < d.pendingApplyTasks then some (d.pendingApplyTasks - 1)
      else none) UNWRAP_NONE
    putSfdData sfd (.dmabuf { d with pendingApplyTasks })
  | _ => throw (.panic UNREACHABLE)

/-- The copy of an update onto a DMABUF is complete.  With the last one, the acquire points of the
buffer are signalled; only the display side may have any left. -/
def completeApply (sfd : SfdRef) : GlobAct Unit := do
  match (← readSfd sfd).data with
  | .dmabuf d =>
    if d.pendingApplyTasks = 0 then fail "Task miscount"
    let d := { d with pendingApplyTasks := d.pendingApplyTasks - 1 }
    if d.pendingApplyTasks = 0 ∧ d.acquires ≠ [] then
      assert (← getGlob).onDisplaySide "glob.on_display_side"
      signalTimelineAcquires sys d.acquires
      putSfdData sfd (.dmabuf { d with acquires := [] })
    else putSfdData sfd (.dmabuf d)
  | _ => throw (.panic "explicit panic")

/-- One step of the loop over `apply_operations` in `process_vulkan_updates`. -/
def vulkanApplied : GlobAct Unit := do
  match (← getGlob).dmabufDevice with
  | .vulkan _ _ => completeApply sys (← orErr ((← getGlob).map.lookup remoteId)
    "ShadowFd no longer in map")
  | _ => throw (.panic UNREACHABLE)

/-! ## DMABUFs -/

/-- `dmabuf_slice_get_first_stride` -/
def firstStride : Res Nat := do
  let slice64 ← slice msg 12 76
  return leNat ((slice64.drop 32).take 4)

/-- The modifiers to choose from: those of the last screen capture, those that have been advertised,
or else all that are supported. -/
def modifierChoice (g : Globals) (drmFormat : Nat) : Res (List Nat) :=
  match g.screencopyRestrictions.lookup drmFormat with
  | some l => .ok l
  | none => match g.advertisedModifiers.lookup drmFormat with
    | some l => .ok l
    | none => dmabufDevModifierList g.dmabufDevice drmFormat

/-- A new buffer for one of the other instance. -/
def createDmabuf (g : Globals) (width height drmFormat : Nat) (mods : List Nat) :
    Res (DmabufImpl × List AddDmabufPlane) :=
  match g.dmabufDevice with
  | .unknown | .unavailable | .vulkanSetup _ => fail "Received OpenDMABUF too early"
  | .vulkan _ vulk => sys.vulkanCreateDmabuf vulk width height drmFormat mods false
  | .gbm gbm => sys.gbmCreateDmabuf gbm width height drmFormat (gbm.supportedModifiers drmFormat)

/-- Data of a buffer that is filled from the channel. -/
def receivedDmabuf (buf : DmabufImpl) (mirror : Option Nat) (drmFormat : Nat)
    (viewRowStride : Option Nat) (exportPlanes : List AddDmabufPlane) (videoDecode : Bool) :
    Res ShadowFdDmabuf := do
  let plane ← orPanic exportPlanes.head? "index out of bounds: the len is 0 but the index is 0"
  return {
    buf
    mirror
    drmFormat
    drmModifier := plane.modifier
    damage := .intervals []
    viewRowStride
    firstDamage := true
    exportPlanes
    videoDecode
    videoEncode := false
    usingImplicitSync := false
    acquires := []
    releases := []
    pendingApplyTasks := 0
    debugWaylandId := 0 }

def openDMABUF : GlobAct Unit := do
  let width ← readU32 msg 12
  let height ← readU32 msg 16
  let drmFormat ← readU32 msg 20
  let stride ← firstStride msg
  let g ← getGlob
  let mods ← modifierChoice g drmFormat
  let (buf, planes) ← createDmabuf sys g width height drmFormat mods
  let size := buf.nominalSize (some stride)
  sys.newMirror size
  let data ← receivedDmabuf buf (some size) drmFormat (some stride) planes false
  let _ ← openSfd remoteId (.dmabuf data)

def VideoFormat.tryFrom (code : Nat) : Option VideoFormat :=
  [VideoFormat.h264, .vp9, .av1].find? fun f => f.code == code

/-- The format of a video stream, which the device must support. -/
def videoFormatFor (g : Globals) (vidFlags drmFormat width height : Nat) :
    Res (VulkanDevice × VideoFormat) := do
  let code := vidFlags % 2 ^ 8
  let f ← orErr (VideoFormat.tryFrom code) s!"Unidentified video format {code}"
  match g.dmabufDevice with
  | .vulkan _ vulk =>
    if sys.supportsVideoFormat vulk f drmFormat width height then return (vulk, f)
    else fail s!"Video format at {width}x{height} is not supported"
  | _ => fail "Received OpenDMAVidDstV2 before Vulkan device was set up"

def openDMAVidDstV2 : GlobAct Unit := do
  let vidFlags ← readU32 msg 12
  let width ← readU32 msg 16
  let height ← readU32 msg 20
  let drmFormat ← readU32 msg 24
  let stride ← firstStride msg
  let g ← getGlob
  let (vulk, f) ← videoFormatFor sys g vidFlags drmFormat width height
  let mods ← modifierChoice g drmFormat
  let (buf, planes) ← sys.vulkanCreateDmabuf vulk width height drmFormat mods true
  let data ← receivedDmabuf buf none drmFormat (some stride) planes true
  sys.setupVideoDecode buf f
  let _ ← openSfd remoteId (.dmabuf data)

def sendDMAVidPacket : GlobAct ApplyTask := do
  let sfd ← requireSfd alive remoteId "RID not in map"
  match (← readSfd sfd).data, (← getGlob).dmabufDevice with
  | .dmabuf data, dev =>
    if !data.videoDecode then fail "Applying DMAVid to non-DMABUF video-decode-type ShadowFd"
    match dev with
    | .vulkan _ _ =>
      putSfdData sfd (.dmabuf { data with pendingApplyTasks := data.pendingApplyTasks + 1 })
      return .videoDecode msg remoteId
    | _ => throw (.panic UNREACHABLE)
  | _, _ => fail "Applying DMAVid to non-DMABUF ShadowFd"

/-! ## Timelines -/

def openTimeline : GlobAct Unit := do
  match (← getGlob).dmabufDevice with
  | .vulkan _ vulk =>
    let fd ← sys.vulkanCreateTimeline vulk (← readU64 msg 8)
    let _ ← openSfd remoteId (.timeline {
      timeline := fd, exportFd := some fd, debugWaylandId := 0, releases := [] })
  | _ => fail "Received OpenTimeline before Vulkan device was set up"

/-- A release point has been reached: the buffer is not waiting for it any more. -/
def dropRelease (thisTimeline : Rid) (pt : Nat) (buf : SfdRef) : GlobAct Unit := do
  match (← readSfd buf).data with
  | .dmabuf d =>
    let key := (thisTimeline, pt)
    let _ ← orPanic (d.releases.find? (·.1 = key)) UNWRAP_NONE
    putSfdData buf (.dmabuf { d with releases := d.releases.filter (·.1 ≠ key) })
  | _ => throw (.panic "explicit panic")

/-- `prune_releases` -/
def pruneReleases (releases : List (Nat × SfdRef)) (currentPt : Nat) (thisTimeline : Rid) :
    GlobAct (List (Nat × SfdRef)) := do
  (releases.filter fun r => r.1 ≤ currentPt).forM fun (pt, buf) => dropRelease thisTimeline pt buf
  return releases.filter fun r => currentPt < r.1

def signalTimeline : GlobAct Unit := do
  let sfd ← requireSfd alive remoteId "RID not in map"
  match (← readSfd sfd).data with
  | .timeline data =>
    if (← getGlob).onDisplaySide then fail "Received SignalTimeline on compositor side"
    let pt ← readU64 msg 8
    let releases ← pruneReleases data.releases pt remoteId
    putSfdData sfd (.timeline { data with releases })
    sys.signalTimelinePt sfd pt
  | _ => fail "Applying SignalTimeline to non-timeline ShadowFd"

/-- The first point that a timeline waits for. -/
def minPoint (releases : List (Nat × SfdRef)) : Option Nat := (releases.map (·.1)).min?

/-- The part of the main loop for one timeline whose event descriptor is readable: the compositor has
reached the point `current`.  Returns the message for the other instance. -/
def timelineReached (sfd : SfdRef) (current : Nat) : GlobAct (Option (List UInt8)) := do
  let b ← readSfd sfd
  match b.data with
  | .timeline data =>
    match minPoint data.releases with
    | none => return none
    | some minPt =>
      -- a spurious wakeup
      if current < minPt then return none
      let releases ← pruneReleases data.releases current b.remoteId
      putSfdData sfd (.timeline { data with releases })
      assert ((minPoint releases).all (minPt < ·)) "new_min > *min_pt"
      let header ← buildWmsgHeader .signalTimeline 16
      return some (u32le header ++ (i32le b.remoteId ++ u64le current))
  | _ => return none

/-! ## Pipes -/

/-- The two kinds of pipes differ in which end stays here. -/
def openPipe (intoChannel : Bool) : GlobAct Unit := do
  let (pipeR, pipeW) ← sys.pipe2
  let r ← openSfd remoteId (.pipe {
    fd := if intoChannel then pipeR else pipeW
    exportFd := some (if intoChannel then pipeW else pipeR)
    buf := if intoChannel then .readFromWayland [] else .readFromChannel []
    programClosed := false
    channelClosed := false })
  modifyGlob fun g => { g with pipes := g.pipes ++ [r] }

/-- Messages to a pipe that is already gone, or closed, are ignored. -/
def pipeTransfer : GlobAct Unit := do
  match ← getSfd alive remoteId with
  | none => return
  | some sfd => match (← readSfd sfd).data with
    | .pipe data =>
      if data.programClosed then return
      match data.buf with
      | .readFromChannel x =>
        putSfdData sfd (.pipe { data with buf := .readFromChannel (x ++ msg.drop 8) })
      | .readFromWayland _ =>
        fail "Applying PipeTransfer to pipe ShadowFd not reading from channel"
    | _ => fail "Applying PipeTransfer to non-Pipe ShadowFd"

/-- Forget a pipe. -/
def removePipe (sfd : SfdRef) : GlobAct Unit := do
  let _ ← orPanic ((← getGlob).pipes.find? (· = sfd)) UNWRAP_NONE
  modifyGlob fun g => { g with pipes := g.pipes.erase sfd, map := g.map.erase remoteId }

/-- Check the direction of a shutdown, and say whether the pipe can be forgotten: there may be data
that has to be written first. -/
def shutdownDone (buf : ShadowFdPipeBuffer) (writeEnd : Bool) : Res Bool :=
  match buf with
  | .readFromChannel v =>
    if writeEnd then .ok v.isEmpty
    else fail "Did not receive (remote) write shutdown when reading from channel"
  | .readFromWayland _ =>
    if writeEnd then fail "Did not receive (remote) read shutdown when writing to channel"
    else .ok true

def pipeShutdown (writeEnd : Bool) : GlobAct Unit := do
  match ← getSfd alive remoteId with
  | none => return
  | some sfd => match (← readSfd sfd).data with
    | .pipe data =>
      let delete ← shutdownDone data.buf writeEnd
      putSfdData sfd (.pipe { data with channelClosed := true })
      if delete then removePipe remoteId sfd
    | _ => fail "Applying PipeTransfer to non-Pipe ShadowFd"

/-! ## All messages -/

/-- Do something that leads to no task. -/
def noTask (m : GlobAct Unit) : GlobAct (Option ApplyTask) := do
  m
  return none

/-- Process a message directed to a `ShadowFd`; `msg` has no padding. -/
def processSfdMsg (typ : WmsgType) (msg : List UInt8) : GlobAct (Option ApplyTask) := do
  let len := msg.length
  if len < 8 then fail s!"message to shadowfd is too short, {len} bytes"
  let remoteId ← readI32 msg 4
  match typ with
  | .openFile => noTask (openFile sys remoteId msg)
  | .extendFile => noTask (extendFile sys alive remoteId msg)
  | .bufferDiff => some <$> bufferUpdate sys alive typ false remoteId msg
  | .bufferFill => some <$> bufferUpdate sys alive typ true remoteId msg
  | .openDMABUF => noTask (openDMABUF sys remoteId msg)
  | .openDMAVidDstV2 => noTask (openDMAVidDstV2 sys remoteId msg)
  | .sendDMAVidPacket => some <$> sendDMAVidPacket alive remoteId msg
  | .openTimeline => noTask (openTimeline sys remoteId msg)
  | .signalTimeline => noTask (signalTimeline sys alive remoteId msg)
  | .openIRPipe => noTask (openPipe sys remoteId true)
  | .openIWPipe => noTask (openPipe sys remoteId false)
  | .pipeTransfer => noTask (pipeTransfer alive remoteId msg)
  | .pipeShutdownR => noTask (pipeShutdown alive remoteId false)
  | .pipeShutdownW => noTask (pipeShutdown alive remoteId true)
  | _ => throw (.panic "Unhandled message type")

end Waypipe
