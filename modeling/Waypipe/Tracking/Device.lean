import Waypipe.Tracking.Handler
import Waypipe.Tracking.SurfaceDamage

/-!
# Devices and new descriptors

DMABUF devices are set up in one or two steps, and every file descriptor that the local program or
compositor sends becomes a `ShadowFd`.  What the operating system and the graphics libraries answer
is a parameter (`System`).
-/

namespace Waypipe

open Wayland

/-- What is asked of the operating system and of the graphics libraries. -/
structure System where
  setupVulkanInstance : Options → Res (Option VulkanInstance)
  setupVulkanDevice : VulkanInstance → Option Nat → Options → Res (Option VulkanDevice)
  setupGbmDevice : Option Nat → Res (Option GBMDevice)
  getDevForDrmNodePath : List UInt8 → Res Nat
  /-- Contents of a file that is mapped at the given size; the flag says that it is read only. -/
  externalMapping : Fd → Nat → Bool → Res (List UInt8)
  /-- Whether memory for a mirror of the given size can be had. -/
  newMirror : Nat → Res Unit
  /-- A new anonymous file. -/
  memfdCreate : Res Fd
  /-- Give an anonymous file its contents. -/
  memfdFill : Fd → List UInt8 → Res Unit
  ftruncate : Fd → Int → Res Unit
  /-- The reading and the writing end of a new pipe. -/
  pipe2 : Res (Fd × Fd)
  supportsVideoFormat : VulkanDevice → VideoFormat → (drmFormat width height : Nat) → Bool
  /-- The flag says that the image is used for video encoding. -/
  canImportImage : VulkanDevice → (drmFormat width height : Nat) → List AddDmabufPlane → Bool →
    Except String Unit
  vulkanImportDmabuf : VulkanDevice → List AddDmabufPlane → (width height drmFormat : Nat) → Bool →
    Res DmabufImpl
  setupVideoEncode : DmabufImpl → VideoFormat → Res Unit
  gbmImportDmabuf : GBMDevice → List AddDmabufPlane → (width height drmFormat : Nat) →
    Res DmabufImpl
  vulkanImportTimeline : VulkanDevice → Fd → Res Unit
  /-- The flag says that the image is used for video decoding. -/
  vulkanCreateDmabuf : VulkanDevice → (width height drmFormat : Nat) → List Nat → Bool →
    Res (DmabufImpl × List AddDmabufPlane)
  gbmCreateDmabuf : GBMDevice → (width height drmFormat : Nat) → List Nat →
    Res (DmabufImpl × List AddDmabufPlane)
  setupVideoDecode : DmabufImpl → VideoFormat → Res Unit
  vulkanCreateTimeline : VulkanDevice → (startPt : Nat) → Res Fd
  /-- Copy the mirror of a GBM buffer onto it. -/
  copyOntoDmabuf : ShadowFdDmabuf → Res Unit
  signalTimelinePt : SfdRef → Nat → Res Unit
  /-- Seconds and nanoseconds at the n-th reading of a clock, unless that fails. -/
  clockGettime : (clock n : Nat) → Option (Int × Int)

/-- A system without any devices, on which memory and files can be had. -/
def System.headless : System where
  setupVulkanInstance _ := .ok none
  setupVulkanDevice _ _ _ := .ok none
  setupGbmDevice _ := .ok none
  getDevForDrmNodePath _ := fail "no such device"
  externalMapping _ size _ := .ok (List.replicate size 0)
  newMirror _ := .ok ()
  memfdCreate := .ok 0
  memfdFill _ _ := .ok ()
  ftruncate _ size := if size < 0 then fail "Failed to resize file: EINVAL" else .ok ()
  pipe2 := .ok (0, 1)
  supportsVideoFormat _ _ _ _ _ := false
  canImportImage _ _ _ _ _ _ := .error "no device"
  vulkanImportDmabuf _ _ _ _ _ _ := fail "no device"
  setupVideoEncode _ _ := fail "no device"
  gbmImportDmabuf _ _ _ _ _ := fail "no device"
  vulkanImportTimeline _ _ := fail "no device"
  vulkanCreateDmabuf _ _ _ _ _ _ := fail "no device"
  gbmCreateDmabuf _ _ _ _ _ := fail "no device"
  setupVideoDecode _ _ := fail "no device"
  vulkanCreateTimeline _ _ := fail "no device"
  copyOntoDmabuf _ := fail "no device"
  signalTimelinePt _ _ := fail "no device"
  clockGettime _ _ := some (0, 0)

variable (sys : System)

/-! ## Device setup -/

def setupGbmFallback (device : Option Nat) : Res DmabufDevice := do
  match ← sys.setupGbmDevice device with
  | some dev => return .gbm dev
  | none => return .unavailable

/-- Set up a Vulkan or GBM instance without initializing a Vulkan device. -/
def trySetupDmabufInstanceLight (opts : Options) (device : Option Nat) : Res DmabufDevice := do
  if opts.testSkipVulkan then setupGbmFallback sys device
  else match ← sys.setupVulkanInstance opts with
    | none => setupGbmFallback sys device
    | some inst =>
      if inst.hasDevice device then return .vulkanSetup inst else setupGbmFallback sys device

/-- Set up a Vulkan or GBM instance and initialize it. -/
def trySetupDmabufInstanceFull (opts : Options) (device : Option Nat) : Res DmabufDevice := do
  if opts.testSkipVulkan then setupGbmFallback sys device
  else match ← sys.setupVulkanInstance opts with
    | none => setupGbmFallback sys device
    | some inst => match ← sys.setupVulkanDevice inst device opts with
      | some dev => return .vulkan inst dev
      | none => setupGbmFallback sys device

/-- Initialize the Vulkan device of an instance. -/
def completeDmabufSetup (opts : Options) (device : Option Nat) (dev : DmabufDevice) :
    Res DmabufDevice :=
  match dev with
  | .vulkanSetup inst => do
    let vulk ← orPanic (← sys.setupVulkanDevice inst device opts)
      "Vulkan device existence should already have been checked"
    return .vulkan inst vulk
  | _ => .ok dev

def UNREACHABLE : String := "internal error: entered unreachable code"

/-- The modifiers that a device which is set up supports for a format. -/
def dmabufDevModifierList : DmabufDevice → Nat → Res (List Nat)
  | .vulkan _ vulk, format => .ok (vulk.supportedModifiers format)
  | .gbm dev, format => .ok (dev.supportedModifiers format)
  | _, _ => .error (.panic UNREACHABLE)

def dmabufDevSupportsFormat (dev : DmabufDevice) (format modifier : Nat) : Res Bool := do
  return (← dmabufDevModifierList dev format).contains modifier

def dmabufDevGetId : DmabufDevice → Res Nat
  | .vulkan _ vulk => .ok vulk.device
  | .gbm dev => .ok dev.deviceId
  | _ => .error (.panic UNREACHABLE)

/-- The device named by the options, if one is. -/
def drmNodeDevice (opts : Options) : Res (Option Nat) :=
  match opts.drmNode with
  | some node => (sys.getDevForDrmNodePath node).map some
  | none => .ok none

/-! ## The heap of descriptors -/

def Globals.sfd (g : Globals) (r : SfdRef) : Res ShadowFd := orPanic g.sfds[r]? "dangling reference"

def Globals.setSfd (g : Globals) (r : SfdRef) (s : ShadowFd) : Globals :=
  { g with sfds := g.sfds.set r s }

def readSfd (r : SfdRef) : GlobAct ShadowFd := do (← getGlob).sfd r

def putSfd (r : SfdRef) (s : ShadowFd) : GlobAct Unit := modifyGlob fun g => g.setSfd r s

def putSfdData (r : SfdRef) (data : ShadowFdVariant) : GlobAct Unit := do
  putSfd r { ← readSfd r with data }

/-- Allocate a new RID; they grow away from zero. -/
def allocateRid : GlobAct Rid := do
  let g ← getGlob
  let next := g.maxLocalId + g.maxLocalId.sign
  if next < -2 ^ 31 ∨ 2 ^ 31 ≤ next then throw (.panic UNWRAP_NONE)
  modifyGlob fun g => { g with maxLocalId := next }
  return g.maxLocalId

/-- Put a new `ShadowFd` on the heap and into the index by RID. -/
def addSfd (s : ShadowFd) : GlobAct SfdRef := do
  let g ← getGlob
  modifyGlob fun g => { g with sfds := g.sfds ++ [s], map := g.map.insert s.remoteId g.sfds.length }
  return g.sfds.length

/-- `ShadowFd` for a shared memory file. -/
def translateShmFd (fd : Fd) (sizeLb : Nat) (defaultDamage readonce localOnly : Bool) :
    GlobAct SfdRef := do
  let remoteId ← allocateRid
  let mapping ← sys.externalMapping fd sizeLb readonce
  -- read-once files do not need a mirror
  let mirSize := if readonce then 0 else sizeLb
  sys.newMirror mirSize
  addSfd {
    remoteId
    onlyHere := !localOnly
    data := .file {
      fd
      bufferSize := sizeLb
      readonly := readonce
      remoteBufsize := 0
      damage := if defaultDamage then .everything else .intervals []
      pendingApplyTasks := 0
      core := some { memMirror := List.replicate mirSize 0, mapping, shared := 0 } } }

/-- Whether a Vulkan device can import a DMABUF, for video encoding or at all. -/
def vulkanUseVideo (vulk : VulkanDevice) (opts : Options) (width height drmFormat : Nat)
    (planes : List AddDmabufPlane) : Res Bool :=
  let useVideo := opts.videoFormat.any (fun f =>
    sys.supportsVideoFormat vulk f drmFormat width height) &&
      (sys.canImportImage vulk drmFormat width height planes true).isOk
  if useVideo then .ok true
  else match sys.canImportImage vulk drmFormat width height planes false with
    | .ok _ => .ok false
    | .error e =>
      let fmt := hex drmFormat
      let modifier := hex ((planes.head?.map (·.modifier)).getD 0)
      fail ("Cannot import DMABUF, format/size/modifier combination: " ++
        s!"{fmt}, {width}x{height}, {modifier}, has: {e}")

def importDmabuf (dev : DmabufDevice) (opts : Options) (width height drmFormat : Nat)
    (planes : List AddDmabufPlane) : Res (DmabufImpl × Bool) :=
  match dev with
  | .vulkan _ vulk => do
    let useVideo ← vulkanUseVideo sys vulk opts width height drmFormat planes
    let buf ← sys.vulkanImportDmabuf vulk planes width height drmFormat useVideo
    match useVideo, opts.videoFormat with
    | true, some f =>
      sys.setupVideoEncode buf f
      return (buf, true)
    | _, _ => return (buf, false)
  | .gbm gbm => do return (← sys.gbmImportDmabuf gbm planes width height drmFormat, false)
  | _ => .error (.panic UNREACHABLE)

/-- `ShadowFd` for a DMABUF. -/
def translateDmabufFd (width height drmFormat : Nat) (planes : List AddDmabufPlane)
    (waylandId : ObjId) : GlobAct SfdRef := do
  let remoteId ← allocateRid
  let plane ← orPanic planes.head? "index out of bounds: the len is 0 but the index is 0"
  let g ← getGlob
  let (buf, videoEncode) ← importDmabuf sys g.dmabufDevice g.opts width height drmFormat planes
  addSfd {
    remoteId
    onlyHere := true
    data := .dmabuf {
      buf
      mirror := none
      drmFormat
      drmModifier := plane.modifier
      firstDamage := true
      exportPlanes := []
      damage := .intervals []
      videoDecode := false
      videoEncode
      acquires := []
      releases := []
      pendingApplyTasks := 0
      usingImplicitSync := false
      viewRowStride := none
      debugWaylandId := waylandId } }

/-- `ShadowFd` for a timeline. -/
def translateTimeline (fd : Fd) (objectId : ObjId) : GlobAct SfdRef := do
  let remoteId ← allocateRid
  match (← getGlob).dmabufDevice with
  | .vulkan _ vulk =>
    sys.vulkanImportTimeline vulk fd
    addSfd {
      remoteId
      onlyHere := true
      data := .timeline {
        timeline := fd, exportFd := none, debugWaylandId := objectId, releases := [] } }
  | _ => throw (.panic UNREACHABLE)

/-- `ShadowFd` for a pipe. -/
def translatePipeFd (fd : Fd) (readingFromChannel : Bool) : GlobAct SfdRef := do
  let remoteId ← allocateRid
  let r ← addSfd {
    remoteId
    onlyHere := true
    data := .pipe {
      fd
      exportFd := none
      buf := if readingFromChannel then .readFromChannel [] else .readFromWayland []
      programClosed := false
      channelClosed := false } }
  modifyGlob fun g => { g with pipes := g.pipes ++ [r] }
  return r

/-- Extend the mirror of a file and map it again. -/
def updateCoreForNewSize (fd : Fd) (size : Nat) (core : Option ShadowFdFileCore) :
    Res ShadowFdFileCore := do
  let mapping ← sys.externalMapping fd size false
  let inner ← orPanic core UNWRAP_NONE
  if inner.shared ≠ 0 then fail "ExtendFile invoked without exclusive access to ShadowFd"
  else
    assert (inner.memMirror.length ≤ size) "size >= inner.mem_mirror.len()"
    (if inner.memMirror.length = size then .ok () else sys.newMirror size)
    return {
      memMirror := inner.memMirror ++ List.replicate (size - inner.memMirror.length) 0
      mapping
      shared := 0 }

/-- GBM buffers collect updates in the mirror, which is copied when all have arrived. -/
def dmabufPostApplyTaskOperations (data : ShadowFdDmabuf) : Res Unit :=
  match data.buf with
  | .gbm _ _ _ => do
    let _ ← orPanic data.mirror UNWRAP_NONE
    sys.copyOntoDmabuf data
  | .vulkan _ _ _ => .ok ()

/-- Signal the timeline points that wait for a buffer. -/
def signalTimelineAcquires (acquires : List (Nat × SfdRef)) : GlobAct Unit :=
  acquires.forM fun (pt, timeline) => do
    match (← readSfd timeline).data with
    | .timeline _ => sys.signalTimelinePt timeline pt
    | _ => throw (.panic "expected timeline-type shadowfd")

end Waypipe
