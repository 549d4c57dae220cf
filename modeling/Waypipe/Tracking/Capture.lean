import Waypipe.Tracking.Dmabuf
import Waypipe.Tracking.Surface
import Waypipe.Tracking.Timestamps

/-!
# Screen capture

Handlers for `zwlr_screencopy_*` and `ext_image_copy_capture_*`.
-/

namespace Waypipe

open Wayland LeBytes

variable (sys : System) (q : Request)

/-! ## New frames and sessions -/

/-- Requests that create an object with empty extra data. -/
def createObject (newId : Res Nat) (objType : WaylandInterface) (extra : WpExtra) : Handler :=
  .needs q.msg.length 0 <| .act do
    insertNewObject (← newId) objType extra
    copyMsg q.msg

def zwlrScreencopyManagerV1CaptureOutputRegion : Handler :=
  createObject q ((parseReqZwlrScreencopyManagerV1CaptureOutputRegion q.msg).map (·.1))
    .zwlrScreencopyFrameV1 (.zwlrScreencopyFrame { buffer := none })

def zwlrScreencopyManagerV1CaptureOutput : Handler :=
  createObject q ((parseReqZwlrScreencopyManagerV1CaptureOutput q.msg).map (·.1))
    .zwlrScreencopyFrameV1 (.zwlrScreencopyFrame { buffer := none })

def ObjExtImageCopyCaptureSession.empty : ObjExtImageCopyCaptureSession where
  dmabufDevice := none
  dmabufFormats := []
  lastFormatModList := []
  frameList := []

def extImageCopyCaptureManagerV1CreateSession : Handler :=
  createObject q ((parseReqExtImageCopyCaptureManagerV1CreateSession q.msg).map (·.1))
    .extImageCopyCaptureSessionV1 (.extImageCopyCaptureSession .empty)

def extImageCopyCaptureCursorSessionV1GetCaptureSession : Handler :=
  createObject q (parseReqExtImageCopyCaptureCursorSessionV1GetCaptureSession q.msg)
    .extImageCopyCaptureSessionV1 (.extImageCopyCaptureSession .empty)

/-! ## Buffer constraints of a session -/

/-- Change the data of a session; these events are held back until `done`. -/
def updateSession (f : ObjExtImageCopyCaptureSession → Res ObjExtImageCopyCaptureSession) :
    Handler :=
  .needs q.msg.length 0 <| .act do
    if (← getGlob).opts.noGpu then return
    let session ← extraOf q.objectId WpExtra.extImageCopyCaptureSession? UNEXPECTED_METHOD
    setExtra q.objectId (.extImageCopyCaptureSession (← f session))

def extImageCopyCaptureSessionV1DmabufDevice : Handler :=
  updateSession q fun session => do
    let mainDevice ← parseDevArray (← parseEvtExtImageCopyCaptureSessionV1DmabufDevice q.msg)
    return { session with dmabufDevice := some mainDevice }

/-- The 64-bit modifiers in an array. -/
def parseModifiers (arr : List UInt8) : List Nat :=
  (List.range (arr.length / 8)).map fun i => leNat ((arr.drop (8 * i)).take 8)

def extImageCopyCaptureSessionV1DmabufFormat : Handler :=
  updateSession q fun session => do
    let (fmt, modifiers) ← parseEvtExtImageCopyCaptureSessionV1DmabufFormat q.msg
    let modList := parseModifiers modifiers
    return if modList = [] then session
      else { session with dmabufFormats := session.dmabufFormats ++ [(fmt, modList)] }

/-- Which device to set up for a session, when none is set up yet. -/
def captureDevice (g : Globals) (mainDevice : Nat) : Res (Option Nat) :=
  if g.onDisplaySide then .ok (some mainDevice) else drmNodeDevice sys g.opts

/-- Have a device set up for the session. -/
def setupCaptureDevice (mainDevice : Nat) : GlobAct Unit := do
  let g ← getGlob
  match g.dmabufDevice with
  | .unknown =>
    let dev ← trySetupDmabufInstanceFull sys g.opts (← captureDevice sys g mainDevice)
    modifyGlob fun g => { g with dmabufDevice := dev }
  | .vulkanSetup inst =>
    let dev ← completeDmabufSetup sys g.opts (← captureDevice sys g mainDevice) (.vulkanSetup inst)
    modifyGlob fun g => { g with dmabufDevice := dev }
  | _ => return

/-- The device of a session must be the one that is in use. -/
def checkCaptureDevice (g : Globals) (mainDevice : Nat) : Res Unit :=
  match g.dmabufDevice with
  | .unavailable => fail "DMABUF device specified, but DMABUFs are not supported"
  | dev => do
    let current ← dmabufDevGetId dev
    if g.onDisplaySide ∧ mainDevice ≠ current then
      fail ("image copy device did not match existing device; " ++
        "multiple devices are not yet supported")
    else return

/-- First part of the `done` event of a session. -/
def prepareCapture : GlobAct Unit := do
  let session ← extraOf q.objectId WpExtra.extImageCopyCaptureSession? UNEXPECTED_METHOD
  match session.dmabufDevice with
  | none => return
  | some mainDevice =>
    setupCaptureDevice sys mainDevice
    checkCaptureDevice (← getGlob) mainDevice

/-- The modifiers to announce for a format: on the display side those of the compositor that are
supported here, on the application side all that are supported here. -/
def captureModifiers (g : Globals) (fmt : Nat) (modList : List Nat) : Res (List Nat) := do
  let local_ ← dmabufDevModifierList g.dmabufDevice fmt
  return if g.onDisplaySide then modList.filter local_.contains else local_

/-- Space for the event of one format, if it is announced at all. -/
def captureFormatSpace (g : Globals) (f : Nat × List Nat) : Res Nat := do
  let mods ← captureModifiers g f.1 f.2
  return if mods = [] then 0
    else lengthEvtExtImageCopyCaptureSessionV1DmabufFormat (mods.length * 8)

def captureSpace (g : Globals) (session : ObjExtImageCopyCaptureSession) : Res Nat :=
  match session.dmabufDevice with
  | none => .ok lengthEvtExtImageCopyCaptureSessionV1Done
  | some _ => do
    return lengthEvtExtImageCopyCaptureSessionV1Done +
      lengthEvtExtImageCopyCaptureSessionV1DmabufDevice SIZEOF_DEV_T +
      (← session.dmabufFormats.mapM (captureFormatSpace g)).sum

def writeCaptureFormat (f : Nat × List Nat) : Act Unit := do
  let mods ← captureModifiers (← getGlob) f.1 f.2
  advertise f.1 mods
  if mods = [] then return
  emitMsg (writeEvtExtImageCopyCaptureSessionV1DmabufFormat q.objectId f.1 (mods.flatMap u64le))

/-- The sorted pairs of formats and modifiers of a session. -/
def formatModList (formats : List (Nat × List Nat)) : List (Nat × Nat) :=
  (formats.flatMap fun (fmt, mods) => mods.map fun m => (fmt, m)).mergeSort fun a b =>
    a.1 < b.1 || (a.1 == b.1 && a.2 ≤ b.2)

/-- The device, the formats and the restrictions that they put on other buffers. -/
def writeCaptureConstraints (session : ObjExtImageCopyCaptureSession) : Act Unit := do
  let devId ← dmabufDevGetId (← getGlob).dmabufDevice
  emitMsg (writeEvtExtImageCopyCaptureSessionV1DmabufDevice q.objectId (writeDevArray devId))
  session.dmabufFormats.forM fun f => writeCaptureFormat q f
  if (← getGlob).onDisplaySide then
    session.dmabufFormats.forM fun (fmt, mods) => (modifyGlob fun g =>
      { g with screencopyRestrictions := g.screencopyRestrictions.insert fmt mods } : Act Unit)

/-- Formats do not persist between two `done` events. -/
def extImageCopyCaptureSessionV1Done : Handler :=
  .first (prepareCapture sys q) <|
  .looking (lookExtra q.objectId WpExtra.extImageCopyCaptureSession? UNEXPECTED_METHOD)
  fun session =>
  .looking (fun c => captureSpace c.glob session) fun space =>
  .needs space 0 <| .act do
    if session.dmabufDevice.isSome then writeCaptureConstraints q session
    emitMsg (writeEvtExtImageCopyCaptureSessionV1Done q.objectId)
    setExtra q.objectId (.extImageCopyCaptureSession { session with
      dmabufDevice := none
      dmabufFormats := []
      lastFormatModList :=
        if session.dmabufDevice.isSome then formatModList session.dmabufFormats else [] })

/-! ## Frames of a session -/

def extImageCopyCaptureSessionV1CreateFrame : Handler :=
  .needs q.msg.length 0 <| .act do
    let session ← extraOf q.objectId WpExtra.extImageCopyCaptureSession? UNEXPECTED_METHOD
    let frame ← parseReqExtImageCopyCaptureSessionV1CreateFrame q.msg
    insertNewObject frame .extImageCopyCaptureFrameV1 (.extImageCopyCaptureFrame {
      buffer := none
      supportedModifiers := session.lastFormatModList
      captureSession := some q.objectId })
    copyMsg q.msg

/-- Let a frame go on without its session. -/
def orphanFrame (modifiers : List (Nat × Nat)) (frameId : ObjId) : GlobAct Unit := do
  let extra ← orPanic ((← getGlob).extra? frameId) UNWRAP_NONE
  let frame ← orErr extra.extImageCopyCaptureFrame? UNEXPECTED_METHOD
  setExtra frameId (.extImageCopyCaptureFrame { frame with
    captureSession := none, supportedModifiers := modifiers })

def extImageCopyCaptureSessionV1Destroy : Handler :=
  .needs q.msg.length 0 <| .act do
    copyMsg q.msg
    let session ← extraOf q.objectId WpExtra.extImageCopyCaptureSession? UNEXPECTED_METHOD
    setExtra q.objectId (.extImageCopyCaptureSession { session with frameList := [] })
    session.frameList.forM fun id => (orphanFrame session.lastFormatModList id : Act Unit)

def extImageCopyCaptureFrameV1Destroy : Handler :=
  .needs q.msg.length 0 <| .act do
    copyMsg q.msg
    let frame ← extraOf q.objectId WpExtra.extImageCopyCaptureFrame? UNEXPECTED_METHOD
    setExtra q.objectId (.extImageCopyCaptureFrame { frame with captureSession := none })
    match frame.captureSession with
    | none => return
    | some sessionId =>
      let extra ← orPanic ((← getGlob).extra? sessionId) UNWRAP_NONE
      let session ← orErr extra.extImageCopyCaptureSession? UNEXPECTED_METHOD
      setExtra sessionId (.extImageCopyCaptureSession { session with
        frameList := session.frameList.erase q.objectId })

/-! ## Buffers of frames -/

/-- The descriptor and the layout of the buffer that a frame is captured to. -/
def lookupCaptureBuffer (buffer : ObjId) (request : String) :
    GlobAct (SfdRef × Option ObjWlBufferShm) := do
  if buffer = 0 then fail s!"{request} requires non-null object"
  let d ← orErr ((← getGlob).extra? buffer) s!"Failed to lookup buffer (id {buffer}) for {request}"
  let d ← orErr d.wlBuffer? "Expected wl_buffer object"
  return (d.sfd, d.shmInfo)

/-- The two copy requests have the same effect, and the same error texts. -/
def screencopyFrameCopy (buffer : Res Nat) : Handler :=
  .needs q.msg.length 0 <| .act do
    copyMsg q.msg
    let bufInfo ← lookupCaptureBuffer (← buffer) "zwlr_screencopy_frame_v1::copy"
    let _ ← extraOf q.objectId WpExtra.zwlrScreencopyFrame? UNEXPECTED_METHOD
    setExtra q.objectId (.zwlrScreencopyFrame { buffer := some bufInfo })

def zwlrScreencopyFrameV1Copy : Handler :=
  screencopyFrameCopy q (parseReqZwlrScreencopyFrameV1Copy q.msg)

def zwlrScreencopyFrameV1CopyWithDamage : Handler :=
  screencopyFrameCopy q (parseReqZwlrScreencopyFrameV1CopyWithDamage q.msg)

def extImageCopyCaptureFrameV1AttachBuffer : Handler :=
  .needs q.msg.length 0 <| .act do
    copyMsg q.msg
    let bufInfo ← lookupCaptureBuffer (← parseReqExtImageCopyCaptureFrameV1AttachBuffer q.msg)
      "ext_image_copy_capture_frame_v1::attach_buffer"
    let frame ← extraOf q.objectId WpExtra.extImageCopyCaptureFrame? UNEXPECTED_METHOD
    setExtra q.objectId (.extImageCopyCaptureFrame { frame with buffer := some bufInfo })

/-- Whether the buffer of a frame is a DMABUF. -/
def frameHasDmabuf (frame : ObjExtImageCopyCaptureFrame) : GlobAct Bool := do
  match frame.buffer with
  | none => return false
  | some (sfd, _) => match (← readSfd sfd).data with
    | .dmabuf _ => return true
    | _ => return false

/-- The display side looks up the session of a frame with a DMABUF, to warn about formats. -/
def extImageCopyCaptureFrameV1Capture : Handler :=
  .needs q.msg.length 0 <| .act do
    copyMsg q.msg
    if !(← getGlob).onDisplaySide then return
    let frame ← extraOf q.objectId WpExtra.extImageCopyCaptureFrame? UNEXPECTED_METHOD
    if !(← frameHasDmabuf frame) then return
    match frame.captureSession with
    | none => return
    | some sessionId =>
      let extra ← orPanic ((← getGlob).extra? sessionId) UNWRAP_NONE
      let _ ← orErr extra.extImageCopyCaptureSession? UNEXPECTED_METHOD
      return

/-- The buffer of a frame that is ready. -/
def frameBuffer (buffer : Option (SfdRef × Option ObjWlBufferShm)) :
    Res (SfdRef × Option ObjWlBufferShm) :=
  orErr buffer "zwlr_screencopy_frame_v1::ready is missing buffer information"

/-- The application side waits until all updates of the buffer have been applied. -/
def frameWait (sfd : SfdRef) : Look (Option Rid) := fun c =>
  if c.glob.onDisplaySide then .ok none
  else do
    let b ← c.glob.sfd sfd
    return if 0 < (← applyCount b false) then some b.remoteId else none

/-- Bring the buffer of a captured frame up to date on the application side, and mark all of it as
damaged on the display side. -/
def finishFrame (sfd : SfdRef) (shmInfo : Option ObjWlBufferShm) : GlobAct Unit := do
  let g ← getGlob
  match (← readSfd sfd).data with
  | .file y =>
    if g.onDisplaySide then
      let interval ← damageForEntireBuffer (← orPanic shmInfo UNWRAP_NONE)
      let damage ← y.damage.add (.ok [interval])
      putSfdData sfd (.file { y with damage })
  | .dmabuf y =>
    if g.onDisplaySide then
      putSfdData sfd (.dmabuf { y with damage := .everything, usingImplicitSync := true })
    else dmabufPostApplyTaskOperations sys y
  | _ => if g.onDisplaySide then fail "Expected buffer shadowfd to be of file type"

def zwlrScreencopyFrameV1Ready : Handler :=
  .needs q.msg.length 0 <|
  .looking (fun c => do
    frameBuffer (← c.glob.extraOf q.objectId WpExtra.zwlrScreencopyFrame? UNEXPECTED_METHOD).buffer)
  fun (sfd, shmInfo) => .waits (frameWait sfd) <| .act do
    let stamp ← parseEvtZwlrScreencopyFrameV1Ready q.msg
    let (secHi, secLo, nsec) ←
      translateTimestamp sys stamp CLOCK_MONOTONIC (← getGlob).onDisplaySide
    emitMsg (writeEvtZwlrScreencopyFrameV1Ready q.objectId secHi secLo nsec)
    finishFrame sys sfd shmInfo
    setExtra q.objectId (.zwlrScreencopyFrame { buffer := none })

def extImageCopyCaptureFrameV1PresentationTime : Handler :=
  .needs q.msg.length 0 <| .act do
    let stamp ← parseEvtExtImageCopyCaptureFrameV1PresentationTime q.msg
    let (secHi, secLo, nsec) ←
      translateTimestamp sys stamp CLOCK_MONOTONIC (← getGlob).onDisplaySide
    emitMsg (writeEvtExtImageCopyCaptureFrameV1PresentationTime q.objectId secHi secLo nsec)

/-- Forget the buffer of a frame. -/
def clearFrame (id : ObjId) : GlobAct Unit := do
  let frame ← extraOf id WpExtra.extImageCopyCaptureFrame? UNEXPECTED_METHOD
  setExtra id (.extImageCopyCaptureFrame { frame with buffer := none })

def extImageCopyCaptureFrameV1Ready : Handler :=
  .needs q.msg.length 0 <|
  .looking (fun c => do
    frameBuffer (← c.glob.extraOf q.objectId WpExtra.extImageCopyCaptureFrame?
      UNEXPECTED_METHOD).buffer)
  fun (sfd, shmInfo) => .waits (frameWait sfd) <| .act do
    copyMsg q.msg
    finishFrame sys sfd shmInfo
    clearFrame q.objectId

def zwlrScreencopyFrameV1Failed : Handler :=
  .needs q.msg.length 0 <| .act do
    copyMsg q.msg
    let _ ← extraOf q.objectId WpExtra.zwlrScreencopyFrame? UNEXPECTED_METHOD
    setExtra q.objectId (.zwlrScreencopyFrame { buffer := none })

def extImageCopyCaptureFrameV1Failed : Handler :=
  .needs q.msg.length 0 <| .act do
    copyMsg q.msg
    clearFrame q.objectId

end Waypipe
