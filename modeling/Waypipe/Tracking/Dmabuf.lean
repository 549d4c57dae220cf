import Waypipe.Tracking.ObjectMap

/-!
# DMABUF interfaces

Handlers for explicit synchronisation (`wp_linux_drm_syncobj_*`) and for `zwp_linux_dmabuf_v1` with
its parameter and feedback objects.
-/

namespace Waypipe

open Wayland LeBytes

variable (sys : System) (q : Request)

/-! ## Explicit synchronisation -/

def wpLinuxDrmSyncobjManagerV1GetSurface : Handler :=
  .needs q.msg.length 0 <| .act do
    copyMsg q.msg
    let (newId, surfId) ← parseReqWpLinuxDrmSyncobjManagerV1GetSurface q.msg
    insertNewObject newId .wpLinuxDrmSyncobjSurfaceV1 (.wpDrmSyncobjSurface { surface := surfId })

/-- Note the Wayland id of a timeline from the other instance. -/
def nameTimeline (newId : ObjId) (r : SfdRef) : GlobAct Unit := do
  match (← readSfd r).data with
  | .timeline t => putSfdData r (.timeline { t with debugWaylandId := newId })
  | _ => fail "Expected timeline fd"

def wpLinuxDrmSyncobjManagerV1ImportTimeline : Handler :=
  .needs q.msg.length 1 <| .actFd do
    let newId ← parseReqWpLinuxDrmSyncobjManagerV1ImportTimeline q.msg
    let timeline ← passFd "Missing sfd" (fun r => do nameTimeline newId r)
      fun fd => do translateTimeline sys fd newId
    liftAct do
      insertNewObject newId .wpLinuxDrmSyncobjTimelineV1 (.wpDrmSyncobjTimeline { timeline })
      copyMsgTagFd q.msg q.fromChannel

/-- The requests that set a synchronisation point of a surface differ in the point. -/
def setSyncPoint (point : Res (Nat × Nat × Nat))
    (update : Nat × SfdRef → ObjWlSurface → ObjWlSurface) : Handler :=
  .needs q.msg.length 0 <| .act do
    let (timelineId, ptHi, ptLo) ← point
    let s ← extraOf q.objectId WpExtra.wpDrmSyncobjSurface? UNEXPECTED_METHOD
    let t ← orErr ((← getGlob).extra? timelineId) ""
    let t ← orErr t.wpDrmSyncobjTimeline? "Incorrect extra type, expected timeline"
    let surf ← orErr ((← getGlob).extra? s.surface) ""
    let surf ← orErr surf.wlSurface? "Incorrect extra type, expected surface"
    setExtra s.surface (.wlSurface (update (joinU64 ptHi ptLo, t.timeline) surf))
    copyMsg q.msg

def wpLinuxDrmSyncobjSurfaceV1SetAcquirePoint : Handler :=
  setSyncPoint q (parseReqWpLinuxDrmSyncobjSurfaceV1SetAcquirePoint q.msg)
    fun pt surf => { surf with acquirePt := some pt }

def wpLinuxDrmSyncobjSurfaceV1SetReleasePoint : Handler :=
  setSyncPoint q (parseReqWpLinuxDrmSyncobjSurfaceV1SetReleasePoint q.msg)
    fun pt surf => { surf with releasePt := some pt }

/-! ## Formats and modifiers -/

/-- Whether to pass on a format without a modifier.  A device that is only half set up is an error
of the compositor, and the event is dropped. -/
def formatSupported (format : Nat) : Look Bool := fun c =>
  match c.glob.dmabufDevice with
  | .unknown | .unavailable => .error (.panic UNREACHABLE)
  | .vulkanSetup _ => .ok false
  | .vulkan _ vulk => .ok ((vulk.supportedModifiers format).contains 0)
  | .gbm dev => .ok (!(dev.supportedModifiers format).isEmpty)

def zwpLinuxDmabufV1Format : Handler :=
  .parsing (parseEvtZwpLinuxDmabufV1Format q.msg) fun format =>
  .looking (formatSupported format) fun supported =>
  if supported then .needs q.msg.length 0 <| .act (copyMsg q.msg) else .drop

/-- Add to the table of modifiers that have been advertised. -/
def addAdvertisedModifiers (map : Table Nat (List Nat)) (format : Nat) (modifiers : List Nat) :
    Table Nat (List Nat) :=
  if modifiers = [] then map
  else map.insert format (modifiers.foldl (fun entries m =>
    if entries.contains m then entries else entries ++ [m]) ((map.lookup format).getD []))

def advertise (format : Nat) (modifiers : List Nat) : GlobAct Unit := modifyGlob fun g =>
  { g with advertisedModifiers := addAdvertisedModifiers g.advertisedModifiers format modifiers }

/-- Display side: pass on what is supported here. -/
def modifierOnDisplaySide (format modifier : Nat) : Handler :=
  .looking (fun c => dmabufDevSupportsFormat c.glob.dmabufDevice format modifier) fun supported =>
  if supported then
    .needs q.msg.length 0 <| .act do
      advertise format [modifier]
      copyMsg q.msg
  else .drop

/-- Note that the modifiers of a format have been announced. -/
def markFormatSeen (id : ObjId) (d : ObjZwpLinuxDmabuf) (format : Nat) : GlobAct Unit :=
  setExtra id (.zwpDmabuf { d with formatsSeen := d.formatsSeen ++ [format] })

def writeModifiers (format : Nat) (mods : List Nat) : Act Unit :=
  mods.forM fun m =>
    emitMsg (writeEvtZwpLinuxDmabufV1Modifier q.objectId format (splitU64 m).1 (splitU64 m).2)

/-- Application side: replace the first modifier of a format by all that are supported here, and
drop the others.  The format is noted before there is known to be room. -/
def modifierOnApplicationSide (format : Nat) : Handler :=
  .looking (lookExtra q.objectId WpExtra.zwpDmabuf? UNEXPECTED_METHOD) fun d =>
  if d.formatsSeen.contains format then .drop
  else
    .first (markFormatSeen q.objectId d format) <|
    .looking (fun c => dmabufDevModifierList c.glob.dmabufDevice format) fun mods =>
    .needs (mods.length * lengthEvtZwpLinuxDmabufV1Modifier) 0 <| .act do
      advertise format mods
      writeModifiers q format mods

def zwpLinuxDmabufV1Modifier : Handler :=
  .parsing (parseEvtZwpLinuxDmabufV1Modifier q.msg) fun (format, modHi, modLo) =>
  .looking (fun c => .ok c.glob.onDisplaySide) fun onDisplaySide =>
  if onDisplaySide then modifierOnDisplaySide q format (joinU64 modHi modLo)
  else modifierOnApplicationSide q format

/-! ## Buffer parameters -/

def zwpLinuxDmabufV1CreateParams : Handler :=
  .needs q.msg.length 0 <| .act do
    copyMsg q.msg
    let paramsId ← parseReqZwpLinuxDmabufV1CreateParams q.msg
    insertNewObject paramsId .zwpLinuxBufferParamsV1 (.zwpDmabufParams { planes := [], dmabuf := none })

/-- The message is dropped and made again when all planes are known. -/
def zwpLinuxBufferParamsV1Add : Handler := .actFd do
  let (planeIdx, offset, stride, modifierHi, modifierLo) ← parseReqZwpLinuxBufferParamsV1Add q.msg
  let p ← liftAct (do extraOf q.objectId WpExtra.zwpDmabufParams? INCORRECT_EXTRA)
  if q.fromChannel then return
  else
    let fd ← popFd
    let plane := { fd, planeIdx, offset, stride, modifier := joinU64 modifierHi modifierLo }
    liftAct (do setExtra q.objectId (.zwpDmabufParams { p with planes := p.planes ++ [plane] }))

/-- The next descriptor from the channel, which has to be a DMABUF. -/
def lookFrontDmabuf : Look (SfdRef × ShadowFdDmabuf) := fun c =>
  match c.transl with
  | .fromChannel (sfd :: _) _ => do
    match (← c.glob.sfd sfd).data with
    | .dmabuf data => return (sfd, data)
    | _ => fail INCORRECT_EXTRA
  | _ => fail "Missing sfd"

omit sys q in
theorem lookFrontDmabuf_front {c : Ctx} {r : SfdRef} {data : ShadowFdDmabuf}
    (h : lookFrontDmabuf.run c = .ok (r, data)) : ∃ sfds fds s,
      c.transl = .fromChannel (r :: sfds) fds ∧ c.glob.sfds[r]? = some s ∧ s.data = .dmabuf data := by
  change lookFrontDmabuf c = _ at h
  unfold lookFrontDmabuf at h
  split at h
  · next sfd sfds fds htransl =>
    obtain ⟨s, hs, h⟩ := Res.bind_eq_ok.mp h
    split at h
    · next d hd =>
      cases h
      exact ⟨sfds, fds, s, htransl, orPanic_eq_ok.mp hs, hd⟩
    · cases h
  · cases h

/-- Pass a DMABUF from the channel on: announce all its planes, then copy the request. -/
def createFromChannel (data : ShadowFdDmabuf) (after : SfdRef → GlobAct Unit) : Handler :=
  .needs (lengthReqZwpLinuxBufferParamsV1Add * data.exportPlanes.length +
    lengthReqZwpLinuxBufferParamsV1CreateImmed) data.exportPlanes.length <| .actFd do
    liftAct do
      data.exportPlanes.forM fun plane =>
        emitMsg (writeReqZwpLinuxBufferParamsV1Add q.objectId false plane.planeIdx plane.offset
          plane.stride (splitU64 plane.modifier).1 (splitU64 plane.modifier).2)
      copyMsg q.msg
    let sfd ← popSfd UNWRAP_NONE
    pushOut sfd
    liftAct (do after sfd)

/-- The stride of a plane as if it were tightly packed. -/
def packedStride (drmFormat width : Nat) : Res Nat := do
  let layout ← orPanic (getShmFormatLayout (drmToWayland drmFormat)) UNWRAP_NONE
  mulU32 layout.first.bpt width

/-- Import a DMABUF from its planes, and announce it to the other instance as a linear buffer. -/
def createFromWayland (params : ObjZwpLinuxDmabufParams) (width height drmFormat : Nat)
    (waylandId : ObjId) (create : Res Words) (after : SfdRef → GlobAct Unit) : Handler :=
  .needs (lengthReqZwpLinuxBufferParamsV1Add + lengthReqZwpLinuxBufferParamsV1CreateImmed)
    params.planes.length <| .actFd do
    let sfd ← liftAct do
      setExtra q.objectId (.zwpDmabufParams { params with planes := [] })
      translateDmabufFd sys width height drmFormat params.planes waylandId
    pushOut sfd
    liftAct do
      emitMsg (writeReqZwpLinuxBufferParamsV1Add q.objectId true 0 0
        (← packedStride drmFormat width) 0 0)
      emitMsg create
      after sfd

/-- Record a buffer that is backed by a DMABUF. -/
def insertDmabufBuffer (bufferId : ObjId) (sfd : SfdRef) : GlobAct Unit := do
  let uniqueId := (← getGlob).maxBufferUid
  insertNewObject bufferId .wlBuffer (.wlBuffer { sfd, shmInfo := none, uniqueId })
  modifyGlob fun g => { g with maxBufferUid := g.maxBufferUid + 1 }

/-- The arguments of `create_immed`, with the size as positive numbers. -/
def parseCreateImmed (msg : WaylandMsg) : Res (Nat × Nat × Nat × Nat × Nat) := do
  let (bufferId, width, height, drmFormat, flags) ← parseReqZwpLinuxBufferParamsV1CreateImmed msg
  if width ≤ 0 ∨ height ≤ 0 then fail "DMABUF width or height should be positive"
  if flags ≠ 0 then fail "DMABUF flags not yet supported"
  return (bufferId, width.toNat, height.toNat, drmFormat, flags)

/-- The id of the buffer is noted before there is known to be room. -/
def zwpLinuxBufferParamsV1CreateImmed : Handler :=
  .looking (lookExtra q.objectId WpExtra.zwpDmabufParams? INCORRECT_EXTRA) fun params =>
  .parsing (parseCreateImmed q.msg) fun (bufferId, width, height, drmFormat, flags) =>
  if q.fromChannel then
    .looking lookFrontDmabuf fun (sfd, data) =>
    .first (putSfdData sfd (.dmabuf { data with debugWaylandId := bufferId })) <|
    createFromChannel q data fun sfd => insertDmabufBuffer bufferId sfd
  else
    createFromWayland sys q params width height drmFormat bufferId
      (writeReqZwpLinuxBufferParamsV1CreateImmed q.objectId bufferId width height drmFormat flags)
      fun sfd => insertDmabufBuffer bufferId sfd

def parseCreate (msg : WaylandMsg) : Res (Nat × Nat × Nat × Nat) := do
  let (width, height, drmFormat, flags) ← parseReqZwpLinuxBufferParamsV1Create msg
  if width ≤ 0 ∨ height ≤ 0 then fail "DMABUF width or height should be positive"
  return (width.toNat, height.toNat, drmFormat, flags)

/-- The parameters of a DMABUF that has not been created yet. -/
def lookFreshParams : Look ObjZwpLinuxDmabufParams := fun c => do
  let params ← c.glob.extraOf q.objectId WpExtra.zwpDmabufParams? INCORRECT_EXTRA
  if params.dmabuf.isSome then fail "Can only create dmabuf from params once"
  return params

def setParamsDmabuf (id : ObjId) (dmabuf : Option SfdRef) : GlobAct Unit := do
  let params ← extraOf id WpExtra.zwpDmabufParams? INCORRECT_EXTRA
  setExtra id (.zwpDmabufParams { params with dmabuf })

def zwpLinuxBufferParamsV1Create : Handler :=
  .looking (lookFreshParams q) fun params =>
  .parsing (parseCreate q.msg) fun (width, height, drmFormat, flags) =>
  if q.fromChannel then
    .looking lookFrontDmabuf fun (_, data) =>
    createFromChannel q data fun sfd => setParamsDmabuf q.objectId (some sfd)
  else
    createFromWayland sys q params width height drmFormat 0
      (writeReqZwpLinuxBufferParamsV1Create q.objectId width height drmFormat flags)
      fun sfd => setParamsDmabuf q.objectId (some sfd)

def zwpLinuxBufferParamsV1Failed : Handler :=
  .needs q.msg.length 0 <| .act do
    copyMsg q.msg
    setParamsDmabuf q.objectId none

def zwpLinuxBufferParamsV1Created : Handler :=
  .needs q.msg.length 0 <| .act do
    copyMsg q.msg
    let objId ← parseEvtZwpLinuxBufferParamsV1Created q.msg
    let params ← extraOf q.objectId WpExtra.zwpDmabufParams? INCORRECT_EXTRA
    setExtra q.objectId (.zwpDmabufParams { params with dmabuf := none })
    let sfd ← orErr params.dmabuf ("zwp_linux_buffer_params_v1::created event must follow " ++
      "::create request and must occur at most once")
    match (← readSfd sfd).data with
    | .dmabuf d => putSfdData sfd (.dmabuf { d with debugWaylandId := objId })
    | _ => fail "Incorrect shadowfd type"
    insertDmabufBuffer objId sfd

/-! ## Format feedback -/

/-- The two requests for feedback differ in their arguments only. -/
def insertFeedback (feedbackId : Res Nat) : Handler :=
  .needs q.msg.length 0 <| .act do
    copyMsg q.msg
    insertNewObject (← feedbackId) .zwpLinuxDmabufFeedbackV1 (.zwpDmabufFeedback {
      inputFormatTable := none
      outputFormatTable := none
      mainDevice := none
      tranches := []
      processed := false
      queuedFormatTable := none
      current := .empty })

def zwpLinuxDmabufV1GetDefaultFeedback : Handler :=
  insertFeedback q (parseReqZwpLinuxDmabufV1GetDefaultFeedback q.msg)

def zwpLinuxDmabufV1GetSurfaceFeedback : Handler :=
  insertFeedback q ((parseReqZwpLinuxDmabufV1GetSurfaceFeedback q.msg).map (·.1))

/-- Entries of a format table; bytes after the last whole entry are ignored. -/
def parseFormatTable (data : List UInt8) : List (Nat × Nat) :=
  (List.range (data.length / 16)).map fun i =>
    (leNat ((data.drop (16 * i)).take 4), leNat ((data.drop (16 * i + 8)).take 8))

/-- `copy_from_mapping` at offset zero. -/
def copyFromMapping (len : Nat) (mapping : List UInt8) : Res (List UInt8) := do
  assert (len ≤ mapping.length) "copy_from_mapping"
  return mapping.take len

def setFormatTable (f : ObjZwpLinuxDmabufFeedback) (tableData : List UInt8) : GlobAct Unit :=
  setExtra q.objectId (.zwpDmabufFeedback { f with
    inputFormatTable := some (parseFormatTable tableData) })

/-- The contents of a format table that was sent through the channel. -/
def readFormatTable (tableSize : Nat) (sfd : SfdRef) : GlobAct (List UInt8) := do
  match (← readSfd sfd).data with
  | .file f =>
    let got := f.bufferSize
    if tableSize ≠ got then
      fail s!"Wrong buffer size for format table: got {got}, expected {tableSize}"
    copyFromMapping tableSize (← orPanic f.core UNWRAP_NONE).mapping
  | _ => fail "Received non-File ShadowFd for format table"

/-- The next descriptor from the channel. -/
def lookFrontSfd (missing : String) : Look SfdRef := fun c =>
  match c.transl with
  | .fromChannel (sfd :: _) _ => .ok sfd
  | _ => fail missing

def zwpLinuxDmabufFeedbackV1FormatTable : Handler :=
  .parsing (parseEvtZwpLinuxDmabufFeedbackV1FormatTable q.msg) fun tableSize =>
  .looking (lookExtra q.objectId WpExtra.zwpDmabufFeedback?
    "Expected object to have dmabuf_feedback data") fun f =>
  if q.fromChannel then
    .looking (lookFrontSfd "Missing sfd") fun sfd =>
    .waits (fileWait sfd) <| .actFd do
      let sfd ← popSfd UNWRAP_NONE
      liftAct do setFormatTable q f (← readFormatTable tableSize sfd)
  else .actFd do
    let mapping ← sys.externalMapping (← popFd) tableSize true
    let tableData ← copyFromMapping tableSize mapping
    liftAct do setFormatTable q f tableData

/-- A `dev_t`, of either usual size. -/
def parseDevArray (arr : List UInt8) : Res Nat :=
  let len := arr.length
  if len = 4 ∨ len = 8 then .ok (leNat arr) else fail s!"Unexpected size for dev_t: {len}"

def SIZEOF_DEV_T : Nat := 8

def writeDevArray (dev : Nat) : List UInt8 := leBytes SIZEOF_DEV_T dev

/-- Change the data of the feedback object; these events are held back until `done`. -/
def updateFeedback (f : ObjZwpLinuxDmabufFeedback → GlobAct ObjZwpLinuxDmabufFeedback) : Handler :=
  .act do
    let feedback ← extraOf q.objectId WpExtra.zwpDmabufFeedback? "Unexpected object extra type"
    setExtra q.objectId (.zwpDmabufFeedback (← f feedback))

/-- The display side chooses its device now, if it has not yet done so. -/
def zwpLinuxDmabufFeedbackV1MainDevice : Handler :=
  updateFeedback q fun feedback => do
    let mainDevice ← parseDevArray (← parseEvtZwpLinuxDmabufFeedbackV1MainDevice q.msg)
    let g ← getGlob
    if g.onDisplaySide then
      let dev ← completeDmabufSetup sys g.opts (some mainDevice) g.dmabufDevice
      modifyGlob fun g => { g with dmabufDevice := dev }
    return { feedback with mainDevice := some mainDevice }

def zwpLinuxDmabufFeedbackV1TrancheFlags : Handler :=
  updateFeedback q fun feedback => do
    let flags ← parseEvtZwpLinuxDmabufFeedbackV1TrancheFlags q.msg
    return { feedback with current := { feedback.current with flags } }

def zwpLinuxDmabufFeedbackV1TrancheTargetDevice : Handler :=
  updateFeedback q fun feedback => do
    let device ← parseDevArray (← parseEvtZwpLinuxDmabufFeedbackV1TrancheTargetDevice q.msg)
    return { feedback with current := { feedback.current with device } }

/-- The pairs of 16-bit indices of a tranche. -/
def formatIndices (fmts : List UInt8) : List Nat :=
  (List.range (fmts.length / 2)).map fun i => leNat ((fmts.drop (2 * i)).take 2)

/-- The pair at an index, unless the display side cannot use it. -/
def selectPair (g : Globals) (table : List (Nat × Nat)) (idx : Nat) : Res (List (Nat × Nat)) := do
  let len := table.length
  let pair ← orErr table[idx]?
    s!"Tranche format index {idx} out of range for format table of length {len}"
  if g.onDisplaySide then
    return if ← dmabufDevSupportsFormat g.dmabufDevice pair.1 pair.2 then [pair] else []
  else return [pair]

def zwpLinuxDmabufFeedbackV1TrancheFormats : Handler :=
  updateFeedback q fun feedback => do
    let fmts ← parseEvtZwpLinuxDmabufFeedbackV1TrancheFormats q.msg
    if fmts.length % 2 ≠ 0 then fail "Format array not of even length"
    if fmts = [] then return feedback
    let table ← orErr feedback.inputFormatTable
      "No format table provided before tranche_formats was received"
    let g ← getGlob
    let pairs ← (formatIndices fmts).mapM (fun idx => (selectPair g table idx : Res _))
    return { feedback with current := { feedback.current with
      values := feedback.current.values ++ pairs.flatten } }

def zwpLinuxDmabufFeedbackV1TrancheDone : Handler :=
  updateFeedback q fun feedback => return { feedback with
    tranches := feedback.tranches ++ [feedback.current]
    current := .empty }

/-- One new tranche: every format of the old one that no earlier tranche had, with all modifiers
that are supported here.  The formats that are still to be placed are passed on. -/
def rebuildTranche (dev : DmabufDevice) (mainDevice : Nat) (remoteFormats : List Nat)
    (t : DmabufTranche) : Res (List Nat × DmabufTranche) := do
  let (remote, values) ← t.values.foldlM (fun (acc : List Nat × List (Nat × Nat)) (v : Nat × Nat) =>
    if acc.1.contains v.1 then do
      let mods ← dmabufDevModifierList dev v.1
      return (acc.1.filter (· ≠ v.1), acc.2 ++ mods.map fun m => (v.1, m))
    else return acc) (remoteFormats, [])
  return (remote, { device := mainDevice, flags := 0, values, indices := [] })

variable (feedback : ObjZwpLinuxDmabufFeedback)

/-- Whether a tranche is for the main device, which must be known. -/
def onMainDevice (t : DmabufTranche) : Res Bool := do
  return t.device = (← orPanic feedback.mainDevice UNWRAP_NONE)

/-- The tranches for the application, with the formats that both sides support. -/
def rebuildFormatTable (dev : DmabufDevice) (feedback : ObjZwpLinuxDmabufFeedback) :
    Res (List DmabufTranche) := do
  let used ← feedback.tranches.filterM fun t => onMainDevice feedback t
  let remoteFormats := used.flatMap fun t => t.values.map (·.1)
  let (_, new) ← used.foldlM (fun (acc : List Nat × List DmabufTranche) t => do
    let (remote, n) ← rebuildTranche dev (feedback.mainDevice.getD 0) acc.1 t
    return (remote, if n.values = [] then acc.2 else acc.2 ++ [n])) (remoteFormats, [])
  if new = [] then
    fail "Failed to build new format tranches: no formats with common support"
  else return new

/-- The distinct pairs of all tranches, in order. -/
def formatIndex (tranches : List DmabufTranche) : List (Nat × Nat) :=
  ((tranches.flatMap (·.values)).dedup).mergeSort fun a b => a.1 < b.1 || (a.1 == b.1 && a.2 ≤ b.2)

/-- The format table for all tranches, and the tranches with their indices into it. -/
def processDmabufFeedback (tranches : List DmabufTranche) :
    Res (List UInt8 × List DmabufTranche) := do
  let index := formatIndex tranches
  let len := index.length
  if 65535 < len then fail s!"Format table is too large ({len} > 65535)"
  let table := index.flatMap fun f => u32le f.1 ++ u32le 0 ++ u64le f.2
  let tranches := tranches.map fun t =>
    { t with indices := t.values.flatMap fun f => leBytes 2 (index.idxOf f) }
  return (table, tranches)

/-- A new file for a format table. -/
def newFormatTable (table : List UInt8) : GlobAct SfdRef := do
  let localFd ← sys.memfdCreate
  assert (0 < table.length) "sz > 0"
  sys.memfdFill localFd table
  let side := (← getGlob).onDisplaySide
  translateShmFd sys localFd table.length side true (!side)

/-- The tranches to announce: on the display side they have been filtered already. -/
def feedbackTranches (g : Globals) (feedback : ObjZwpLinuxDmabufFeedback) :
    Res (List DmabufTranche) :=
  if g.onDisplaySide then .ok feedback.tranches else rebuildFormatTable g.dmabufDevice feedback

/-- Queue a new format table, unless it is the same as the last one. -/
def queueFormatTable (table : List UInt8) : GlobAct Unit :=
  if some table = feedback.outputFormatTable then setExtra q.objectId (.zwpDmabufFeedback feedback)
  else do
    let sfd ← newFormatTable sys table
    setExtra q.objectId (.zwpDmabufFeedback { feedback with
      outputFormatTable := some table
      queuedFormatTable := some (sfd, table.length) })

/-- First part of the `done` event: compute the format table and the tranches, once per batch. -/
def processFeedback : GlobAct Unit := do
  let feedback ← extraOf q.objectId WpExtra.zwpDmabufFeedback? "Unexpected object extra type"
  if feedback.processed then return
  else
    let tranches ← feedbackTranches (← getGlob) feedback
    let new ← processDmabufFeedback tranches
    queueFormatTable sys q { feedback with processed := true, tranches := new.2 } new.1

/-- Space for the events of one tranche. -/
def trancheSpace (t : DmabufTranche) : Nat :=
  lengthEvtZwpLinuxDmabufFeedbackV1TrancheDone + lengthEvtZwpLinuxDmabufFeedbackV1TrancheFlags +
    lengthEvtZwpLinuxDmabufFeedbackV1TrancheTargetDevice SIZEOF_DEV_T +
    lengthEvtZwpLinuxDmabufFeedbackV1TrancheFormats t.indices.length

def feedbackSpace : Nat :=
  (if feedback.queuedFormatTable.isSome then lengthEvtZwpLinuxDmabufFeedbackV1FormatTable else 0) +
    lengthEvtZwpLinuxDmabufFeedbackV1MainDevice SIZEOF_DEV_T +
    lengthEvtZwpLinuxDmabufFeedbackV1Done + (feedback.tranches.map trancheSpace).sum

def writeTranche (devId : Nat) (t : DmabufTranche) : Act Unit := do
  t.values.forM fun f => (advertise f.1 [f.2] : Act Unit)
  emitMsg (writeEvtZwpLinuxDmabufFeedbackV1TrancheTargetDevice q.objectId (writeDevArray devId))
  emitMsg (writeEvtZwpLinuxDmabufFeedbackV1TrancheFlags q.objectId t.flags)
  emitMsg (writeEvtZwpLinuxDmabufFeedbackV1TrancheFormats q.objectId t.indices)
  emitMsg (writeEvtZwpLinuxDmabufFeedbackV1TrancheDone q.objectId)

/-- Second part of the `done` event: write the whole batch and reset the state for the next. -/
def writeFeedback : FdAct Unit := do
  match feedback.queuedFormatTable with
  | none => pure ()
  | some (sfd, sz) =>
    liftAct (emitMsg (writeEvtZwpLinuxDmabufFeedbackV1FormatTable q.objectId (!q.fromChannel) sz))
    pushOut sfd
  liftAct do
    let devId ← dmabufDevGetId (← getGlob).dmabufDevice
    emitMsg (writeEvtZwpLinuxDmabufFeedbackV1MainDevice q.objectId (writeDevArray devId))
    feedback.tranches.forM fun t => writeTranche q devId t
    emitMsg (writeEvtZwpLinuxDmabufFeedbackV1Done q.objectId)
    setExtra q.objectId (.zwpDmabufFeedback { feedback with
      queuedFormatTable := none
      processed := false
      tranches := []
      current := .empty })

def zwpLinuxDmabufFeedbackV1Done : Handler :=
  .first (processFeedback sys q) <|
  .looking (lookExtra q.objectId WpExtra.zwpDmabufFeedback? "Unexpected object extra type")
  fun feedback =>
  .needs (feedbackSpace feedback) (if feedback.queuedFormatTable.isSome then 1 else 0) <|
  .actFd (writeFeedback q feedback)

end Waypipe
