import Waypipe.Tracking.Surface
import Waypipe.Tracking.Timestamps

/-!
# Transferred files, titles and clocks

Handlers for messages that pass a file or a pipe (keymaps, ICC profiles, gamma tables, selections),
and for a few messages whose arguments are translated.
-/

namespace Waypipe

open Wayland

variable (sys : System) (q : Request)

/-! ## Files and pipes -/

/-- A read-only file of the given size, whose contents are replicated exactly.  A file from the
channel is only passed on when it is complete. -/
def fixedFile (fileSz : Nat) : Handler :=
  let pass : Handler := .actFd do
    let _ ← passFd "Missing fd" (fun _ => return)
      fun fd => do translateShmFd sys fd fileSz true true false
    liftAct (copyMsgTagFd q.msg q.fromChannel)
  if q.fromChannel then
    .looking (fun c => match c.transl with
      | .fromChannel (sfd :: _) _ => .ok sfd
      | _ => fail "Missing fd") fun sfd => .waits (fileWait sfd) pass
  else pass

def wlKeyboardKeymap : Handler :=
  .needs q.msg.length 1 <|
  .parsing (parseEvtWlKeyboardKeymap q.msg) fun (_, keymapSize) => fixedFile sys q keymapSize

def wpImageDescriptionInfoV1IccFile : Handler :=
  .needs q.msg.length 1 <|
  .parsing (parseEvtWpImageDescriptionInfoV1IccFile q.msg) fun fileSize => fixedFile sys q fileSize

/-- Size of a file of which a part is used. -/
def iccFileSize (msg : WaylandMsg) : Res Nat := do
  let (offset, length) ← parseReqWpImageDescriptionCreatorIccV1SetIccFile msg
  if length = 0 then
    fail ("File length for wp_image_description_creator_icc_v1::set_icc_file " ++
      "should not be zero")
  if 2 ^ 32 ≤ offset + length then
    fail (s!"File offset+length={offset}+{length} overflow " ++
      "for wp_image_description_creator_icc_v1::set_icc_file")
  return offset + length

def wpImageDescriptionCreatorIccV1SetIccFile : Handler :=
  .needs q.msg.length 1 <|
  .parsing (iccFileSize q.msg) fun fileSz => fixedFile sys q fileSz

def zwlrGammaControlManagerV1GetGammaControl : Handler :=
  .needs q.msg.length 0 <| .act do
    let (gamma, _) ← parseReqZwlrGammaControlManagerV1GetGammaControl q.msg
    insertNewObject gamma .zwlrGammaControlV1 (.zwlrGammaControl { gammaSize := none })
    copyMsg q.msg

def zwlrGammaControlV1GammaSize : Handler :=
  .needs q.msg.length 0 <| .act do
    let _ ← extraOf q.objectId WpExtra.zwlrGammaControl? UNEXPECTED_METHOD
    let gammaSize ← parseEvtZwlrGammaControlV1GammaSize q.msg
    if (2 ^ 32 - 1) / 6 < gammaSize then
      fail "Gamma size too large (ramps would use >u32::MAX bytes)"
    setExtra q.objectId (.zwlrGammaControl { gammaSize := some gammaSize })
    copyMsg q.msg

/-- Size in bytes of the gamma ramps. -/
def gammaTableSize : Look Nat := fun c => do
  let gamma ← c.glob.extraOf q.objectId WpExtra.zwlrGammaControl? UNEXPECTED_METHOD
  let gammaSize ← orErr gamma.gammaSize
    "zwlr_gamma_control_v1::set_gamma called before gamma size provided"
  mulU32 gammaSize 6

def zwlrGammaControlV1SetGamma : Handler :=
  .needs q.msg.length 1 <|
  .looking (gammaTableSize q) fun fileSz => fixedFile sys q fileSz

/-- The messages that transfer a selection: a MIME type, which does not matter here, and a pipe. -/
def transferSelection : Handler :=
  .needs q.msg.length 1 <| .actFd do
    let _ ← passFd "Missing sfd" (fun _ => return) fun fd => do translatePipeFd fd true
    liftAct (copyMsgTagFd q.msg q.fromChannel)

/-! ## Titles and icons -/

/-- The configured text is put in front of every title. -/
def xdgToplevelSetTitle : Handler :=
  .parsing (parseReqXdgToplevelSetTitle q.msg) fun title =>
  .looking (fun c => .ok c.glob.opts.titlePrefix) fun titlePrefix =>
  .needs (lengthReqXdgToplevelSetTitle (title.length + titlePrefix.length)) 0 <| .act do
    emitMsg (writeReqXdgToplevelSetTitle q.objectId (titlePrefix ++ title))

/-- The buffer of an icon. -/
def lookIconBuffer : Look ObjWlBuffer := fun c => do
  let (bufferId, _) ← parseReqXdgToplevelIconV1AddBuffer q.msg
  let buffer ← orErr (c.glob.extra? bufferId)
    "Provided buffer is null, was never created, or is not tracked"
  orErr buffer.wlBuffer? "Expected wl_buffer object"

/-- The display side waits until the contents of the icon have arrived. -/
def iconWait (buffer : ObjWlBuffer) : Look (Option Rid) := fun c =>
  if c.glob.onDisplaySide then do
    let b ← c.glob.sfd buffer.sfd
    match b.data with
    | .file data => return if 0 < data.pendingApplyTasks then some b.remoteId else none
    | _ => fail "Attached buffer shadowfd is not of file type"
  else .ok none

def xdgToplevelIconV1AddBuffer : Handler :=
  .needs q.msg.length 0 <|
  .looking (lookIconBuffer q) fun extra => .waits (iconWait extra) <| .act do
    copyMsg q.msg
    if (← getGlob).onDisplaySide then return
    match (← readSfd extra.sfd).data with
    | .file y =>
      let interval ← damageForEntireBuffer (← orPanic extra.shmInfo UNWRAP_NONE)
      let damage ← y.damage.add (.ok [interval])
      putSfdData extra.sfd (.file { y with damage })
    | _ => fail "Expected buffer shadowfd to be of file type"

/-! ## Presentation times -/

def wpPresentationFeedbackPresented : Handler :=
  .needs q.msg.length 0 <| .act do
    let (tvSecHi, tvSecLo, tvNsec, refresh, seqHi, seqLo, flags) ←
      parseEvtWpPresentationFeedbackPresented q.msg
    let g ← getGlob
    let (secHi, secLo, nsec) ← translateTimestamp sys (tvSecHi, tvSecLo, tvNsec)
      (g.presentationClock.getD CLOCK_MONOTONIC) g.onDisplaySide
    emitMsg (writeEvtWpPresentationFeedbackPresented q.objectId secHi secLo nsec refresh seqHi seqLo
      flags)

def wpPresentationClockId : Handler :=
  .needs q.msg.length 0 <| .act do
    let clockId ← parseEvtWpPresentationClockId q.msg
    match (← getGlob).presentationClock with
    | none => pure ()
    | some old =>
      if clockId ≠ old then
        fail (s!"The wp_presentation clock was already set to {old} " ++
          s!"and cannot be changed to {clockId}.")
    modifyGlob fun g => { g with presentationClock := some clockId }
    copyMsg q.msg

def wpCommitTimerV1SetTimestamp : Handler :=
  .needs q.msg.length 0 <| .act do
    let stamp ← parseReqWpCommitTimerV1SetTimestamp q.msg
    let g ← getGlob
    let (secHi, secLo, nsec) ← translateTimestamp sys stamp
      (g.presentationClock.getD CLOCK_MONOTONIC) (!g.onDisplaySide)
    emitMsg (writeReqWpCommitTimerV1SetTimestamp q.objectId secHi secLo nsec)

end Waypipe
