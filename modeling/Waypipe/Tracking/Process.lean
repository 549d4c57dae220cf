import Waypipe.Tracking.Capture
import Waypipe.Tracking.Files
import Waypipe.Tracking.Registry

/-!
# Processing of Wayland messages

`processWayMsg` finds the object and the method of a message and runs its handler.  Methods without
a handler of their own are processed by their signature, and messages of unknown objects are passed
on as they are.
-/

namespace Waypipe

open Wayland

variable (sys : System)

/-! ## Unknown messages -/

variable (msg : WaylandMsg)

/-- Number of file descriptors that the other instance attached to a message. -/
def tagFds : Nat := msg.header2 % 2 ^ 16 / 2 ^ 11

/-- The first of the attached files that still has tasks. -/
def tagWait (n : Nat) : Look (Option Rid) := fun c =>
  match c.transl with
  | .fromWayland _ _ => .ok none
  | .fromChannel sfds _ =>
    if sfds.length < n then fail "Missing sfd"
    else do
      let attached ← (sfds.take n).mapM c.glob.sfd
      return (attached.find? fun b => match b.data with
        | .file data => 0 < data.pendingApplyTasks
        | _ => false).map (·.remoteId)

/-- Pass the attached descriptors on. -/
def passTagged (n : Nat) : FdAct Unit := modify fun c =>
  match c.transl with
  | .fromChannel sfds fds => { c with transl := .fromChannel (sfds.drop n) (fds ++ sfds.take n) }
  | .fromWayland _ _ => c

/-- Messages of unknown objects are copied; from the channel, with the descriptors that belong to
them. -/
def procUnknownWayMsg : Handler :=
  .looking (fun c => .ok c.transl.isFromChannel) fun fromChannel =>
  if fromChannel then
    let n := tagFds msg
    .needs msg.length n <| .waits (tagWait n) <| .actFd do
      passTagged n
      let h2 := msg.header2
      liftAct (emit (retag msg (h2 / 2 ^ 16 * 2 ^ 16 + h2 % 2 ^ 11)))
  else .needs msg.length 0 <| .act (copyMsg msg)

/-! ## Dispatch -/

/-- The methods with a handler of their own, in the order of the program. -/
def handlers : List ((WaylandInterface × MethodId) × (Request → Handler)) :=
  [((.wlDisplay, .event 1), wlDisplayDeleteId),
    ((.wlDisplay, .request 1), wlDisplayGetRegistry),
    ((.wlCallback, .event 0), wlCallbackDone),
    ((.wlShm, .request 0), wlShmCreatePool sys),
    ((.wlShmPool, .request 0), wlShmPoolCreateBuffer),
    ((.wlShmPool, .request 2), wlShmPoolResize sys),
    ((.wlCompositor, .request 0), wlCompositorCreateSurface),
    ((.wlSurface, .request 0), wlSurfaceDestroy),
    ((.wlSurface, .request 1), wlSurfaceAttach),
    ((.wlSurface, .request 8), wlSurfaceSetBufferScale),
    ((.wlSurface, .request 7), wlSurfaceSetBufferTransform),
    ((.wlSurface, .request 2), wlSurfaceDamage),
    ((.wlSurface, .request 9), wlSurfaceDamageBuffer),
    ((.wlSurface, .request 6), wlSurfaceCommit sys),
    ((.wpViewporter, .request 1), wpViewporterGetViewport),
    ((.wpViewport, .request 0), wpViewportDestroy),
    ((.wpViewport, .request 2), wpViewportSetDestination),
    ((.wpViewport, .request 1), wpViewportSetSource),
    ((.wpLinuxDrmSyncobjManagerV1, .request 1), wpLinuxDrmSyncobjManagerV1GetSurface),
    ((.wpLinuxDrmSyncobjManagerV1, .request 2), wpLinuxDrmSyncobjManagerV1ImportTimeline sys),
    ((.wpLinuxDrmSyncobjSurfaceV1, .request 1), wpLinuxDrmSyncobjSurfaceV1SetAcquirePoint),
    ((.wpLinuxDrmSyncobjSurfaceV1, .request 2), wpLinuxDrmSyncobjSurfaceV1SetReleasePoint),
    ((.zwpLinuxDmabufV1, .event 0), zwpLinuxDmabufV1Format),
    ((.zwpLinuxDmabufV1, .event 1), zwpLinuxDmabufV1Modifier),
    ((.zwpLinuxDmabufV1, .request 1), zwpLinuxDmabufV1CreateParams),
    ((.zwpLinuxBufferParamsV1, .request 1), zwpLinuxBufferParamsV1Add),
    ((.zwpLinuxBufferParamsV1, .request 3), zwpLinuxBufferParamsV1CreateImmed sys),
    ((.zwpLinuxBufferParamsV1, .request 2), zwpLinuxBufferParamsV1Create sys),
    ((.zwpLinuxBufferParamsV1, .event 1), zwpLinuxBufferParamsV1Failed),
    ((.zwpLinuxBufferParamsV1, .event 0), zwpLinuxBufferParamsV1Created),
    ((.zwpLinuxDmabufV1, .request 2), zwpLinuxDmabufV1GetDefaultFeedback),
    ((.zwpLinuxDmabufV1, .request 3), zwpLinuxDmabufV1GetSurfaceFeedback),
    ((.zwpLinuxDmabufFeedbackV1, .event 1), zwpLinuxDmabufFeedbackV1FormatTable sys),
    ((.zwpLinuxDmabufFeedbackV1, .event 2), zwpLinuxDmabufFeedbackV1MainDevice sys),
    ((.zwpLinuxDmabufFeedbackV1, .event 6), zwpLinuxDmabufFeedbackV1TrancheFlags),
    ((.zwpLinuxDmabufFeedbackV1, .event 4), zwpLinuxDmabufFeedbackV1TrancheTargetDevice),
    ((.zwpLinuxDmabufFeedbackV1, .event 5), zwpLinuxDmabufFeedbackV1TrancheFormats),
    ((.zwpLinuxDmabufFeedbackV1, .event 3), zwpLinuxDmabufFeedbackV1TrancheDone),
    ((.zwpLinuxDmabufFeedbackV1, .event 0), zwpLinuxDmabufFeedbackV1Done sys),
    ((.wlKeyboard, .event 0), wlKeyboardKeymap sys),
    ((.wpImageDescriptionInfoV1, .event 1), wpImageDescriptionInfoV1IccFile sys),
    ((.wpImageDescriptionCreatorIccV1, .request 1), wpImageDescriptionCreatorIccV1SetIccFile sys),
    ((.zwlrGammaControlManagerV1, .request 0), zwlrGammaControlManagerV1GetGammaControl),
    ((.zwlrGammaControlV1, .event 0), zwlrGammaControlV1GammaSize),
    ((.zwlrGammaControlV1, .request 0), zwlrGammaControlV1SetGamma sys),
    ((.zwpPrimarySelectionSourceV1, .event 0), transferSelection),
    ((.zwpPrimarySelectionOfferV1, .request 0), transferSelection),
    ((.gtkPrimarySelectionSource, .event 0), transferSelection),
    ((.gtkPrimarySelectionOffer, .request 0), transferSelection),
    ((.extDataControlSourceV1, .event 0), transferSelection),
    ((.extDataControlOfferV1, .request 0), transferSelection),
    ((.zwlrDataControlSourceV1, .event 0), transferSelection),
    ((.zwlrDataControlOfferV1, .request 0), transferSelection),
    ((.wlDataSource, .event 1), transferSelection),
    ((.wlDataOffer, .request 1), transferSelection),
    ((.zwlrScreencopyManagerV1, .request 1), zwlrScreencopyManagerV1CaptureOutputRegion),
    ((.zwlrScreencopyManagerV1, .request 0), zwlrScreencopyManagerV1CaptureOutput),
    ((.extImageCopyCaptureManagerV1, .request 0), extImageCopyCaptureManagerV1CreateSession),
    ((.extImageCopyCaptureCursorSessionV1, .request 1),
      extImageCopyCaptureCursorSessionV1GetCaptureSession),
    ((.extImageCopyCaptureSessionV1, .event 2), extImageCopyCaptureSessionV1DmabufDevice),
    ((.extImageCopyCaptureSessionV1, .event 3), extImageCopyCaptureSessionV1DmabufFormat),
    ((.extImageCopyCaptureSessionV1, .event 4), extImageCopyCaptureSessionV1Done sys),
    ((.extImageCopyCaptureSessionV1, .request 0), extImageCopyCaptureSessionV1CreateFrame),
    ((.extImageCopyCaptureSessionV1, .request 1), extImageCopyCaptureSessionV1Destroy),
    ((.zwlrScreencopyFrameV1, .request 0), zwlrScreencopyFrameV1Copy),
    ((.zwlrScreencopyFrameV1, .request 2), zwlrScreencopyFrameV1CopyWithDamage),
    ((.extImageCopyCaptureFrameV1, .request 0), extImageCopyCaptureFrameV1Destroy),
    ((.extImageCopyCaptureFrameV1, .request 1), extImageCopyCaptureFrameV1AttachBuffer),
    ((.extImageCopyCaptureFrameV1, .request 3), extImageCopyCaptureFrameV1Capture),
    ((.zwlrScreencopyFrameV1, .event 2), zwlrScreencopyFrameV1Ready sys),
    ((.extImageCopyCaptureFrameV1, .event 2), extImageCopyCaptureFrameV1PresentationTime sys),
    ((.extImageCopyCaptureFrameV1, .event 3), extImageCopyCaptureFrameV1Ready sys),
    ((.zwlrScreencopyFrameV1, .event 3), zwlrScreencopyFrameV1Failed),
    ((.extImageCopyCaptureFrameV1, .event 4), extImageCopyCaptureFrameV1Failed),
    ((.xdgToplevel, .request 2), xdgToplevelSetTitle),
    ((.xdgToplevelIconV1, .request 2), xdgToplevelIconV1AddBuffer),
    ((.wpPresentationFeedback, .event 1), wpPresentationFeedbackPresented sys),
    ((.wpPresentation, .event 0), wpPresentationClockId),
    ((.wpCommitTimerV1, .request 0), wpCommitTimerV1SetTimestamp sys),
    ((.wlRegistry, .event 0), wlRegistryGlobal sys),
    ((.wlRegistry, .request 0), wlRegistryBind sys)]

/-- The handler of a method. -/
def handlerOf (intf : WaylandInterface) (id : MethodId) : Request → Handler :=
  ((handlers sys).lookup (intf, id)).getD defaultProcWayMsg

/-- A method has a handler of its own, or the default one. -/
theorem handlerOf_mem (intf : WaylandInterface) (id : MethodId) :
    ((handlers sys).lookup (intf, id) = none ∧ handlerOf sys intf id = defaultProcWayMsg) ∨
      ((handlers sys).lookup (intf, id)).isSome ∧ ((intf, id), handlerOf sys intf id) ∈
        handlers sys := by
  unfold handlerOf
  cases hl : (handlers sys).lookup (intf, id) with
  | none => exact Or.inl ⟨rfl, rfl⟩
  | some handler =>
    obtain ⟨l₁, l₂, hmem, -⟩ := List.lookup_eq_some_iff.mp hl
    refine Or.inr ⟨rfl, ?_⟩
    rw [hmem]
    exact List.mem_append_right _ List.mem_cons_self

/-- Bits 11 to 15 of the header may say how many file descriptors are attached. -/
def WaylandMsg.opcode : Nat := msg.header2 % 2 ^ 11

/-- What is known about a message: the interface of its object, the method, and whether it is a
request. -/
structure Method where
  intf : WaylandInterface
  id : MethodId
  meth : WaylandMethod
  deriving DecidableEq

/-- Requests go from the application to the display. -/
def Ctx.isReq (c : Ctx) : Bool := c.glob.onDisplaySide == c.transl.isFromChannel

/-- The method that a message calls, if its object is tracked and the opcode is in range. -/
def methodOf (c : Ctx) : Option Method := do
  let obj ← c.glob.objects.lookup msg.objectId
  let id : MethodId :=
    if c.isReq then .request (WaylandMsg.opcode msg) else .event (WaylandMsg.opcode msg)
  let meth ← obj.objType.method id
  return { intf := obj.objType, id, meth }

def requestOf (c : Ctx) (meth : WaylandMethod) : Request where
  msg := msg
  objectId := msg.objectId
  fromChannel := c.transl.isFromChannel
  isReq := c.isReq
  meth := meth

/-- The handler for a message in a state. -/
def dispatch (c : Ctx) : Handler :=
  match methodOf msg c with
  | none => procUnknownWayMsg msg
  | some m => handlerOf sys m.intf m.id (requestOf msg c m.meth)

def processWayMsg : Handler := fun c =>
  if MAX_OUTGOING_FDS < c.transl.outgoing.length ∧ (methodOf msg c).isSome then
    .error (.panic "attempt to subtract with overflow")
  else dispatch sys msg c c

/-! ## Results -/

theorem dispatch_of_processWayMsg {msg : WaylandMsg} {c : Ctx} {x : ProcMsg × Ctx}
    (h : processWayMsg sys msg c = .ok x) : dispatch sys msg c c = .ok x := by
  unfold processWayMsg at h
  split at h
  · cases h
  · exact h

omit sys in
theorem methodOf_eq_some {msg : WaylandMsg} {c : Ctx} {m : Method} (h : methodOf msg c = some m) :
    (c.glob.objects.lookup msg.objectId).map WpObject.objType = some m.intf ∧
      m.id = (if c.isReq then .request (WaylandMsg.opcode msg) else .event (WaylandMsg.opcode msg)) ∧
      m.intf.method m.id = some m.meth := by
  unfold methodOf at h
  cases ho : c.glob.objects.lookup msg.objectId with
  | none => simp [ho] at h
  | some obj =>
    simp only [ho, Option.bind_eq_bind, Option.bind_some, Option.bind_eq_some_iff] at h
    obtain ⟨meth, hmeth, hm⟩ := h
    cases hm
    exact ⟨rfl, rfl, hmeth⟩

/-- A method is processed by its handler, while not too many descriptors wait to be sent. -/
theorem processWayMsg_of_method {msg : WaylandMsg} {c : Ctx} {m : Method} (hm : methodOf msg c = some m)
    (hfds : c.transl.outgoing.length ≤ MAX_OUTGOING_FDS) :
    processWayMsg sys msg c = handlerOf sys m.intf m.id (requestOf msg c m.meth) c := by
  unfold processWayMsg dispatch
  rw [if_neg fun hlong => absurd hlong.1 (Nat.not_lt.mpr hfds), hm]

omit sys in
theorem methodOf_event {msg : WaylandMsg} {c : Ctx} {o : WpObject} {meth : WaylandMethod}
    (hobj : c.glob.objects.lookup msg.objectId = some o) (hreq : c.isReq = false)
    (hmeth : o.objType.method (.event (WaylandMsg.opcode msg)) = some meth) :
    methodOf msg c = some { intf := o.objType, id := .event (WaylandMsg.opcode msg), meth } := by
  unfold methodOf
  rw [hobj]
  simp only [Option.bind_eq_bind, Option.bind_some, hreq, Bool.false_eq_true, if_false, hmeth]
  rfl

/-- A request of a tracked object is processed by its handler. -/
theorem processWayMsg_request {msg : WaylandMsg} {c : Ctx} {o : WpObject} {meth : WaylandMethod}
    {id : Nat} (hobj : c.glob.objects.lookup msg.objectId = some o) (hreq : c.isReq = true)
    (hfds : c.transl.outgoing.length ≤ MAX_OUTGOING_FDS) (hop : WaylandMsg.opcode msg = id)
    (hmeth : o.objType.method (.request id) = some meth) :
    processWayMsg sys msg c = handlerOf sys o.objType (.request id) (requestOf msg c meth) c := by
  have hm : methodOf msg c = some { intf := o.objType, id := .request id, meth } := by
    unfold methodOf
    rw [hobj, hop]
    simp only [Option.bind_eq_bind, Option.bind_some, hreq, if_true, hmeth]
    rfl
  exact processWayMsg_of_method sys hm hfds

end Waypipe
