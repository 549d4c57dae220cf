import Waypipe.Tracking.ObjectMap

/-!
# Core interfaces

Handlers for `wl_display`, `wl_callback`, `wl_shm`, `wl_surface` and `wp_viewporter`.
-/

namespace Waypipe

open Wayland

variable (sys : System) (q : Request)

/-! ## Display, callback and shared memory -/

def wlDisplayDeleteId : Handler :=
  .needs q.msg.length 0 <| .act do
    let objectId ← parseEvtWlDisplayDeleteId q.msg
    if objectId = 1 then fail "Tried to delete wl_display object"
    removeObject objectId
    copyMsg q.msg

def wlDisplayGetRegistry : Handler :=
  .needs q.msg.length 0 <| .act do
    let registryId ← parseReqWlDisplayGetRegistry q.msg
    insertNewObject registryId .wlRegistry (.wlRegistry { syncobjManagerReplay := [] })
    copyMsg q.msg

/-- The object has no requests, so it is gone with its only event. -/
def wlCallbackDone : Handler :=
  .needs q.msg.length 0 <| .act do
    copyMsg q.msg
    removeObject q.objectId

def wlShmCreatePool : Handler :=
  .needs q.msg.length 1 <| .actFd do
    let (poolId, poolSize) ← parseReqWlShmCreatePool q.msg
    if poolSize < 0 then fail s!"Need nonnegative shm pool size, given {poolSize}"
    let buffer ← passFd "Missing fd" (fun _ => return)
      fun fd => translateShmFd sys fd poolSize.toNat false false false
    liftAct do
      insertNewObject poolId .wlShmPool (.wlShmPool { buffer })
      copyMsgTagFd q.msg q.fromChannel

/-- Whether the pool is too small for a buffer of a format whose layout is known. -/
def poolTooSmall (info : ObjWlBufferShm) (bufSize : Nat) : Res Bool :=
  match getShmFormatLayout info.format with
  | none => .ok false
  | some layout => do
    match ← extentForLinearBuffer info layout with
    | some (_, stop) => return bufSize < stop
    | none => return true

def wlShmPoolCreateBuffer : Handler :=
  .needs q.msg.length 0 <| .act do
    copyMsg q.msg
    let (bufferId, offset, width, height, stride, format) ← parseReqWlShmPoolCreateBuffer q.msg
    if width ≤ 0 ∨ height ≤ 0 then
      fail s!"wl_shm buffer width, height should be positive, not {width} x {height}"
    if offset < 0 then fail "wl_shm buffer offsets must be nonnegative"
    if stride < 0 then fail s!"wl_shm stride should be nonnegative, not {stride}"
    let info : ObjWlBufferShm := { width := max width 0, height := max height 0, format, offset, stride }
    let pool ← extraOf q.objectId WpExtra.wlShmPool? "wl_shm_pool object has invalid extra type"
    let bufSize ← match (← readSfd pool.buffer).data with
      | .file f => pure f.bufferSize
      | _ => throw (.panic "WpExtra::WlShmPool should only link to a shm fd")
    if ← poolTooSmall info bufSize then
      fail "wl_shm_pool is too small to contain provided wl_buffer"
    let uniqueId := (← getGlob).maxBufferUid
    insertNewObject bufferId .wlBuffer (.wlBuffer { sfd := pool.buffer, shmInfo := some info, uniqueId })
    modifyGlob fun g => { g with maxBufferUid := g.maxBufferUid + 1 }

/-- Enlarge a shared memory file on the side of the application. -/
def resizePool (buffer : SfdRef) (size : Int) : Act Unit := do
  if size < 0 then fail s!"Invalid buffer size: {size}"
  let newSize := size.toNat
  let sfd ← readSfd buffer
  match sfd.data with
  | .file y =>
    let oldSize := y.bufferSize
    if newSize < oldSize then
      fail s!"Invalid decrease in size ({oldSize} -> {newSize}) for wl_shm_pool::resize"
    let core ← updateCoreForNewSize sys y.fd newSize y.core
    putSfdData buffer (.file { y with bufferSize := newSize, core := some core })
  | _ => return

/-- The display side is told the new size by the other instance. -/
def wlShmPoolResize : Handler :=
  .needs q.msg.length 0 <|
  .looking (lookExtra q.objectId WpExtra.wlShmPool? "wl_shm_pool object has invalid extra type")
  fun x => .waits (fileWait x.buffer) <| .act do
    copyMsg q.msg
    if (← getGlob).onDisplaySide then return
    resizePool sys x.buffer (← parseReqWlShmPoolResize q.msg)

/-! ## Surfaces -/

def DamageBatch.fresh (attachment : BufferAttachment) : DamageBatch :=
  { attachment, damage := [], damageBuffer := [] }

def BufferAttachment.initial : BufferAttachment where
  scale := 1
  transform := .normal
  viewportSrc := none
  viewportDst := none
  bufferUid := 0
  bufferSize := (0, 0)

def wlCompositorCreateSurface : Handler :=
  .needs q.msg.length 0 <| .act do
    let surfId ← parseReqWlCompositorCreateSurface q.msg
    insertNewObject surfId .wlSurface (.wlSurface {
      attachedBufferId := none
      damageHistory := Vector.replicate 7 (.fresh .initial)
      acquirePt := none
      releasePt := none
      viewportId := none })
    copyMsg q.msg

def wlSurfaceDestroy : Handler :=
  .needs q.msg.length 0 <| .act do
    copyMsg q.msg
    let surf ← extraOf q.objectId WpExtra.wlSurface? BAD_SURFACE
    setExtra q.objectId (.wlSurface { surf with viewportId := none })
    match surf.viewportId with
    | none => return
    | some vpId =>
      match (← getGlob).extra? vpId with
      | none => return
      | some extra =>
        let viewport ← orErr extra.wpViewport? BAD_VIEWPORT
        setExtra vpId (.wpViewport { viewport with wlSurface := none })

def wlSurfaceAttach : Handler :=
  .needs q.msg.length 0 <| .act do
    let (bufId, _, _) ← parseReqWlSurfaceAttach q.msg
    let surf ← extraOf q.objectId WpExtra.wlSurface? BAD_SURFACE
    setExtra q.objectId (.wlSurface { surf with
      attachedBufferId := if bufId ≠ 0 then some bufId else none })
    copyMsg q.msg

/-- Change the pending damage of a surface. -/
def ObjWlSurface.modifyPending (surf : ObjWlSurface) (f : DamageBatch → DamageBatch) :
    ObjWlSurface :=
  { surf with damageHistory := surf.damageHistory.set 0 (f surf.damageHistory[0]) }

/-- Change how the next buffer is attached. -/
def ObjWlSurface.modifyAttachment (surf : ObjWlSurface)
    (f : BufferAttachment → BufferAttachment) : ObjWlSurface :=
  surf.modifyPending fun b => { b with attachment := f b.attachment }

def wlSurfaceSetBufferScale : Handler :=
  .needs q.msg.length 0 <| .act do
    copyMsg q.msg
    let s ← parseReqWlSurfaceSetBufferScale q.msg
    if s ≤ 0 then fail "wl_surface.set_buffer_scale used nonpositive scale"
    let surf ← extraOf q.objectId WpExtra.wlSurface? BAD_SURFACE
    setExtra q.objectId (.wlSurface (surf.modifyAttachment fun a => { a with scale := s.toNat }))

def wlSurfaceSetBufferTransform : Handler :=
  .needs q.msg.length 0 <| .act do
    copyMsg q.msg
    let t ← parseReqWlSurfaceSetBufferTransform q.msg
    let surf ← extraOf q.objectId WpExtra.wlSurface? BAD_SURFACE
    if t < 0 then fail "Buffer transform value should be nonnegative"
    let transform ← orErr (WlOutputTransform.tryFrom t.toNat) "Not a valid transform type"
    setExtra q.objectId (.wlSurface (surf.modifyAttachment fun a => { a with transform }))

/-- The two damage requests differ in the list that the rectangle goes to.  Only buffers of the
application get dirty, and degenerate rectangles are ignored. -/
def damageRequest (rect : Res (Int × Int × Int × Int)) (add : WlRect → DamageBatch → DamageBatch) :
    Handler :=
  .needs q.msg.length 0 <| .act do
    copyMsg q.msg
    if (← getGlob).onDisplaySide then return
    let surf ← extraOf q.objectId WpExtra.wlSurface? BAD_SURFACE
    let (x, y, width, height) ← rect
    if width ≤ 0 ∨ height ≤ 0 then return
    setExtra q.objectId (.wlSurface (surf.modifyPending (add { x, y, width, height })))

def wlSurfaceDamage : Handler :=
  damageRequest q (parseReqWlSurfaceDamage q.msg) fun r b => { b with damage := b.damage ++ [r] }

def wlSurfaceDamageBuffer : Handler :=
  damageRequest q (parseReqWlSurfaceDamageBuffer q.msg) fun r b =>
    { b with damageBuffer := b.damageBuffer ++ [r] }

/-! ## Commits -/

/-- Points for explicit synchronisation are set together or not at all. -/
def checkPoints (surf : ObjWlSurface) : Res Unit :=
  if surf.acquirePt.isSome ≠ surf.releasePt.isSome then
    fail "Acquire/release points must both be set"
  else .ok ()

/-- Number of tasks that must have been applied before a buffer can be used. -/
def applyCount (sfd : ShadowFd) (hasTimelines : Bool) : Res Nat :=
  match sfd.data with
  | .file data => .ok data.pendingApplyTasks
  -- with timelines, the acquire point is signalled when the last task completes
  | .dmabuf data => .ok (if hasTimelines then 0 else data.pendingApplyTasks)
  | _ => fail "Attached buffer is not of file or dmabuf type"

/-- The attached buffer of a surface, if it is still known. -/
def attachedBuffer (g : Globals) (surf : ObjWlSurface) : Option ObjWlBuffer := do
  (← g.extra? (← surf.attachedBufferId)).wlBuffer?

/-- Wait for the tasks of the attached buffer. -/
def commitWait (surf : ObjWlSurface) : Look (Option Rid) := fun c =>
  match attachedBuffer c.glob surf with
  | none => .ok none
  | some buf => do
    let b ← c.glob.sfd buf.sfd
    let n ← applyCount b (surf.acquirePt.isSome || surf.releasePt.isSome)
    return if 0 < n then some b.remoteId else none

/-- Take the synchronisation points off the surface: they must be set again for every commit. -/
def takePoints (id : ObjId) : Act ObjWlSurface := do
  let surf ← extraOf id WpExtra.wlSurface? BAD_SURFACE
  checkPoints surf
  setExtra id (.wlSurface { surf with acquirePt := none, releasePt := none })
  return surf

/-- Record the release point of a buffer with its timeline. -/
def addRelease (buf : SfdRef) (pt : Nat) (timeline : SfdRef) (y : ShadowFdDmabuf) :
    Act ShadowFdDmabuf := do
  let tsfd ← readSfd timeline
  match tsfd.data with
  | .timeline d =>
    putSfdData timeline (.timeline { d with releases := d.releases ++ [(pt, buf)] })
    let key := (tsfd.remoteId, pt)
    return { y with releases := y.releases.filter (·.1 ≠ key) ++ [(key, timeline)] }
  | _ => throw (.panic "Expected timeline sfd")

/-- Hand the synchronisation points of a commit over to the DMABUF. -/
def addPoints (buf : SfdRef) (surf : ObjWlSurface) (y : ShadowFdDmabuf) : Act ShadowFdDmabuf := do
  let y := { y with acquires := y.acquires ++ surf.acquirePt.toList }
  match surf.releasePt with
  | none => return y
  | some (pt, timeline) => addRelease buf pt timeline y

def commitOnDisplaySide : Act Unit := do
  let surf ← takePoints q.objectId
  match attachedBuffer (← getGlob) surf with
  | none => return
  | some buf =>
    match (← readSfd buf.sfd).data with
    | .dmabuf y =>
      dmabufPostApplyTaskOperations sys y
      let y ← addPoints buf.sfd surf y
      if y.pendingApplyTasks = 0 then
        -- all tasks are done already
        signalTimelineAcquires sys y.acquires
        putSfdData buf.sfd (.dmabuf { y with acquires := [] })
      else putSfdData buf.sfd (.dmabuf y)
    | _ => return

/-- Size of the contents of a buffer, in pixels. -/
def bufferPixels (buf : ObjWlBuffer) (data : ShadowFdVariant) : Res (Int × Int) :=
  match data with
  | .file _ => do
    let info ← orErr buf.shmInfo "Expected shm info for wl_buffer with File-type ShadowFd"
    return (info.width, info.height)
  | .dmabuf y =>
    if y.buf.width < 2 ^ 31 ∧ y.buf.height < 2 ^ 31 then .ok (y.buf.width, y.buf.height)
    else .error (.panic "called unwrap() on an Err value")
  | _ => fail "Expected buffer shadowfd to be of file type"

/-- Add the damage of a commit to the buffer. -/
def damageBuffer (buf : ObjWlBuffer) (surf : ObjWlSurface) (attachment : BufferAttachment) :
    Act Unit := do
  match (← readSfd buf.sfd).data with
  | .file y =>
    let damage ← y.damage.add (getDamageForShm buf surf attachment)
    putSfdData buf.sfd (.file { y with damage })
  | .dmabuf y =>
    let damage ← y.damage.add (getDamageForDmabuf y surf attachment)
    let usingImplicitSync := y.usingImplicitSync || surf.acquirePt.isNone
    let y ← addPoints buf.sfd surf { y with damage, usingImplicitSync }
    putSfdData buf.sfd (.dmabuf y)
  | _ => throw (.panic UNREACHABLE)

/-- The damage history after a commit with a buffer: the pending entry moves to index 1. -/
def rotateHistory (history : DamageHistory) (attachment : BufferAttachment) : DamageHistory :=
  Vector.ofFn fun i =>
    if i = 0 then .fresh attachment
    else if i = 1 then { history[0] with attachment }
    else history[i.val - 1]

def commitOnApplicationSide : Act Unit := do
  let surf ← takePoints q.objectId
  let attachment := surf.damageHistory[0].attachment
  let history ← match attachedBuffer (← getGlob) surf with
    | some buf => do
      let bufferSize ← bufferPixels buf (← readSfd buf.sfd).data
      let attachment := { attachment with bufferUid := buf.uniqueId, bufferSize }
      damageBuffer buf surf attachment
      pure (rotateHistory surf.damageHistory attachment)
    | none =>
      -- null attachment, or a buffer of unknown size
      pure (Vector.replicate 7 (.fresh { attachment with bufferUid := 0, bufferSize := (0, 0) }))
  let surf ← extraOf q.objectId WpExtra.wlSurface? BAD_SURFACE
  setExtra q.objectId (.wlSurface { surf with damageHistory := history })

/-- The surface to be committed. -/
def lookCommit : Look ObjWlSurface := fun c => do
  let surf ← c.glob.extraOf q.objectId WpExtra.wlSurface? BAD_SURFACE
  checkPoints surf
  return surf

def wlSurfaceCommit : Handler :=
  .needs q.msg.length 0 <|
  .parsing (parseReqWlSurfaceCommit q.msg) fun _ =>
  .looking (lookCommit q) fun surf =>
  .waits (fun c => if q.fromChannel then commitWait surf c else .ok none) <| .act do
    copyMsg q.msg
    if (← getGlob).onDisplaySide then commitOnDisplaySide sys q else commitOnApplicationSide q

/-! ## Viewports -/

def wpViewporterGetViewport : Handler :=
  .needs q.msg.length 0 <| .act do
    copyMsg q.msg
    let (newId, surface) ← parseReqWpViewporterGetViewport q.msg
    insertNewObject newId .wpViewport (.wpViewport { wlSurface := some surface })

/-- Change the attachment of the surface that a viewport belongs to, if both still exist. -/
def modifyViewportSurface (surface : Option ObjId) (f : ObjWlSurface → ObjWlSurface) :
    Act Unit := do
  match surface with
  | none => return
  | some surfId =>
    match (← getGlob).extra? surfId with
    | none => return
    | some extra =>
      let surf ← orErr extra.wlSurface? BAD_SURFACE
      setExtra surfId (.wlSurface (f surf))

def wpViewportDestroy : Handler :=
  .needs q.msg.length 0 <| .act do
    copyMsg q.msg
    let viewport ← extraOf q.objectId WpExtra.wpViewport? BAD_VIEWPORT
    setExtra q.objectId (.wpViewport { viewport with wlSurface := none })
    modifyViewportSurface viewport.wlSurface fun surf =>
      { surf.modifyAttachment fun a => { a with viewportSrc := none, viewportDst := none } with
        viewportId := none }

def wpViewportSetDestination : Handler :=
  .needs q.msg.length 0 <| .act do
    copyMsg q.msg
    let (w, h) ← parseReqWpViewportSetDestination q.msg
    let unset : Bool := w = -1 && h = -1
    if !unset && (w ≤ 0 || h ≤ 0) then fail s!"invalid wp_viewport destination ({w},{h})"
    let viewportDst := if unset then none else some (w, h)
    let viewport ← extraOf q.objectId WpExtra.wpViewport? BAD_VIEWPORT
    modifyViewportSurface viewport.wlSurface fun surf =>
      surf.modifyAttachment fun a => { a with viewportDst }

def wpViewportSetSource : Handler :=
  .needs q.msg.length 0 <| .act do
    copyMsg q.msg
    let (x, y, w, h) ← parseReqWpViewportSetSource q.msg
    let unset : Bool := x = -256 && y = -256 && w = -256 && h = -256
    if !unset && (x < 0 || y < 0 || w ≤ 0 || h ≤ 0) then
      fail s!"invalid wp_viewport source ({x},{y},{w},{h})"
    let viewportSrc := if unset then none else some (x, y, w, h)
    let viewport ← extraOf q.objectId WpExtra.wpViewport? BAD_VIEWPORT
    modifyViewportSurface viewport.wlSurface fun surf =>
      surf.modifyAttachment fun a => { a with viewportSrc }

end Waypipe
