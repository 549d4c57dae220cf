import Waypipe.Tracking.Device

/-!
# The object map

Looking objects up, creating them and changing their extra data, and the default translation of a
message, which follows the signature of its method.
-/

namespace Waypipe

open Wayland LeBytes

/-! ## Extra data -/

namespace WpExtra

def wlSurface? : WpExtra → Option ObjWlSurface
  | wlSurface data => some data
  | _ => Option.none

def wlBuffer? : WpExtra → Option ObjWlBuffer
  | wlBuffer data => some data
  | _ => Option.none

def registryData? : WpExtra → Option ObjWlRegistry
  | wlRegistry data => some data
  | _ => Option.none

def wlShmPool? : WpExtra → Option ObjWlShmPool
  | wlShmPool data => some data
  | _ => Option.none

def wpViewport? : WpExtra → Option ObjWpViewport
  | wpViewport data => some data
  | _ => Option.none

def zwpDmabuf? : WpExtra → Option ObjZwpLinuxDmabuf
  | zwpDmabuf data => some data
  | _ => Option.none

def zwpDmabufFeedback? : WpExtra → Option ObjZwpLinuxDmabufFeedback
  | zwpDmabufFeedback data => some data
  | _ => Option.none

def zwpDmabufParams? : WpExtra → Option ObjZwpLinuxDmabufParams
  | zwpDmabufParams data => some data
  | _ => Option.none

def zwlrScreencopyFrame? : WpExtra → Option ObjZwlrScreencopyFrame
  | zwlrScreencopyFrame data => some data
  | _ => Option.none

def extImageCopyCaptureSession? : WpExtra → Option ObjExtImageCopyCaptureSession
  | extImageCopyCaptureSession data => some data
  | _ => Option.none

def extImageCopyCaptureFrame? : WpExtra → Option ObjExtImageCopyCaptureFrame
  | extImageCopyCaptureFrame data => some data
  | _ => Option.none

def zwlrGammaControl? : WpExtra → Option ObjZwlrGammaControl
  | zwlrGammaControl data => some data
  | _ => Option.none

def wpDrmSyncobjSurface? : WpExtra → Option ObjWpDrmSyncobjSurface
  | wpDrmSyncobjSurface data => some data
  | _ => Option.none

def wpDrmSyncobjTimeline? : WpExtra → Option ObjWpDrmSyncobjTimeline
  | wpDrmSyncobjTimeline data => some data
  | _ => Option.none

end WpExtra

namespace Globals

variable (g : Globals)

def extra? (id : ObjId) : Option WpExtra := (g.objects.lookup id).map WpObject.extra

/-- The extra data of an object, which has to be of the given kind. -/
def extraOf {α : Type} (id : ObjId) (kind : WpExtra → Option α) (msg : String) : Res α :=
  orErr ((g.extra? id).bind kind) msg

def setExtra (id : ObjId) (extra : WpExtra) : Globals :=
  match g.objects.lookup id with
  | some o => { g with objects := g.objects.insert id { o with extra } }
  | none => g

theorem setExtra_of_lookup {id : ObjId} {o : WpObject} (h : g.objects.lookup id = some o)
    (extra : WpExtra) :
    g.setExtra id extra = { g with objects := g.objects.insert id { o with extra } } := by
  unfold setExtra
  rw [h]

theorem extra?_setExtra {id : ObjId} {extra extra' : WpExtra} (h : g.extra? id = some extra) :
    (g.setExtra id extra').extra? id = some extra' := by
  unfold extra? at h
  obtain ⟨o, ho, _⟩ := Option.map_eq_some_iff.mp h
  rw [g.setExtra_of_lookup ho]
  simp [extra?]

end Globals

/-- Text for a missing or wrong extra type of most objects. -/
def UNEXPECTED_METHOD : String :=
  "Object produced through unexpected method, missing associated state"

def BAD_SURFACE : String := "Surface object has invalid extra type"

def BAD_VIEWPORT : String := "Viewport object has invalid extra type"

def INCORRECT_EXTRA : String := "Incorrect extra type"

def extraOf {α : Type} (id : ObjId) (kind : WpExtra → Option α) (msg : String) : GlobAct α := do
  (← getGlob).extraOf id kind msg

def setExtra (id : ObjId) (extra : WpExtra) : GlobAct Unit := modifyGlob fun g => g.setExtra id extra

/-- The extra data of an object, to decide what to do. -/
def lookExtra {α : Type} (id : ObjId) (kind : WpExtra → Option α) (msg : String) : Look α :=
  fun c => c.glob.extraOf id kind msg

/-- Name of an interface in error messages: that of the enumeration. -/
def debugName (intf : WaylandInterface) : String :=
  String.join ((intf.data.name.splitOn "_").map String.capitalize)

/-- Record a new object, whose id must not be in use. -/
def insertNewObject (id : ObjId) (objType : WaylandInterface) (extra : WpExtra) : GlobAct Unit := do
  let old := (← getGlob).objects.lookup id
  modifyGlob fun g => { g with objects := g.objects.insert id { objType, extra } }
  match old with
  | none => return
  | some o =>
    let t := debugName objType
    let s := debugName o.objType
    fail (s!"Creating object of type {t} with id {id}, " ++
      s!"but object of type {s} with same id already exists")

def removeObject (id : ObjId) : GlobAct Unit :=
  modifyGlob fun g => { g with objects := g.objects.erase id }

/-! ## Pending tasks -/

/-- `file_has_pending_apply_tasks` -/
def fileHasPendingApplyTasks (sfd : ShadowFd) : Res Bool :=
  match sfd.data with
  | .file data => .ok (0 < data.pendingApplyTasks)
  | _ => fail "ShadowFd is not of file type"

/-- Wait for the tasks of a file. -/
def fileWait (r : SfdRef) : Look (Option Rid) := fun c => do
  let sfd ← c.glob.sfd r
  return if ← fileHasPendingApplyTasks sfd then some sfd.remoteId else none

/-! ## Default processing -/

/-- Parse an argument; when it is malformed, nothing is taken off the message. -/
def skipU32 (tail : List UInt8) : List UInt8 :=
  match parseU32 tail with
  | .ok (_, tail) => tail
  | .error _ => tail

def liftParse {α : Type} (x : Except String α) : Res α :=
  match x with
  | .ok a => .ok a
  | .error e => fail e

/-- Create the object of a generic new id, if its interface is known. -/
def insertGenericObject (id : ObjId) (name : List UInt8) : GlobAct Unit := do
  let g ← getGlob
  if (g.objects.lookup id).isSome then fail "Creating object with id not detected as deleted"
  else match lookupIntfByName name with
    | none => return
    | some intf =>
      modifyGlob fun g =>
        { g with objects := g.objects.insert id { objType := intf, extra := .none } }

/-- Register one argument; the rest of the message is returned. -/
def registerArgument (op : WaylandArgument) (tail : List UInt8) : GlobAct (List UInt8) :=
  match op with
  | .uint | .int | .fixed => return skipU32 tail
  | .fd => return tail
  | .object _ | .genericObject => do return (← liftParse (parseObj tail)).2
  | .newId newIntf => do
    let (id, tail) ← liftParse (parseObj tail)
    insertNewObject id newIntf .none
    return tail
  | .genericNewId => do
    let (name, tail) ← liftParse (parseString tail)
    let name ← orErr name "New id string should not be null"
    let (_, tail) ← liftParse (parseU32 tail)
    let (id, tail) ← liftParse (parseObj tail)
    insertGenericObject id name
    return tail
  | .string => do
    let (x, tail) ← liftParse (parseString tail)
    let _ ← orErr x "Received null string where none allowed"
    return tail
  | .optionalString => do return (← liftParse (parseString tail)).2
  | .array => do return (← liftParse (parseArray tail)).2

/-- Register the objects that a message creates. -/
def registerGenericNewIds (msg : WaylandMsg) (meth : WaylandMethod) : GlobAct Unit := do
  let _ ← meth.sig.foldlM (fun tail op => registerArgument op tail) (msg.bytes.drop 8)

/-- Whether the id is in the range that the server allocates. -/
def isServerObject (id : ObjId) : Bool := 0xff000000 ≤ id

/-- Remove an object after a destructor that takes effect immediately.  A client object is only
removed with `wl_display.delete_id`. -/
def processDestructor (q : Request) : GlobAct Unit :=
  if q.meth.destructor && (!q.isReq || isServerObject q.objectId) then do
    let _ ← orPanic ((← getGlob).objects.lookup q.objectId) UNWRAP_NONE
    removeObject q.objectId
  else return

def defaultProcWayMsg (q : Request) : Handler :=
  .needs q.msg.length 0 <| .act do
    registerGenericNewIds q.msg q.meth
    processDestructor q
    copyMsg q.msg

end Waypipe
