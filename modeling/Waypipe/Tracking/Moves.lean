import Mathlib.Logic.Relation
import Waypipe.Tracking.Actions
import Waypipe.Tracking.Surface

/-!
# What a message can do

`Move` is one change that the translation of a message can make to the tracked state and to the
queues of descriptors.  Every message is a sequence of moves, after which an object can be removed
(`Processed`, `Tracking.HandlerMoves`), so that an invariant of the tracked state need only be
checked for each kind of move.
-/

namespace Waypipe

open Wayland

/-! ## Objects -/

/-- What is checked when a shared memory buffer is created. -/
structure ObjWlBufferShm.Accepted (info : ObjWlBufferShm) : Prop where
  width : 0 < info.width
  height : 0 < info.height
  stride : 0 ≤ info.stride
  offset : 0 ≤ info.offset
  offset_lt : info.offset < 2 ^ 31

/-- The objects that a message names. -/
structure Targets where
  /-- The surface that it commits. -/
  commit : Option ObjId
  /-- The surface for which it makes a viewport. -/
  surface : Option ObjId
  /-- The session for which it makes a frame. -/
  session : Option ObjId
  /-- The object that it may remove. -/
  removed : Option ObjId
  /-- The objects that it may create. -/
  new : List ObjId

/-- An argument of a message, as the ids for which it creates objects. -/
def argNewIds : WaylandArgument → ArgParser (List ObjId)
  | .uint | .int | .fixed => fun tail => .ok ([], skipU32 tail)
  | .fd => return []
  | .object _ | .genericObject => do
    let _ ← parseObj
    return []
  | .newId _ => do return [← parseObj]
  | .genericNewId => do
    let _ ← parseString
    let _ ← parseU32
    return [← parseObj]
  | .string | .optionalString => do
    let _ ← parseString
    return []
  | .array => do
    let _ ← parseArray
    return []

/-- The ids for which a message creates objects, by the signature of its method. -/
def newIds : List WaylandArgument → List UInt8 → List ObjId
  | [], _ => []
  | op :: sig, tail => match argNewIds op tail with
    | .ok (ids, rest) => ids ++ newIds sig rest
    | .error _ => []

/-- Extra data with which an object can be created. -/
def NewExtra (m : Targets) (c : Ctx) : WpExtra → Prop
  | .wlSurface s => s.viewportId = none ∧ s.acquirePt = none ∧ s.releasePt = none
  | .wlShmPool p => p.buffer ∈ c.transl.outgoing ∧ (c.glob.onDisplaySide = false →
      ∃ sfd f, c.glob.sfds[p.buffer]? = some sfd ∧ sfd.data = .file f ∧ f.readonly = false)
  | .wlBuffer b => (b.sfd ∈ c.transl.outgoing ∨
      ∃ id p, c.glob.extra? id = some (.wlShmPool p) ∧ p.buffer = b.sfd) ∧
        ∀ info ∈ b.shmInfo, info.Accepted
  | .wpViewport v => v.wlSurface = m.surface
  | .zwpDmabufFeedback f => f.queuedFormatTable = none ∧ f.processed = false
  | .zwpDmabufParams p => p.dmabuf = none ∧ p.planes = []
  | .zwlrScreencopyFrame f => f.buffer = none
  | .extImageCopyCaptureSession d => d.frameList = []
  | .extImageCopyCaptureFrame f => f.buffer = none ∧ f.captureSession = m.session ∧
      ∃ id d, m.session = some id ∧ c.glob.extra? id = some (.extImageCopyCaptureSession d)
  | .wpDrmSyncobjTimeline t => t.timeline ∈ c.transl.outgoing
  | _ => True

section NewExtra

variable {m : Targets} {c : Ctx}

@[simp] theorem newExtra_wlSurface {s : ObjWlSurface} : NewExtra m c (.wlSurface s) ↔
    s.viewportId = none ∧ s.acquirePt = none ∧ s.releasePt = none := Iff.rfl

@[simp] theorem newExtra_wlRegistry {d : ObjWlRegistry} : NewExtra m c (.wlRegistry d) := trivial

@[simp] theorem newExtra_zwpDmabufParams {p : ObjZwpLinuxDmabufParams} :
    NewExtra m c (.zwpDmabufParams p) ↔ p.dmabuf = none ∧ p.planes = [] := Iff.rfl

@[simp] theorem newExtra_zwlrGammaControl {d : ObjZwlrGammaControl} :
    NewExtra m c (.zwlrGammaControl d) := trivial

@[simp] theorem newExtra_wpDrmSyncobjSurface {d : ObjWpDrmSyncobjSurface} :
    NewExtra m c (.wpDrmSyncobjSurface d) := trivial

end NewExtra

/-- Where the buffer of a captured frame comes from. -/
def FromBuffer (g : Globals) (buffer : SfdRef × Option ObjWlBufferShm) : Prop :=
  ∃ id b, g.extra? id = some (.wlBuffer b) ∧ buffer = (b.sfd, b.shmInfo)

/-- How the extra data of an object can change. -/
def Evolves (c : Ctx) : WpExtra → WpExtra → Prop
  | .wlSurface s, .wlSurface s' => (s'.viewportId = s.viewportId ∨ s'.viewportId = none) ∧
      ∀ r ∈ s'.acquirePt.toList ++ s'.releasePt.toList, r ∈ s.acquirePt.toList ++ s.releasePt.toList ∨
        ∃ id t, c.glob.extra? id = some (.wpDrmSyncobjTimeline t) ∧ r.2 = t.timeline
  | .wpViewport v, .wpViewport v' => v'.wlSurface = v.wlSurface ∨ v'.wlSurface = none
  | .wlRegistry _, .wlRegistry _ => True
  | .zwpDmabuf _, .zwpDmabuf _ => True
  | .zwpDmabufFeedback f, .zwpDmabufFeedback f' => f'.queuedFormatTable = f.queuedFormatTable
  | .zwpDmabufParams p, .zwpDmabufParams p' => p'.dmabuf = p.dmabuf ∨ p'.dmabuf = none ∨
      ∃ r ∈ c.transl.outgoing, p'.dmabuf = some r
  | .zwlrScreencopyFrame _, .zwlrScreencopyFrame f' => ∀ b ∈ f'.buffer, FromBuffer c.glob b
  | .extImageCopyCaptureSession d, .extImageCopyCaptureSession d' => d'.frameList ⊆ d.frameList
  | .extImageCopyCaptureFrame f, .extImageCopyCaptureFrame f' =>
      (f'.captureSession = f.captureSession ∨ f'.captureSession = none) ∧
        ∀ b ∈ f'.buffer, b ∈ f.buffer ∨ FromBuffer c.glob b
  | .zwlrGammaControl _, .zwlrGammaControl _ => True
  | _, _ => False

section Evolves

variable {c : Ctx}

@[simp] theorem evolves_wlSurface {s s' : ObjWlSurface} : Evolves c (.wlSurface s) (.wlSurface s') ↔
    (s'.viewportId = s.viewportId ∨ s'.viewportId = none) ∧
      ∀ r ∈ s'.acquirePt.toList ++ s'.releasePt.toList,
        r ∈ s.acquirePt.toList ++ s.releasePt.toList ∨
          ∃ id t, c.glob.extra? id = some (.wpDrmSyncobjTimeline t) ∧ r.2 = t.timeline := Iff.rfl

@[simp] theorem evolves_zwpDmabufFeedback {f f' : ObjZwpLinuxDmabufFeedback} :
    Evolves c (.zwpDmabufFeedback f) (.zwpDmabufFeedback f') ↔
      f'.queuedFormatTable = f.queuedFormatTable := Iff.rfl

@[simp] theorem evolves_zwlrScreencopyFrame {f f' : ObjZwlrScreencopyFrame} :
    Evolves c (.zwlrScreencopyFrame f) (.zwlrScreencopyFrame f') ↔
      ∀ b ∈ f'.buffer, FromBuffer c.glob b := Iff.rfl

@[simp] theorem evolves_zwlrGammaControl {d d' : ObjZwlrGammaControl} :
    Evolves c (.zwlrGammaControl d) (.zwlrGammaControl d') := trivial

end Evolves

/-! ## Descriptors -/

/-- The damage that a commit or a capture adds to a file. -/
inductive ShmDamage : Res (List (Nat × Nat)) → Prop
  | commit (buffer : ObjWlBuffer) (surface : ObjWlSurface) (attachment : BufferAttachment) :
      ShmDamage (getDamageForShm buffer surface attachment)
  | entire {info interval} (h : damageForEntireBuffer info = .ok interval) : ShmDamage (.ok [interval])

/-- How a message can change the data of a descriptor, apart from the size of a file and from the
points for explicit synchronisation. -/
inductive SfdEvolves : ShadowFdVariant → ShadowFdVariant → Prop
  | file {f dmg damage} (hdmg : ShmDamage dmg)
      (hadd : f.damage.add dmg = .ok damage) : SfdEvolves (.file f) (.file { f with damage })
  | dmabuf (d : ShadowFdDmabuf) (damage : Damage) (usingImplicitSync : Bool)
      (debugWaylandId : ObjId) :
      SfdEvolves (.dmabuf d) (.dmabuf { d with damage, usingImplicitSync, debugWaylandId })
  | timeline (t : ShadowFdTimeline) (debugWaylandId : ObjId) :
      SfdEvolves (.timeline t) (.timeline { t with debugWaylandId })

/-- The data of a descriptor that is made for something from Wayland, and announced to the other
instance. -/
inductive NewData : ShadowFdVariant → Prop
  | file {f} (hremote : f.remoteBufsize = 0) (hpending : f.pendingApplyTasks = 0)
      (hcore : ∀ core ∈ f.core, core.shared = 0)
      (hwrite : f.readonly = false → f.damage = .intervals [] ∧ f.bufferSize < 2 ^ 31) :
      NewData (.file f)
  | dmabuf {d} (hpending : d.pendingApplyTasks = 0) (hacquires : d.acquires = [])
      (hreleases : d.releases = []) : NewData (.dmabuf d)
  | timeline {t} (hreleases : t.releases = []) : NewData (.timeline t)
  | pipe (p : ShadowFdPipe) : NewData (.pipe p)

def ShadowFdVariant.isPipe : ShadowFdVariant → Bool
  | pipe _ => true
  | _ => false

/-- The state with one more descriptor of this instance. -/
def Globals.created (g : Globals) (s : ShadowFd) : Globals :=
  { g with
    sfds := g.sfds ++ [s]
    map := g.map.insert s.remoteId g.sfds.length
    maxLocalId := g.maxLocalId + g.maxLocalId.sign
    pipes := if s.data.isPipe then g.pipes ++ [g.sfds.length] else g.pipes }

/-! ## Moves -/

/-- The same objects and descriptors. -/
structure SameTracked (g g' : Globals) : Prop where
  sfds : g'.sfds = g.sfds
  map : g'.map = g.map
  fresh : g'.fresh = g.fresh
  pipes : g'.pipes = g.pipes
  objects : g'.objects = g.objects
  side : g'.onDisplaySide = g.onDisplaySide
  maxLocalId : g'.maxLocalId = g.maxLocalId

theorem SameTracked.rfl {g : Globals} : SameTracked g g :=
  ⟨.refl _, .refl _, .refl _, .refl _, .refl _, .refl _, .refl _⟩

theorem SameTracked.trans {g₁ g₂ g₃ : Globals} (h : SameTracked g₁ g₂) (h' : SameTracked g₂ g₃) :
    SameTracked g₁ g₃ :=
  ⟨h'.sfds.trans h.sfds, h'.map.trans h.map, h'.fresh.trans h.fresh, h'.pipes.trans h.pipes,
    h'.objects.trans h.objects, h'.side.trans h.side, h'.maxLocalId.trans h.maxLocalId⟩

inductive Move (m : Targets) : Ctx → Ctx → Prop
  /-- Output is written. -/
  | write {g out out' t} : Move m ⟨⟨g, out⟩, t⟩ ⟨⟨g, out'⟩, t⟩
  /-- Something else than objects and descriptors changes. -/
  | state {g g' out t} (h : SameTracked g g') : Move m ⟨⟨g, out⟩, t⟩ ⟨⟨g', out⟩, t⟩
  | insert {g out t id o} (hid : id ∈ m.new) (hnew : g.objects.lookup id = none)
      (ho : NewExtra m ⟨⟨g, out⟩, t⟩ o.extra) :
      Move m ⟨⟨g, out⟩, t⟩ ⟨⟨g.withObject id o, out⟩, t⟩
  | update {g out t id x x'} (hx : g.extra? id = some x) (hev : Evolves ⟨⟨g, out⟩, t⟩ x x') :
      Move m ⟨⟨g, out⟩, t⟩ ⟨⟨g.setExtra id x', out⟩, t⟩
  /-- The buffer that was created from the parameters becomes an object. -/
  | created {g out t id bufId p r sfd d d' b} (hid : bufId ∈ m.new)
      (hx : g.extra? id = some (.zwpDmabufParams p)) (hp : p.dmabuf = some r)
      (hr : g.sfds[r]? = some sfd) (hd : sfd.data = .dmabuf d)
      (hev : SfdEvolves (.dmabuf d) (.dmabuf d'))
      (hnew : (g.setExtra id (.zwpDmabufParams { p with dmabuf := none })).objects.lookup bufId = none)
      (hb : b.sfd = r) (hshm : b.shmInfo = none) :
      Move m ⟨⟨g, out⟩, t⟩ ⟨⟨((g.setExtra id (.zwpDmabufParams { p with dmabuf := none })).setSfd r
        { sfd with data := .dmabuf d' }).withObject bufId
          { objType := .wlBuffer, extra := .wlBuffer b }, out⟩, t⟩
  | evolve {g out t r sfd data} (hr : g.sfds[r]? = some sfd) (hev : SfdEvolves sfd.data data) :
      Move m ⟨⟨g, out⟩, t⟩ ⟨⟨g.setSfd r { sfd with data }, out⟩, t⟩
  /-- An application enlarges a pool that is not in use. -/
  | resize {g out t id pool sfd f size core core'} (hside : g.onDisplaySide = false)
      (hpool : g.extra? id = some (.wlShmPool pool))
      (hr : g.sfds[pool.buffer]? = some sfd) (hf : sfd.data = .file f)
      (hsize : f.bufferSize ≤ size) (hlt : size < 2 ^ 31) (hidle : f.pendingApplyTasks = 0)
      (hcore : f.core = some core)
      (hfree : core.shared = 0) (hfree' : core'.shared = 0) :
      Move m ⟨⟨g, out⟩, t⟩ ⟨⟨g.setSfd pool.buffer
        { sfd with data := .file { f with bufferSize := size, core := some core' } }, out⟩, t⟩
  /-- A descriptor from Wayland is used. -/
  | popFd {core fd fds rids} :
      Move m ⟨core, .fromWayland (fd :: fds) rids⟩ ⟨core, .fromWayland fds rids⟩
  /-- A descriptor for something from Wayland is made and announced. -/
  | create {g out fds rids data} (hdata : NewData data) : Move m ⟨⟨g, out⟩, .fromWayland fds rids⟩
        ⟨⟨g.created { remoteId := g.maxLocalId, onlyHere := true, data }, out⟩,
          .fromWayland fds (rids ++ [g.sfds.length])⟩
  /-- A format table is made; on the application side, for local use. -/
  | createTable {g out t id f f' file size} (hx : g.extra? id = some (.zwpDmabufFeedback f))
      (hfirst : f.processed = false)
      (hfile : NewData (.file file)) (hread : file.readonly = true) (hpos : 0 < file.bufferSize)
      (htable : f'.queuedFormatTable = some (g.sfds.length, size)) :
      Move m ⟨⟨g, out⟩, t⟩ ⟨⟨(g.created
        { remoteId := g.maxLocalId, onlyHere := g.onDisplaySide, data := .file file }).setExtra id
          (.zwpDmabufFeedback f'), out⟩, t⟩
  /-- The format table that is queued is sent. -/
  | sendTable {g out t id f f' r size} (hx : g.extra? id = some (.zwpDmabufFeedback f))
      (hf : f.queuedFormatTable = some (r, size))
      (hf' : f'.queuedFormatTable = none) :
      Move m ⟨⟨g, out⟩, t⟩ ⟨⟨g.setExtra id (.zwpDmabufFeedback f'), out⟩, t.push r⟩
  /-- A descriptor from the channel is passed on. -/
  | pass {core r rs fds} :
      Move m ⟨core, .fromChannel (r :: rs) fds⟩ ⟨core, .fromChannel rs (fds ++ [r])⟩
  /-- A file from the channel that is complete has been read. -/
  | take {core r rs fds sfd f} (hr : core.glob.sfds[r]? = some sfd) (hf : sfd.data = .file f)
      (hidle : f.pendingApplyTasks = 0) :
      Move m ⟨core, .fromChannel (r :: rs) fds⟩ ⟨core, .fromChannel rs fds⟩

/-- Any number of moves. -/
abbrev Moves (m : Targets) : Ctx → Ctx → Prop := Relation.ReflTransGen (Move m)

theorem Move.moves {m : Targets} {c c' : Ctx} (h : Move m c c') : Moves m c c' := .single h

namespace Moves

variable {m : Targets} {c : Ctx} {g g' : Globals} {out out' : Output} {t : Transl}

theorem written (h : Moves m c ⟨⟨g, out⟩, t⟩) : Moves m c ⟨⟨g, out'⟩, t⟩ := h.tail .write

@[simp] theorem stay : Moves m c c := .refl

@[simp] theorem write : Moves m c ⟨⟨c.core.glob, out⟩, c.transl⟩ := .single .write

@[simp] theorem state (h : SameTracked c.core.glob g) : Moves m c ⟨⟨g, out⟩, c.transl⟩ :=
  written (.single (.state h))

@[simp] theorem insert {id : ObjId} {intf : WaylandInterface} {x : WpExtra}
    (hid : id ∈ m.new) (hnew : c.core.glob.objects.lookup id = none) (hx : NewExtra m c x) :
    Moves m c ⟨⟨c.core.glob.withObject id { objType := intf, extra := x }, out⟩, c.transl⟩ :=
  written (.single (.insert hid hnew hx))

@[simp] theorem update {id : ObjId} {x' : WpExtra}
    (h : ∃ x, c.core.glob.extra? id = some x ∧ Evolves c x x') :
    Moves m c ⟨⟨c.core.glob.setExtra id x', out⟩, c.transl⟩ := by
  obtain ⟨x, hx, hev⟩ := h
  exact written (.single (.update hx hev))

@[simp] theorem evolve {r : SfdRef} {sfd : ShadowFd} {data : ShadowFdVariant}
    (hr : c.core.glob.sfds[r]? = some sfd) (hev : SfdEvolves sfd.data data) :
    Moves m c ⟨⟨c.core.glob.setSfd r { sfd with data }, out⟩, c.transl⟩ :=
  written (.single (.evolve hr hev))

end Moves

/-- Objects that are new have no extra data. -/
def PlainNew (g g' : Globals) : Prop :=
  ∀ id x, g.extra? id = none → g'.extra? id = some x → x = .none

/-! ## Commits -/

/-- The release point of a commit is recorded with its timeline and with the buffer. -/
inductive Released (g : Globals) (buf : SfdRef) (d : ShadowFdDmabuf) :
    Option (Nat × SfdRef) → ShadowFdDmabuf → Globals → Prop
  | unset : Released g buf d none d g
  | set {pt timeline tsfd t} (htl : g.sfds[timeline]? = some tsfd) (ht : tsfd.data = .timeline t) :
      Released g buf d (some (pt, timeline))
        { d with releases := d.releases.filter (·.1 ≠ (tsfd.remoteId, pt)) ++
            [((tsfd.remoteId, pt), timeline)] }
        (g.setSfd timeline { tsfd with data := .timeline { t with
          releases := t.releases ++ [(pt, buf)] } })

/-- The points are taken off a surface. -/
def Globals.takenPoints (g : Globals) (id : ObjId) (surf : ObjWlSurface) : Globals :=
  g.setExtra id (.wlSurface { surf with acquirePt := none, releasePt := none })

@[simp] theorem Globals.takenPoints_sfds (g : Globals) (id : ObjId) (surf : ObjWlSurface) :
    (g.takenPoints id surf).sfds = g.sfds := Globals.setExtra_sfds ..

/-- The DMABUF after a commit: the display side signals all acquire points when no update is left to
be applied. -/
def ShadowFdDmabuf.committed (d : ShadowFdDmabuf) (onDisplaySide : Bool) : ShadowFdDmabuf :=
  if onDisplaySide ∧ d.pendingApplyTasks = 0 then { d with acquires := [] } else d

/-- The points of a surface go to the DMABUF that is attached to it. -/
inductive Committed (id : ObjId) (c : Ctx) : Ctx → Prop
  | mk {surf buf sfd d d₁ d₂ g out} (hsurf : c.glob.extra? id = some (.wlSurface surf))
      (hbuf : attachedBuffer c.glob surf = some buf) (hr : c.glob.sfds[buf.sfd]? = some sfd)
      (hd : sfd.data = .dmabuf d) (hev : SfdEvolves (.dmabuf d) (.dmabuf d₁))
      (hrel : Released (c.glob.takenPoints id surf) buf.sfd
        { d₁ with acquires := d₁.acquires ++ surf.acquirePt.toList } surf.releasePt d₂ g) :
      Committed id c ⟨⟨g.setSfd buf.sfd
        { sfd with data := .dmabuf (d₂.committed c.glob.onDisplaySide) }, out⟩, c.transl⟩

/-- What a message can do: moves, or new objects without extra data and then the removal of an
object, or a commit of a surface with a DMABUF. -/
inductive Processed (m : Targets) (c : Ctx) : Ctx → Prop
  | moves {c'} (h : Moves m c c') : Processed m c c'
  | erase {g out out' t id} (hid : m.removed = some id)
      (h : Moves m c ⟨⟨g, out⟩, t⟩) (hplain : PlainNew c.glob g) :
      Processed m c ⟨⟨g.withoutObject id, out'⟩, t⟩
  | commit {id c₁ c'} (hid : m.commit = some id) (h : Committed id c c₁)
      (h' : Moves m c₁ c') : Processed m c c'

end Waypipe
