import Waypipe.Lib.Transition
import Waypipe.Tracking.HandlerMoves

/-!
# Objects and their identity

An id is used again once its object is gone, so that an id in the data of an object need not stand
for the object that was meant.  `Tracked` is the object map with what tells objects apart: how often
each id has been given to an object, and for viewports and frames, for which object the request that
made them asked.  `Tracked.step` processes one message; all of the instance but its objects is
arbitrary in every step.
-/

namespace Waypipe

open Wayland Transition

variable (sys : System)

abbrev Objects := Table ObjId WpObject

def Objects.extra? (objects : Objects) (id : ObjId) : Option WpExtra :=
  (objects.lookup id).map WpObject.extra

/-! ## References between objects -/

namespace WpExtra

/-- The object that a viewport or a frame refers to. -/
def link : WpExtra → Option ObjId
  | wpViewport v => v.wlSurface
  | extImageCopyCaptureFrame f => f.captureSession
  | _ => Option.none

def isSurface : WpExtra → Bool
  | wlSurface _ => true
  | _ => false

def isViewport : WpExtra → Bool
  | wpViewport _ => true
  | _ => false

def isSession : WpExtra → Bool
  | extImageCopyCaptureSession _ => true
  | _ => false

def isFrame : WpExtra → Bool
  | extImageCopyCaptureFrame _ => true
  | _ => false

/-- How the data of an object develops: it stays of its kind, and a reference is kept or dropped. -/
structure Develops (x x' : WpExtra) : Prop where
  surface : x'.isSurface = x.isSurface
  viewport : x'.isViewport = x.isViewport
  session : x'.isSession = x.isSession
  frame : x'.isFrame = x.isFrame
  link : x'.link = x.link ∨ x'.link = Option.none

theorem Develops.refl {x : WpExtra} : Develops x x := ⟨rfl, rfl, rfl, rfl, Or.inl rfl⟩

theorem Develops.trans {x y z : WpExtra} (h : Develops x y) (h' : Develops y z) : Develops x z where
  surface := h'.surface.trans h.surface
  viewport := h'.viewport.trans h.viewport
  session := h'.session.trans h.session
  frame := h'.frame.trans h.frame
  link := by
    rcases h'.link with hl | hl
    · rw [hl]
      exact h.link
    · exact Or.inr hl

/-- A reference that is still there is the old one. -/
theorem Develops.link_eq {x x' : WpExtra} (h : Develops x x') {s : ObjId} (hs : x'.link = some s) :
    x.link = some s := by
  rcases h.link with hl | hl
  · exact hl.symm.trans hs
  · rw [hl] at hs
    cases hs

theorem develops_of_evolves {c : Ctx} {x x' : WpExtra} (h : Evolves c x x') : Develops x x' := by
  cases x <;> cases x' <;> try exact h.elim
  case wpViewport => exact ⟨rfl, rfl, rfl, rfl, h⟩
  case extImageCopyCaptureFrame => exact ⟨rfl, rfl, rfl, rfl, h.1⟩
  all_goals exact ⟨rfl, rfl, rfl, rfl, Or.inl rfl⟩

end WpExtra

/-! ## What a message does to the objects -/

namespace Objects

/-- The objects of a kind that refer to another one, with what they refer to. -/
def references (kind : WpExtra → Bool) (o : Objects) : List (ObjId × ObjId) :=
  o.entries.filterMap fun e =>
    if kind e.2.extra then e.2.extra.link.map fun s => (e.1, s) else none

theorem mem_references {kind : WpExtra → Bool} {o : Objects} {id s : ObjId} :
    (id, s) ∈ o.references kind ↔
      ∃ x, o.extra? id = some x ∧ kind x = true ∧ x.link = some s := by
  unfold references extra?
  simp only [List.mem_filterMap, Option.map_eq_some_iff]
  constructor
  · rintro ⟨⟨id', v⟩, hmem, h⟩
    split at h
    · rename_i hkind
      obtain ⟨s', hs', heq⟩ := Option.map_eq_some_iff.mp h
      cases heq
      exact ⟨v.extra, ⟨v, AList.mem_lookup_iff.mpr hmem, rfl⟩, hkind, hs'⟩
    · cases h
  · rintro ⟨_, ⟨v, hv, rfl⟩, hkind, hs⟩
    refine ⟨⟨id, v⟩, AList.mem_lookup_iff.mp hv, ?_⟩
    rw [if_pos hkind, hs]
    rfl

/-- What a message can make of an id that was free: viewports and frames refer to what the message
names, a frame to a session. -/
structure Made (m : Targets) (o : Objects) (id : ObjId) (x : WpExtra) : Prop where
  id : id ∈ m.new
  viewport : x.isViewport = true → ∀ s, x.link = some s → m.surface = some s
  frame : x.isFrame = true → ∀ s, x.link = some s →
    m.session = some s ∧ ∃ y, o.extra? s = some y ∧ y.isSession = true

/-- Objects are kept and develop. -/
def Kept (o o' : Objects) : Prop :=
  ∀ id x, o.extra? id = some x → ∃ x', o'.extra? id = some x' ∧ x.Develops x'

/-- More objects: those that were there have developed. -/
structure Grown (m : Targets) (o o' : Objects) : Prop where
  kept : Kept o o'
  fresh : ∀ id x', o.extra? id = none → o'.extra? id = some x' → Made m o' id x'

variable {m : Targets} {c c' : Ctx} {o o' : Objects} {id : ObjId} {x x' : WpExtra}

theorem Made.mono (h : Made m o id x) (hdev : x.Develops x') (hkept : Kept o o') :
    Made m o' id x' where
  id := h.id
  viewport := fun hkind s hs => h.viewport (hdev.viewport.symm.trans hkind) s (hdev.link_eq hs)
  frame := by
    intro hkind s hs
    obtain ⟨hmaker, y, hy, hsession⟩ := h.frame (hdev.frame.symm.trans hkind) s (hdev.link_eq hs)
    obtain ⟨y', hy', hdev'⟩ := hkept s y hy
    exact ⟨hmaker, y', hy', hdev'.session.trans hsession⟩

theorem Grown.refl : Grown m o o where
  kept := fun _ x hx => ⟨x, hx, .refl⟩
  fresh := fun id x' hnone hsome => by rw [hnone] at hsome; cases hsome

theorem Grown.trans {o'' : Objects} (h : Grown m o o') (h' : Grown m o' o'') : Grown m o o'' where
  kept := by
    intro id x hx
    obtain ⟨y, hy, hxy⟩ := h.kept id x hx
    obtain ⟨z, hz, hyz⟩ := h'.kept id y hy
    exact ⟨z, hz, hxy.trans hyz⟩
  fresh := by
    intro id z hnone hz
    cases hy : o'.extra? id with
    | none => exact h'.fresh id z hy hz
    | some y =>
      -- the object was new in between, and what it refers to has been kept since
      obtain ⟨z', hz', hyz⟩ := h'.kept id y hy
      cases hz.symm.trans hz'
      exact (h.fresh id y hnone hy).mono hyz h'.kept

theorem made_of_newExtra (h : NewExtra m c x) (hid : id ∈ m.new) : Made m c.glob.objects id x := by
  refine ⟨hid, fun hkind s hs => ?_, fun hkind s hs => ?_⟩
  · cases x with
    | wpViewport v => exact h.symm.trans hs
    | _ => cases hkind
  · cases x with
    | extImageCopyCaptureFrame f =>
      obtain ⟨-, hlink, s', d, hs', hd⟩ := h
      obtain rfl : s' = s := Option.some.inj (hs'.symm.trans (hlink.symm.trans hs))
      exact ⟨hs', _, hd, rfl⟩
    | _ => cases hkind

theorem Grown.insert {v : WpObject} (hnew : o.lookup id = none) (hv : Made m o id v.extra) :
    Grown m o (o.insert id v) := by
  have hkept : Kept o (o.insert id v) := by
    intro id' x hx
    have hid : id' ≠ id := by
      rintro rfl
      rw [extra?, hnew] at hx
      cases hx
    refine ⟨x, ?_, .refl⟩
    rw [extra?, AList.lookup_insert_ne hid]
    exact hx
  refine ⟨hkept, fun id' x' hnone hsome => ?_⟩
  by_cases hid : id' = id
  · subst hid
    have hx : v.extra = x' := by simpa [extra?] using hsome
    exact hx ▸ hv.mono .refl hkept
  · rw [extra?, AList.lookup_insert_ne hid] at hsome
    cases hnone.symm.trans hsome

theorem Grown.update {g : Globals} (hx : g.extra? id = some x) (hdev : x.Develops x') :
    Grown m g.objects (g.setExtra id x').objects where
  kept := by
    intro id' y hy
    by_cases hid : id' = id
    · subst hid
      cases hx.symm.trans hy
      exact ⟨x', g.extra?_setExtra hx, hdev⟩
    · exact ⟨y, (Globals.extra?_setExtra_ne hid).trans hy, .refl⟩
  fresh := by
    intro id' y hnone hsome
    have hid : id' ≠ id := by
      rintro rfl
      cases hx.symm.trans hnone
    cases hnone.symm.trans ((Globals.extra?_setExtra_ne hid).symm.trans hsome)

theorem grown_of_move (h : Move m c c') : Grown m c.glob.objects c'.glob.objects := by
  cases h with
  | state h =>
    rw [show _ = _ from h.objects]
    exact .refl
  | insert hid hnew ho => exact .insert hnew (made_of_newExtra ho hid)
  | update hx hev => exact .update hx (WpExtra.develops_of_evolves hev)
  | @created g out t id bufId p r sfd d d' b hid hx hp hr hd hev hnew hb hshm =>
    have hdev : WpExtra.Develops (.zwpDmabufParams p) (.zwpDmabufParams { p with dmabuf := none }) :=
      ⟨rfl, rfl, rfl, rfl, Or.inl rfl⟩
    exact (Grown.update hx hdev).trans (.insert hnew ⟨hid, nofun, nofun⟩)
  | createTable hx => exact .update (g := Globals.created _ _) hx ⟨rfl, rfl, rfl, rfl, Or.inl rfl⟩
  | sendTable hx => exact .update hx ⟨rfl, rfl, rfl, rfl, Or.inl rfl⟩
  | _ => exact .refl

theorem grown_of_moves (h : Moves m c c') : Grown m c.glob.objects c'.glob.objects := by
  induction h with
  | refl => exact .refl
  | tail _ hmove ih => exact ih.trans (grown_of_move hmove)

/-- What a message does to the objects: at most the one that it removes is gone. -/
structure Changed (m : Targets) (o o' : Objects) : Prop where
  kept : ∀ id x, o.extra? id = some x →
    (∃ x', o'.extra? id = some x' ∧ x.Develops x') ∨ o'.extra? id = none ∧ m.removed = some id
  fresh : ∀ id x', o.extra? id = none → o'.extra? id = some x' → Made m o' id x'

theorem Grown.changed (h : Grown m o o') : Changed m o o' :=
  ⟨fun id x hx => Or.inl (h.kept id x hx), h.fresh⟩

/-- An object that is still there has developed. -/
theorem Changed.developed (h : Changed m o o') (hx : o.extra? id = some x)
    (hx' : o'.extra? id = some x') : x.Develops x' := by
  obtain ⟨y, hy, hdev⟩ | ⟨hgone, -⟩ := h.kept id x hx
  · cases hx'.symm.trans hy
    exact hdev
  · cases hgone.symm.trans hx'

theorem extra?_erase (gone : ObjId) :
    extra? (o.erase gone) id = if id = gone then none else o.extra? id := by
  unfold extra?
  split
  · rename_i hid
    rw [hid, AList.lookup_erase]
    rfl
  · rename_i hid
    rw [AList.lookup_erase_ne hid]

/-- A commit takes the points off the surface, which changes no other object. -/
theorem grown_of_committed (h : Committed id c c') : Grown m c.glob.objects c'.glob.objects := by
  cases h with
  | @mk surf buf sfd d d₁ d₂ g out hsurf hbuf hr hd hev hrel =>
    change Grown m _ g.objects
    rw [hrel.objects_eq]
    exact .update hsurf ⟨rfl, rfl, rfl, rfl, Or.inl rfl⟩

theorem changed_of_processed (h : Processed m c c') : Changed m c.glob.objects c'.glob.objects := by
  cases h with
  | moves h => exact (grown_of_moves h).changed
  | commit _ h h' => exact ((grown_of_committed h).trans (grown_of_moves h')).changed
  | @erase g _ _ _ gone hgone h hplain =>
    have hgrown := grown_of_moves h
    change Changed m c.glob.objects (g.objects.erase gone)
    refine ⟨fun id x hx => ?_, fun id x' hnone hx' => ?_⟩
    · rw [extra?_erase]
      split
      · rename_i hid
        exact Or.inr ⟨rfl, hid ▸ hgone⟩
      · exact Or.inl (hgrown.kept id x hx)
    · rw [extra?_erase] at hx'
      split at hx'
      · cases hx'
      · -- only objects without extra data are new
        obtain rfl := hplain id x' hnone hx'
        exact ⟨(hgrown.fresh id _ hnone hx').id, nofun, nofun⟩

end Objects

/-! ## Runs -/

/-- All of the instance but its objects, when a message is processed. -/
structure Surroundings where
  rest : Globals
  out : Output
  transl : Transl

def Surroundings.ctx (m : Surroundings) (objects : Objects) : Ctx :=
  ⟨⟨{ m.rest with objects }, m.out⟩, m.transl⟩

/-- The objects and what identifies them. -/
structure Tracked where
  objects : Objects
  /-- How often an id has been given to an object. -/
  births : ObjId → Nat
  /-- The object that a viewport or a frame was asked for. -/
  home : ObjId → Option (ObjId × Nat)

namespace Tracked

variable (t : Tracked)

def start : Tracked where
  objects := setupObjectMap
  births := fun id => if id = 1 then 1 else 0
  home := fun _ => none

/-- What a message names. -/
def targets (e : WaylandMsg × Surroundings) : Targets := targetsOf e.1 (e.2.ctx t.objects)

/-- Whether an object with this id is new in the map. -/
def born (objects : Objects) (id : ObjId) : Bool :=
  (t.objects.lookup id).isNone && (objects.lookup id).isSome

/-- The state when the objects have become these.  The home of what is new is the object for which
the message asks, as it was before the message. -/
def next (m : Targets) (objects : Objects) : Tracked where
  objects := objects
  births := fun id => if t.born objects id then t.births id + 1 else t.births id
  home := fun id =>
    if t.born objects id then (m.surface <|> m.session).map fun s => (s, t.births s) else t.home id

/-- One message; after an error the connection is closed. -/
def step (e : WaylandMsg × Surroundings) : Option Tracked :=
  match processWayMsg sys e.1 (e.2.ctx t.objects) with
  | .ok (_, c) => some (t.next (t.targets e) c.glob.objects)
  | .error _ => none

/-- A request of a tracked object, for which there is room. -/
structure Asks (msg : WaylandMsg) (m : Surroundings) (o : WpObject) : Prop where
  object : t.objects.lookup msg.objectId = some o
  isReq : (m.ctx t.objects).isReq = true
  room : (m.ctx t.objects).hasSpace msg.length 0
  fds : m.transl.outgoing.length ≤ MAX_OUTGOING_FDS

namespace Asks

variable {t} {msg : WaylandMsg} {m : Surroundings} {o : WpObject} (h : t.Asks msg m o)

include h

theorem extra : t.objects.extra? msg.objectId = some o.extra := by
  rw [Objects.extra?, h.object]
  rfl

theorem processed {id : Nat} {meth : WaylandMethod} (hop : WaylandMsg.opcode msg = id)
    (hmeth : o.objType.method (.request id) = some meth) :
    processWayMsg sys msg (m.ctx t.objects) = handlerOf sys o.objType (.request id)
      (requestOf msg (m.ctx t.objects) meth) (m.ctx t.objects) :=
  processWayMsg_request sys h.object h.isReq h.fds hop hmeth

end Asks

variable {t}

theorem changed_of_step {e : WaylandMsg × Surroundings} {t' : Tracked} (h : t.step sys e = some t') :
    t' = t.next (t.targets e) t'.objects ∧ Objects.Changed (t.targets e) t.objects t'.objects := by
  unfold step at h
  split at h
  · rename_i p c hrun
    cases h
    exact ⟨rfl, Objects.changed_of_processed (processWayMsg_processed sys hrun)⟩
  · cases h

section Next

variable {m : Targets} {o : Objects} {id : ObjId} {x : WpExtra}

theorem not_born_of_tracked (h : t.objects.extra? id = some x) : ¬ t.born o id := by
  obtain ⟨v, hv, -⟩ := Option.map_eq_some_iff.mp h
  simp [born, hv]

theorem next_births_of_tracked (h : t.objects.extra? id = some x) :
    (t.next m o).births id = t.births id := if_neg (not_born_of_tracked h)

theorem next_births_of_gone (h : o.extra? id = none) : (t.next m o).births id = t.births id := by
  refine if_neg ?_
  rw [Objects.extra?, Option.map_eq_none_iff] at h
  simp [born, h]

theorem next_home_of_tracked (h : t.objects.extra? id = some x) :
    (t.next m o).home id = t.home id := if_neg (not_born_of_tracked h)

theorem next_home_of_new (hnone : t.objects.extra? id = none) (hx : o.extra? id = some x) :
    (t.next m o).home id = (m.surface <|> m.session).map fun s => (s, t.births s) := by
  obtain ⟨v, hv, -⟩ := Option.map_eq_some_iff.mp hx
  refine if_pos ?_
  rw [Objects.extra?, Option.map_eq_none_iff] at hnone
  simp [born, hnone, hv]

end Next

end Tracked

end Waypipe
