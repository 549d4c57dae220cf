import Waypipe.Tracking.Identity
import Waypipe.Tracking.Waits

/-!
# Viewports and their surfaces

A `wp_viewport` refers to its surface by id.  That nothing is done when the surface is destroyed
(`wl_surface.destroy` only looks for a viewport that the surface refers to, and no surface ever
refers to one) does not matter as long as its id is not used again.  When it is, the requests of the
viewport change another surface, or fail.
-/

namespace Waypipe

open Wayland Transition Yields

variable {sys : System}

namespace Tracked

/-- A viewport is asked for a surface. -/
def ViewportsForSurfaces (t : Tracked) (e : WaylandMsg × Surroundings) : Prop :=
  ∀ s ∈ (t.targets e).surface, (t.objects.extra? s).any WpExtra.isSurface

/-- The message creates no object with an id that a viewport still refers to. -/
def ViewportIdsKept (t : Tracked) (e : WaylandMsg × Surroundings) : Prop :=
  ∀ p ∈ t.objects.references WpExtra.isViewport, (t.objects.extra? p.2).isNone →
    p.2 ∉ (t.targets e).new

instance (t : Tracked) (e : WaylandMsg × Surroundings) : Decidable (t.ViewportsForSurfaces e) :=
  inferInstanceAs (Decidable (∀ s ∈ _, _))

instance (t : Tracked) (e : WaylandMsg × Surroundings) : Decidable (t.ViewportIdsKept e) :=
  inferInstanceAs (Decidable (∀ p ∈ _, _ → _))

/-- Viewports refer to the surface that they were asked for, if to any. -/
def ViewportsIntact (t : Tracked) : Prop :=
  ∀ p ∈ t.objects.references WpExtra.isViewport, t.home p.1 = some (p.2, t.births p.2)

/-- What viewports refer to is a surface, or gone. -/
def ViewportsFit (t : Tracked) : Prop :=
  ∀ p ∈ t.objects.references WpExtra.isViewport, ∀ y, t.objects.extra? p.2 = some y →
    y.isSurface = true

theorem viewports_step {t t' : Tracked} {e : WaylandMsg × Surroundings}
    (hintact : t.ViewportsIntact) (hfit : t.ViewportsFit) (hnew : t.ViewportsForSurfaces e)
    (hkept : t.ViewportIdsKept e) (hstep : t.step sys e = some t') :
    t'.ViewportsIntact ∧ t'.ViewportsFit := by
  obtain ⟨hnext, hchanged⟩ := changed_of_step sys hstep
  have hpair : ∀ p ∈ t'.objects.references WpExtra.isViewport,
      t'.home p.1 = some (p.2, t'.births p.2) ∧
        ∀ y, t'.objects.extra? p.2 = some y → y.isSurface = true := by
    rintro ⟨id, s⟩ hp
    obtain ⟨x', hx', hkind, hs⟩ := Objects.mem_references.mp hp
    cases hx : t.objects.extra? id with
    | none =>
      -- a new viewport, for the surface that the message names
      have hsurface := (hchanged.fresh id x' hx hx').viewport hkind s hs
      obtain ⟨y₀, hy₀, hsurf⟩ := (Option.any_eq_true _ _).mp (hnew s hsurface)
      refine ⟨?_, fun y hy => (hchanged.developed hy₀ hy).surface.trans hsurf⟩
      rw [hnext, next_home_of_new hx hx', next_births_of_tracked hy₀, hsurface]
      rfl
    | some x =>
      have hdev := hchanged.developed hx hx'
      have hp₀ : (id, s) ∈ t.objects.references WpExtra.isViewport :=
        Objects.mem_references.mpr ⟨x, hx, hdev.viewport.symm.trans hkind, hdev.link_eq hs⟩
      cases hy₀ : t.objects.extra? s with
      | none =>
        -- the surface is gone, and its id is not used again
        have hgone : t'.objects.extra? s = none := by
          by_contra hne
          obtain ⟨y, hy⟩ := Option.ne_none_iff_exists'.mp hne
          exact hkept _ hp₀ (by rw [hy₀]; rfl) (hchanged.fresh s y hy₀ hy).id
        refine ⟨?_, fun y hy => by cases hgone.symm.trans hy⟩
        rw [hnext, next_home_of_tracked hx, next_births_of_gone hgone]
        exact hintact _ hp₀
      | some y₀ =>
        refine ⟨?_, fun y hy => (hchanged.developed hy₀ hy).surface.trans (hfit _ hp₀ y₀ hy₀)⟩
        rw [hnext, next_home_of_tracked hx, next_births_of_tracked hy₀]
        exact hintact _ hp₀
  exact ⟨fun p hp => (hpair p hp).1, fun p hp => (hpair p hp).2⟩

theorem viewports_run {es : List (WaylandMsg × Surroundings)} {t : Tracked}
    (hnew : Along (step sys) ViewportsForSurfaces start es)
    (hkept : Along (step sys) ViewportIdsKept start es)
    (hrun : run (step sys) start es = some t) : t.ViewportsIntact ∧ t.ViewportsFit := by
  have hstart : start.ViewportsIntact ∧ start.ViewportsFit := by
    constructor <;> exact fun p hp => absurd hp (by decide +revert)
  exact run_invariant (P := fun t => t.ViewportsIntact ∧ t.ViewportsFit)
    (fun t e t' ht hC hstep => viewports_step ht.1 ht.2 hC.1 hC.2 hstep) hstart (hnew.and hkept) hrun

end Tracked

/-! ## Requests of viewports -/

/-- The message is a request of a viewport with legal arguments. -/
inductive ViewportRequest (msg : WaylandMsg) : Prop
  | destroy (hop : WaylandMsg.opcode msg = 0)
  | setSource {x y w h : Int} (hop : WaylandMsg.opcode msg = 1)
      (hargs : parseReqWpViewportSetSource msg = .ok (x, y, w, h))
      (hlegal : (x = -256 ∧ y = -256 ∧ w = -256 ∧ h = -256) ∨ (0 ≤ x ∧ 0 ≤ y ∧ 0 < w ∧ 0 < h))
  | setDestination {w h : Int} (hop : WaylandMsg.opcode msg = 2)
      (hargs : parseReqWpViewportSetDestination msg = .ok (w, h))
      (hlegal : (w = -1 ∧ h = -1) ∨ (0 < w ∧ 0 < h))

/-- The request changes the surface that the viewport refers to, and no other. -/
theorem modifyViewportSurface_yields {c : Core} {surface : Option ObjId}
    {f : ObjWlSurface → ObjWlSurface}
    (hfit : ∀ s y, surface = some s → c.glob.extra? s = some y → y.isSurface = true) :
    Yields (modifyViewportSurface surface f) c fun _ c' =>
      ∀ id, surface ≠ some id → c'.glob.extra? id = c.glob.extra? id := by
  unfold modifyViewportSurface
  cases surface with
  | none => exact pure_iff.mpr fun _ _ => rfl
  | some s =>
    simp only [bind_iff, yields_act, yields_getGlob]
    cases hy : c.glob.extra? s with
    | none => exact pure_iff.mpr fun _ _ => rfl
    | some y =>
      have hsurf := hfit s y rfl hy
      cases y with
      | wlSurface surf =>
        simp only [bind_iff, yields_res, yields_act, yields_setExtra]
        refine ⟨surf, rfl, fun id hid => ?_⟩
        exact Globals.extra?_setExtra_ne fun h => hid (congrArg some h.symm)
      | _ => cases hsurf

/-- What a request of a viewport leaves alone: all surfaces but the one that it refers to. -/
def OtherSurfacesKept (surface : Option ObjId) (c c' : Ctx) : Prop :=
  ∀ id surf, c.glob.extra? id = some (.wlSurface surf) → surface ≠ some id →
    c'.glob.extra? id = some (.wlSurface surf)

section Handlers

variable {c : Ctx} {q : Request} {viewport : ObjWpViewport}
  (hx : c.glob.extra? q.objectId = some (.wpViewport viewport))
  (hfit : ∀ s y, viewport.wlSurface = some s → c.glob.extra? s = some y → y.isSurface = true)

include hx hfit

theorem wpViewportDestroy_returns (hspace : c.hasSpace q.msg.length 0) :
    (wpViewportDestroy q).Returns c fun p c' =>
      p = .done ∧ OtherSurfacesKept viewport.wlSurface c c' := by
  refine .needs hspace (.act ?_)
  simp only [bind_iff]
  refine yields_copyMsg hspace.1 fun out => ?_
  simp only [yields_act, yields_extraOf, yields_setExtra, Globals.extraOf_eq_ok]
  refine ⟨viewport, ⟨_, hx, rfl⟩, ?_⟩
  -- the viewport does not refer to itself
  have hself (s : ObjId) (hs : viewport.wlSurface = some s) : s ≠ q.objectId := by
    rintro rfl
    cases hfit _ _ hs hx
  refine (modifyViewportSurface_yields (c := ⟨_, out⟩) fun s y hs hy => ?_).mono fun _ c' hsame => ?_
  · rw [Globals.extra?_setExtra_ne (hself s hs)] at hy
    exact hfit s y hs hy
  · refine ⟨trivial, fun id surf hsurf hid => ?_⟩
    have hne : id ≠ q.objectId := by
      rintro rfl
      cases hx.symm.trans hsurf
    exact (hsame id hid).trans ((Globals.extra?_setExtra_ne hne).trans hsurf)

/-- What the requests that change the surface have in common. -/
theorem modifySurface_yields {out : Output} {f : ObjWlSurface → ObjWlSurface} :
    Yields (do
      let viewport ← extraOf q.objectId WpExtra.wpViewport? BAD_VIEWPORT
      modifyViewportSurface viewport.wlSurface f : Act Unit) ⟨c.glob, out⟩ fun _ core =>
        OtherSurfacesKept viewport.wlSurface c { c with core } := by
  simp only [bind_iff, yields_act, yields_extraOf, Globals.extraOf_eq_ok]
  refine ⟨viewport, ⟨_, hx, rfl⟩, ?_⟩
  refine (modifyViewportSurface_yields (c := ⟨_, out⟩) hfit).mono fun _ c' hsame => ?_
  exact fun id surf hsurf hid => (hsame id hid).trans hsurf

theorem wpViewportSetSource_returns {x y w h : Int} (hspace : c.hasSpace q.msg.length 0)
    (hargs : parseReqWpViewportSetSource q.msg = .ok (x, y, w, h))
    (hlegal : (x = -256 ∧ y = -256 ∧ w = -256 ∧ h = -256) ∨ (0 ≤ x ∧ 0 ≤ y ∧ 0 < w ∧ 0 < h)) :
    (wpViewportSetSource q).Returns c fun p c' =>
      p = .done ∧ OtherSurfacesKept viewport.wlSurface c c' := by
  refine .needs hspace (.act ?_)
  refine bind_iff.mpr (yields_copyMsg hspace.1 fun out => ?_)
  refine bind_iff.mpr (yields_res.mpr ⟨_, hargs, ?_⟩)
  dsimp only
  rw [if_neg (by simp; omega)]
  exact (modifySurface_yields hx hfit).mono fun _ _ hkept => ⟨rfl, hkept⟩

theorem wpViewportSetDestination_returns {w h : Int} (hspace : c.hasSpace q.msg.length 0)
    (hargs : parseReqWpViewportSetDestination q.msg = .ok (w, h))
    (hlegal : (w = -1 ∧ h = -1) ∨ (0 < w ∧ 0 < h)) :
    (wpViewportSetDestination q).Returns c fun p c' =>
      p = .done ∧ OtherSurfacesKept viewport.wlSurface c c' := by
  refine .needs hspace (.act ?_)
  refine bind_iff.mpr (yields_copyMsg hspace.1 fun out => ?_)
  refine bind_iff.mpr (yields_res.mpr ⟨_, hargs, ?_⟩)
  dsimp only
  rw [if_neg (by simp; omega)]
  exact (modifySurface_yields hx hfit).mono fun _ _ hkept => ⟨rfl, hkept⟩

end Handlers

theorem viewportRequest_returns (sys : System) {t : Tracked} {msg : WaylandMsg} {m : Surroundings}
    {viewport : ObjWpViewport} (hmsg : ViewportRequest msg)
    (hask : t.Asks msg m { objType := .wpViewport, extra := .wpViewport viewport })
    (hfit : ∀ s y, viewport.wlSurface = some s → t.objects.extra? s = some y → y.isSurface = true) :
    (processWayMsg sys msg).Returns (m.ctx t.objects) fun p c' =>
      p = .done ∧ OtherSurfacesKept viewport.wlSurface (m.ctx t.objects) c' := by
  unfold Handler.Returns
  cases hmsg with
  | destroy hop =>
    rw [hask.processed sys hop rfl]
    exact wpViewportDestroy_returns hask.extra hfit hask.room
  | setSource hop hargs hlegal =>
    rw [hask.processed sys hop rfl]
    exact wpViewportSetSource_returns hask.extra hfit hask.room hargs hlegal
  | setDestination hop hargs hlegal =>
    rw [hask.processed sys hop rfl]
    exact wpViewportSetDestination_returns hask.extra hfit hask.room hargs hlegal

/-! ## Whole runs -/

/-- As long as no message creates an object with an id that a viewport refers to, viewports refer to
the surface that they were asked for, and their requests succeed and change no other surface. -/
theorem viewports_keep_surfaces (sys : System) (es : List (WaylandMsg × Surroundings)) (t : Tracked)
    (hnew : Along (Tracked.step sys) Tracked.ViewportsForSurfaces .start es)
    (hkept : Along (Tracked.step sys) Tracked.ViewportIdsKept .start es)
    (hrun : run (Tracked.step sys) .start es = some t) :
    t.ViewportsIntact ∧ ∀ (msg : WaylandMsg) (m : Surroundings) (viewport : ObjWpViewport),
      ViewportRequest msg → t.Asks msg m { objType := .wpViewport, extra := .wpViewport viewport } →
      ∃ c', processWayMsg sys msg (m.ctx t.objects) = .ok (.done, c') ∧
        ∀ id surf, t.objects.extra? id = some (.wlSurface surf) →
          t.home msg.objectId ≠ some (id, t.births id) →
          c'.glob.extra? id = some (.wlSurface surf) := by
  obtain ⟨hintact, hfit⟩ := Tracked.viewports_run hnew hkept hrun
  refine ⟨hintact, fun msg m viewport hmsg hask => ?_⟩
  have href (s : ObjId) (hs : viewport.wlSurface = some s) :
      (msg.objectId, s) ∈ t.objects.references WpExtra.isViewport :=
    Objects.mem_references.mpr ⟨_, hask.extra, rfl, hs⟩
  obtain ⟨_, c', hc', rfl, hothers⟩ := viewportRequest_returns sys hmsg hask
    fun s y hs hy => hfit _ (href s hs) y hy
  refine ⟨c', hc', fun id surf hsurf hhome => hothers id surf hsurf fun hs => hhome ?_⟩
  exact hintact _ (href id hs)

/-- An application makes a surface with a viewport and destroys the surface. -/
def viewportMsgs : List WaylandMsg :=
  [.make 1 1 (.obj 2),
    bindMsg .wlCompositor 3,
    bindMsg .wpViewporter 4,
    .make 3 0 (.obj 5),
    .make 4 1 (.obj 6 ++ .obj 5),
    .make 5 0 .empty]

/-- `wl_display.delete_id` for the surface. -/
def surfaceDeleted : WaylandMsg := .make 1 1 (.u32 5)

def viewportDestroyed : WaylandMsg := .make 6 0 .empty

/-- The application side at the start of a connection, with messages in the given direction. -/
def plainSurroundings (transl : Transl) : Surroundings :=
  ⟨.start false .plain, .empty BUFFER_SIZE, transl⟩

def viewportRun : List (WaylandMsg × Surroundings) :=
  (viewportMsgs.map fun msg => (msg, plainSurroundings (.fromWayland [] []))) ++
    [(surfaceDeleted, plainSurroundings (.fromChannel [] []))]

theorem viewports_keep_surfaces_deleted : ∃ t,
    run (Tracked.step .headless) .start viewportRun = some t ∧ t.ViewportsIntact ∧
      ∃ c', processWayMsg .headless viewportDestroyed
        ((plainSurroundings (.fromWayland [] [])).ctx t.objects) = .ok (.done, c') := by
  obtain ⟨hrun, hnew, hkept⟩ : ((run (Tracked.step .headless) .start viewportRun).bind fun t =>
      t.objects.lookup 6).map (fun o => (o.objType, o.extra.isViewport)) = some (.wpViewport, true) ∧
        Along (Tracked.step .headless) Tracked.ViewportsForSurfaces .start viewportRun ∧
        Along (Tracked.step .headless) Tracked.ViewportIdsKept .start viewportRun := by
    decide +kernel
  obtain ⟨⟨intf, extra⟩, hobj, hkind⟩ := Option.map_eq_some_iff.mp hrun
  obtain ⟨t, ht, hobj⟩ := Option.bind_eq_some_iff.mp hobj
  obtain ⟨rfl, hkind⟩ := Prod.mk.inj hkind
  obtain ⟨hintact, hrequests⟩ := viewports_keep_surfaces .headless viewportRun t hnew hkept ht
  cases extra with
  | wpViewport viewport =>
    have hroom : viewportDestroyed.length ≤ (Output.empty BUFFER_SIZE).space := by decide
    obtain ⟨c', hc', _⟩ := hrequests viewportDestroyed (plainSurroundings (.fromWayland [] []))
      viewport (.destroy (by decide)) ⟨hobj, rfl, ⟨hroom, Nat.zero_le _⟩, Nat.zero_le _⟩
    exact ⟨t, ht, hintact, c', hc'⟩
  | _ => cases hkind

/-! ## An id that is used again -/

/-- The surface is deleted, and the application goes on with other objects. -/
def reuseEvents (msgs : List WaylandMsg) : List InstanceEvent :=
  [.wayRead viewportMsgs [], .processWayland, .chanWrite,
    .chanRead (.protocol [surfaceDeleted]), .processChannel, .wayRead msgs [], .processWayland,
    .chanWrite]

/-- A surface with the same id, and a viewport that scales it. -/
def newSurfaceMsgs : List WaylandMsg :=
  [.make 3 0 (.obj 5),
    .make 4 1 (.obj 7 ++ .obj 5),
    .make 7 2 (.i32 100 ++ .i32 100)]

/-- A region with the same id. -/
def newRegionMsgs : List WaylandMsg := [.make 3 1 (.obj 5)]

/-- The pending size of a surface. -/
def pendingDestination (s : Instance) (id : ObjId) : Option (Option (Int × Int)) :=
  ((s.glob.extra? id).bind WpExtra.wlSurface?).bind fun surf =>
    surf.damageHistory[0]?.map (·.attachment.viewportDst)

/-- When its viewport is destroyed, the new surface loses the size that its own viewport has set;
and when the id stands for another kind of object, the connection is closed. -/
theorem viewport_reaches_new_surface :
    (run (Instance.step .headless .plain) (.start false .plain) (reuseEvents newSurfaceMsgs)).bind
        (fun s => pendingDestination s 5) = some (some (100, 100)) ∧
      (run (Instance.step .headless .plain) (.start false .plain)
        (reuseEvents newSurfaceMsgs ++ [.wayRead [viewportDestroyed] [], .processWayland])).bind
          (fun s => pendingDestination s 5) = some none ∧
      (run (Instance.step .headless .plain) (.start false .plain)
        (reuseEvents newRegionMsgs ++ [.wayRead [viewportDestroyed] []])).bind
          (fun s => s.failure .headless .plain .processWayland) = some (.err BAD_SURFACE) := by
  decide +kernel

end Waypipe
