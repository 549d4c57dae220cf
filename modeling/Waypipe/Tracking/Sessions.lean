import Waypipe.Tracking.Viewports

/-!
# Capture sessions and their frames

A frame refers to its session by id.  A session has a list of its frames, from which
`ext_image_copy_capture_session_v1.destroy` lets them go, but `create_frame` never enters a frame
there.  As long as no session is removed before its frames, every frame refers to the session that
created it and the requests of frames find it.
-/

namespace Waypipe

open Wayland Transition Yields

variable {sys : System}

namespace Tracked

/-- The message does not remove what a frame refers to. -/
def SessionsKept (t : Tracked) (e : WaylandMsg × Surroundings) : Prop :=
  ∀ p ∈ t.objects.references WpExtra.isFrame, (t.targets e).removed ≠ some p.2

instance (t : Tracked) (e : WaylandMsg × Surroundings) : Decidable (t.SessionsKept e) :=
  inferInstanceAs (Decidable (∀ p ∈ _, _))

/-- Frames refer to the session that was asked for them, which is there. -/
def FramesIntact (t : Tracked) : Prop :=
  ∀ p ∈ t.objects.references WpExtra.isFrame, t.home p.1 = some (p.2, t.births p.2) ∧
    ∃ session, t.objects.extra? p.2 = some (.extImageCopyCaptureSession session)

theorem exists_session {x : WpExtra} (h : x.isSession = true) :
    ∃ session, x = .extImageCopyCaptureSession session := by
  cases x with
  | extImageCopyCaptureSession session => exact ⟨session, rfl⟩
  | _ => cases h

theorem frames_step {t t' : Tracked} {e : WaylandMsg × Surroundings} (hintact : t.FramesIntact)
    (hkept : t.SessionsKept e) (hstep : t.step sys e = some t') : t'.FramesIntact := by
  obtain ⟨hnext, hchanged⟩ := changed_of_step sys hstep
  rintro ⟨id, s⟩ hp
  obtain ⟨x', hx', hkind, hs⟩ := Objects.mem_references.mp hp
  cases hx : t.objects.extra? id with
  | none =>
    -- a new frame, for the session whose request made it
    obtain ⟨hmaker, y, hy, hsession⟩ := (hchanged.fresh id x' hx hx').frame hkind s hs
    obtain ⟨hsurface, hlive⟩ := targetsOf_session hmaker
    obtain ⟨v, hv⟩ := Option.isSome_iff_exists.mp hlive
    have hv : t.objects.extra? s = some v.extra := Option.map_eq_some_iff.mpr ⟨v, hv, rfl⟩
    obtain ⟨session, rfl⟩ := exists_session hsession
    refine ⟨?_, session, hy⟩
    rw [hnext, next_home_of_new hx hx', next_births_of_tracked hv, hmaker,
      show (t.targets e).surface = none from hsurface]
    rfl
  | some x =>
    have hdev := hchanged.developed hx hx'
    have hp₀ : (id, s) ∈ t.objects.references WpExtra.isFrame :=
      Objects.mem_references.mpr ⟨x, hx, hdev.frame.symm.trans hkind, hdev.link_eq hs⟩
    obtain ⟨hhome, session₀, hsession₀⟩ := hintact _ hp₀
    obtain ⟨y, hy, hdev'⟩ | ⟨-, hgone⟩ := hchanged.kept s _ hsession₀
    · obtain ⟨session, rfl⟩ := exists_session hdev'.session
      refine ⟨?_, session, hy⟩
      rw [hnext, next_home_of_tracked hx, next_births_of_tracked hsession₀]
      exact hhome
    · exact absurd hgone (hkept _ hp₀)

theorem frames_run {es : List (WaylandMsg × Surroundings)} {t : Tracked}
    (hkept : Along (step sys) SessionsKept start es) (hrun : run (step sys) start es = some t) :
    t.FramesIntact := by
  have hstart : start.FramesIntact := fun p hp => absurd hp (by decide +revert)
  exact run_invariant (P := FramesIntact) (fun t e t' => frames_step) hstart hkept hrun

end Tracked

/-! ## Requests of frames -/

/-- The message is a legal request of a frame; a buffer that is attached has to be there. -/
inductive FrameRequest (objects : Objects) (msg : WaylandMsg) : Prop
  | destroy (hop : WaylandMsg.opcode msg = 0)
  | attachBuffer {id : ObjId} {buffer : ObjWlBuffer} (hop : WaylandMsg.opcode msg = 1)
      (hargs : parseReqExtImageCopyCaptureFrameV1AttachBuffer msg = .ok id) (hid : id ≠ 0)
      (hbuffer : objects.extra? id = some (.wlBuffer buffer))
  | damageBuffer (hop : WaylandMsg.opcode msg = 2)
  | capture (hop : WaylandMsg.opcode msg = 3)

section Handlers

variable {c : Ctx} {q : Request} {frame : ObjExtImageCopyCaptureFrame}

theorem frameHasDmabuf_yields {g : Globals} {P : Bool → Globals → Prop}
    (hbuffer : ∀ b ∈ frame.buffer, ∃ sfd, g.sfds[b.1]? = some sfd) (hP : ∀ b, P b g) :
    Yields (frameHasDmabuf frame) g P := by
  unfold frameHasDmabuf
  split
  · exact pure_iff.mpr (hP false)
  · rename_i r info hb
    obtain ⟨sfd, hsfd⟩ := hbuffer _ hb
    simp only [bind_iff, yields_readSfd]
    refine ⟨sfd, hsfd, ?_⟩
    split
    · exact pure_iff.mpr (hP true)
    · exact pure_iff.mpr (hP false)

section Frame

variable (hspace : c.hasSpace q.msg.length 0)
  (hx : c.glob.extra? q.objectId = some (.extImageCopyCaptureFrame frame))
include hspace hx

theorem frameDestroy_returns (hsession : ∀ s, frame.captureSession = some s →
      ∃ session, c.glob.extra? s = some (.extImageCopyCaptureSession session)) :
    (extImageCopyCaptureFrameV1Destroy q).Returns c fun p _ => p = .done := by
  refine .needs hspace (.act ?_)
  simp only [bind_iff]
  refine yields_copyMsg hspace.1 fun out => ?_
  simp only [yields_act, yields_extraOf, yields_setExtra, Globals.extraOf_eq_ok]
  refine ⟨frame, ⟨_, hx, rfl⟩, ?_⟩
  cases hs : frame.captureSession with
  | none => exact pure_iff.mpr trivial
  | some s =>
    obtain ⟨session, hs'⟩ := hsession s hs
    have hne : s ≠ q.objectId := by
      rintro rfl
      cases hx.symm.trans hs'
    simp only [bind_iff, yields_act, yields_getGlob, yields_res, yields_setExtra,
      orPanic_eq_ok, Globals.extra?_setExtra_ne hne, hs']
    exact ⟨_, rfl, session, rfl, trivial⟩

theorem frameAttachBuffer_returns {id : ObjId} {buffer : ObjWlBuffer}
    (hargs : parseReqExtImageCopyCaptureFrameV1AttachBuffer q.msg = .ok id) (hid : id ≠ 0)
    (hbuffer : c.glob.extra? id = some (.wlBuffer buffer)) :
    (extImageCopyCaptureFrameV1AttachBuffer q).Returns c fun p _ => p = .done := by
  refine .needs hspace (.act ?_)
  simp only [bind_iff]
  refine yields_copyMsg hspace.1 fun out => yields_res.mpr ⟨id, hargs, ?_⟩
  unfold lookupCaptureBuffer
  rw [if_neg hid]
  simp only [yields_act, bind_iff, yields_getGlob, lift_iff, orErr_eq_ok,
    pure_iff, yields_extraOf, yields_setExtra, Globals.extraOf_eq_ok]
  exact ⟨_, hbuffer, buffer, rfl, frame, ⟨_, hx, rfl⟩, trivial⟩

theorem frameCapture_returns
    (hbuffer : ∀ b ∈ frame.buffer, ∃ sfd, c.glob.sfds[b.1]? = some sfd)
    (hsession : ∀ s, frame.captureSession = some s →
      ∃ session, c.glob.extra? s = some (.extImageCopyCaptureSession session)) :
    (extImageCopyCaptureFrameV1Capture q).Returns c fun p _ => p = .done := by
  refine .needs hspace (.act ?_)
  simp only [bind_iff]
  refine yields_copyMsg hspace.1 fun out => ?_
  simp only [yields_act, yields_getGlob]
  split
  · exact pure_iff.mpr trivial
  · simp only [bind_iff, yields_act, yields_extraOf, Globals.extraOf_eq_ok]
    refine ⟨frame, ⟨_, hx, rfl⟩, frameHasDmabuf_yields hbuffer fun b => ?_⟩
    split
    · exact pure_iff.mpr trivial
    · cases hs : frame.captureSession with
      | none => exact pure_iff.mpr trivial
      | some s =>
        obtain ⟨session, hs'⟩ := hsession s hs
        simp only [bind_iff, yields_act, yields_getGlob, yields_res, orPanic_eq_ok, pure_iff]
        exact ⟨_, hs', session, rfl, trivial⟩

end Frame

/-- The default handler never fails on numbers. -/
theorem default_returns (hspace : c.hasSpace q.msg.length 0)
    (hsig : ∀ op ∈ q.meth.sig, op = .int ∨ op = .uint) (hdestructor : q.meth.destructor = false) :
    (defaultProcWayMsg q).Returns c fun p _ => p = .done := by
  have hregister : ∀ (sig : List WaylandArgument) (tail : List UInt8) (g : Globals),
      (∀ op ∈ sig, op = .int ∨ op = .uint) →
        Yields (sig.foldlM (fun tail op => registerArgument op tail) tail) g fun _ g' => g' = g := by
    intro sig
    induction sig with
    | nil => exact fun tail g _ => pure_iff.mpr rfl
    | cons op sig ih =>
      intro tail g hops
      rw [List.foldlM_cons]
      refine bind_iff.mpr ?_
      rcases hops op List.mem_cons_self with rfl | rfl
      · exact pure_iff.mpr (ih _ g fun op hop => hops op (List.mem_cons_of_mem _ hop))
      · exact pure_iff.mpr (ih _ g fun op hop => hops op (List.mem_cons_of_mem _ hop))
  refine .needs hspace (.act ?_)
  unfold registerGenericNewIds processDestructor
  simp only [bind_iff, yields_act, hdestructor, Bool.false_and, Bool.false_eq_true, if_false,
    pure_iff]
  refine (hregister _ _ _ hsig).mono fun _ g hg => ?_
  subst hg
  exact yields_copyMsg hspace.1 fun out => trivial

end Handlers

theorem frameRequest_returns (sys : System) {t : Tracked} {msg : WaylandMsg} {m : Surroundings}
    {frame : ObjExtImageCopyCaptureFrame} (hmsg : FrameRequest t.objects msg)
    (hask : t.Asks msg m
      { objType := .extImageCopyCaptureFrameV1, extra := .extImageCopyCaptureFrame frame })
    (hbuffer : ∀ b ∈ frame.buffer, ∃ sfd, m.rest.sfds[b.1]? = some sfd)
    (hsession : ∀ s, frame.captureSession = some s →
      ∃ session, t.objects.extra? s = some (.extImageCopyCaptureSession session)) :
    (processWayMsg sys msg).Returns (m.ctx t.objects) fun p _ => p = .done := by
  unfold Handler.Returns
  cases hmsg with
  | destroy hop =>
    rw [hask.processed sys hop rfl]
    exact frameDestroy_returns hask.room hask.extra hsession
  | attachBuffer hop hargs hid hb =>
    rw [hask.processed sys hop rfl]
    exact frameAttachBuffer_returns hask.room hask.extra hargs hid hb
  | damageBuffer hop =>
    rw [hask.processed sys hop rfl]
    have hsig : ∀ op ∈ [WaylandArgument.int, .int, .int, .int], op = .int ∨ op = .uint := by decide
    exact default_returns (q := requestOf msg _ _) hask.room hsig rfl
  | capture hop =>
    rw [hask.processed sys hop rfl]
    exact frameCapture_returns hask.room hask.extra hbuffer hsession

/-! ## Whole runs -/

/-- As long as no message removes what a frame refers to, frames refer to the session that was asked
for them, and their requests succeed. -/
theorem frames_keep_sessions (sys : System) (es : List (WaylandMsg × Surroundings)) (t : Tracked)
    (hkept : Along (Tracked.step sys) Tracked.SessionsKept .start es)
    (hrun : run (Tracked.step sys) .start es = some t) :
    t.FramesIntact ∧ ∀ (msg : WaylandMsg) (m : Surroundings) (frame : ObjExtImageCopyCaptureFrame),
      FrameRequest t.objects msg →
      t.Asks msg m
        { objType := .extImageCopyCaptureFrameV1, extra := .extImageCopyCaptureFrame frame } →
      (∀ b ∈ frame.buffer, ∃ sfd, m.rest.sfds[b.1]? = some sfd) →
      ∃ c', processWayMsg sys msg (m.ctx t.objects) = .ok (.done, c') := by
  have hintact := Tracked.frames_run hkept hrun
  refine ⟨hintact, fun msg m frame hmsg hask hbuffer => ?_⟩
  obtain ⟨_, c', hc', rfl⟩ := frameRequest_returns sys hmsg hask hbuffer fun s hs =>
    (hintact (msg.objectId, s) (Objects.mem_references.mpr ⟨_, hask.extra, rfl, hs⟩)).2
  exact ⟨c', hc'⟩

/-- An application creates a session and a frame. -/
def sessionMsgs : List WaylandMsg :=
  [.make 1 1 (.obj 2),
    bindMsg .wlOutput 3,
    bindMsg .extOutputImageCaptureSourceManagerV1 4,
    bindMsg .extImageCopyCaptureManagerV1 5,
    .make 4 0 (.obj 6 ++ .obj 3),
    .make 5 0 (.obj 7 ++ .obj 6 ++ .u32 0),
    .make 7 0 (.obj 8)]

def frameDestroyed : WaylandMsg := .make 8 0 .empty

def sessionRun : List (WaylandMsg × Surroundings) :=
  sessionMsgs.map fun msg => (msg, plainSurroundings (.fromWayland [] []))

theorem frames_keep_sessions_created : ∃ t,
    run (Tracked.step .headless) .start sessionRun = some t ∧ t.FramesIntact ∧
      ∃ c', processWayMsg .headless frameDestroyed
        ((plainSurroundings (.fromWayland [] [])).ctx t.objects) = .ok (.done, c') := by
  obtain ⟨hrun, hkept⟩ : ((run (Tracked.step .headless) .start sessionRun).bind fun t =>
      t.objects.lookup 8).map (fun o => (o.objType, (o.extra.extImageCopyCaptureFrame?.map fun f =>
        f.buffer.isNone))) = some (.extImageCopyCaptureFrameV1, some true) ∧
        Along (Tracked.step .headless) Tracked.SessionsKept .start sessionRun := by
    decide +kernel
  obtain ⟨⟨intf, extra⟩, hobj, hkind⟩ := Option.map_eq_some_iff.mp hrun
  obtain ⟨t, ht, hobj⟩ := Option.bind_eq_some_iff.mp hobj
  obtain ⟨rfl, hkind⟩ := Prod.mk.inj hkind
  obtain ⟨frame, hframe, hnone⟩ := Option.map_eq_some_iff.mp hkind
  obtain rfl := WpExtra.extImageCopyCaptureFrame?_eq_some.mp hframe
  obtain ⟨hintact, hrequests⟩ := frames_keep_sessions .headless sessionRun t hkept ht
  have hroom : frameDestroyed.length ≤ (Output.empty BUFFER_SIZE).space := by decide
  have hbuffer : ∀ b ∈ frame.buffer, ∃ sfd, (Globals.start false .plain).sfds[b.1]? = some sfd := by
    rw [Option.isNone_iff_eq_none.mp hnone]
    exact fun b hb => by cases hb
  obtain ⟨c', hc'⟩ := hrequests frameDestroyed (plainSurroundings (.fromWayland [] [])) frame
    (.destroy (by decide)) ⟨hobj, rfl, ⟨hroom, Nat.zero_le _⟩, Nat.zero_le _⟩ hbuffer
  exact ⟨t, ht, hintact, c', hc'⟩

/-! ## A session that is removed first -/

/-- The session is destroyed before its frame, which is legal, and the compositor deletes its id. -/
def sessionEvents : List InstanceEvent :=
  [.wayRead (sessionMsgs ++ [.make 7 1 .empty]) [], .processWayland,
    .chanWrite, .chanRead (.protocol [.make 1 1 (.u32 7)]), .processChannel,
    .wayRead [frameDestroyed] []]

/-- The frame still refers to the session, and its destruction panics. -/
theorem frame_outlives_session :
    (run (Instance.step .headless .plain) (.start false .plain) sessionEvents).bind
      (fun s => s.failure .headless .plain .processWayland) = some (.panic UNWRAP_NONE) := by
  decide +kernel

end Waypipe
