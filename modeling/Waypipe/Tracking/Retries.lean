import Waypipe.Tracking.Waits

/-!
# Messages that are processed again

A message for which there is not enough space, or whose files still have tasks, is processed again
later.  `Resumes` says what may have changed by then.  For most handlers nothing has happened in the
meantime, as they check before they act.  Those that act first are looked at one by one: what they
do is either undone by being done again (`Settles`), or the message is `Unrepeatable`.
-/

namespace Waypipe

open Wayland Handler

variable {g : Globals} {p : ProcMsg} {name version format : Nat}

/-! ## The next attempt -/

/-- The context with another output buffer, and other descriptors waiting to be sent. -/
def Ctx.refresh (out : Output) (outgoing : List SfdRef) (c : Ctx) : Ctx where
  core := { c.core with out }
  transl := c.transl.withOutgoing outgoing

/-- What is different at the next attempt.  After `NeedsSpace` there is enough space; after
`WaitFor` the tasks have done something to the descriptors. -/
inductive Resumes : ProcMsg → (Ctx → Ctx) → Prop
  | space {bytes fds out outgoing} (hbytes : bytes ≤ out.space)
      (hfds : outgoing.length + fds ≤ MAX_OUTGOING_FDS) :
      Resumes (.needsSpace bytes fds) (Ctx.refresh out outgoing)
  | tasks {rid out outgoing} (work : List ShadowFd → List ShadowFd)
      (hfds : outgoing.length ≤ MAX_OUTGOING_FDS) :
      Resumes (.waitFor rid) fun c =>
        (c.setGlob { c.glob with sfds := work c.glob.sfds }).refresh out outgoing

theorem Resumes.objects {f : Ctx → Ctx} (hf : Resumes p f) (c : Ctx) :
    (f c).glob.objects = c.glob.objects := by
  cases hf <;> rfl

@[simp] theorem Transl.isFromChannel_withOutgoing (t : Transl) (y : List SfdRef) :
    (t.withOutgoing y).isFromChannel = t.isFromChannel := by
  cases t <;> rfl

@[simp] theorem Transl.outgoing_withOutgoing (t : Transl) (y : List SfdRef) :
    (t.withOutgoing y).outgoing = y := by
  cases t <;> rfl

/-- The method notes the format of a modifier, or stores the announcement of the syncobj manager. -/
def Method.Unrepeatable (msg : WaylandMsg) (c : Ctx) (m : Method) : Prop :=
  (m.intf = .zwpLinuxDmabufV1 ∧ m.id = .event 1 ∧ c.glob.onDisplaySide = false) ∨
  (m.intf = .wlRegistry ∧ m.id = .event 0 ∧ c.glob.dmabufDevice.isUnknown = true ∧
    (parseEvtWlRegistryGlobal msg).map (·.2.1) = .ok WP_LINUX_DRM_SYNCOBJ_MANAGER_V1)

instance (msg : WaylandMsg) (c : Ctx) (m : Method) : Decidable (m.Unrepeatable msg c) :=
  inferInstanceAs (Decidable (_ ∨ _))

/-- The messages that are not processed as if for the first time, because of what the first attempt
has noted or stored. -/
def Unrepeatable (msg : WaylandMsg) (c : Ctx) : Prop :=
  match methodOf msg c with
  | none => False
  | some m => m.Unrepeatable msg c

instance (msg : WaylandMsg) (c : Ctx) : Decidable (Unrepeatable msg c) :=
  match h : methodOf msg c with
  | none => isFalse (by unfold Unrepeatable; rw [h]; exact id)
  | some m => decidable_of_iff (m.Unrepeatable msg c) (by unfold Unrepeatable; rw [h])

section

variable {sys : System} {q : Request} {c : Ctx}

/-! ## The handler stays the same -/

theorem methodOf_congr {msg : WaylandMsg} {s t : Ctx} (hglob : SameTypes s.glob t.glob)
    (hdir : t.transl.isFromChannel = s.transl.isFromChannel) : methodOf msg t = methodOf msg s := by
  have hreq : t.isReq = s.isReq := by
    unfold Ctx.isReq
    rw [hglob.side, hdir]
  have htypes := hglob.types msg.objectId
  unfold methodOf
  rw [hreq]
  cases hs : s.glob.objects.lookup msg.objectId with
  | none =>
    rw [hs] at htypes
    cases ht : t.glob.objects.lookup msg.objectId with
    | none => rfl
    | some o =>
      rw [ht] at htypes
      cases htypes
  | some o =>
    rw [hs] at htypes
    cases ht : t.glob.objects.lookup msg.objectId with
    | none =>
      rw [ht] at htypes
      cases htypes
    | some o' =>
      rw [ht] at htypes
      have htype : o'.objType = o.objType := Option.some.inj htypes
      simp only [Option.bind_eq_bind, Option.bind_some, htype]

theorem dispatch_congr {msg : WaylandMsg} {s t : Ctx} (hglob : SameTypes s.glob t.glob)
    (hdir : t.transl.isFromChannel = s.transl.isFromChannel) :
    dispatch sys msg t = dispatch sys msg s := by
  have hreq : t.isReq = s.isReq := by
    unfold Ctx.isReq
    rw [hglob.side, hdir]
  unfold dispatch requestOf
  rw [methodOf_congr hglob hdir, hreq, hdir]

/-- The next attempt is made by the handler of the first. -/
theorem Resumes.processWayMsg {msg : WaylandMsg} {f : Ctx → Ctx} (hf : Resumes p f) {s t : Ctx}
    (hglob : SameTypes s.glob t.glob) (hdir : t.transl.isFromChannel = s.transl.isFromChannel) :
    processWayMsg sys msg (f t) = dispatch sys msg s (f t) := by
  have hsame : SameTypes s.glob (f t).glob ∧
      (f t).transl.isFromChannel = s.transl.isFromChannel ∧
      (f t).transl.outgoing.length ≤ MAX_OUTGOING_FDS := by
    cases hf with
    | @space bytes fds out outgoing hbytes hfds =>
      refine ⟨hglob, (Transl.isFromChannel_withOutgoing _ _).trans hdir, ?_⟩
      have hlen : (t.refresh out outgoing).transl.outgoing = outgoing :=
        Transl.outgoing_withOutgoing _ _
      rw [hlen]
      omega
    | @tasks rid out outgoing work hfds =>
      refine ⟨hglob.trans (.of_eq rfl rfl), (Transl.isFromChannel_withOutgoing _ _).trans hdir, ?_⟩
      exact (congrArg List.length (Transl.outgoing_withOutgoing _ _)).trans_le hfds
  obtain ⟨htypes, hdir', hfds⟩ := hsame
  unfold Waypipe.processWayMsg
  rw [if_neg fun hlong => absurd hlong.1 (Nat.not_lt.mpr hfds), dispatch_congr htypes hdir']

/-! ## Changes that can be made again -/

/-- Making the change again does nothing. -/
def Settles (m : GlobAct Unit) : Prop := ∀ g, Post m g fun _ g' => m.run g' = .ok ((), g')

/-- A handler that first makes such a change, and then checks and acts. -/
theorem Settles.transparent {m : GlobAct Unit} {k : Handler} {n : Nat} (hm : Settles m)
    (hk : Form (fun _ => True) n false k) : Attempt.Transparent .done Resumes (Handler.first m k) := by
  refine Attempt.Transparent.first hk.stallsInPlace ?_ ?_
  · intro s t hs
    cases hrun : m.run s.glob with
    | error e =>
      rw [hrun] at hs
      cases hs
    | ok x =>
      rw [hrun] at hs
      cases hs
      show (m.run x.2).map (fun y => (s.setGlob x.2).setGlob y.2) = _
      rw [hm s.glob x.1 x.2 hrun]
      rfl
  · -- only a lack of space stops the handler, and then the tracked state stays
    intro s p t hstall hp f hf u v hu
    cases hf with
    | tasks work hfds => exact absurd trivial (hk.not_isWait s _ t trivial hstall)
    | space hbytes hfds =>
      show (m.run u.glob).map _ = _
      cases hrun : m.run u.glob with
      | error e =>
        rw [hrun] at hu
        cases hu
      | ok x =>
        rw [hrun] at hu
        cases hu
        rfl

theorem setupDeviceForGlobal_settles : Settles (setupDeviceForGlobal sys) := by
  have hstays : ∀ g : Globals, (g.dmabufDevice.isUnknown && !g.onDisplaySide) = false →
      (setupDeviceForGlobal sys).run g = .ok ((), g) := by
    intro g hg
    show (if (g.dmabufDevice.isUnknown && !g.onDisplaySide) = true then _ else _ : GlobAct Unit) g = _
    rw [hg]
    rfl
  intro g
  unfold setupDeviceForGlobal setDevice
  simp only [Post.bind_iff, post_getGlob, Post.ite_iff, Post.lift_iff, post_modifyGlob, Post.pure_iff,
    assert_eq_ok]
  refine ⟨fun _ _ _ dev _ _ hdev => hstays _ ?_, fun hg => hstays g (by simpa using hg)⟩
  simp only [Bool.not_eq_true'] at hdev
  rw [hdev]
  rfl

theorem chooseDevice_of_known {light : Bool} (h : g.dmabufDevice.isUnknown = false) :
    (chooseDevice sys light).run g = .ok ((), g) := by
  show (if g.dmabufDevice.isUnknown = true then _ else _ : GlobAct Unit) g = _
  rw [h]
  rfl

theorem completeDevice_of_complete {light : Bool}
    (h : (!light && g.dmabufDevice.isVulkanSetup) = false) :
    (completeDevice sys light).run g = .ok ((), g) := by
  show (if (!light && g.dmabufDevice.isVulkanSetup) = true then _ else _ : GlobAct Unit) g = _
  rw [h]
  rfl

theorem requireDevice_of_available (h : g.dmabufDevice.isUnavailable = false) :
    requireDevice.run g = .ok ((), g) := by
  show (if g.dmabufDevice.isUnavailable = true then _ else _ : GlobAct Unit) g = _
  rw [h]
  rfl

theorem chooseDevice_post (light : Bool) (g : Globals) :
    Post (chooseDevice sys light) g fun _ g' =>
      g'.dmabufDevice.isUnknown = false ∧ g'.onDisplaySide = g.onDisplaySide := by
  unfold chooseDevice setDevice
  simp only [Post.bind_iff, post_getGlob, Post.ite_iff, Post.lift_iff, post_modifyGlob, Post.pure_iff,
    assert_eq_ok]
  refine ⟨fun _ _ _ dev _ _ hdev => ⟨by simpa using hdev, trivial⟩, fun hg => ⟨?_, trivial⟩⟩
  simpa using hg

theorem completeDmabufSetup_complete {opts : Options} {device : Option Nat} {dev dev' : DmabufDevice}
    (h : completeDmabufSetup sys opts device dev = .ok dev') (hknown : dev.isUnknown = false) :
    dev'.isUnknown = false ∧ dev'.isVulkanSetup = false := by
  unfold completeDmabufSetup at h
  split at h
  · obtain ⟨_, _, h⟩ := Res.bind_eq_ok.mp h
    obtain ⟨_, _, h⟩ := Res.bind_eq_ok.mp h
    cases h
    exact ⟨rfl, rfl⟩
  · next hnot =>
    cases h
    refine ⟨hknown, ?_⟩
    cases dev with
    | vulkanSetup inst => exact absurd rfl (hnot inst)
    | _ => rfl

theorem completeDevice_post {light : Bool} (h : g.dmabufDevice.isUnknown = false) :
    Post (completeDevice sys light) g fun _ g' => g'.dmabufDevice.isUnknown = false ∧
      (!light && g'.dmabufDevice.isVulkanSetup) = false ∧ g'.onDisplaySide = g.onDisplaySide := by
  unfold completeDevice setDevice
  simp only [Post.bind_iff, post_getGlob, Post.ite_iff, Post.lift_iff, post_modifyGlob, Post.pure_iff]
  refine ⟨fun _ _ _ dev hdev => ?_, fun hg => ⟨h, by simpa using hg, trivial⟩⟩
  obtain ⟨hknown, hcomplete⟩ := completeDmabufSetup_complete hdev h
  exact ⟨hknown, by rw [hcomplete, Bool.and_false], trivial⟩

theorem setupDeviceForBind_settles (version : Nat) : Settles (setupDeviceForBind sys version) := by
  intro g
  have hagain : ∀ g' : Globals, g'.onDisplaySide = g.onDisplaySide →
      g'.dmabufDevice.isUnknown = false →
      (!(decide (4 ≤ version) && g.onDisplaySide) && g'.dmabufDevice.isVulkanSetup) = false →
      g'.dmabufDevice.isUnavailable = false →
      (setupDeviceForBind sys version).run g' = .ok ((), g') := by
    intro g' hside hknown hcomplete havailable
    rw [← hside] at hcomplete
    refine StateT.run_bind_eq_ok.mpr ⟨g', g', rfl, ?_⟩
    refine StateT.run_bind_eq_ok.mpr ⟨(), g', chooseDevice_of_known hknown, ?_⟩
    refine StateT.run_bind_eq_ok.mpr ⟨(), g', completeDevice_of_complete hcomplete, ?_⟩
    exact requireDevice_of_available havailable
  unfold setupDeviceForBind
  simp only [Post.bind_iff, post_getGlob]
  refine (chooseDevice_post _ g).mono fun _ g₁ h₁ => ?_
  refine (completeDevice_post h₁.1).mono fun _ g₂ h₂ => ?_
  unfold requireDevice
  simp only [Post.bind_iff, post_getGlob, Post.ite_iff, Post.lift_iff, fail_eq_ok, Post.pure_iff]
  refine ⟨fun _ _ h => h.elim, fun havailable => ?_⟩
  exact hagain g₂ (h₂.2.2.trans h₁.2) h₂.1 h₂.2.1 (by simpa using havailable)

theorem checkCaptureDevice_ready {mainDevice : Nat} (h : checkCaptureDevice g mainDevice = .ok ()) :
    g.dmabufDevice.isReady = true := by
  unfold checkCaptureDevice at h
  split at h
  · cases h
  · obtain ⟨id, hid, _⟩ := Res.bind_eq_ok.mp h
    unfold dmabufDevGetId at hid
    split at hid
    · next hdev => rw [hdev]; rfl
    · next hdev => rw [hdev]; rfl
    · cases hid

theorem setupCaptureDevice_of_ready {mainDevice : Nat} (h : g.dmabufDevice.isReady = true) :
    (setupCaptureDevice sys mainDevice).run g = .ok ((), g) := by
  obtain ⟨_, _, _, _, _, _, dev, _⟩ := g
  cases dev with
  | vulkan _ _ => rfl
  | gbm _ => rfl
  | _ => cases h

/-- Setting up a device changes nothing else. -/
theorem setupCaptureDevice_post {mainDevice : Nat} :
    Post (setupCaptureDevice sys mainDevice) g fun _ g' => g'.objects = g.objects := by
  unfold setupCaptureDevice
  simp only [Post.bind_iff, post_getGlob]
  split
  · simp only [Post.bind_iff, Post.lift_iff, post_modifyGlob]
    exact fun _ _ _ _ => trivial
  · simp only [Post.bind_iff, Post.lift_iff, post_modifyGlob]
    exact fun _ _ _ _ => trivial
  · exact Post.pure_iff.mpr rfl

theorem extraOf_run {α : Type} {id : ObjId} {kind : WpExtra → Option α} {msg : String} {x : WpExtra}
    {a : α} (hx : g.extra? id = some x) (ha : kind x = some a) :
    (extraOf id kind msg).run g = .ok (a, g) :=
  StateT.run_bind_eq_ok.mpr ⟨g, g, rfl,
    StateT.run_lift_eq_ok.mpr ⟨Globals.extraOf_eq_ok.mpr ⟨x, hx, ha⟩, rfl⟩⟩

theorem prepareCapture_settles : Settles (prepareCapture sys q) := by
  intro g
  have hagain : ∀ (g' : Globals) (session : ObjExtImageCopyCaptureSession),
      g'.extra? q.objectId = some (.extImageCopyCaptureSession session) →
      (∀ mainDevice, session.dmabufDevice = some mainDevice →
        checkCaptureDevice g' mainDevice = .ok ()) →
      (prepareCapture sys q).run g' = .ok ((), g') := by
    intro g' session hsession hcheck
    refine StateT.run_bind_eq_ok.mpr ⟨session, g', extraOf_run hsession rfl, ?_⟩
    split
    · rfl
    · next mainDevice hdevice =>
      have hcheck := hcheck mainDevice hdevice
      refine StateT.run_bind_eq_ok.mpr
        ⟨(), g', setupCaptureDevice_of_ready (checkCaptureDevice_ready hcheck), ?_⟩
      exact StateT.run_bind_eq_ok.mpr ⟨g', g', rfl, StateT.run_lift_eq_ok.mpr ⟨hcheck, rfl⟩⟩
  unfold prepareCapture
  simp only [Post.bind_iff, post_extraOf, WpExtra.extImageCopyCaptureSession?_eq_some]
  rintro _ session rfl hsession
  split
  · next hnone =>
    refine Post.pure_iff.mpr (hagain g session hsession fun mainDevice hdevice => ?_)
    rw [hnone] at hdevice
    cases hdevice
  · next mainDevice hdevice =>
    refine Post.bind_iff.mpr (setupCaptureDevice_post.mono fun _ g' hobjects => ?_)
    simp only [Post.bind_iff, post_getGlob, Post.lift_iff]
    intro _ hcheck
    refine hagain g' session ?_ fun mainDevice' hdevice' => ?_
    · unfold Globals.extra?
      rw [hobjects]
      exact hsession
    · cases hdevice.symm.trans hdevice'
      exact hcheck

theorem processFeedback_of_processed {feedback : ObjZwpLinuxDmabufFeedback}
    (hx : g.extra? q.objectId = some (.zwpDmabufFeedback feedback))
    (hprocessed : feedback.processed = true) : (processFeedback sys q).run g = .ok ((), g) := by
  refine StateT.run_bind_eq_ok.mpr ⟨feedback, g, extraOf_run hx rfl, ?_⟩
  rw [if_pos hprocessed]
  rfl

theorem queueFormatTable_post {x : WpExtra} {feedback : ObjZwpLinuxDmabufFeedback}
    {table : List UInt8} (hx : g.extra? q.objectId = some x) :
    Post (queueFormatTable sys q feedback table) g fun _ g' => ∃ feedback',
      g'.extra? q.objectId = some (.zwpDmabufFeedback feedback') ∧
        feedback'.processed = feedback.processed := by
  unfold queueFormatTable
  refine Post.ite_iff.mpr ⟨fun _ => ?_, fun _ => ?_⟩
  · exact post_setExtra.mpr ⟨feedback, Globals.extra?_setExtra g hx, rfl⟩
  · refine Post.bind_iff.mpr fun sfd g' hrun => ?_
    obtain ⟨y, hy⟩ : ∃ y, g'.extra? q.objectId = some y := by
      have htypes := (KeepsTypes.newFormatTable sys table g sfd g' hrun).types q.objectId
      unfold Globals.extra? at hx ⊢
      cases ho : g'.objects.lookup q.objectId with
      | some o => exact ⟨_, rfl⟩
      | none =>
        rw [ho] at htypes
        cases ho' : g.objects.lookup q.objectId with
        | some o =>
          rw [ho'] at htypes
          cases htypes
        | none =>
          rw [ho'] at hx
          cases hx
    exact post_setExtra.mpr ⟨_, Globals.extra?_setExtra g' hy, rfl⟩

theorem processFeedback_settles : Settles (processFeedback sys q) := by
  intro g
  have hpost : Post (processFeedback sys q) g fun _ g' => ∃ feedback,
      g'.extra? q.objectId = some (.zwpDmabufFeedback feedback) ∧ feedback.processed = true := by
    unfold processFeedback
    simp only [Post.bind_iff, post_extraOf, WpExtra.zwpDmabufFeedback?_eq_some]
    rintro _ feedback rfl hx
    refine Post.ite_iff.mpr ⟨fun hprocessed => Post.pure_iff.mpr ⟨feedback, hx, hprocessed⟩, fun _ => ?_⟩
    simp only [Post.bind_iff, post_getGlob, Post.lift_iff]
    exact fun _ _ _ _ => queueFormatTable_post hx
  refine hpost.mono ?_
  rintro _ g' ⟨_, hx, hprocessed⟩
  exact processFeedback_of_processed hx hprocessed

/-! ## Handlers that act before they check -/

theorem globalDmabuf_transparent (name version : Nat) :
    Attempt.Transparent .done Resumes (globalDmabuf sys q name version) := by
  refine setupDeviceForGlobal_settles.transparent (n := 0) (.looking fun unavailable => ?_)
  split
  · exact .drop
  · exact .looking fun _ => .simple

theorem wlRegistryBind_transparent : Attempt.Transparent .done Resumes (wlRegistryBind sys q) := by
  intro s
  refine .of_const fun (_, name, version, oid) _ => ?_
  dsimp only
  split
  · exact (setupDeviceForBind_settles version).transparent (n := 0) .simple s
  · have hform : Form (fun _ => True) 0 false (defaultProcWayMsg q) := .simple
    exact hform.stallsInPlace.transparent s

theorem zwpLinuxDmabufFeedbackV1Done_transparent :
    Attempt.Transparent .done Resumes (zwpLinuxDmabufFeedbackV1Done sys q) :=
  processFeedback_settles.transparent (n := 0)
    (.looking fun _ => .needs (Pops.form (writeFeedback_pops q _)))

theorem extImageCopyCaptureSessionV1Done_transparent :
    Attempt.Transparent .done Resumes (extImageCopyCaptureSessionV1Done sys q) :=
  prepareCapture_settles.transparent (n := 0) (.looking fun _ => .looking fun _ => .simple)

/-- On the display side the modifier is only passed on. -/
theorem zwpLinuxDmabufV1Modifier_transparentAt (hside : c.glob.onDisplaySide = true) :
    Attempt.TransparentAt .done Resumes (zwpLinuxDmabufV1Modifier q) c := by
  refine .of_const fun (format, modHi, modLo) _ => .of_eq fun p t hst hp => ?_
  obtain ⟨side, hlook, hst⟩ := looking_eq_ok.mp hst
  cases hlook
  rw [if_pos hside] at hst
  have hform : Form (fun _ => True) 0 false
      (modifierOnDisplaySide q format (joinU64 modHi modLo)) := by
    refine .looking fun supported => ?_
    split
    · exact .simple
    · exact .drop
  exact hform.stallsInPlace c p t hst hp

/-- With a device, the syncobj manager is passed on or dropped at once. -/
theorem globalSyncobjManager_transparentAt (hknown : c.glob.dmabufDevice.isUnknown = false) :
    Attempt.TransparentAt .done Resumes (globalSyncobjManager sys q name version) c := by
  refine .of_eq fun p t hst hp => ?_
  obtain ⟨unknown, hlook, hst⟩ := looking_eq_ok.mp hst
  cases hlook
  rw [if_neg (by simp [hknown])] at hst
  have hform : Form (fun _ => True) 0 false (.looking (fun c => timelinesUsable sys c.glob)
      fun usable => if usable then forwardGlobal q name WP_LINUX_DRM_SYNCOBJ_MANAGER_V1 version
        else .drop) := by
    refine .looking fun usable => ?_
    split
    · exact .simple
    · exact .drop
  exact hform.stallsInPlace c p t hst hp

theorem wlRegistryGlobal_transparentAt (h : ¬ (c.glob.dmabufDevice.isUnknown = true ∧
      (parseEvtWlRegistryGlobal q.msg).map (·.2.1) = .ok WP_LINUX_DRM_SYNCOBJ_MANAGER_V1)) :
    Attempt.TransparentAt .done Resumes (wlRegistryGlobal sys q) c := by
  refine .of_const fun (name, intf, version) hparse => ?_
  have hsimple : ∀ {k : Handler}, Form (fun _ => True) 0 false k →
      Attempt.TransparentAt .done Resumes k c := fun hk => hk.stallsInPlace.transparent c
  dsimp only
  split
  · exact hsimple .drop
  split
  · exact globalDmabuf_transparent _ _ c
  split
  · next hintf =>
    refine globalSyncobjManager_transparentAt ?_
    rw [hparse, hintf] at h
    simpa [Except.map] using h
  · exact hsimple .simple

theorem Handler.looking_of {α : Type} {r : Look α} {k : α → Handler} {a : α} (h : r.run c = .ok a) :
    Handler.looking r k c = k a c := by
  unfold Handler.looking Attempt.reading
  rw [show r c = .ok a from h]

theorem Handler.parsing_of {α : Type} {x : Res α} {k : α → Handler} {a : α} (h : x = .ok a) :
    Handler.parsing x k c = k a c := by
  unfold Handler.parsing Attempt.reading
  rw [h]

theorem Handler.first_of {m : GlobAct Unit} {k : Handler} (h : m.run c.glob = .ok ((), g)) :
    Handler.first m k c = k (c.setGlob g) := by
  unfold Handler.first Attempt.first
  dsimp only
  rw [h]
  rfl

theorem lookFrontDmabuf_of {r : SfdRef} {sfds fds : List SfdRef} {s : ShadowFd}
    {data : ShadowFdDmabuf} (htransl : c.transl = .fromChannel (r :: sfds) fds)
    (hs : c.glob.sfds[r]? = some s) (hdata : s.data = .dmabuf data) :
    lookFrontDmabuf.run c = .ok (r, data) := by
  show lookFrontDmabuf c = _
  unfold lookFrontDmabuf
  rw [htransl]
  refine Res.bind_eq_ok.mpr ⟨s, orPanic_eq_ok.mpr hs, ?_⟩
  rw [hdata]
  rfl

theorem putSfdData_run {r : SfdRef} {s : ShadowFd} {data : ShadowFdVariant}
    (hs : g.sfds[r]? = some s) :
    (putSfdData r data).run g = .ok ((), g.setSfd r { s with data }) := by
  refine StateT.run_bind_eq_ok.mpr ⟨s, g, ?_, rfl⟩
  exact StateT.run_bind_eq_ok.mpr ⟨g, g, rfl,
    StateT.run_lift_eq_ok.mpr ⟨orPanic_eq_ok.mpr hs, rfl⟩⟩

/-- A DMABUF from the channel takes the id of the buffer at every attempt. -/
theorem createImmedFromChannel_transparent (bufferId : ObjId) :
    Attempt.Transparent .done Resumes (Handler.looking lookFrontDmabuf fun (sfd, data) =>
      .first (putSfdData sfd (.dmabuf { data with debugWaylandId := bufferId })) <|
      createFromChannel q data fun sfd => insertDmabufBuffer bufferId sfd) := by
  intro c p c' hst hp f hf
  obtain ⟨⟨r, data⟩, hlook, hst⟩ := looking_eq_ok.mp hst
  obtain ⟨g, hput, hst⟩ := first_eq_ok.mp hst
  have hform : Form (fun _ => True) 0 false (createFromChannel q data fun sfd =>
      insertDmabufBuffer bufferId sfd) := createFromChannel_form q _ _
  cases hform.stallsInPlace _ p c' hst hp
  cases hf with
  | tasks work hfds => exact absurd trivial (hform.not_isWait _ _ _ trivial hst)
  | @space bytes fds out outgoing hbytes hfds =>
    obtain ⟨sfds, fds', s, htransl, hs, hdata⟩ := lookFrontDmabuf_front hlook
    have hr : r < c.glob.sfds.length := (List.getElem?_eq_some_iff.mp hs).1
    have hg : g = c.glob.setSfd r
        { s with data := .dmabuf { data with debugWaylandId := bufferId } } :=
      (Prod.mk.inj (Except.ok.inj (hput.symm.trans (putSfdData_run hs)))).2
    have hs' : g.sfds[r]? =
        some { s with data := .dmabuf { data with debugWaylandId := bufferId } } := by
      rw [hg]
      exact List.getElem?_set_self hr
    have htransl' : (c.refresh out outgoing).transl = .fromChannel (r :: sfds) outgoing := by
      show c.transl.withOutgoing outgoing = _
      rw [htransl]
      rfl
    -- putting the same data once more changes nothing
    have hagain : (putSfdData r (.dmabuf { data with debugWaylandId := bufferId })).run g =
        .ok ((), g) := by
      rw [putSfdData_run hs']
      refine congrArg (fun l => Except.ok ((), ({ g with sfds := l } : Globals))) ?_
      obtain ⟨hr', hget⟩ := List.getElem?_eq_some_iff.mp hs'
      rw [← hget]
      exact List.set_getElem_self hr'
    have hfresh : lookFrontDmabuf.run (c.refresh out outgoing) = .ok (r, data) :=
      lookFrontDmabuf_of htransl' hs hdata
    have hretry : lookFrontDmabuf.run ((c.setGlob g).refresh out outgoing) =
        .ok (r, { data with debugWaylandId := bufferId }) := lookFrontDmabuf_of htransl' hs' rfl
    exact ((looking_of hretry).trans (first_of hagain)).trans
      ((looking_of hfresh).trans (first_of (c := c.refresh out outgoing) hput)).symm

/-- The id of the buffer is all that is left of a failed attempt. -/
theorem createImmedFromChannel_objects {bufferId : ObjId} {c c' : Ctx}
    (hst : (Handler.looking lookFrontDmabuf fun (sfd, data) =>
      .first (putSfdData sfd (.dmabuf { data with debugWaylandId := bufferId })) <|
      createFromChannel q data fun sfd => insertDmabufBuffer bufferId sfd) c = .ok (p, c'))
    (hp : p ≠ .done) : c'.glob.objects = c.glob.objects := by
  obtain ⟨⟨r, data⟩, hlook, hst⟩ := looking_eq_ok.mp hst
  obtain ⟨g, hput, hst⟩ := first_eq_ok.mp hst
  have hform : Form (fun _ => True) 0 false (createFromChannel q data fun sfd =>
      insertDmabufBuffer bufferId sfd) := createFromChannel_form q _ _
  cases hform.stallsInPlace _ p c' hst hp
  obtain ⟨_, _, s, _, hs, _⟩ := lookFrontDmabuf_front hlook
  rw [putSfdData_run hs] at hput
  cases hput
  rfl

theorem zwpLinuxBufferParamsV1CreateImmed_transparent :
    Attempt.Transparent .done Resumes (zwpLinuxBufferParamsV1CreateImmed sys q) := by
  intro c p c' hst hp f hf
  obtain ⟨params, hparams, hst'⟩ := looking_eq_ok.mp hst
  obtain ⟨⟨bufferId, width, height, drmFormat, flags⟩, hparse, hst'⟩ := parsing_eq_ok.mp hst'
  dsimp only at hst'
  split at hst'
  · next hfrom =>
    have hlook : ∀ t : Ctx, t.glob.objects = c.glob.objects →
        (lookExtra q.objectId WpExtra.zwpDmabufParams? INCORRECT_EXTRA).run (f t) = .ok params := by
      intro t ht
      rw [← hparams]
      show (f t).glob.extraOf _ _ _ = c.glob.extraOf _ _ _
      unfold Globals.extraOf Globals.extra?
      rw [hf.objects, ht]
    have hstart : ∀ t : Ctx, t.glob.objects = c.glob.objects →
        zwpLinuxBufferParamsV1CreateImmed sys q (f t) = (Handler.looking lookFrontDmabuf
          fun (sfd, data) =>
            .first (putSfdData sfd (.dmabuf { data with debugWaylandId := bufferId })) <|
            createFromChannel q data fun sfd => insertDmabufBuffer bufferId sfd) (f t) := by
      intro t ht
      refine (looking_of (hlook t ht)).trans ((parsing_of hparse).trans ?_)
      dsimp only
      rw [if_pos hfrom]
    rw [hstart c rfl, hstart c' (createImmedFromChannel_objects hst' hp)]
    exact createImmedFromChannel_transparent bufferId c p c' hst' hp f hf
  · have hform : Form (fun _ => True) 0 false (createFromWayland sys q params width height drmFormat
      bufferId (writeReqZwpLinuxBufferParamsV1CreateImmed q.objectId bufferId width height drmFormat
        flags)
      fun sfd => insertDmabufBuffer bufferId sfd) := createFromWayland_form sys q _ _ _ _ _ _ _
    rw [hform.stallsInPlace c p c' hst' hp]

/-- A handler that is not one of the two. -/
theorem handlerOf_transparentAt {intf : WaylandInterface} {id : MethodId}
    (hq : q.isReq = id.isRequest)
    (hmodifier : ¬ (intf = .zwpLinuxDmabufV1 ∧ id = .event 1 ∧ c.glob.onDisplaySide = false))
    (hglobal : ¬ (intf = .wlRegistry ∧ id = .event 0 ∧ c.glob.dmabufDevice.isUnknown = true ∧
      (parseEvtWlRegistryGlobal q.msg).map (·.2.1) = .ok WP_LINUX_DRM_SYNCOBJ_MANAGER_V1)) :
    Attempt.TransparentAt .done Resumes (handlerOf sys intf id q) c := by
  have hform := handlerOf_form sys q intf id hq
  cases hearly : earlyMethods.contains (intf, id) with
  | false =>
    rw [hearly] at hform
    exact hform.stallsInPlace.transparent c
  | true =>
    simp only [earlyMethods, List.contains_eq_mem, List.mem_cons, Prod.mk.injEq, List.not_mem_nil,
      or_false, decide_eq_true_eq] at hearly
    rcases hearly with ⟨rfl, rfl⟩ | ⟨rfl, rfl⟩ | ⟨rfl, rfl⟩ | ⟨rfl, rfl⟩ | ⟨rfl, rfl⟩ | ⟨rfl, rfl⟩
    · refine zwpLinuxDmabufV1Modifier_transparentAt ?_
      simpa using hmodifier
    · exact zwpLinuxBufferParamsV1CreateImmed_transparent c
    · exact zwpLinuxDmabufFeedbackV1Done_transparent c
    · exact extImageCopyCaptureSessionV1Done_transparent c
    · refine wlRegistryGlobal_transparentAt fun h => hglobal ⟨rfl, rfl, h⟩
    · exact wlRegistryBind_transparent c

/-! ## The two that are not repeated -/

/-- Every modifier takes up space. -/
theorem writeModifiers_grows {mods : List Nat} (hmods : mods ≠ []) (core : Core) :
    Post (writeModifiers q format mods) core fun _ core' =>
      core.out.data.length < core'.out.data.length := by
  have hemit : ∀ (m : Nat) (core₁ : Core), Post (emitMsg (writeEvtZwpLinuxDmabufV1Modifier q.objectId
      format (splitU64 m).1 (splitU64 m).2)) core₁ fun _ core₂ =>
        core₁.out.data.length < core₂.out.data.length := by
    intro m core₁
    refine post_emitMsg.mpr fun w hw out hout => ?_
    have hlen := writeMsg_eq_ok hw
    rw [Output.write_data hout, List.length_append]
    omega
  unfold writeModifiers
  cases mods with
  | nil => exact absurd rfl hmods
  | cons m ms =>
    refine Post.bind_iff.mpr ((hemit m core).mono fun _ core₁ h₁ => ?_)
    exact Post.forM (I := fun core' => core.out.data.length < core'.out.data.length)
      (fun m' _ core₂ h₂ => (hemit m' core₂).mono fun _ core₃ h₃ => Nat.lt_trans h₂ h₃) h₁

/-- The handler on the application side, once the message is parsed. -/
theorem zwpLinuxDmabufV1Modifier_of {modHi modLo : Nat}
    (hparse : parseEvtZwpLinuxDmabufV1Modifier q.msg = .ok (format, modHi, modLo))
    (hside : c.glob.onDisplaySide = false) :
    zwpLinuxDmabufV1Modifier q c = modifierOnApplicationSide q format c := by
  refine (parsing_of hparse).trans ?_
  have hlook : ReaderT.run (fun c => .ok c.glob.onDisplaySide : Look Bool) c = .ok false :=
    congrArg Except.ok hside
  exact looking_of hlook

theorem markFormatSeen_run {id : ObjId} {d : ObjZwpLinuxDmabuf} :
    (markFormatSeen id d format).run g =
      .ok ((), g.setExtra id (.zwpDmabuf { d with formatsSeen := d.formatsSeen ++ [format] })) := rfl

/-- A format that is new is announced with all its modifiers, if it has any. -/
theorem modifierOnApplicationSide_grows {d : ObjZwpLinuxDmabuf} {mods : List Nat}
    (hd : c.glob.extra? q.objectId = some (.zwpDmabuf d)) (hnew : format ∉ d.formatsSeen)
    (hmods : dmabufDevModifierList c.glob.dmabufDevice format = .ok mods) (hsome : mods ≠ []) :
    (modifierOnApplicationSide q format).Ensures c fun p c' =>
      p = .done → c.core.out.data.length < c'.core.out.data.length := by
  unfold modifierOnApplicationSide
  simp only [Ensures.looking_iff, lookExtra_eq_ok, WpExtra.zwpDmabuf?_eq_some]
  rintro d' ⟨_, hx, rfl⟩
  cases hd.symm.trans hx
  rw [if_neg (by simpa using hnew), Ensures.first_iff]
  intro _ g hg
  cases markFormatSeen_run.symm.trans hg
  simp only [Ensures.looking_iff, Ensures.needs_iff, Ensures.act_iff]
  intro mods' hmods'
  have hsame : mods' = mods := by
    change dmabufDevModifierList (c.glob.setExtra _ _).dmabufDevice format = .ok mods' at hmods'
    rw [Globals.setExtra_eq] at hmods'
    exact Except.ok.inj (hmods'.symm.trans hmods)
  subst hsame
  refine ⟨fun _ => ?_, fun _ h => by cases h⟩
  simp only [advertise, Post.bind_iff, post_act, post_modifyGlob]
  exact (writeModifiers_grows hsome _).mono fun _ _ h _ => h

/-- The format of a modifier that did not fit has been seen when the event is processed again, and
the event is dropped. -/
theorem zwpLinuxDmabufV1Modifier_lost {c' : Ctx} (hst : zwpLinuxDmabufV1Modifier q c = .ok (p, c'))
    (hp : p ≠ .done) (hside : c.glob.onDisplaySide = false) :
    ∃ f, Resumes p f ∧ zwpLinuxDmabufV1Modifier q (f c') ≠ zwpLinuxDmabufV1Modifier q (f c) := by
  obtain ⟨⟨format, modHi, modLo⟩, hparse, _⟩ := parsing_eq_ok.mp hst
  rw [zwpLinuxDmabufV1Modifier_of hparse hside] at hst
  obtain ⟨d, hlook, hst⟩ := looking_eq_ok.mp hst
  have hd : c.glob.extra? q.objectId = some (.zwpDmabuf d) := by simpa using hlook
  split at hst
  · cases hst
    exact absurd rfl hp
  · next hnew =>
    have hnew : format ∉ d.formatsSeen := by simpa using hnew
    obtain ⟨g, hg, hst⟩ := first_eq_ok.mp hst
    cases markFormatSeen_run.symm.trans hg
    obtain ⟨mods, hmods, hst⟩ := looking_eq_ok.mp hst
    rcases needs_eq_ok.mp hst with ⟨_, hst⟩ | ⟨hfull, hx⟩
    · obtain ⟨_, _, hx⟩ := act_eq_ok.mp hst
      cases hx
      exact absurd rfl hp
    · cases hx
      have hsome : mods ≠ [] := by
        rintro rfl
        exact hfull ⟨by simp, Nat.zero_le _⟩
      have hmods : dmabufDevModifierList c.glob.dmabufDevice format = .ok mods := by
        change dmabufDevModifierList (c.glob.setExtra _ _).dmabufDevice format = .ok mods at hmods
        rw [Globals.setExtra_eq] at hmods
        exact hmods
      let f := Ctx.refresh (.empty (mods.length * lengthEvtZwpLinuxDmabufV1Modifier)) []
      refine ⟨f, .space (Nat.le_refl _) (Nat.zero_le _), fun heq => ?_⟩
      -- the second attempt writes nothing, and the first would have
      let g := c.glob.setExtra q.objectId
        (.zwpDmabuf { d with formatsSeen := d.formatsSeen ++ [format] })
      have hside' : g.onDisplaySide = false := by
        show (c.glob.setExtra _ _).onDisplaySide = false
        rw [Globals.setExtra_eq]
        exact hside
      have hretry : zwpLinuxDmabufV1Modifier q (f (c.setGlob g)) = .ok (.done, f (c.setGlob g)) := by
        rw [zwpLinuxDmabufV1Modifier_of (c := f (c.setGlob g)) hparse hside']
        have hseen : (f (c.setGlob g)).glob.extra? q.objectId =
            some (.zwpDmabuf { d with formatsSeen := d.formatsSeen ++ [format] }) :=
          Globals.extra?_setExtra c.glob hd
        have hlook : (lookExtra q.objectId WpExtra.zwpDmabuf? UNEXPECTED_METHOD).run
            (f (c.setGlob g)) = .ok { d with formatsSeen := d.formatsSeen ++ [format] } :=
          lookExtra_eq_ok.mpr ⟨_, hseen, rfl⟩
        refine (looking_of hlook).trans ?_
        rw [if_pos (by simp)]
        rfl
      rw [hretry, zwpLinuxDmabufV1Modifier_of (c := f c) hparse hside] at heq
      exact absurd (modifierOnApplicationSide_grows (c := f c) hd hnew hmods hsome _ _ heq.symm rfl)
        (Nat.lt_irrefl 0)

/-- The registry with an announcement more. -/
def ObjWlRegistry.store (reg : ObjWlRegistry) (name version : Nat) : ObjWlRegistry :=
  { reg with syncobjManagerReplay := reg.syncobjManagerReplay ++ [(name, version)] }

theorem storeSyncobjManager_run {reg : ObjWlRegistry}
    (hx : g.extra? q.objectId = some (.wlRegistry reg)) :
    (storeSyncobjManager q name version).run g =
      .ok ((), g.setExtra q.objectId (.wlRegistry (reg.store name version))) :=
  StateT.run_bind_eq_ok.mpr ⟨reg, g, extraOf_run hx rfl, rfl⟩

theorem storeSyncobjManager_registry {g' : Globals}
    (h : (storeSyncobjManager q name version).run g = .ok ((), g')) :
    ∃ reg, g.extra? q.objectId = some (.wlRegistry reg) := by
  have hpost : Post (storeSyncobjManager q name version) g fun _ _ =>
      ∃ reg, g.extra? q.objectId = some (.wlRegistry reg) := by
    unfold storeSyncobjManager
    simp only [Post.bind_iff, post_extraOf, WpExtra.registryData?_eq_some, post_setExtra]
    rintro _ reg rfl hreg
    exact ⟨reg, hreg⟩
  exact hpost () g' h

/-- An announcement of the syncobj manager fits into a buffer of the usual size. -/
theorem forwardGlobal_syncobj_returns (name version : Nat) (hspace : c.hasSpace q.msg.length 0)
    (hroom : BUFFER_SIZE ≤ c.core.out.space) :
    ∃ out, forwardGlobal q name WP_LINUX_DRM_SYNCOBJ_MANAGER_V1 version c =
      .ok (.done, { c with core := { c.core with out } }) := by
  obtain ⟨w, hw⟩ : ∃ w, writeEvtWlRegistryGlobal q.objectId name WP_LINUX_DRM_SYNCOBJ_MANAGER_V1
      version = .ok w := writeMsg_isOk false _ (by decide +kernel) (by decide)
  have hlen : w.bytes.length ≤ BUFFER_SIZE := by
    rw [writeMsg_eq_ok hw]
    simp only [Words.bytes_append, Words.u32, Words.string, List.length_append, length_writeU32,
      length_writeString]
    decide +kernel
  have hfits : c.core.out.data.length + w.bytes.length ≤ c.core.out.capacity := by
    have hspace : c.core.out.space = c.core.out.capacity - c.core.out.data.length := rfl
    have hdata := c.core.out.fits
    omega
  obtain ⟨out, hout⟩ : ∃ out, c.core.out.write w = .ok out := by
    unfold Output.write
    rw [dif_pos hfits]
    exact ⟨_, rfl⟩
  have hrun : (emitMsg (writeEvtWlRegistryGlobal q.objectId name WP_LINUX_DRM_SYNCOBJ_MANAGER_V1
      version)).run c.core = .ok ((), { c.core with out }) := by
    rw [hw]
    have hyields : Yields (emitMsg (.ok w)) c.core fun _ core => core = { c.core with out } := by
      unfold emitMsg emit
      simp only [Yields.bind_iff, Yields.get_iff, yields_res, Yields.set_iff]
      exact ⟨w, rfl, out, hout, rfl⟩
    obtain ⟨_, core, hrun, rfl⟩ := hyields
    exact hrun
  exact ⟨out, needs_eq_ok.mpr (.inl ⟨hspace, act_eq_ok.mpr ⟨_, hrun, rfl⟩⟩)⟩

theorem storeAndForward_returns {reg : ObjWlRegistry}
    (hx : c.glob.extra? q.objectId = some (.wlRegistry reg)) (hspace : c.hasSpace q.msg.length 0)
    (hroom : BUFFER_SIZE ≤ c.core.out.space) :
    ∃ c', Handler.first (storeSyncobjManager q name version)
        (forwardGlobal q name WP_LINUX_DRM_SYNCOBJ_MANAGER_V1 version) c = .ok (.done, c') ∧
      c'.glob.extra? q.objectId = some (.wlRegistry (reg.store name version)) := by
  let g := c.glob.setExtra q.objectId (.wlRegistry (reg.store name version))
  obtain ⟨out, hout⟩ := forwardGlobal_syncobj_returns (q := q) (c := c.setGlob g) name version
    hspace hroom
  refine ⟨_, (first_of (storeSyncobjManager_run hx)).trans hout, ?_⟩
  exact Globals.extra?_setExtra c.glob hx

theorem wlRegistryGlobal_syncobj
    (hparse : parseEvtWlRegistryGlobal q.msg = .ok (name, WP_LINUX_DRM_SYNCOBJ_MANAGER_V1, version)) :
    wlRegistryGlobal sys q c = globalSyncobjManager sys q name
      (limitVersion WP_LINUX_DRM_SYNCOBJ_MANAGER_V1 version) c := by
  refine (parsing_of hparse).trans ?_
  dsimp only
  rw [if_neg (by decide +kernel), if_neg (by decide +kernel), if_pos rfl]

/-- While the device is unknown, the announcement is stored, and passed on. -/
theorem globalSyncobjManager_of_unknown (hunknown : c.glob.dmabufDevice.isUnknown = true) :
    globalSyncobjManager sys q name version c =
      Handler.first (storeSyncobjManager q name version)
        (forwardGlobal q name WP_LINUX_DRM_SYNCOBJ_MANAGER_V1 version) c := by
  have hlook : ReaderT.run (fun c => .ok c.glob.dmabufDevice.isUnknown : Look Bool) c = .ok true :=
    congrArg Except.ok hunknown
  exact looking_of hlook

/-- An announcement that did not fit is stored once more when it is processed again. -/
theorem wlRegistryGlobal_stored_twice {c' : Ctx} (hst : wlRegistryGlobal sys q c = .ok (p, c'))
    (hp : p ≠ .done) (hunknown : c.glob.dmabufDevice.isUnknown = true)
    (hintf : (parseEvtWlRegistryGlobal q.msg).map (·.2.1) = .ok WP_LINUX_DRM_SYNCOBJ_MANAGER_V1) :
    ∃ f, Resumes p f ∧ wlRegistryGlobal sys q (f c') ≠ wlRegistryGlobal sys q (f c) := by
  obtain ⟨⟨name, intf, version⟩, hparse, _⟩ := parsing_eq_ok.mp hst
  rw [hparse] at hintf
  have hintf : intf = WP_LINUX_DRM_SYNCOBJ_MANAGER_V1 := Except.ok.inj hintf
  subst hintf
  rw [wlRegistryGlobal_syncobj hparse, globalSyncobjManager_of_unknown hunknown] at hst
  obtain ⟨g, hg, hst⟩ := first_eq_ok.mp hst
  obtain ⟨reg, hx⟩ := storeSyncobjManager_registry hg
  cases (storeSyncobjManager_run hx).symm.trans hg
  rcases needs_eq_ok.mp hst with ⟨_, hst⟩ | ⟨_, heq⟩
  · obtain ⟨_, _, heq⟩ := act_eq_ok.mp hst
    cases heq
    exact absurd rfl hp
  · cases heq
    let version' := limitVersion WP_LINUX_DRM_SYNCOBJ_MANAGER_V1 version
    let g := c.glob.setExtra q.objectId (.wlRegistry (reg.store name version'))
    let f := Ctx.refresh (.empty (max q.msg.length BUFFER_SIZE)) []
    have hspace : ∀ t, (f t).hasSpace q.msg.length 0 := fun t => ⟨Nat.le_max_left _ _, Nat.zero_le _⟩
    have hroom : ∀ t, BUFFER_SIZE ≤ (f t).core.out.space := fun t => Nat.le_max_right _ _
    have hunknown' : (f (c.setGlob g)).glob.dmabufDevice.isUnknown = true := by
      show (c.glob.setExtra _ _).dmabufDevice.isUnknown = true
      rw [Globals.setExtra_eq]
      exact hunknown
    have hx' : (f (c.setGlob g)).glob.extra? q.objectId =
        some (.wlRegistry (reg.store name version')) := Globals.extra?_setExtra c.glob hx
    obtain ⟨t, ht, hfresh⟩ := storeAndForward_returns (c := f c) hx (hspace c) (hroom c)
    obtain ⟨t', ht', hretry⟩ := storeAndForward_returns (c := f (c.setGlob g)) hx' (hspace _) (hroom _)
    refine ⟨f, .space (Nat.le_max_left _ _) (Nat.zero_le _), fun heq => ?_⟩
    rw [wlRegistryGlobal_syncobj hparse, wlRegistryGlobal_syncobj hparse,
      globalSyncobjManager_of_unknown hunknown', globalSyncobjManager_of_unknown (c := f c) hunknown,
      ht, ht'] at heq
    cases heq
    have hsame := hfresh.symm.trans hretry
    simp [ObjWlRegistry.store] at hsame

/-! ## All messages -/

/-- Whether a message can be processed again.  If it could not be processed for lack of space or
because of tasks, then another attempt, with enough space or when the tasks have changed the
descriptors, gives what that attempt would have given without the first one: the same verdict, the
same output, the same queues and the same tracked state.  This is so exactly if the message is not a
modifier that the application side receives, nor an announcement of the syncobj manager while the
device is unknown. -/
theorem retry_transparent_iff (sys : System) (msg : WaylandMsg) (c c' : Ctx) (p : ProcMsg)
    (h : processWayMsg sys msg c = .ok (p, c')) (hp : p ≠ .done) :
    (∀ f, Resumes p f → processWayMsg sys msg (f c') = processWayMsg sys msg (f c)) ↔
      ¬ Unrepeatable msg c := by
  have hstayed := processWayMsg_stayed sys h hp
  have hdir : c'.transl.isFromChannel = c.transl.isFromChannel := by rw [hstayed.transl]
  have hd := dispatch_of_processWayMsg sys h
  have hattempts : ∀ f, Resumes p f →
      (processWayMsg sys msg (f c') = processWayMsg sys msg (f c) ↔
        dispatch sys msg c (f c') = dispatch sys msg c (f c)) := by
    intro f hf
    rw [hf.processWayMsg hstayed.globals hdir, hf.processWayMsg (.refl c.glob) rfl]
  cases hm : methodOf msg c with
  | none =>
    have hhandler : dispatch sys msg c = procUnknownWayMsg msg := by
      unfold dispatch
      rw [hm]
    have hgood : ¬ Unrepeatable msg c := by
      unfold Unrepeatable
      rw [hm]
      exact id
    have hform : Form (fun c => c.transl.isFromChannel = false) 0 false (procUnknownWayMsg msg) :=
      procUnknownWayMsg_form msg
    refine iff_of_true (fun f hf => (hattempts f hf).mpr ?_) hgood
    rw [hhandler] at hd ⊢
    exact hform.stallsInPlace.transparent c p c' hd hp f hf
  | some m =>
    obtain ⟨intf, id, meth⟩ := m
    have hhandler : dispatch sys msg c = handlerOf sys intf id (requestOf msg c meth) := by
      unfold dispatch
      rw [hm]
    rw [hhandler] at hd hattempts
    unfold Unrepeatable
    rw [hm]
    constructor
    · -- an attempt that gives something else
      rintro hall (⟨rfl, rfl, hside⟩ | ⟨rfl, rfl, hunknown, hintf⟩)
      · obtain ⟨f, hf, hne⟩ := zwpLinuxDmabufV1Modifier_lost hd hp hside
        exact hne ((hattempts f hf).mp (hall f hf))
      · obtain ⟨f, hf, hne⟩ := wlRegistryGlobal_stored_twice hd hp hunknown hintf
        exact hne ((hattempts f hf).mp (hall f hf))
    · intro hgood f hf
      refine (hattempts f hf).mpr ?_
      exact handlerOf_transparentAt (isReq_requestOf hm) (fun hbad => hgood (.inl hbad))
        (fun hbad => hgood (.inr hbad)) p c' hd hp f hf

end

/-! ## A modifier that gets lost -/

/-- A system with a device that supports one modifier for every format. -/
def modifierSystem : System :=
  { System.headless with
    setupGbmDevice := fun _ => .ok (some { deviceId := 0, supportedModifiers := fun _ => [0] }) }

def gpuOptions : Options := { Options.plain with noGpu := false }

/-- DMABUFs are announced by the registry 2. -/
def dmabufGlobal : WaylandMsg :=
  .make 2 0 (.u32 1 ++ .string ZWP_LINUX_DMABUF_V1 ++ .u32 1)

/-- The application gets a registry. -/
def registryEvents : List InstanceEvent :=
  [.wayRead [.make 1 1 (.obj 2)] [], .processWayland, .chanWrite]

/-- It binds the DMABUF interface when that is announced. -/
def dmabufEvents : List InstanceEvent :=
  registryEvents ++ [.chanRead (.protocol [dmabufGlobal]), .processChannel,
    .wayRead [bindMsg .zwpLinuxDmabufV1 3] [], .processWayland, .chanWrite]

/-- The compositor supports a format with one modifier. -/
def modifierMsg : WaylandMsg := .make 3 1 (.u32 0x34325258 ++ .u32 0 ++ .u32 0)

/-- The context for a message from the channel, without any space for output. -/
def Globals.crowded (g : Globals) : Ctx := ⟨⟨g, .empty 0⟩, .fromChannel [] []⟩

/-- There is no space for the announcement of DMABUFs, which sets up the device all the same. -/
theorem retry_transparent_iff_dmabuf : ∃ s c' bytes fds,
    Transition.run (Instance.step modifierSystem .plain) (.start false gpuOptions)
      registryEvents = some s ∧
    processWayMsg modifierSystem dmabufGlobal s.glob.crowded = .ok (.needsSpace bytes fds, c') ∧
    ∀ f, Resumes (.needsSpace bytes fds) f →
      processWayMsg modifierSystem dmabufGlobal (f c') =
        processWayMsg modifierSystem dmabufGlobal (f s.glob.crowded) := by
  have hdecided : (Transition.run (Instance.step modifierSystem .plain) (.start false gpuOptions)
      registryEvents).bind (fun s => (processWayMsg modifierSystem dmabufGlobal
        s.glob.crowded).toOption.map fun x => (x.1, decide (Unrepeatable dmabufGlobal s.glob.crowded))) =
      some (.needsSpace dmabufGlobal.length 0, false) := by
    decide +kernel
  obtain ⟨s, hrun, hstep⟩ := Option.bind_eq_some_iff.mp hdecided
  obtain ⟨⟨p, c'⟩, hstep, hx⟩ := Option.map_eq_some_iff.mp hstep
  obtain ⟨rfl, hgood⟩ := Prod.mk.inj hx
  have hstep : processWayMsg modifierSystem dmabufGlobal s.glob.crowded =
      .ok (.needsSpace dmabufGlobal.length 0, c') := Res.toOption_eq_some.mp hstep
  exact ⟨s, c', _, _, hrun, hstep, (retry_transparent_iff modifierSystem dmabufGlobal _ c' _ hstep
    nofun).mpr (of_decide_eq_false hgood)⟩

/-- What is written by an attempt that follows one without space, and by one that has space at
once. -/
def outputs (sys : System) (msg : WaylandMsg) (c : Ctx) : Res (ProcMsg × List UInt8 × List UInt8) := do
  let (p, c') ← processWayMsg sys msg c
  let (_, retried) ← processWayMsg sys msg (c'.refresh (.empty BUFFER_SIZE) [])
  let (_, fresh) ← processWayMsg sys msg (c.refresh (.empty BUFFER_SIZE) [])
  return (p, retried.core.out.data, fresh.core.out.data)

/-- There is no space for the first modifier of a format.  When there is, nothing is written. -/
theorem modifier_lost_on_retry :
    (Transition.run (Instance.step modifierSystem .plain) (.start false gpuOptions)
      dmabufEvents).bind (fun s => (outputs modifierSystem modifierMsg s.glob.crowded).toOption) =
        some (.needsSpace 20 0, [], modifierMsg.bytes) := by
  decide +kernel

end Waypipe
