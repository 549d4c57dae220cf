import Waypipe.Tracking.Form
import Waypipe.Tracking.Process

/-!
# The forms of all handlers

Every entry of the dispatch table has the form that the signature of its method calls for: it takes
as many file descriptors from Wayland as the signature has.  On messages from Wayland no handler
waits, with the exception of `wl_shm_pool.resize`, and six handlers change the tracked state before
their check for space.
-/

namespace Waypipe

open Wayland

variable (sys : System) (q : Request)

/-! ## File descriptors taken by the actions -/

/-- Every run that returns takes `n` descriptors off the queue from Wayland. -/
abbrev Pops {α : Type} (n : Nat) (m : FdAct α) : Prop := Links (Popped n) m

namespace Pops

variable {α β : Type} {n k : Nat}

theorem bind {m : FdAct α} {f : α → FdAct β} (hm : Pops n m) (hf : ∀ a, Pops k (f a)) :
    Pops (n + k) (m >>= f) :=
  Links.bind (R := Popped n) (S := Popped k) (fun _ _ _ => Popped.trans) hm hf

/-- What comes before the first descriptor is taken. -/
theorem after {m : FdAct α} {f : α → FdAct β} (hm : Pops 0 m) (hf : ∀ a, Pops n (f a)) :
    Pops n (m >>= f) := by
  have h := bind hm hf
  rwa [Nat.zero_add] at h

theorem ret (a : α) : Pops 0 (pure a : FdAct α) := Links.pure Popped.refl a

theorem res (x : Res α) : Pops 0 (liftM x : FdAct α) := Links.lift Popped.refl x

theorem getCtx : Pops 0 (get : FdAct Ctx) := Links.get Popped.refl

theorem act (m : Act α) : Pops 0 (liftAct m) := by
  intro c a c' hrun
  obtain ⟨c₁, t, hget, h⟩ := StateT.run_bind_eq_ok.mp hrun
  cases hget
  obtain ⟨⟨b, core⟩, t, hm, h⟩ := StateT.run_bind_eq_ok.mp h
  obtain ⟨-, rfl⟩ := StateT.run_lift_eq_ok.mp hm
  cases h
  exact .of_transl rfl

theorem push (sfd : SfdRef) : Pops 0 (pushOut sfd) :=
  Links.modify fun _ => .of_withOutgoing rfl

theorem fd : Pops 1 popFd := by
  intro c a c' hrun hc
  obtain ⟨c₁, t, hget, h⟩ := StateT.run_bind_eq_ok.mp hrun
  cases hget
  unfold Ctx.fdsIn
  split at h
  · rename_i fd fds rids htransl
    rw [htransl]
    cases h
    exact ⟨rfl, Nat.le_add_left 1 _, rfl⟩
  · cases h

/-- From Wayland, nothing that came from the channel can be taken. -/
theorem sfd (missing : String) : Pops n (popSfd missing) := by
  intro c a c' hrun hc
  obtain ⟨c₁, t, hget, h⟩ := StateT.run_bind_eq_ok.mp hrun
  cases hget
  split at h
  · rename_i hd sfds fds htransl
    rw [htransl] at hc
    cases hc
  · cases h

theorem form {m : FdAct Unit} {Q : Ctx → Prop} {early : Bool} (hm : Pops n m) :
    Form Q n early (.actFd m) := .actFd fun c _ u c' hrun => hm c u c' hrun

theorem pass (missing : String) (check : SfdRef → Act Unit) (translate : Fd → Act SfdRef) :
    Pops 1 (passFd missing check translate) := by
  unfold passFd
  refine after getCtx fun c => ?_
  split
  · refine bind (k := 0) (sfd missing) fun x => after (act _) fun _ => ?_
    exact bind (push x) fun _ => ret x
  · refine bind (k := 0) fd fun x => after (act _) fun s => ?_
    exact bind (push s) fun _ => ret s

end Pops

/-! ## Changes before the check for space -/

/-- The side and the types of all objects are kept. -/
abbrev KeepsTypes {α : Type} (m : GlobAct α) : Prop := Links SameTypes m

namespace KeepsTypes

variable {α β : Type}

theorem bind {m : GlobAct α} {f : α → GlobAct β} (hm : KeepsTypes m)
    (hf : ∀ a, KeepsTypes (f a)) : KeepsTypes (m >>= f) :=
  Links.bind (R := SameTypes) (S := SameTypes) (fun _ _ _ => SameTypes.trans) hm hf

theorem ret (a : α) : KeepsTypes (pure a : GlobAct α) := Links.pure SameTypes.refl a

theorem res (x : Res α) : KeepsTypes (liftM x : GlobAct α) := Links.lift SameTypes.refl x

theorem glob : KeepsTypes getGlob := Links.get SameTypes.refl

theorem change {f : Globals → Globals} (hside : ∀ g, (f g).onDisplaySide = g.onDisplaySide)
    (hobjects : ∀ g, (f g).objects = g.objects) : KeepsTypes (modifyGlob f) :=
  Links.modify fun g => .of_eq (hside g) (hobjects g)

theorem extra (id : ObjId) (x : WpExtra) : KeepsTypes (setExtra id x) :=
  Links.modify fun g => .setExtra g id x

theorem lookup {α : Type} (id : ObjId) (kind : WpExtra → Option α) (msg : String) :
    KeepsTypes (extraOf id kind msg) := bind glob fun _ => res _

theorem read (r : SfdRef) : KeepsTypes (readSfd r) := bind glob fun _ => res _

theorem putData (r : SfdRef) (data : ShadowFdVariant) : KeepsTypes (putSfdData r data) :=
  bind (read r) fun _ => change (fun _ => rfl) fun _ => rfl

theorem setDevice (dev : DmabufDevice) : KeepsTypes (setDevice dev) :=
  change (fun _ => rfl) fun _ => rfl

theorem allocateRid : KeepsTypes allocateRid := by
  refine bind glob fun g => ?_
  extract_lets next rest
  have hrest : ∀ u, KeepsTypes (rest u) := fun _ =>
    bind (change (fun _ => rfl) fun _ => rfl) fun _ => ret _
  split
  · exact bind (Links.throw _) hrest
  · exact hrest ()

theorem addSfd (s : ShadowFd) : KeepsTypes (addSfd s) :=
  bind glob fun _ => bind (change (fun _ => rfl) fun _ => rfl) fun _ => ret _

theorem translateShmFd (fd : Fd) (sizeLb : Nat) (defaultDamage readonce localOnly : Bool) :
    KeepsTypes (translateShmFd sys fd sizeLb defaultDamage readonce localOnly) :=
  bind allocateRid fun _ => bind (res _) fun _ => bind (res _) fun _ => addSfd _

theorem newFormatTable (table : List UInt8) : KeepsTypes (newFormatTable sys table) :=
  bind (res _) fun _ => bind (res _) fun _ => bind (res _) fun _ => bind glob fun _ =>
    translateShmFd sys _ _ _ _ _

theorem setupDeviceForGlobal : KeepsTypes (setupDeviceForGlobal sys) := by
  refine bind glob fun g => ?_
  split
  · exact bind (res _) fun _ => bind (res _) fun _ => bind (res _) fun _ => setDevice _
  · exact ret _

theorem storeSyncobjManager (name version : Nat) : KeepsTypes (storeSyncobjManager q name version) :=
  bind (lookup _ _ _) fun _ => extra _ _

theorem setupDeviceForBind (version : Nat) : KeepsTypes (setupDeviceForBind sys version) := by
  have hchoose : ∀ b, KeepsTypes (chooseDevice sys b) := by
    intro b
    refine bind glob fun g => ?_
    split
    · exact bind (res _) fun _ => bind (res _) fun _ => bind (res _) fun _ => setDevice _
    · exact ret _
  have hcomplete : ∀ b, KeepsTypes (completeDevice sys b) := by
    intro b
    refine bind glob fun g => ?_
    split
    · exact bind (res _) fun _ => bind (res _) fun _ => setDevice _
    · exact ret _
  have hrequire : KeepsTypes requireDevice := by
    refine bind glob fun g => ?_
    split
    · exact res _
    · exact ret _
  exact bind glob fun _ => bind (hchoose _) fun _ => bind (hcomplete _) fun _ => hrequire

theorem queueFormatTable (feedback : ObjZwpLinuxDmabufFeedback) (table : List UInt8) :
    KeepsTypes (queueFormatTable sys q feedback table) := by
  unfold Waypipe.queueFormatTable
  split
  · exact extra _ _
  · exact bind (newFormatTable sys _) fun _ => extra _ _

theorem processFeedback : KeepsTypes (processFeedback sys q) := by
  refine bind (lookup _ _ _) fun feedback => ?_
  split
  · exact ret _
  · exact bind glob fun _ => bind (res _) fun _ => bind (res _) fun _ => queueFormatTable sys q _ _

theorem setupCaptureDevice (mainDevice : Nat) : KeepsTypes (setupCaptureDevice sys mainDevice) := by
  refine bind glob fun g => ?_
  split
  · exact bind (res _) fun _ => bind (res _) fun _ => change (fun _ => rfl) fun _ => rfl
  · exact bind (res _) fun _ => bind (res _) fun _ => change (fun _ => rfl) fun _ => rfl
  · exact ret _

theorem prepareCapture : KeepsTypes (prepareCapture sys q) := by
  refine bind (lookup _ _ _) fun session => ?_
  split
  · exact ret _
  · exact bind (setupCaptureDevice sys _) fun _ => bind glob fun _ => res _

end KeepsTypes

/-! ## Handlers that do more than check and act -/

/-- The message comes from the Wayland connection. -/
structure FromWayland (c : Ctx) : Prop where
  request : q.fromChannel = false
  transl : c.transl.isFromChannel = false
  /-- Requests come from the application, events from the compositor. -/
  side : c.glob.onDisplaySide = !q.isReq

/-- The file of the pool that the request is for still has tasks. -/
def PoolBusy (c : Ctx) : Prop :=
  ∃ x rid, c.glob.extraOf q.objectId WpExtra.wlShmPool? "wl_shm_pool object has invalid extra type" =
    .ok x ∧ (fileWait x.buffer).run c = .ok (some rid)

section Forms

variable {Q : Ctx → Prop} (hQ : ∀ c, Q c → FromWayland q c) {early : Bool}

theorem wlShmCreatePool_form : Form Q 1 early (wlShmCreatePool sys q) := by
  refine .needs (Pops.form ?_)
  refine .after (.res _) fun (poolId, poolSize) => ?_
  have hrest : Pops 1 (do
      let buffer ← passFd "Missing fd" (fun _ => return)
        fun fd => translateShmFd sys fd poolSize.toNat false false false
      liftAct do
        insertNewObject poolId .wlShmPool (.wlShmPool { buffer })
        copyMsgTagFd q.msg q.fromChannel : FdAct Unit) :=
    .bind (.pass _ _ _) fun _ => .act _
  dsimp only
  split
  · exact .after (.res _) fun _ => hrest
  · exact hrest

include hQ in
/-- A file from the channel is waited for, but not one from Wayland. -/
theorem fixedFile_form (fileSz : Nat) :
    Form Q 1 early (fixedFile sys q fileSz) := by
  have hpass : Pops 1 (do
      let _ ← passFd "Missing fd" (fun _ => return)
        fun fd => do translateShmFd sys fd fileSz true true false
      liftAct (copyMsgTagFd q.msg q.fromChannel) : FdAct Unit) :=
    .bind (.pass _ _ _) fun _ => .act _
  unfold fixedFile
  split
  · rename_i hq
    refine .looking fun sfd => .waits (fun c hc => ?_) (Pops.form hpass)
    have h := (hQ c hc.1).request
    rw [hq] at h
    cases h
  · exact Pops.form hpass

theorem transferSelection_form : Form Q 1 early (transferSelection q) :=
  .needs (Pops.form (.bind (.pass _ _ _) fun _ => .act _))

theorem importTimeline_form :
    Form Q 1 early (wpLinuxDrmSyncobjManagerV1ImportTimeline sys q) :=
  .needs (Pops.form (.after (.res _) fun _ => .bind (.pass _ _ _) fun _ => .act _))

theorem wlShmPoolResize_form (hfree : ∀ c, Q c → ¬ PoolBusy q c) :
    Form Q 0 early (wlShmPoolResize sys q) := by
  refine .needs (.looking fun x => .waits (fun c hc rid hrid => ?_) .act)
  exact hfree c hc.1 ⟨x, rid, hc.2, hrid⟩

/-- The one handler that can wait on a message from Wayland. -/
theorem wlShmPoolResize_of_busy {c c' : Ctx} {p : ProcMsg} (hbusy : PoolBusy q c)
    (h : wlShmPoolResize sys q c = .ok (p, c')) :
    (c.hasSpace q.msg.length 0 ∧ p.isWait) ∨ (¬ c.hasSpace q.msg.length 0 ∧ ¬ p.isWait ∧ p ≠ .done) := by
  obtain ⟨x, rid, hx, hrid⟩ := hbusy
  rcases Handler.needs_eq_ok.mp h with ⟨hspace, hk⟩ | ⟨hspace, hp⟩
  · obtain ⟨x', hx', hk⟩ := Handler.looking_eq_ok.mp hk
    cases hx.symm.trans hx'
    rcases Handler.waits_eq_ok.mp hk with ⟨hnone, _⟩ | ⟨rid', _, hp⟩
    · cases hrid.symm.trans hnone
    · cases hp
      exact Or.inl ⟨hspace, trivial⟩
  · cases hp
    exact Or.inr ⟨hspace, id, fun hp => by cases hp⟩

include hQ in
theorem wlSurfaceCommit_form :
    Form Q 0 early (wlSurfaceCommit sys q) := by
  refine .needs (.parsing fun _ => .looking fun surf => .waits (fun c hc rid hrid => ?_) .act)
  simp [ReaderT.run, (hQ c hc.1).request] at hrid

theorem zwpLinuxDmabufV1Format_form : Form Q 0 early (zwpLinuxDmabufV1Format q) := by
  refine .parsing fun format => .looking fun supported => ?_
  split
  · exact .simple
  · exact .drop

theorem zwpLinuxDmabufV1Modifier_form : Form Q 0 true (zwpLinuxDmabufV1Modifier q) := by
  refine .parsing fun (format, modHi, modLo) => .looking fun onDisplaySide => ?_
  split
  · refine .looking fun supported => ?_
    split
    · exact .simple
    · exact .drop
  · refine .looking fun d => ?_
    split
    · exact .drop
    · exact .changing (KeepsTypes.extra _ _) (.looking fun _ => .simple)

include hQ in
theorem zwpLinuxBufferParamsV1Add_form :
    Form Q 1 early (zwpLinuxBufferParamsV1Add q) := by
  refine .actFd fun c hc => (?_ : Pops 1 _) c
  refine .after (.res _) fun _ => .after (.act _) fun _ => ?_
  rw [(hQ c hc).request]
  exact .bind .fd fun _ => .act _

theorem createFromChannel_form (data : ShadowFdDmabuf) (after : SfdRef → GlobAct Unit) :
    Form Q 0 early (createFromChannel q data after) := by
  refine .needs (Pops.form (.after (.act _) fun _ => .after (.sfd _) fun sfd => ?_))
  exact .bind (.push sfd) fun _ => .act _

theorem createFromWayland_form (params : ObjZwpLinuxDmabufParams) (width height drmFormat : Nat)
    (waylandId : ObjId) (create : Res Words) (after : SfdRef → GlobAct Unit) :
    Form Q 0 early (createFromWayland sys q params width height drmFormat waylandId create after) :=
  .needs (Pops.form (.after (.act _) fun sfd => .bind (.push sfd) fun _ => .act _))

theorem zwpLinuxBufferParamsV1CreateImmed_form :
    Form Q 0 true (zwpLinuxBufferParamsV1CreateImmed sys q) := by
  refine .looking fun params => .parsing fun (bufferId, width, height, drmFormat, flags) => ?_
  dsimp only
  split
  · refine .looking fun (sfd, data) => ?_
    exact .changing (KeepsTypes.putData _ _) (createFromChannel_form q _ _)
  · exact createFromWayland_form sys q _ _ _ _ _ _ _

theorem zwpLinuxBufferParamsV1Create_form :
    Form Q 0 early (zwpLinuxBufferParamsV1Create sys q) := by
  refine .looking fun params => .parsing fun (width, height, drmFormat, flags) => ?_
  dsimp only
  split
  · exact .looking fun _ => createFromChannel_form q _ _
  · exact createFromWayland_form sys q _ _ _ _ _ _ _

include hQ in
theorem zwpLinuxDmabufFeedbackV1FormatTable_form :
    Form Q 1 early (zwpLinuxDmabufFeedbackV1FormatTable sys q) := by
  refine .parsing fun tableSize => .looking fun f => ?_
  split
  · rename_i hq
    refine .looking fun sfd => .waits (fun c hc => ?_) ?_
    · have h := (hQ c hc.1.1).request
      rw [hq] at h
      cases h
    · exact Pops.form (.bind (k := 0) (.sfd _) fun _ => .act _)
  · exact Pops.form (.bind .fd fun _ => .after (.res _) fun _ => .after (.res _) fun _ => .act _)

theorem writeFeedback_pops (feedback : ObjZwpLinuxDmabufFeedback) :
    Pops 0 (writeFeedback q feedback) := by
  unfold writeFeedback
  split
  · exact .act _
  · exact .after (.act _) fun _ => .after (.push _) fun _ => .act _

theorem zwpLinuxDmabufFeedbackV1Done_form : Form Q 0 true (zwpLinuxDmabufFeedbackV1Done sys q) :=
  .changing (KeepsTypes.processFeedback sys q)
    (.looking fun _ => .needs (Pops.form (writeFeedback_pops q _)))

theorem extImageCopyCaptureSessionV1Done_form :
    Form Q 0 true (extImageCopyCaptureSessionV1Done sys q) :=
  .changing (KeepsTypes.prepareCapture sys q) (.looking fun _ => .looking fun _ => .simple)

include hQ in
/-- Captured frames are ready on the display side first, which does not wait. -/
theorem not_frameWait (hq : q.isReq = false) (sfd : SfdRef) :
    ∀ c, Q c → ∀ rid, (frameWait sfd).run c ≠ .ok (some rid) := by
  intro c hc rid hrid
  have hside : c.glob.onDisplaySide = true := by rw [(hQ c hc).side, hq]; rfl
  simp [ReaderT.run, frameWait, hside] at hrid

include hQ in
theorem zwlrScreencopyFrameV1Ready_form (hq : q.isReq = false) :
    Form Q 0 early (zwlrScreencopyFrameV1Ready sys q) := by
  refine .needs (.looking fun (sfd, shmInfo) => .waits (fun c hc => ?_) .act)
  exact not_frameWait q hQ hq sfd c hc.1

include hQ in
theorem extImageCopyCaptureFrameV1Ready_form (hq : q.isReq = false) :
    Form Q 0 early (extImageCopyCaptureFrameV1Ready sys q) := by
  refine .needs (.looking fun (sfd, shmInfo) => .waits (fun c hc => ?_) .act)
  exact not_frameWait q hQ hq sfd c hc.1

include hQ in
theorem xdgToplevelIconV1AddBuffer_form (hq : q.isReq = true) :
    Form Q 0 early (xdgToplevelIconV1AddBuffer q) := by
  refine .needs (.looking fun extra => .waits (fun c hc rid hrid => ?_) .act)
  have hside : c.glob.onDisplaySide = false := by rw [(hQ c hc.1).side, hq]; rfl
  simp [ReaderT.run, iconWait, hside] at hrid

theorem wlRegistryGlobal_form : Form Q 0 true (wlRegistryGlobal sys q) := by
  refine .parsing fun (name, intf, version) => ?_
  dsimp only
  split
  · exact .drop
  split
  · refine .changing (KeepsTypes.setupDeviceForGlobal sys) (.looking fun unavailable => ?_)
    split
    · exact .drop
    · exact .looking fun _ => .simple
  split
  · refine .looking fun unknown => ?_
    split
    · exact .changing (KeepsTypes.storeSyncobjManager q _ _) .simple
    · refine .looking fun usable => ?_
      split
      · exact .simple
      · exact .drop
  · exact .simple

theorem wlRegistryBind_form : Form Q 0 true (wlRegistryBind sys q) := by
  refine .parsing fun (_, name, version, oid) => ?_
  dsimp only
  split
  · exact .changing (KeepsTypes.setupDeviceForBind sys _) .simple
  · exact .simple

end Forms

/-! ## The dispatch table -/

def Wayland.MethodId.isRequest : MethodId → Bool
  | .request _ => true
  | .event _ => false

/-- Number of file descriptors in the signature of a method. -/
def signatureFds (key : WaylandInterface × MethodId) : Nat :=
  ((key.1.method key.2).map WaylandMethod.fdCount).getD 0

/-- The methods whose handlers change the tracked state before the check for space. -/
def earlyMethods : List (WaylandInterface × MethodId) :=
  [(.zwpLinuxDmabufV1, .event 1), (.zwpLinuxBufferParamsV1, .request 3),
    (.zwpLinuxDmabufFeedbackV1, .event 0), (.extImageCopyCaptureSessionV1, .event 4),
    (.wlRegistry, .event 0), (.wlRegistry, .request 0)]

def RESIZE : WaylandInterface × MethodId := (.wlShmPool, .request 2)

/-- From Wayland, and no pool that is to be resized is in use. -/
def Calm (key : WaylandInterface × MethodId) (c : Ctx) : Prop :=
  FromWayland q c ∧ (key = RESIZE → ¬ PoolBusy q c)

theorem handlers_form : ∀ e ∈ handlers sys, q.isReq = e.1.2.isRequest →
    Form (Calm q e.1) (signatureFds e.1) (earlyMethods.contains e.1) (e.2 q) := by
  have hQ : ∀ key c, Calm q key c → FromWayland q c := fun key c h => h.1
  unfold handlers
  simp only [List.forall_mem_cons]
  refine ⟨fun _ => .simple, fun _ => .simple, fun _ => .simple,
    fun _ => wlShmCreatePool_form sys q, fun _ => .simple,
    fun _ => wlShmPoolResize_form sys q fun c hc => hc.2 rfl, fun _ => .simple, fun _ => .simple,
    fun _ => .simple, fun _ => .simple, fun _ => .simple, fun _ => .simple, fun _ => .simple,
    fun _ => wlSurfaceCommit_form sys q (hQ _), fun _ => .simple, fun _ => .simple,
    fun _ => .simple, fun _ => .simple, fun _ => .simple, fun _ => importTimeline_form sys q,
    fun _ => .simple, fun _ => .simple, fun _ => zwpLinuxDmabufV1Format_form q,
    fun _ => zwpLinuxDmabufV1Modifier_form q, fun _ => .simple,
    fun _ => zwpLinuxBufferParamsV1Add_form q (hQ _),
    fun _ => zwpLinuxBufferParamsV1CreateImmed_form sys q,
    fun _ => zwpLinuxBufferParamsV1Create_form sys q, fun _ => .simple, fun _ => .simple,
    fun _ => .simple, fun _ => .simple,
    fun _ => zwpLinuxDmabufFeedbackV1FormatTable_form sys q (hQ _), fun _ => .act, fun _ => .act,
    fun _ => .act, fun _ => .act, fun _ => .act,
    fun _ => zwpLinuxDmabufFeedbackV1Done_form sys q,
    fun _ => .needs (.parsing fun _ => fixedFile_form sys q (hQ _) _),
    fun _ => .needs (.parsing fun _ => fixedFile_form sys q (hQ _) _),
    fun _ => .needs (.parsing fun _ => fixedFile_form sys q (hQ _) _), fun _ => .simple,
    fun _ => .simple,
    fun _ => .needs (.looking fun _ => fixedFile_form sys q (fun c hc => (hQ _ c hc.1)) _),
    fun _ => transferSelection_form q, fun _ => transferSelection_form q,
    fun _ => transferSelection_form q, fun _ => transferSelection_form q,
    fun _ => transferSelection_form q, fun _ => transferSelection_form q,
    fun _ => transferSelection_form q, fun _ => transferSelection_form q,
    fun _ => transferSelection_form q, fun _ => transferSelection_form q, fun _ => .simple,
    fun _ => .simple, fun _ => .simple, fun _ => .simple, fun _ => .simple, fun _ => .simple,
    fun _ => extImageCopyCaptureSessionV1Done_form sys q, fun _ => .simple, fun _ => .simple,
    fun _ => .simple, fun _ => .simple, fun _ => .simple, fun _ => .simple, fun _ => .simple,
    fun hq => zwlrScreencopyFrameV1Ready_form sys q (hQ _) hq, fun _ => .simple,
    fun hq => extImageCopyCaptureFrameV1Ready_form sys q (hQ _) hq, fun _ => .simple,
    fun _ => .simple, fun _ => .parsing fun _ => .looking fun _ => .simple,
    fun hq => xdgToplevelIconV1AddBuffer_form q (hQ _) hq, fun _ => .simple, fun _ => .simple,
    fun _ => .simple, fun _ => wlRegistryGlobal_form sys q, fun _ => wlRegistryBind_form sys q, ?_⟩
  exact fun e he => absurd he List.not_mem_nil

/-- The handlers of the table have the form of their signature; the default handler takes no
descriptors. -/
theorem handlerOf_form (intf : WaylandInterface) (id : MethodId) (hq : q.isReq = id.isRequest) :
    Form (Calm q (intf, id))
      (if ((handlers sys).lookup (intf, id)).isSome then signatureFds (intf, id) else 0)
      (earlyMethods.contains (intf, id)) (handlerOf sys intf id q) := by
  rcases handlerOf_mem sys intf id with ⟨hnone, hdefault⟩ | ⟨hsome, hin⟩
  · rw [hnone, hdefault]
    exact .simple
  · rw [if_pos hsome]
    exact handlers_form sys q _ hin hq

/-! ## All messages -/

omit sys q in
theorem isReq_requestOf {msg : WaylandMsg} {c : Ctx} {m : Method} (h : methodOf msg c = some m) :
    (requestOf msg c m.meth).isReq = m.id.isRequest := by
  rw [(methodOf_eq_some h).2.1]
  show c.isReq = _
  cases c.isReq <;> rfl

theorem procUnknownWayMsg_form (msg : WaylandMsg) {early : Bool} :
    Form (fun c => c.transl.isFromChannel = false) 0 early (procUnknownWayMsg msg) := by
  refine .looking fun fromChannel => ?_
  split
  · rename_i hfrom
    refine .needs (.waits (fun c hc => ?_) (.actFd fun c hc => ?_))
    all_goals
      have hchannel : (Except.ok c.transl.isFromChannel : Res Bool) = .ok fromChannel := hc.2
      rw [hc.1, hfrom] at hchannel
      cases hchannel
  · exact .simple

/-- A message that is not done leaves all queues and the output as they were. -/
theorem processWayMsg_stayed {msg : WaylandMsg} {c c' : Ctx} {p : ProcMsg}
    (h : processWayMsg sys msg c = .ok (p, c')) (hp : p ≠ .done) : Stayed c c' := by
  have hd := dispatch_of_processWayMsg sys h
  unfold dispatch at hd
  cases hm : methodOf msg c with
  | none =>
    rw [hm] at hd
    exact (@procUnknownWayMsg_form msg false).stayed c p c' hd hp
  | some m =>
    rw [hm] at hd
    exact (handlerOf_form sys _ m.intf m.id (isReq_requestOf hm)).stayed c p c' hd hp

/-! ## Messages from Wayland -/

omit sys q in
theorem fromWayland_requestOf {c : Ctx} (hc : c.transl.isFromChannel = false) (msg : WaylandMsg)
    (meth : WaylandMethod) : FromWayland (requestOf msg c meth) c where
  request := hc
  transl := hc
  side := by
    show c.glob.onDisplaySide = !(c.glob.onDisplaySide == c.transl.isFromChannel)
    rw [hc]
    cases c.glob.onDisplaySide <;> rfl

end Waypipe
