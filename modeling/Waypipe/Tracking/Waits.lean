import Waypipe.Instance
import Waypipe.Tracking.Actions
import Waypipe.Tracking.HandlerForms

/-!
# Waiting in the direction from Wayland

The loop for messages from Wayland has no way to wait: a verdict to wait is treated as unreachable.
All handlers respect that but one.  `wl_shm_pool.resize` waits for the file of the pool, and on the
application side updates of that file come from the other direction.
-/

namespace Waypipe

open Wayland

variable (sys : System)

/-! ## Busy pools -/

/-- The message is a request of the application to resize a pool whose file has tasks, and there is
room for it in the output. -/
def ResizesBusyPool (msg : WaylandMsg) (core : Core) (rids : List SfdRef) : Prop :=
  ∃ pool sfd file,
    core.glob.onDisplaySide = false ∧ WaylandMsg.opcode msg = 2 ∧
    core.glob.objects.lookup msg.objectId =
      some { objType := .wlShmPool, extra := .wlShmPool pool } ∧
    core.glob.sfds[pool.buffer]? = some sfd ∧ sfd.data = .file file ∧ 0 < file.pendingApplyTasks ∧
    msg.length ≤ core.out.space ∧ rids.length ≤ MAX_OUTGOING_FDS

theorem fileWait_eq_some {r : SfdRef} {c : Ctx} {rid : Rid} :
    (fileWait r).run c = .ok (some rid) ↔ ∃ sfd file, c.glob.sfds[r]? = some sfd ∧
      sfd.data = .file file ∧ 0 < file.pendingApplyTasks ∧ sfd.remoteId = rid := by
  constructor
  · intro h
    obtain ⟨sfd, hsfd, h⟩ := Res.bind_eq_ok.mp h
    obtain ⟨busy, hbusy, h⟩ := Res.bind_eq_ok.mp h
    unfold fileHasPendingApplyTasks at hbusy
    split at hbusy
    · rename_i file hfile
      cases hbusy
      by_cases hpos : 0 < file.pendingApplyTasks
      · simp only [hpos, decide_true, if_true] at h
        cases h
        exact ⟨sfd, file, orPanic_eq_ok.mp hsfd, hfile, hpos, rfl⟩
      · simp only [hpos, decide_false, Bool.false_eq_true, if_false] at h
        cases h
    · cases hbusy
  · rintro ⟨sfd, file, hsfd, hfile, hpos, rfl⟩
    show (do
      let sfd ← c.glob.sfd r
      return if ← fileHasPendingApplyTasks sfd then some sfd.remoteId else none) = _
    unfold Globals.sfd fileHasPendingApplyTasks
    rw [orPanic_eq_ok.mpr hsfd]
    simp [bind, Except.bind, hfile, hpos, pure, Except.pure]

theorem poolBusy_iff {q : Request} {c : Ctx} :
    PoolBusy q c ↔ ∃ pool sfd file, c.glob.extra? q.objectId = some (.wlShmPool pool) ∧
      c.glob.sfds[pool.buffer]? = some sfd ∧ sfd.data = .file file ∧ 0 < file.pendingApplyTasks := by
  unfold PoolBusy Globals.extraOf
  constructor
  · rintro ⟨pool, rid, hpool, hwait⟩
    obtain ⟨extra, hextra, hkind⟩ := Option.bind_eq_some_iff.mp (orErr_eq_ok.mp hpool)
    obtain ⟨sfd, file, hsfd, hfile, hpos, _⟩ := fileWait_eq_some.mp hwait
    rw [WpExtra.wlShmPool?_eq_some.mp hkind] at hextra
    exact ⟨pool, sfd, file, hextra, hsfd, hfile, hpos⟩
  · rintro ⟨pool, sfd, file, hextra, hsfd, hfile, hpos⟩
    refine ⟨pool, sfd.remoteId, ?_, fileWait_eq_some.mpr ⟨sfd, file, hsfd, hfile, hpos, rfl⟩⟩
    rw [hextra]
    rfl

/-! ## Which messages wait -/

variable {sys}

/-- A message that waits asks for a busy pool to be resized. -/
theorem resizesBusyPool_of_wait {msg : WaylandMsg} {core : Core} {fds : List Fd}
    {rids : List SfdRef} {p : ProcMsg} {c' : Ctx} (hp : p.isWait)
    (h : processWayMsg sys msg ⟨core, .fromWayland fds rids⟩ = .ok (p, c')) :
    ResizesBusyPool msg core rids := by
  set c : Ctx := ⟨core, .fromWayland fds rids⟩ with hc
  have hd := dispatch_of_processWayMsg sys h
  unfold dispatch at hd
  cases hm : methodOf msg c with
  | none =>
    rw [hm] at hd
    exact absurd hp ((@procUnknownWayMsg_form msg false).not_isWait c p c' rfl hd)
  | some m =>
    rw [hm] at hd
    dsimp only at hd
    have hform := handlerOf_form sys (requestOf msg c m.meth) m.intf m.id (isReq_requestOf hm)
    have hwayland : FromWayland (requestOf msg c m.meth) c := fromWayland_requestOf rfl msg m.meth
    -- only the exception of `Calm` is left
    have hexc : (m.intf, m.id) = RESIZE ∧ PoolBusy (requestOf msg c m.meth) c := by
      by_contra hnot
      refine hform.not_isWait c p c' ⟨hwayland, fun hkey hbusy => hnot ⟨hkey, hbusy⟩⟩ hd hp
    obtain ⟨hkey, hbusy⟩ := hexc
    have hintf : m.intf = .wlShmPool := congrArg Prod.fst hkey
    have hid : m.id = .request 2 := congrArg Prod.snd hkey
    obtain ⟨htype, hidOf, -⟩ := methodOf_eq_some hm
    rw [hintf, hid] at hd
    have hspace : c.hasSpace msg.length 0 := by
      rcases wlShmPoolResize_of_busy sys _ hbusy hd with ⟨hspace, _⟩ | ⟨_, hnot, _⟩
      · exact hspace
      · exact absurd hp hnot
    obtain ⟨pool, sfd, file, hextra, hsfd, hfile, hpos⟩ := poolBusy_iff.mp hbusy
    obtain ⟨o, ho, hoextra⟩ := Option.map_eq_some_iff.mp hextra
    have hotype : o.objType = .wlShmPool := by
      have hlook : c.glob.objects.lookup msg.objectId = some o := ho
      rw [hlook, Option.map_some, hintf] at htype
      exact Option.some.inj htype
    -- the message is a request, so this is the application side
    have hreq : c.isReq = true ∧ WaylandMsg.opcode msg = 2 := by
      rw [hid] at hidOf
      cases hr : c.isReq with
      | true =>
        rw [hr, if_pos rfl] at hidOf
        exact ⟨rfl, (MethodId.request.inj hidOf).symm⟩
      | false =>
        rw [hr] at hidOf
        cases hidOf
    have hside : core.glob.onDisplaySide = false := by
      have hs := hwayland.side
      rw [show (requestOf msg c m.meth).isReq = true from hreq.1] at hs
      exact hs
    have hrids : rids.length ≤ MAX_OUTGOING_FDS := by
      by_contra hlong
      unfold processWayMsg at h
      rw [if_pos ⟨Nat.lt_of_not_le hlong, by rw [hm]; rfl⟩] at h
      cases h
    refine ⟨pool, sfd, file, hside, hreq.2, ?_, hsfd, hfile, hpos, hspace.1, hrids⟩
    show c.glob.objects.lookup msg.objectId = _
    rw [show c.glob.objects.lookup msg.objectId = some o from ho, ← hotype, ← hoextra]

/-- A request to resize a busy pool waits, if there is room for it. -/
theorem wait_of_resizesBusyPool {msg : WaylandMsg} {core : Core} {fds : List Fd}
    {rids : List SfdRef} (h : ResizesBusyPool msg core rids) :
    ∃ rid c', processWayMsg sys msg ⟨core, .fromWayland fds rids⟩ = .ok (.waitFor rid, c') := by
  obtain ⟨pool, sfd, file, hside, hop, hobj, hsfd, hfile, hpos, hspace, hrids⟩ := h
  set c : Ctx := ⟨core, .fromWayland fds rids⟩ with hc
  have hreq : c.isReq = true := by
    show (core.glob.onDisplaySide == false) = true
    rw [hside]
    rfl
  obtain ⟨meth, hmeth⟩ : ∃ meth, WaylandInterface.method .wlShmPool (.request 2) = some meth :=
    ⟨_, rfl⟩
  have hm : methodOf msg c = some { intf := .wlShmPool, id := .request 2, meth } := by
    unfold methodOf
    rw [show c.glob.objects.lookup msg.objectId = some _ from hobj]
    simp only [Option.bind_eq_bind, Option.bind_some, hreq, if_true, hop, hmeth]
    rfl
  have hextra : c.glob.extra? msg.objectId = some (.wlShmPool pool) := by
    unfold Globals.extra?
    rw [show c.glob.objects.lookup msg.objectId = some _ from hobj]
    rfl
  have hpool : (lookExtra msg.objectId WpExtra.wlShmPool?
      "wl_shm_pool object has invalid extra type").run c = .ok pool := by
    show c.glob.extraOf _ _ _ = _
    unfold Globals.extraOf
    rw [hextra]
    rfl
  have hroom : c.hasSpace msg.length 0 := ⟨hspace, Nat.zero_le _⟩
  refine ⟨sfd.remoteId, c, ?_⟩
  unfold processWayMsg
  rw [if_neg (fun hlong => absurd hlong.1 (Nat.not_lt.mpr hrids))]
  unfold dispatch
  rw [hm]
  refine Handler.needs_eq_ok.mpr (Or.inl ⟨hroom, ?_⟩)
  refine Handler.looking_eq_ok.mpr ⟨pool, hpool, ?_⟩
  refine Handler.waits_eq_ok.mpr (Or.inr ⟨sfd.remoteId, ?_, rfl⟩)
  exact fileWait_eq_some.mpr ⟨sfd, file, hsfd, hfile, hpos, rfl⟩

/-- In every state, the messages from Wayland that wait are the requests to resize a busy pool. -/
theorem wayland_waits_iff (sys : System) (msg : WaylandMsg) (core : Core) (fds : List Fd)
    (rids : List SfdRef) :
    (∃ rid c', processWayMsg sys msg ⟨core, .fromWayland fds rids⟩ = .ok (.waitFor rid, c')) ↔
      ResizesBusyPool msg core rids := by
  constructor
  · rintro ⟨rid, c', h⟩
    exact resizesBusyPool_of_wait (p := .waitFor rid) trivial h
  · exact wait_of_resizesBusyPool

/-! ## A pool that is busy -/

/-- Bind a global of the registry 2 to a new id. -/
def bindMsg (intf : WaylandInterface) (newId : Nat) : WaylandMsg :=
  .make 2 0 (.u32 1 ++ .string intf.name ++ .u32 1 ++ .obj newId)

/-- An application makes a pool with one buffer and asks for a screen capture into it. -/
def captureMsgs : List WaylandMsg :=
  [.make 1 1 (.obj 2),
    bindMsg .wlShm 3,
    bindMsg .zwlrScreencopyManagerV1 4,
    bindMsg .wlOutput 5,
    .make 3 0 (.obj 6 ++ .i32 64),
    .make 6 0 (.obj 7 ++ .i32 0 ++ .i32 4 ++ .i32 4 ++ .i32 16 ++ .u32 0),
    .make 4 0 (.obj 8 ++ .i32 0 ++ .obj 5),
    .make 8 0 (.obj 7)]

/-- An update of the file with the given id that changes nothing. -/
def emptyDiff (rid : Rid) : List UInt8 :=
  u32le (16 * 2 ^ 5 + WmsgType.bufferDiff.code) ++ i32le rid ++ u32le 0 ++ u32le 0

/-- The first part of the captured image arrives, and the application enlarges the pool. -/
def captureEvents : List InstanceEvent :=
  [.wayRead captureMsgs [9], .processWayland, .chanWrite,
    .chanRead (.sfd .bufferDiff (emptyDiff 1)), .processChannel,
    .wayRead [.make 6 2 (.i32 128)] []]

/-- The request is told to wait, which the loop takes to be impossible. -/
theorem capture_makes_resize_wait :
    (Transition.run (Instance.step .headless .plain) (.start false .plain) captureEvents).bind
      (fun s => s.failure .headless .plain .processWayland) =
        some (.panic "Unexpected ProcMsg::WaitFor") := by
  decide +kernel

end Waypipe
