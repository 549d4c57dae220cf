import Waypipe.Lib.Post
import Waypipe.Tracking.ObjectMap

/-!
# Postconditions of the pieces of handlers

The rules of `Post` for the actions that handlers are made of, and the same for handlers
(`Handler.Post`).  Actions on the tracked state and actions with output are lifted to the level of
the whole context; the rules take that apart again.
-/

namespace Waypipe

open Wayland

variable {α : Type} {kind : WpExtra → Option α} {id : ObjId} {r : SfdRef} {msg missing : String}
  {w : Words}

/-! ## Kinds of extra data -/

namespace WpExtra

variable {x : WpExtra}

@[simp] theorem wlSurface?_eq_some {a} : x.wlSurface? = some a ↔ x = .wlSurface a := by
  cases x <;> simp [wlSurface?]

@[simp] theorem wlBuffer?_eq_some {a} : x.wlBuffer? = some a ↔ x = .wlBuffer a := by
  cases x <;> simp [wlBuffer?]

@[simp] theorem registryData?_eq_some {a} : x.registryData? = some a ↔ x = .wlRegistry a := by
  cases x <;> simp [registryData?]

@[simp] theorem wlShmPool?_eq_some {a} : x.wlShmPool? = some a ↔ x = .wlShmPool a := by
  cases x <;> simp [wlShmPool?]

@[simp] theorem wpViewport?_eq_some {a} : x.wpViewport? = some a ↔ x = .wpViewport a := by
  cases x <;> simp [wpViewport?]

@[simp] theorem zwpDmabuf?_eq_some {a} : x.zwpDmabuf? = some a ↔ x = .zwpDmabuf a := by
  cases x <;> simp [zwpDmabuf?]

@[simp] theorem zwpDmabufFeedback?_eq_some {a} :
    x.zwpDmabufFeedback? = some a ↔ x = .zwpDmabufFeedback a := by
  cases x <;> simp [zwpDmabufFeedback?]

@[simp] theorem zwpDmabufParams?_eq_some {a} :
    x.zwpDmabufParams? = some a ↔ x = .zwpDmabufParams a := by
  cases x <;> simp [zwpDmabufParams?]

@[simp] theorem zwlrScreencopyFrame?_eq_some {a} :
    x.zwlrScreencopyFrame? = some a ↔ x = .zwlrScreencopyFrame a := by
  cases x <;> simp [zwlrScreencopyFrame?]

@[simp] theorem extImageCopyCaptureSession?_eq_some {a} :
    x.extImageCopyCaptureSession? = some a ↔ x = .extImageCopyCaptureSession a := by
  cases x <;> simp [extImageCopyCaptureSession?]

@[simp] theorem extImageCopyCaptureFrame?_eq_some {a} :
    x.extImageCopyCaptureFrame? = some a ↔ x = .extImageCopyCaptureFrame a := by
  cases x <;> simp [extImageCopyCaptureFrame?]

@[simp] theorem zwlrGammaControl?_eq_some {a} :
    x.zwlrGammaControl? = some a ↔ x = .zwlrGammaControl a := by
  cases x <;> simp [zwlrGammaControl?]

@[simp] theorem wpDrmSyncobjSurface?_eq_some {a} :
    x.wpDrmSyncobjSurface? = some a ↔ x = .wpDrmSyncobjSurface a := by
  cases x <;> simp [wpDrmSyncobjSurface?]

@[simp] theorem wpDrmSyncobjTimeline?_eq_some {a} :
    x.wpDrmSyncobjTimeline? = some a ↔ x = .wpDrmSyncobjTimeline a := by
  cases x <;> simp [wpDrmSyncobjTimeline?]

end WpExtra

/-- The extra data of an object of the right kind. -/
@[simp] theorem Globals.extraOf_eq_ok {g : Globals} {a : α} :
    g.extraOf id kind msg = .ok a ↔ ∃ x, g.extra? id = some x ∧ kind x = some a := by
  unfold extraOf
  rw [orErr_eq_ok, Option.bind_eq_some_iff]

@[simp] theorem lookExtra_eq_ok {c : Ctx} {a : α} :
    (lookExtra id kind msg).run c = .ok a ↔ ∃ x, c.glob.extra? id = some x ∧ kind x = some a :=
  Globals.extraOf_eq_ok

@[simp] theorem fail_eq_ok {a : α} : fail msg = .ok a ↔ False := by
  simp [fail]

attribute [simp] orErr_eq_ok orPanic_eq_ok

/-- A check that fails ends the action. -/
theorem post_guard {σ β : Type} {p : Prop} [Decidable p] {s : σ} {m : StateT σ Res β}
    {f : α → StateT σ Res β} {P : β → σ → Prop} :
    Post (if p then liftM (fail msg : Res α) >>= f else m) s P ↔ (¬ p → Post m s P) := by
  simp

/-- Nothing waits for a file without tasks. -/
theorem fileWait_eq_ok {c : Ctx} {wait : Option Rid} (h : (fileWait r).run c = .ok wait) :
    ∃ sfd f, c.glob.sfds[r]? = some sfd ∧ sfd.data = .file f ∧
      (f.pendingApplyTasks = 0 ↔ wait = none) := by
  obtain ⟨sfd, hsfd, h⟩ := Res.bind_eq_ok.mp h
  obtain ⟨busy, hbusy, h⟩ := Res.bind_eq_ok.mp h
  unfold fileHasPendingApplyTasks at hbusy
  split at hbusy
  · rename_i f hf
    cases hbusy
    cases h
    refine ⟨sfd, f, orPanic_eq_ok.mp hsfd, hf, ?_⟩
    simp [Nat.pos_iff_ne_zero]
  · cases hbusy

/-! ## Arguments -/

theorem post_parseU32 {tail : List UInt8} {P : Nat → List UInt8 → Prop}
    (h : ∀ n rest, n < 2 ^ 32 → P n rest) : Post parseU32 tail P :=
  fun n rest hrun => h n rest (parseU32_lt hrun)

theorem post_parseI32 {tail : List UInt8} {P : Int → List UInt8 → Prop}
    (h : ∀ i rest, i < 2 ^ 31 → P i rest) : Post parseI32 tail P := by
  refine Post.bind_iff.mpr (post_parseU32 fun n rest hn => Post.pure_iff.mpr (h _ _ ?_))
  unfold Wayland.toI32
  split <;> omega

theorem parseArgs_post {args : ArgParser α} {P : α → Prop} {msg : WaylandMsg} {a : α}
    (h : Post args (msg.bytes.drop 8) fun a _ => P a) (ha : parseArgs args msg = .ok a) : P a := by
  unfold parseArgs parseMsg at ha
  split at ha
  · rename_i b hb
    cases ha
    split at hb
    · cases hb
    · split at hb
      · cases hb
      · rename_i a' rest hargs
        split at hb
        · cases hb
          exact h _ _ hargs
        · cases hb
  · cases ha

/-! ## Actions on the tracked state -/

namespace Globals

variable (g : Globals)

/-- The state with an object more, or another one. -/
def withObject (id : ObjId) (o : WpObject) : Globals := { g with objects := g.objects.insert id o }

def withoutObject (id : ObjId) : Globals := { g with objects := g.objects.erase id }

/-- Extra data is all that an update of it changes. -/
theorem setExtra_eq (id : ObjId) (x : WpExtra) :
    g.setExtra id x = { g with objects := (g.setExtra id x).objects } := by
  unfold setExtra
  cases g.objects.lookup id <;> rfl

theorem extra?_setExtra_ne {g : Globals} {id' : ObjId} {x : WpExtra} (h : id' ≠ id) :
    (g.setExtra id x).extra? id' = g.extra? id' := by
  unfold setExtra extra?
  cases g.objects.lookup id with
  | none => rfl
  | some o => exact congrArg _ (AList.lookup_insert_ne h)

@[simp] theorem setExtra_sfds (id : ObjId) (x : WpExtra) : (g.setExtra id x).sfds = g.sfds := by
  rw [setExtra_eq]

@[simp] theorem setExtra_map (id : ObjId) (x : WpExtra) : (g.setExtra id x).map = g.map := by
  rw [setExtra_eq]

end Globals

section Globals

variable {g : Globals} {P : Unit → Globals → Prop}

@[simp] theorem post_getGlob {P : Globals → Globals → Prop} : Post getGlob g P ↔ P g g := Post.get_iff

@[simp] theorem post_modifyGlob {f : Globals → Globals} :
    Post (modifyGlob f) g P ↔ P () (f g) := Post.modify_iff

@[simp] theorem post_extraOf {P : α → Globals → Prop} :
    Post (extraOf id kind msg) g P ↔ ∀ x a, kind x = some a → g.extra? id = some x → P a g := by
  unfold extraOf
  simp only [Post.bind_iff, post_getGlob, Post.lift_iff, Globals.extraOf_eq_ok]
  constructor
  · intro h x a ha hx
    exact h a ⟨x, hx, ha⟩
  · rintro h a ⟨x, hx, ha⟩
    exact h x a ha hx

@[simp] theorem post_setExtra {x : WpExtra} :
    Post (setExtra id x) g P ↔ P () (g.setExtra id x) := post_modifyGlob

@[simp] theorem post_removeObject :
    Post (removeObject id) g P ↔ P () (g.withoutObject id) := post_modifyGlob

@[simp] theorem post_insertNewObject {t : WaylandInterface} {x : WpExtra}
    :
    Post (insertNewObject id t x) g P ↔ (g.objects.lookup id = none →
      P () (g.withObject id { objType := t, extra := x })) := by
  unfold insertNewObject Globals.withObject
  cases h : g.objects.lookup id with
  | none => simp [h]
  | some o => simp [h]

@[simp] theorem post_readSfd {P : ShadowFd → Globals → Prop} :
    Post (readSfd r) g P ↔ ∀ s, g.sfds[r]? = some s → P s g := by
  unfold readSfd Globals.sfd
  simp

@[simp] theorem post_putSfd {s : ShadowFd} :
    Post (putSfd r s) g P ↔ P () (g.setSfd r s) := post_modifyGlob

@[simp] theorem post_putSfdData {data : ShadowFdVariant} :
    Post (putSfdData r data) g P ↔
      ∀ s, g.sfds[r]? = some s → P () (g.setSfd r { s with data }) := by
  unfold putSfdData
  simp

/-- The rule where the descriptor has been read before. -/
theorem post_putSfdData_of {s : ShadowFd} {data : ShadowFdVariant}
    (hs : g.sfds[r]? = some s) :
    Post (putSfdData r data) g P ↔ P () (g.setSfd r { s with data }) := by
  simp [hs]

@[simp] theorem post_addSfd {s : ShadowFd} {P : SfdRef → Globals → Prop} :
    Post (addSfd s) g P ↔ P g.sfds.length { g with
      sfds := g.sfds ++ [s], map := g.map.insert s.remoteId g.sfds.length } := by
  unfold addSfd
  simp

/-- The id that is allocated is the one that was next. -/
theorem post_allocateRid {P : Rid → Globals → Prop}
    (h : P g.maxLocalId { g with maxLocalId := g.maxLocalId + g.maxLocalId.sign }) :
    Post allocateRid g P := by
  unfold allocateRid
  simp only [Post.bind_iff, post_getGlob]
  split
  · simp
  · simpa using h

end Globals

/-! ## Actions with output -/

theorem Output.write_data {out out' : Output} (h : out.write w = .ok out') :
    out'.data = out.data ++ w.bytes := by
  unfold Output.write at h
  split at h
  · cases h
    rfl
  · cases h

/-- Output is written when there is room for it. -/
theorem Output.exists_write {out : Output} (h : w.bytes.length ≤ out.space) :
    ∃ out', out.write w = .ok out' := by
  have hfits : out.data.length + w.bytes.length ≤ out.capacity := by
    have hspace : w.bytes.length ≤ out.capacity - out.data.length := h
    have hdata := out.fits
    omega
  unfold Output.write
  rw [dif_pos hfits]
  exact ⟨_, rfl⟩

section Core

variable {c : Core} {P : Unit → Core → Prop}

/-- An action on the tracked state runs on that part of the core. -/
theorem act_eq (m : GlobAct α) : (liftM m : Act α) = (get >>= fun c =>
    StateT.lift (m.run c.glob) >>= fun x =>
      set ({ c with glob := x.2 } : Core) >>= fun _ => pure x.1) := rfl

@[simp] theorem post_act {m : GlobAct α} {P : α → Core → Prop} :
    Post (liftM m : Act α) c P ↔ Post m c.glob fun a g => P a { c with glob := g } := by
  rw [act_eq]
  simp only [Post.bind_iff, Post.get_iff, Post.set_iff, Post.pure_iff]
  constructor
  · intro h a g hg
    exact h (a, g) c (StateT.run_lift_eq_ok.mpr ⟨hg, rfl⟩)
  · intro h x t hx
    obtain ⟨hx, rfl⟩ := StateT.run_lift_eq_ok.mp hx
    exact h x.1 x.2 hx

@[simp] theorem post_res {x : Res α} {P : α → Core → Prop} :
    Post (liftM x : Act α) c P ↔ ∀ a, x = .ok a → P a c := by
  show Post (liftM (liftM x : GlobAct α) : Act α) c P ↔ _
  simp

theorem post_guardAct {β : Type} {p : Prop} [Decidable p] {m : Act β} {f : α → Act β}
    {P : β → Core → Prop} :
    Post (if p then (liftM (fail msg : Res α) : Act α) >>= f else m) c P ↔ (¬ p → Post m c P) := by
  simp

@[simp] theorem post_emit :
    Post (emit w) c P ↔ ∀ out, c.out.write w = .ok out → P () { c with out } := by
  unfold emit
  simp

@[simp] theorem post_emitMsg {w : Res Words} :
    Post (emitMsg w) c P ↔ ∀ v, w = .ok v → ∀ out, c.out.write v = .ok out → P () { c with out } := by
  unfold emitMsg
  simp

@[simp] theorem post_copyMsg {msg : WaylandMsg} :
    Post (copyMsg msg) c P ↔ ∀ out, c.out.write msg.words = .ok out → P () { c with out } := post_emit

/-- The message is written with a tag for one descriptor, or without the tag that it must have. -/
theorem post_copyMsgTagFd_write {msg : WaylandMsg} {fromChannel : Bool}
    (h : ∀ out, (fromChannel = true → msg.header2.testBit 11 = true) →
      c.out.write (retag msg (msg.header2 / 2 ^ 16 * 2 ^ 16 +
        (msg.header2 % 2 ^ 8 + if fromChannel then 0 else 2 ^ 11))) = .ok out →
        P () { c with out }) : Post (copyMsgTagFd msg fromChannel) c P := by
  unfold copyMsgTagFd
  split
  · rename_i hfrom
    rw [if_pos hfrom] at h
    dsimp only
    split
    · rename_i hbit
      exact post_emit.mpr fun out hout => h out (fun _ => hbit) hout
    · simp
  · rename_i hfrom
    rw [if_neg hfrom, ← Nat.add_assoc] at h
    exact post_emit.mpr fun out hout => h out (fun hf => absurd hf hfrom) hout

/-- Whatever the tag, only the output changes. -/
theorem post_copyMsgTagFd {msg : WaylandMsg} {fromChannel : Bool}
    (h : ∀ out, P () { c with out }) : Post (copyMsgTagFd msg fromChannel) c P :=
  post_copyMsgTagFd_write fun out _ _ => h out

end Core

/-! ## Actions on the queues -/

section Ctx

variable {c : Ctx} {check : SfdRef → Act Unit} {translate : Fd → Act SfdRef}
  {P : SfdRef → Ctx → Prop}

theorem liftAct_eq (m : Act α) : liftAct m = (get >>= fun c =>
    (liftM (m.run c.core) : FdAct (α × Core)) >>= fun x =>
      set ({ c with core := x.2 } : Ctx) >>= fun _ => pure x.1) := rfl

@[simp] theorem post_liftAct {m : Act α} {P : α → Ctx → Prop} :
    Post (liftAct m) c P ↔ Post m c.core fun a core => P a { c with core } := by
  rw [liftAct_eq]
  simp only [Post.bind_iff, Post.get_iff, Post.lift_iff, Post.set_iff, Post.pure_iff]
  constructor
  · intro h a core hm
    exact h (a, core) hm
  · intro h x hx
    exact h x.1 x.2 hx

@[simp] theorem post_pushOut {sfd : SfdRef} {P : Unit → Ctx → Prop} :
    Post (pushOut sfd) c P ↔ P () { c with transl := c.transl.push sfd } := Post.modify_iff

@[simp] theorem post_popFd {P : Fd → Ctx → Prop} :
    Post popFd c P ↔ ∀ fd fds rids, c.transl = .fromWayland (fd :: fds) rids →
      P fd { c with transl := .fromWayland fds rids } := by
  unfold popFd
  simp only [Post.bind_iff, Post.get_iff]
  split
  · rename_i fd fds rids h
    simp [h]
  · rename_i hnot
    simp only [Post.lift_iff, fail_eq_ok, false_implies, implies_true, true_iff]
    intro fd fds rids h
    exact absurd h (hnot fd fds rids)

@[simp] theorem post_popSfd :
    Post (popSfd missing) c P ↔ ∀ sfd sfds fds, c.transl = .fromChannel (sfd :: sfds) fds →
      P sfd { c with transl := .fromChannel sfds fds } := by
  unfold popSfd
  simp only [Post.bind_iff, Post.get_iff]
  split
  · rename_i sfd sfds fds h
    simp [h]
  · rename_i hnot
    simp only [Post.lift_iff, fail_eq_ok, false_implies, implies_true, true_iff]
    intro sfd sfds fds h
    exact absurd h (hnot sfd sfds fds)

/-- A descriptor that is passed on comes from the queue of the channel, or is new. -/
@[simp] theorem post_passFd :
    Post (passFd missing check translate) c P ↔
      (∀ sfd sfds fds, c.transl = .fromChannel (sfd :: sfds) fds →
        Post (check sfd) c.core fun _ core =>
          P sfd { core, transl := .fromChannel sfds (fds ++ [sfd]) }) ∧
      (∀ fd fds rids, c.transl = .fromWayland (fd :: fds) rids →
        Post (translate fd) c.core fun sfd core =>
          P sfd { core, transl := .fromWayland fds (rids ++ [sfd]) }) := by
  unfold passFd
  cases ht : c.transl with
  | fromChannel sfds fds =>
    cases sfds <;> simp [ht, Transl.isFromChannel, Transl.push, Transl.withOutgoing, Transl.outgoing]
  | fromWayland fds rids =>
    cases fds <;> simp [ht, Transl.isFromChannel, Transl.push, Transl.withOutgoing, Transl.outgoing]

end Ctx

/-! ## Handlers -/

/-- Every outcome of the handler in `c` satisfies `P`. -/
def Handler.Ensures (h : Handler) (c : Ctx) (P : ProcMsg → Ctx → Prop) : Prop :=
  ∀ p c', h c = .ok (p, c') → P p c'

namespace Handler.Ensures

variable {α : Type} {k : Handler} {c : Ctx} {P : ProcMsg → Ctx → Prop}

@[simp] theorem drop_iff : Ensures .drop c P ↔ P .done c := by
  constructor
  · intro h
    exact h .done c rfl
  · intro h p c' hrun
    cases hrun
    exact h

@[simp] theorem act_iff {m : Act Unit} :
    Ensures (.act m) c P ↔ Post m c.core fun _ core => P .done { c with core } := by
  constructor
  · intro h _ core hm
    exact h _ _ (act_eq_ok.mpr ⟨core, hm, rfl⟩)
  · intro h p c' hrun
    obtain ⟨core, hm, hx⟩ := act_eq_ok.mp hrun
    cases hx
    exact h () core hm

@[simp] theorem actFd_iff {m : FdAct Unit} :
    Ensures (.actFd m) c P ↔ Post m c fun _ c' => P .done c' := by
  constructor
  · intro h _ c' hm
    exact h _ _ (actFd_eq_ok.mpr ⟨c', hm, rfl⟩)
  · intro h p c' hrun
    obtain ⟨t, hm, hx⟩ := actFd_eq_ok.mp hrun
    cases hx
    exact h () c' hm

@[simp] theorem looking_iff {r : Look α} {k : α → Handler} :
    Ensures (.looking r k) c P ↔ ∀ a, r.run c = .ok a → Ensures (k a) c P := by
  constructor
  · intro h a ha p c' hrun
    exact h p c' (looking_eq_ok.mpr ⟨a, ha, hrun⟩)
  · intro h p c' hrun
    obtain ⟨a, ha, hk⟩ := looking_eq_ok.mp hrun
    exact h a ha p c' hk

@[simp] theorem parsing_iff {x : Res α} {k : α → Handler} :
    Ensures (.parsing x k) c P ↔ ∀ a, x = .ok a → Ensures (k a) c P := looking_iff

@[simp] theorem needs_iff {bytes fds : Nat} :
    Ensures (.needs bytes fds k) c P ↔ (c.hasSpace bytes fds → Ensures k c P) ∧
      (¬ c.hasSpace bytes fds → P (.needsSpace bytes fds) c) := by
  constructor
  · intro h
    exact ⟨fun hs p c' hk => h p c' (needs_eq_ok.mpr (Or.inl ⟨hs, hk⟩)),
      fun hs => h _ _ (needs_eq_ok.mpr (Or.inr ⟨hs, rfl⟩))⟩
  · rintro ⟨hyes, hno⟩ p c' hrun
    rcases needs_eq_ok.mp hrun with ⟨hs, hk⟩ | ⟨hs, hx⟩
    · exact hyes hs p c' hk
    · cases hx
      exact hno hs

@[simp] theorem waits_iff {r : Look (Option Rid)} :
    Ensures (.waits r k) c P ↔ (r.run c = .ok none → Ensures k c P) ∧
      (∀ rid, r.run c = .ok (some rid) → P (.waitFor rid) c) := by
  constructor
  · intro h
    exact ⟨fun hr p c' hk => h p c' (waits_eq_ok.mpr (Or.inl ⟨hr, hk⟩)),
      fun rid hr => h _ _ (waits_eq_ok.mpr (Or.inr ⟨rid, hr, rfl⟩))⟩
  · rintro ⟨hyes, hno⟩ p c' hrun
    rcases waits_eq_ok.mp hrun with ⟨hr, hk⟩ | ⟨rid, hr, hx⟩
    · exact hyes hr p c' hk
    · cases hx
      exact hno rid hr

@[simp] theorem first_iff {m : GlobAct Unit} :
    Ensures (.first m k) c P ↔ Post m c.glob fun _ g => Ensures k (c.setGlob g) P := by
  constructor
  · intro h _ g hm p c' hk
    exact h p c' (first_eq_ok.mpr ⟨g, hm, hk⟩)
  · intro h p c' hrun
    obtain ⟨g, hm, hk⟩ := first_eq_ok.mp hrun
    exact h () g hm p c' hk

end Handler.Ensures

/-! ## Actions that return -/

section

variable {g : Globals} {c : Core}

@[simp] theorem yields_getGlob {P : Globals → Globals → Prop} : Yields getGlob g P ↔ P g g :=
  Yields.get_iff

@[simp] theorem yields_extraOf {P : α → Globals → Prop} :
    Yields (extraOf id kind msg) g P ↔ ∃ a, g.extraOf id kind msg = .ok a ∧ P a g := by
  unfold extraOf
  simp only [Yields.bind_iff, yields_getGlob, Yields.lift_iff]

@[simp] theorem yields_readSfd {P : ShadowFd → Globals → Prop} :
    Yields (readSfd r) g P ↔ ∃ s, g.sfds[r]? = some s ∧ P s g := by
  unfold readSfd Globals.sfd
  simp

@[simp] theorem yields_setExtra {x : WpExtra} {P : Unit → Globals → Prop} :
    Yields (setExtra id x) g P ↔ P () (g.setExtra id x) := Yields.modify_iff

@[simp] theorem yields_act {m : GlobAct α} {P : α → Core → Prop} :
    Yields (liftM m : Act α) c P ↔ Yields m c.glob fun a g => P a { c with glob := g } := by
  rw [act_eq]
  simp only [Yields.bind_iff, Yields.get_iff, Yields.set_iff, Yields.pure_iff]
  constructor
  · rintro ⟨x, t, hx, hP⟩
    obtain ⟨hx, rfl⟩ := StateT.run_lift_eq_ok.mp hx
    exact ⟨x.1, x.2, hx, hP⟩
  · rintro ⟨a, g, hg, hP⟩
    exact ⟨(a, g), c, StateT.run_lift_eq_ok.mpr ⟨hg, rfl⟩, hP⟩

@[simp] theorem yields_res {x : Res α} {P : α → Core → Prop} :
    Yields (liftM x : Act α) c P ↔ ∃ a, x = .ok a ∧ P a c := by
  show Yields (liftM (liftM x : GlobAct α) : Act α) c P ↔ _
  simp

@[simp] theorem yields_modifyGlob {f : Globals → Globals} {P : Unit → Globals → Prop} :
    Yields (modifyGlob f) g P ↔ P () (f g) := Yields.modify_iff

@[simp] theorem yields_addSfd {s : ShadowFd} {P : SfdRef → Globals → Prop} :
    Yields (addSfd s) g P ↔ P g.sfds.length { g with
      sfds := g.sfds ++ [s], map := g.map.insert s.remoteId g.sfds.length } := by
  unfold addSfd
  simp

/-- As long as there are ids, one is allocated. -/
theorem yields_allocateRid {P : Rid → Globals → Prop}
    (hlow : -2 ^ 31 ≤ g.maxLocalId + g.maxLocalId.sign)
    (hhigh : g.maxLocalId + g.maxLocalId.sign < 2 ^ 31)
    (h : P g.maxLocalId { g with maxLocalId := g.maxLocalId + g.maxLocalId.sign }) :
    Yields allocateRid g P := by
  unfold allocateRid
  simp only [Yields.bind_iff, yields_getGlob]
  rw [if_neg (by omega)]
  simpa using h

theorem yields_emit {P : Unit → Core → Prop} (hspace : w.bytes.length ≤ c.out.space)
    (h : ∀ out, P () { c with out }) : Yields (emit w) c P := by
  obtain ⟨out, hout⟩ := Output.exists_write hspace
  unfold emit
  simp only [Yields.bind_iff, Yields.get_iff, yields_res, Yields.set_iff]
  exact ⟨out, hout, h out⟩

theorem yields_copyMsg {msg : WaylandMsg} {P : Unit → Core → Prop}
    (hspace : msg.length ≤ c.out.space) (h : ∀ out, P () { c with out }) :
    Yields (copyMsg msg) c P := yields_emit hspace h

end

section

variable {c : Ctx} {check : SfdRef → Act Unit} {translate : Fd → Act SfdRef}
  {P : SfdRef → Ctx → Prop}

@[simp] theorem yields_liftAct {m : Act α} {P : α → Ctx → Prop} :
    Yields (liftAct m) c P ↔ Yields m c.core fun a core => P a { c with core } := by
  rw [liftAct_eq]
  simp only [Yields.bind_iff, Yields.get_iff, Yields.lift_iff, Yields.set_iff, Yields.pure_iff]
  constructor
  · rintro ⟨x, hx, hP⟩
    exact ⟨x.1, x.2, hx, hP⟩
  · rintro ⟨a, core, hm, hP⟩
    exact ⟨(a, core), hm, hP⟩

@[simp] theorem yields_pushOut {sfd : SfdRef} {P : Unit → Ctx → Prop} :
    Yields (pushOut sfd) c P ↔ P () { c with transl := c.transl.push sfd } := Yields.modify_iff

/-- A descriptor from the channel is passed on. -/
theorem yields_passFd_channel {sfd : SfdRef} {sfds fds : List SfdRef}
    (ht : c.transl = .fromChannel (sfd :: sfds) fds)
    (h : Yields (check sfd) c.core fun _ core =>
      P sfd { core, transl := .fromChannel sfds (fds ++ [sfd]) }) :
    Yields (passFd missing check translate) c P := by
  unfold passFd popSfd
  simpa [ht, Transl.isFromChannel, Transl.push, Transl.withOutgoing, Transl.outgoing] using h

/-- A descriptor from Wayland is translated and passed on. -/
theorem yields_passFd_wayland {fd : Fd} {fds : List Fd} {rids : List SfdRef}
    (ht : c.transl = .fromWayland (fd :: fds) rids)
    (h : Yields (translate fd) c.core fun sfd core =>
      P sfd { core, transl := .fromWayland fds (rids ++ [sfd]) }) :
    Yields (passFd missing check translate) c P := by
  unfold passFd popFd
  simpa [ht, Transl.isFromChannel, Transl.push, Transl.withOutgoing, Transl.outgoing] using h

end

/-- The handler returns in `c`, and with `P`. -/
def Handler.Returns (h : Handler) (c : Ctx) (P : ProcMsg → Ctx → Prop) : Prop :=
  ∃ p c', h c = .ok (p, c') ∧ P p c'

namespace Handler.Returns

variable {k : Handler} {c : Ctx} {P : ProcMsg → Ctx → Prop}

theorem act {m : Act Unit} (h : Yields m c.core fun _ core => P .done { c with core }) :
    Returns (.act m) c P := by
  obtain ⟨_, core, hm, hP⟩ := h
  exact ⟨_, _, act_eq_ok.mpr ⟨core, hm, rfl⟩, hP⟩

theorem actFd {m : FdAct Unit} (h : Yields m c fun _ c' => P .done c') :
    Returns (.actFd m) c P := by
  obtain ⟨_, c', hm, hP⟩ := h
  exact ⟨_, _, actFd_eq_ok.mpr ⟨c', hm, rfl⟩, hP⟩

theorem looking {r : Look α} {k : α → Handler} {a : α} (ha : r.run c = .ok a)
    (h : Returns (k a) c P) : Returns (.looking r k) c P := by
  obtain ⟨p, c', hk, hP⟩ := h
  exact ⟨p, c', looking_eq_ok.mpr ⟨a, ha, hk⟩, hP⟩

theorem waits {r : Look (Option Rid)} (hr : r.run c = .ok none) (h : Returns k c P) :
    Returns (.waits r k) c P := by
  obtain ⟨p, c', hk, hP⟩ := h
  exact ⟨p, c', waits_eq_ok.mpr (Or.inl ⟨hr, hk⟩), hP⟩

theorem needs {bytes fds : Nat} (hspace : c.hasSpace bytes fds) (h : Returns k c P) :
    Returns (.needs bytes fds k) c P := by
  obtain ⟨p, c', hk, hP⟩ := h
  exact ⟨p, c', needs_eq_ok.mpr (Or.inl ⟨hspace, hk⟩), hP⟩

end Handler.Returns

end Waypipe
