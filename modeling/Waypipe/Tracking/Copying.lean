import Waypipe.Tracking.HandlerMoves
import Waypipe.Wayland.Stream

/-!
# Messages that are only copied

Messages of unknown objects, messages without a handler of their own and messages that pass one
file descriptor are copied.  The instance that gets them from its program may write the number of
descriptors into the header; the other instance takes it out again.  `processWayMsg_copied` says
what one instance does with such a message.
-/

namespace Waypipe

open Wayland LeBytes Handler List

/-! ## Ways through an instance -/

/-- How a message is copied. -/
inductive Path where
  /-- The object or the method is not known. -/
  | unknown
  /-- Default processing of a method without file descriptors. -/
  | plain
  /-- One descriptor is passed, and the message is tagged with it. -/
  | tagged
  deriving DecidableEq, Repr

/-- The methods that pass a pipe for a selection. -/
def selectionMethods : List (WaylandInterface × MethodId) :=
  [(.zwpPrimarySelectionSourceV1, .event 0), (.zwpPrimarySelectionOfferV1, .request 0),
    (.gtkPrimarySelectionSource, .event 0), (.gtkPrimarySelectionOffer, .request 0),
    (.extDataControlSourceV1, .event 0), (.extDataControlOfferV1, .request 0),
    (.zwlrDataControlSourceV1, .event 0), (.zwlrDataControlOfferV1, .request 0),
    (.wlDataSource, .event 1), (.wlDataOffer, .request 1)]

/-- The methods whose handlers copy the message with `copy_msg_tag_fd`. -/
def taggedMethods : List (WaylandInterface × MethodId) :=
  [(.wlShm, .request 0), (.wpLinuxDrmSyncobjManagerV1, .request 2), (.wlKeyboard, .event 0),
    (.wpImageDescriptionInfoV1, .event 1), (.wpImageDescriptionCreatorIccV1, .request 1),
    (.zwlrGammaControlV1, .request 0)] ++ selectionMethods

variable (sys : System)

/-- The way of a message, if it is one of these. -/
def pathOf : Option Method → Option Path
  | none => some .unknown
  | some m =>
    if (m.intf, m.id) ∈ taggedMethods then some .tagged
    else if ((handlers sys).lookup (m.intf, m.id)).isNone ∧ m.meth.fdCount = 0 then some .plain
    else none

variable {sys}

theorem pathOf_unknown {m : Option Method} (h : pathOf sys m = some .unknown) : m = none := by
  cases m with
  | none => rfl
  | some m =>
    simp only [pathOf] at h
    split at h
    · cases h
    · split at h <;> cases h

theorem pathOf_tagged {m : Option Method} (h : pathOf sys m = some .tagged) :
    ∃ m', m = some m' ∧ (m'.intf, m'.id) ∈ taggedMethods := by
  cases m with
  | none => cases h
  | some m =>
    simp only [pathOf] at h
    split at h
    · exact ⟨m, rfl, ‹_›⟩
    · split at h <;> cases h

theorem pathOf_plain {m : Option Method} (h : pathOf sys m = some .plain) :
    ∃ m', m = some m' ∧ handlerOf sys m'.intf m'.id = defaultProcWayMsg := by
  cases m with
  | none => cases h
  | some m =>
    simp only [pathOf] at h
    split at h
    · cases h
    · split at h
      · rename_i hplain
        refine ⟨m, rfl, ?_⟩
        unfold handlerOf
        rw [Option.isNone_iff_eq_none.mp hplain.1]
        rfl
      · cases h

variable (sys) in
theorem handlerOf_selection :
    ∀ key ∈ selectionMethods, handlerOf sys key.1 key.2 = transferSelection := by
  simp only [selectionMethods, forall_mem_cons]
  exact ⟨rfl, rfl, rfl, rfl, rfl, rfl, rfl, rfl, rfl, rfl, fun _ h => nomatch h⟩

/-! ## Headers -/

/-- The lower half of the second word of the header. -/
def opcodeField (msg : WaylandMsg) : Nat := msg.header2 % 2 ^ 16

/-- The opcodes for which nothing is lost: eight bits beside a tag, eleven otherwise. -/
def Path.fits (p : Path) (msg : WaylandMsg) : Prop :=
  match p with
  | .tagged => opcodeField msg < 2 ^ 8
  | .unknown | .plain => opcodeField msg < 2 ^ 11

instance (p : Path) (msg : WaylandMsg) : Decidable (p.fits msg) :=
  match p with
  | .tagged | .unknown | .plain => inferInstanceAs (Decidable (_ < _))

/-- The message as it goes over the channel. -/
def wireMsg (p : Path) (msg : WaylandMsg) : WaylandMsg :=
  match p with
  | .tagged => msg.retagged (msg.header2 % 2 ^ 8 + 2 ^ 11) (by omega)
  | .unknown | .plain => msg

/-- What is delivered for a message from the channel. -/
def deliveredBytes (p : Path) (msg : WaylandMsg) : List UInt8 :=
  match p with
  | .tagged => (retag msg (msg.header2With (msg.header2 % 2 ^ 8))).bytes
  | .unknown => (retag msg (msg.header2With (msg.header2 % 2 ^ 11))).bytes
  | .plain => msg.bytes

/-- The number of descriptors that go with a message from Wayland. -/
def Path.sends : Path → Nat
  | .tagged => 1
  | .unknown | .plain => 0

/-- The number of descriptors that are delivered with a message from the channel. -/
def Path.delivers (p : Path) (msg : WaylandMsg) : Nat :=
  match p with
  | .tagged => 1
  | .unknown => tagFds msg
  | .plain => 0

/-- A message from the channel can only be delivered as tagged when it has the tag. -/
def Path.admits (p : Path) (msg : WaylandMsg) : Prop :=
  p = .tagged → msg.header2.testBit 11 = true

theorem testBit_eleven (h2 : Nat) : h2.testBit 11 = (h2 / 2 ^ 11 % 2 == 1) := by
  rw [Nat.testBit_eq_decide_div_mod_eq]
  rfl

/-- Adding the tag and taking it off, on any of the ways, gives the message back. -/
theorem deliveredBytes_wireMsg {near far : Path} {msg : WaylandMsg} (hfits : near.fits msg)
    (hadmits : far.admits (wireMsg near msg)) (hagree : near = .tagged → far ≠ .plain) :
    deliveredBytes far (wireMsg near msg) = msg.bytes ∧
      far.delivers (wireMsg near msg) = near.sends := by
  cases near with
  | tagged =>
    have hop : msg.header2 % 2 ^ 16 < 2 ^ 8 := hfits
    have hlt : msg.header2 % 2 ^ 8 + 2 ^ 11 < 2 ^ 16 := by omega
    have hh2 := msg.header2_retagged hlt
    cases far with
    | tagged =>
      refine ⟨msg.retag_retagged_self hlt _ ?_, rfl⟩
      show (msg.retagged _ hlt).header2 / 2 ^ 16 * 2 ^ 16 + (msg.retagged _ hlt).header2 % 2 ^ 8 = _
      rw [hh2]
      unfold WaylandMsg.header2With
      omega
    | unknown =>
      refine ⟨msg.retag_retagged_self hlt _ ?_, ?_⟩
      · show (msg.retagged _ hlt).header2 / 2 ^ 16 * 2 ^ 16 +
          (msg.retagged _ hlt).header2 % 2 ^ 11 = _
        rw [hh2]
        unfold WaylandMsg.header2With
        omega
      · show (msg.retagged _ hlt).header2 % 2 ^ 16 / 2 ^ 11 = 1
        rw [hh2]
        unfold WaylandMsg.header2With
        omega
    | plain => exact absurd rfl (hagree rfl)
  | unknown | plain =>
    have hop : msg.header2 % 2 ^ 16 < 2 ^ 11 := hfits
    cases far with
    | tagged =>
      have hbit : msg.header2.testBit 11 = true := hadmits rfl
      rw [testBit_eleven, beq_iff_eq] at hbit
      omega
    | unknown =>
      refine ⟨?_, ?_⟩
      · have hh2 : msg.header2With (msg.header2 % 2 ^ 11) = msg.header2 := by
          unfold WaylandMsg.header2With
          omega
        show (retag msg (msg.header2With (msg.header2 % 2 ^ 11))).bytes = _
        rw [hh2, msg.retag_header2]
      · show msg.header2 % 2 ^ 16 / 2 ^ 11 = 0
        omega
    | plain => exact ⟨rfl, rfl⟩

/-! ## One message -/

/-- The descriptor stands for a file descriptor of the program: it keeps it, or is the timeline that
was imported from it. -/
def ShadowFd.Carries (fd : Fd) (s : ShadowFd) : Prop :=
  match s.data with
  | .file f => f.fd = fd
  | .pipe p => p.fd = fd
  | .timeline t => t.timeline = fd
  | .dmabuf _ => False

/-- What a copied message from Wayland does: it takes its descriptors, puts new ones that carry
them into the outgoing queue, and is written as it goes over the channel. -/
structure Sent (p : Path) (msg : WaylandMsg) (c c' : Ctx) : Prop where
  queues : ∀ fds rids, c.transl = .fromWayland fds rids →
    ∃ (taken rest : List Fd) (new : List ShadowFd) (refs : List SfdRef),
      fds = taken ++ rest ∧ taken.length = p.sends ∧
      c'.transl = .fromWayland rest (rids ++ refs) ∧
      refs.map (c'.glob.sfds[·]?) = new.map some ∧ List.Forall₂ ShadowFd.Carries taken new
  written : c'.core.out.data = c.core.out.data ++ (wireMsg p msg).bytes

/-- What a copied message from the channel does: its descriptors are moved to the outgoing queue. -/
structure Delivered (p : Path) (msg : WaylandMsg) (c c' : Ctx) : Prop where
  admitted : p.admits msg
  queues : ∀ sfds fds, c.transl = .fromChannel sfds fds →
    p.delivers msg ≤ sfds.length ∧
    c'.transl = .fromChannel (sfds.drop (p.delivers msg)) (fds ++ sfds.take (p.delivers msg))
  written : c'.core.out.data = c.core.out.data ++ deliveredBytes p msg

/-- What is said about a message that is done. -/
def Copied (p : Path) (msg : WaylandMsg) (c c' : Ctx) : Prop :=
  if c.transl.isFromChannel then Delivered p msg c c' else Sent p msg c c'

def Handler.Copies (h : Handler) (p : Path) (msg : WaylandMsg) (c : Ctx) : Prop :=
  h.Ensures c fun r c' => r = .done → Copied p msg c c'

namespace Handler.Copies

variable {α : Type} {k : Handler} {p : Path} {msg : WaylandMsg} {c : Ctx}

theorem needs {bytes fds : Nat} (h : Copies k p msg c) : Copies (.needs bytes fds k) p msg c :=
  Ensures.needs_iff.mpr ⟨fun _ => h, fun _ hp => nomatch hp⟩

theorem waits {r : Look (Option Rid)} (h : Copies k p msg c) : Copies (.waits r k) p msg c :=
  Ensures.waits_iff.mpr ⟨fun _ => h, fun _ _ hp => nomatch hp⟩

theorem looking {r : Look α} {k : α → Handler} (h : ∀ a, r.run c = .ok a → Copies (k a) p msg c) :
    Copies (.looking r k) p msg c := Ensures.looking_iff.mpr h

theorem parsing {x : Res α} {k : α → Handler} (h : ∀ a, Copies (k a) p msg c) :
    Copies (.parsing x k) p msg c := Ensures.parsing_iff.mpr fun a _ => h a

theorem actFd {m : FdAct Unit} (h : Post m c fun _ c' => Copied p msg c c') :
    Copies (.actFd m) p msg c := Ensures.actFd_iff.mpr (h.mono fun _ _ hc _ => hc)

theorem act {m : Act Unit} (h : Post m c.core fun _ core => Copied p msg c { c with core }) :
    Copies (.act m) p msg c := Ensures.act_iff.mpr (h.mono fun _ _ hc _ => hc)

end Handler.Copies

section Message

variable (msg : WaylandMsg) {g g' : Globals} {out out' : Output}

/-- From Wayland, without descriptors. -/
theorem sent_plain {p : Path} {fds : List Fd} {rids : List SfdRef} (hp : p ≠ .tagged)
    (hout : out'.data = out.data ++ msg.bytes) :
    Copied p msg ⟨⟨g, out⟩, .fromWayland fds rids⟩ ⟨⟨g', out'⟩, .fromWayland fds rids⟩ := by
  refine ⟨?_, ?_⟩
  · rintro _ _ ⟨⟩
    refine ⟨[], fds, [], [], rfl, ?_, ?_, rfl, .nil⟩
    · cases p with
      | tagged => exact absurd rfl hp
      | unknown | plain => rfl
    · rw [append_nil]
  · cases p with
    | tagged => exact absurd rfl hp
    | unknown | plain => exact hout

/-- From Wayland, with one descriptor. -/
theorem sent_tagged {fd : Fd} {fds : List Fd} {rids : List SfdRef} {r : SfdRef} {s : ShadowFd}
    (hr : g'.sfds[r]? = some s) (hs : s.Carries fd)
    (hout : out.write (retag msg (msg.header2 / 2 ^ 16 * 2 ^ 16 +
      (msg.header2 % 2 ^ 8 + 2 ^ 11))) = .ok out') :
    Copied .tagged msg ⟨⟨g, out⟩, .fromWayland (fd :: fds) rids⟩
      ⟨⟨g', out'⟩, .fromWayland fds (rids ++ [r])⟩ := by
  refine ⟨?_, Output.write_data hout⟩
  rintro _ _ ⟨⟩
  refine ⟨[fd], fds, [s], [r], rfl, rfl, rfl, ?_, .cons hs .nil⟩
  show [g'.sfds[r]?] = [some s]
  rw [hr]

/-- From the channel, with one descriptor. -/
theorem delivered_tagged {sfd : SfdRef} {sfds fds : List SfdRef}
    (hbit : msg.header2.testBit 11 = true)
    (hout : out.write (retag msg (msg.header2 / 2 ^ 16 * 2 ^ 16 +
      (msg.header2 % 2 ^ 8 + 0))) = .ok out') :
    Copied .tagged msg ⟨⟨g, out⟩, .fromChannel (sfd :: sfds) fds⟩
      ⟨⟨g', out'⟩, .fromChannel sfds (fds ++ [sfd])⟩ := by
  refine ⟨fun _ => hbit, ?_, Output.write_data hout⟩
  rintro _ _ ⟨⟩
  exact ⟨Nat.le_add_left 1 _, rfl⟩

variable {msg} {c : Ctx}

theorem defaultProcWayMsg_copies {q : Request} : (defaultProcWayMsg q).Copies .plain q.msg c := by
  obtain ⟨⟨g, out⟩, t⟩ := c
  refine .needs (.act ?_)
  simp only [Post.bind_iff, post_act, post_copyMsg]
  intro _ g₁ _ _ g₂ _ out' hout
  have hdata := Output.write_data hout
  cases t with
  | fromWayland fds rids => exact sent_plain q.msg (by decide) hdata
  | fromChannel sfds fds =>
    refine ⟨fun h => (by cases h), ?_, hdata⟩
    rintro _ _ ⟨⟩
    refine ⟨Nat.zero_le _, ?_⟩
    show Transl.fromChannel sfds fds = .fromChannel (sfds.drop 0) (fds ++ sfds.take 0)
    rw [drop_zero, take_zero, append_nil]

theorem procUnknownWayMsg_copies : (procUnknownWayMsg msg).Copies .unknown msg c := by
  obtain ⟨⟨g, out⟩, t⟩ := c
  refine .looking fun fromChannel hfrom => ?_
  cases t with
  | fromWayland fds rids =>
    cases hfrom
    refine .needs (.act (post_copyMsg.mpr fun out' hout => ?_))
    exact sent_plain msg (by decide) (Output.write_data hout)
  | fromChannel sfds fds =>
    cases hfrom
    refine .needs (Ensures.waits_iff.mpr ⟨fun hwait => ?_, fun _ _ hp => by cases hp⟩)
    -- the look for pending tasks has seen that the descriptors are there
    have hlen : tagFds msg ≤ sfds.length := by
      by_contra hshort
      simp only [tagWait, ReaderT.run] at hwait
      rw [if_pos (Nat.not_le.mp hshort)] at hwait
      cases hwait
    refine Copies.actFd ?_
    unfold passTagged
    simp only [Post.bind_iff, Post.modify_iff, post_liftAct, post_emit]
    intro out' hout
    refine ⟨fun h => (by cases h), ?_, Output.write_data hout⟩
    rintro _ _ ⟨⟩
    exact ⟨hlen, rfl⟩

/-- The common part of the handlers that pass a descriptor: between taking it and writing the message
only the tracked state changes. -/
theorem passFd_copies {q : Request} {missing : String} {check : SfdRef → Act Unit}
    {translate : Fd → Act SfdRef} {k : SfdRef → Act Unit}
    (hfrom : q.fromChannel = c.transl.isFromChannel)
    (hcheck : ∀ r core, Post (check r) core fun _ core' => core'.out = core.out)
    (htranslate : ∀ fd core, Post (translate fd) core fun r core' =>
      core'.out = core.out ∧ ∃ s, core'.glob.sfds[r]? = some s ∧ s.Carries fd)
    (hk : ∀ r core P, (∀ g, g.sfds = core.glob.sfds →
      Post (copyMsgTagFd q.msg q.fromChannel) { core with glob := g } P) → Post (k r) core P) :
    Post (passFd missing check translate >>= fun r => liftAct (k r)) c
      fun _ c' => Copied .tagged q.msg c c' := by
  obtain ⟨⟨g, out⟩, t⟩ := c
  simp only [Post.bind_iff, post_passFd, post_liftAct]
  refine ⟨fun sfd sfds fds ht => ?_, fun fd fds rids ht => ?_⟩
  · subst ht
    refine (hcheck sfd _).mono fun _ core hcore => hk _ _ _ fun g' _ => ?_
    rw [hfrom]
    refine post_copyMsgTagFd_write fun out' hbit hout => ?_
    rw [hcore] at hout
    exact delivered_tagged q.msg (hbit rfl) hout
  · subst ht
    refine (htranslate fd _).mono fun r core hcore => hk _ _ _ fun g' hsfds => ?_
    obtain ⟨hcore, s, hs, hcarries⟩ := hcore
    rw [hfrom]
    refine post_copyMsgTagFd_write fun out' _ hout => ?_
    rw [hcore] at hout
    rw [← hsfds] at hs
    exact sent_tagged q.msg hs hcarries hout

theorem translateShmFd_carries (sys : System) {fd : Fd} {size : Nat} {a b l : Bool} {core : Core} :
    Post (liftM (translateShmFd sys fd size a b l) : Act SfdRef) core fun r core' =>
      core'.out = core.out ∧ ∃ s, core'.glob.sfds[r]? = some s ∧ s.Carries fd := by
  refine post_act.mpr (post_translateShmFd sys fun f _ hfd _ _ => ?_)
  exact ⟨rfl, _, List.getElem?_concat_length, hfd⟩

theorem translatePipeFd_carries {fd : Fd} {b : Bool} {core : Core} :
    Post (liftM (translatePipeFd fd b) : Act SfdRef) core fun r core' =>
      core'.out = core.out ∧ ∃ s, core'.glob.sfds[r]? = some s ∧ s.Carries fd := by
  refine post_act.mpr (post_translatePipeFd fun p hfd => ?_)
  exact ⟨rfl, _, List.getElem?_concat_length, hfd⟩

theorem translateTimeline_carries (sys : System) {fd : Fd} {id : ObjId} {core : Core} :
    Post (liftM (translateTimeline sys fd id) : Act SfdRef) core fun r core' =>
      core'.out = core.out ∧ ∃ s, core'.glob.sfds[r]? = some s ∧ s.Carries fd := by
  refine post_act.mpr (post_translateTimeline sys fun p hfd _ => ?_)
  exact ⟨rfl, _, List.getElem?_concat_length, hfd⟩

section Handlers

variable {q : Request} (hfrom : q.fromChannel = c.transl.isFromChannel)

include hfrom

theorem transferSelection_copies : (transferSelection q).Copies .tagged q.msg c := by
  refine .needs (.actFd (passFd_copies hfrom ?_ ?_ ?_))
  · exact fun _ _ => Post.pure_iff.mpr rfl
  · exact fun _ _ => translatePipeFd_carries
  · exact fun _ _ _ h => h _ rfl

theorem fixedFile_copies (sys : System) {size : Nat} :
    (fixedFile sys q size).Copies .tagged q.msg c := by
  have hpass : Copies (.actFd do
      let _ ← passFd "Missing fd" (fun _ => return)
        fun fd => do translateShmFd sys fd size true true false
      liftAct (copyMsgTagFd q.msg q.fromChannel)) .tagged q.msg c := by
    refine .actFd (passFd_copies hfrom ?_ ?_ ?_)
    · exact fun _ _ => Post.pure_iff.mpr rfl
    · exact fun _ _ => translateShmFd_carries sys
    · exact fun _ _ _ h => h _ rfl
  unfold fixedFile
  split
  · exact .looking fun _ _ => .waits hpass
  · exact hpass

theorem wlShmCreatePool_copies (sys : System) :
    (wlShmCreatePool sys q).Copies .tagged q.msg c := by
  refine .needs (.actFd ?_)
  simp only [Post.bind_iff, Post.lift_iff]
  rintro ⟨poolId, size⟩ -
  refine Post.ite_iff.mpr ⟨fun _ => ?_, fun _ => ?_⟩
  · exact Post.bind_iff.mpr (Post.lift_iff.mpr fun _ h => by cases h)
  refine passFd_copies hfrom ?_ ?_ ?_
  · exact fun _ _ => Post.pure_iff.mpr rfl
  · exact fun _ _ => translateShmFd_carries sys
  · intro r core P h
    simp only [Post.bind_iff, post_act, post_insertNewObject]
    exact fun _ => h _ rfl

theorem importTimeline_copies (sys : System) :
    (wpLinuxDrmSyncobjManagerV1ImportTimeline sys q).Copies .tagged q.msg c := by
  refine .needs (.actFd ?_)
  refine Post.bind_iff.mpr (Post.lift_iff.mpr fun newId _ => ?_)
  refine passFd_copies hfrom ?_ ?_ ?_
  · exact fun _ _ => post_act.mpr fun _ _ _ => rfl
  · exact fun _ _ => translateTimeline_carries sys
  · intro r core P h
    simp only [Post.bind_iff, post_act, post_insertNewObject]
    exact fun _ => h _ rfl

/-- Every method of the list copies its message with one descriptor. -/
theorem taggedMethods_copies (sys : System) : ∀ key ∈ taggedMethods,
    (handlerOf sys key.1 key.2 q).Copies .tagged q.msg c := by
  refine forall_mem_append.mpr ⟨?_, fun key hkey => ?_⟩
  · simp only [forall_mem_cons]
    refine ⟨?_, ?_, ?_, ?_, ?_, ?_, fun _ h => nomatch h⟩
    · exact wlShmCreatePool_copies hfrom sys
    · exact importTimeline_copies hfrom sys
    · exact .needs (.parsing fun _ => fixedFile_copies hfrom sys)
    · exact .needs (.parsing fun _ => fixedFile_copies hfrom sys)
    · exact .needs (.parsing fun _ => fixedFile_copies hfrom sys)
    · exact .needs (.looking fun _ _ => fixedFile_copies hfrom sys)
  · rw [handlerOf_selection sys key hkey]
    exact transferSelection_copies hfrom

end Handlers

/-- A message on one of the ways is copied. -/
theorem processWayMsg_copied {c' : Ctx} {p : Path} (hp : pathOf sys (methodOf msg c) = some p)
    (h : processWayMsg sys msg c = .ok (.done, c')) : Copied p msg c c' := by
  have hd := dispatch_of_processWayMsg sys h
  unfold dispatch at hd
  cases p with
  | unknown =>
    rw [pathOf_unknown hp] at hd
    exact procUnknownWayMsg_copies _ _ hd rfl
  | plain =>
    obtain ⟨m, hm, hdefault⟩ := pathOf_plain hp
    rw [hm] at hd
    dsimp only at hd
    rw [hdefault] at hd
    exact defaultProcWayMsg_copies (q := requestOf msg c m.meth) _ _ hd rfl
  | tagged =>
    obtain ⟨m, hm, hkey⟩ := pathOf_tagged hp
    rw [hm] at hd
    exact taggedMethods_copies (q := requestOf msg c m.meth) rfl sys _ hkey _ _ hd rfl

end Message

/-! ## Messages that are not held up -/

section Progress

variable {msg : WaylandMsg} {c c' : Ctx} {p : Path}

/-- There is room for a message and its descriptors, and none of these has tasks left. -/
structure Room (p : Path) (msg : WaylandMsg) (c : Ctx) : Prop where
  space : c.hasSpace msg.length (if c.transl.isFromChannel then p.delivers msg else p.sends)
  idle : ∀ rid, (tagWait (p.delivers msg)).run c ≠ .ok (some rid)

/-- The first descriptor has no tasks left. -/
theorem Room.fileWait_ne (h : Room .tagged msg c) {sfd : SfdRef} {sfds fds : List SfdRef}
    (ht : c.transl = .fromChannel (sfd :: sfds) fds) (rid : Rid) :
    (fileWait sfd).run c ≠ .ok (some rid) := by
  intro hwait
  obtain ⟨b, hb, hwait⟩ := Res.bind_eq_ok.mp hwait
  obtain ⟨busy, hbusy, hwait⟩ := Res.bind_eq_ok.mp hwait
  refine h.idle b.remoteId ?_
  show tagWait 1 c = _
  unfold tagWait
  rw [ht]
  unfold fileHasPendingApplyTasks at hbusy
  split at hbusy
  · rename_i f hf
    cases hbusy
    have hpos : 0 < f.pendingApplyTasks := by
      by_contra hzero
      simp [hzero, pure, Except.pure] at hwait
    simp [hb, hf, hpos, bind, Except.bind, pure, Except.pure]
  · cases hbusy

/-- The handlers of tagged methods stall only for room and for tasks. -/
theorem taggedMethods_done (sys : System) {q : Request} (hmsg : q.msg = msg)
    (hroom : Room .tagged msg c) :
    ∀ key ∈ taggedMethods, (handlerOf sys key.1 key.2 q).Ensures c fun r _ => r = .done := by
  subst hmsg
  have hspace : c.hasSpace q.msg.length 1 := by
    have h := hroom.space
    split at h
    · exact h
    · exact h
  have hneeds (k : Handler) (hk : k.Ensures c fun r _ => r = .done) :
      Ensures (.needs q.msg.length 1 k) c fun r _ => r = .done :=
    Ensures.needs_iff.mpr ⟨fun _ => hk, fun h => absurd hspace h⟩
  have hact (m : FdAct Unit) : Ensures (.actFd m) c fun r _ => r = .done :=
    Ensures.actFd_iff.mpr fun _ _ _ => rfl
  have hfile (size : Nat) : (fixedFile sys q size).Ensures c fun r _ => r = .done := by
    unfold fixedFile
    split
    · refine Ensures.looking_iff.mpr fun sfd hsfd => ?_
      refine Ensures.waits_iff.mpr ⟨fun _ => hact _, fun rid hrid => ?_⟩
      simp only [ReaderT.run] at hsfd
      split at hsfd
      · rename_i sfd' sfds fds ht
        cases hsfd
        exact absurd hrid (hroom.fileWait_ne ht rid)
      · cases hsfd
    · exact hact _
  refine forall_mem_append.mpr ⟨?_, fun key hkey => ?_⟩
  · simp only [forall_mem_cons]
    refine ⟨?_, ?_, ?_, ?_, ?_, ?_, fun _ h => nomatch h⟩
    · exact hneeds _ (hact _)
    · exact hneeds _ (hact _)
    · exact hneeds _ (Ensures.parsing_iff.mpr fun _ _ => hfile _)
    · exact hneeds _ (Ensures.parsing_iff.mpr fun _ _ => hfile _)
    · exact hneeds _ (Ensures.parsing_iff.mpr fun _ _ => hfile _)
    · exact hneeds _ (Ensures.looking_iff.mpr fun _ _ => hfile _)
  · rw [handlerOf_selection sys key hkey]
    exact hneeds _ (hact _)

/-- With room for it, a message is done unless it is rejected. -/
theorem processWayMsg_done {r : ProcMsg} (hp : pathOf sys (methodOf msg c) = some p)
    (hroom : Room p msg c) (h : processWayMsg sys msg c = .ok (r, c')) : r = .done := by
  have hd := dispatch_of_processWayMsg sys h
  unfold dispatch at hd
  cases p with
  | unknown =>
    rw [pathOf_unknown hp] at hd
    revert hd
    refine (?_ : (procUnknownWayMsg msg).Ensures c fun r _ => r = .done) r c'
    refine Ensures.looking_iff.mpr fun fromChannel hfrom => ?_
    have hfrom : c.transl.isFromChannel = fromChannel := Except.ok.inj hfrom
    have hspace := hroom.space
    rw [hfrom] at hspace
    split
    · rename_i hchan
      rw [hchan] at hspace
      refine Ensures.needs_iff.mpr ⟨fun _ => ?_, fun hno => absurd hspace hno⟩
      refine Ensures.waits_iff.mpr ⟨fun _ => ?_, fun rid hrid => absurd hrid (hroom.idle rid)⟩
      exact Ensures.actFd_iff.mpr fun _ _ _ => rfl
    · rename_i hchan
      rw [if_neg hchan] at hspace
      refine Ensures.needs_iff.mpr ⟨fun _ => ?_, fun hno => absurd hspace hno⟩
      exact Ensures.act_iff.mpr fun _ _ _ => rfl
  | plain =>
    obtain ⟨m, hm, hdefault⟩ := pathOf_plain hp
    rw [hm] at hd
    dsimp only at hd
    rw [hdefault] at hd
    have hspace : c.hasSpace msg.length 0 := by
      have h := hroom.space
      split at h
      · exact h
      · exact h
    revert hd
    refine (?_ : (defaultProcWayMsg _).Ensures c fun r _ => r = .done) r c'
    refine Ensures.needs_iff.mpr ⟨fun _ => ?_, fun hno => absurd hspace hno⟩
    exact Ensures.act_iff.mpr fun _ _ _ => rfl
  | tagged =>
    obtain ⟨m, hm, hkey⟩ := pathOf_tagged hp
    rw [hm] at hd
    exact taggedMethods_done sys (q := requestOf msg c m.meth) rfl hroom _ hkey _ _ hd

/-- A message is written with another tag when there is room, and the tag that it must have. -/
theorem yields_copyMsgTagFd {core : Core} {fromChannel : Bool} {P : Unit → Core → Prop}
    (hspace : msg.length ≤ core.out.space)
    (hbit : fromChannel = true → msg.header2.testBit 11 = true) (h : ∀ out, P () { core with out }) :
    Yields (copyMsgTagFd msg fromChannel) core P := by
  have hretag (h2 : Nat) : (retag msg h2).bytes.length ≤ core.out.space := by
    rw [WaylandMsg.length_retag]
    exact hspace
  unfold copyMsgTagFd
  split
  · rename_i hfrom
    dsimp only
    rw [if_pos (hbit hfrom)]
    exact yields_emit (hretag _) h
  · exact yields_emit (hretag _) h

/-- A message of an unknown object is only rejected when its descriptors have not come. -/
theorem processWayMsg_unknown_isOk (hm : methodOf msg c = none) (hroom : Room .unknown msg c)
    (hfds : c.transl.isFromChannel = true → (tagWait (tagFds msg)).run c = .ok none) :
    ∃ x, processWayMsg sys msg c = .ok x := by
  suffices h : (procUnknownWayMsg msg).Returns c fun _ _ => True by
    obtain ⟨r, c', h, -⟩ := h
    refine ⟨(r, c'), ?_⟩
    unfold processWayMsg dispatch
    rw [hm, if_neg (by simp)]
    exact h
  have hspace := hroom.space
  refine .looking rfl ?_
  cases hchan : c.transl.isFromChannel with
  | true =>
    rw [hchan, if_pos rfl] at hspace
    refine .needs hspace (.waits (hfds hchan) (.actFd ?_))
    unfold passTagged
    simp only [Yields.bind_iff, Yields.modify_iff, yields_liftAct]
    refine yields_emit ?_ fun _ => trivial
    rw [WaylandMsg.length_retag]
    split
    · exact hspace.1
    · exact hspace.1
  | false =>
    rw [hchan, if_neg (by decide)] at hspace
    exact .needs hspace (.act (yields_copyMsg hspace.1 fun _ => trivial))

/-- A message that is processed by default is only rejected when its arguments are wrong. -/
theorem processWayMsg_plain_isOk {m : Method} {g g' : Globals} (hm : methodOf msg c = some m)
    (hp : pathOf sys (some m) = some .plain) (hroom : Room .plain msg c)
    (hqueue : c.transl.outgoing.length ≤ MAX_OUTGOING_FDS)
    (hregister : (registerGenericNewIds msg m.meth).run c.glob = .ok ((), g))
    (hdestroy : (processDestructor (requestOf msg c m.meth)).run g = .ok ((), g')) :
    ∃ x, processWayMsg sys msg c = .ok x := by
  have hspace : c.hasSpace msg.length 0 := by
    have h := hroom.space
    split at h
    · exact h
    · exact h
  obtain ⟨m', ⟨⟩, hdefault⟩ := pathOf_plain hp
  obtain ⟨r, c', h, -⟩ : (defaultProcWayMsg (requestOf msg c m.meth)).Returns c fun _ _ => True := by
    refine .needs hspace (.act ?_)
    simp only [Yields.bind_iff, yields_act]
    exact ⟨(), g, hregister, (), g', hdestroy, yields_copyMsg hspace.1 fun _ => trivial⟩
  refine ⟨(r, c'), ?_⟩
  unfold processWayMsg dispatch
  rw [if_neg fun hlong => absurd hlong.1 (Nat.not_lt.mpr hqueue), hm]
  dsimp only
  rw [hdefault]
  exact h

/-- The pipe of a selection is only rejected when it has not come, when there are no more ids, or
when the other instance has not tagged the message. -/
theorem processWayMsg_selection_isOk {m : Method} (hm : methodOf msg c = some m)
    (hkey : (m.intf, m.id) ∈ selectionMethods) (hroom : Room .tagged msg c)
    (hqueue : c.transl.outgoing.length ≤ MAX_OUTGOING_FDS)
    (hfds : match c.transl with
      | .fromWayland fds _ => fds ≠ [] ∧ -2 ^ 31 ≤ c.glob.maxLocalId + c.glob.maxLocalId.sign ∧
        c.glob.maxLocalId + c.glob.maxLocalId.sign < 2 ^ 31
      | .fromChannel sfds _ => sfds ≠ [] ∧ msg.header2.testBit 11 = true) :
    ∃ x, processWayMsg sys msg c = .ok x := by
  have hspace : c.hasSpace msg.length 1 := by
    have h := hroom.space
    split at h
    · exact h
    · exact h
  obtain ⟨r, c', h, -⟩ : (transferSelection (requestOf msg c m.meth)).Returns c fun _ _ => True := by
    refine .needs hspace (.actFd (Yields.bind_iff.mpr ?_))
    cases ht : c.transl with
    | fromWayland fds rids =>
      rw [ht] at hfds
      obtain ⟨hne, hlow, hhigh⟩ := hfds
      obtain ⟨fd, fds, rfl⟩ := exists_cons_of_ne_nil hne
      refine yields_passFd_wayland ht ?_
      unfold translatePipeFd
      simp only [yields_act, Yields.bind_iff, yields_liftAct]
      refine yields_allocateRid hlow hhigh ?_
      simp only [yields_addSfd, yields_modifyGlob, Yields.pure_iff]
      refine yields_copyMsgTagFd hspace.1 (fun hfrom => ?_) fun _ => trivial
      have hfrom : c.transl.isFromChannel = true := hfrom
      rw [ht] at hfrom
      cases hfrom
    | fromChannel sfds fds =>
      rw [ht] at hfds
      obtain ⟨hne, hbit⟩ := hfds
      obtain ⟨sfd, sfds, rfl⟩ := exists_cons_of_ne_nil hne
      refine yields_passFd_channel ht ?_
      simp only [Yields.pure_iff, yields_liftAct]
      exact yields_copyMsgTagFd hspace.1 (fun _ => hbit) fun _ => trivial
  refine ⟨(r, c'), ?_⟩
  unfold processWayMsg dispatch
  rw [if_neg fun hlong => absurd hlong.1 (Nat.not_lt.mpr hqueue), hm]
  dsimp only
  rw [handlerOf_selection sys _ hkey]
  exact h

end Progress

end Waypipe
