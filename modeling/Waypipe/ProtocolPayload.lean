import Waypipe.LoopFraming

/-!
# Protocol headers and their payloads

The bytes written so far followed by the bytes that are queued form one stream (`Loop.stream`,
acknowledgements aside) that only ever grows at its end, as long as no timeline signal is queued
between a header and its payload.  So once `processWayland2` has queued a header, its payload comes
next (`payload_follows_header`).
-/

namespace Waypipe

open Framing Loop List

/-- What is written and what is queued, without acknowledgements. -/
def Loop.stream (s : Loop) : List UInt8 :=
  nonAck s.sent ++ s.queue.wire.drop s.queue.nbytesWritten

theorem Extends.drop {q q' : TransferQueue} (h : Extends q q') (hq : QueueOk q) :
    q.wire.drop q.nbytesWritten <+: q'.wire.drop q'.nbytesWritten := by
  obtain ⟨hp, x, hx⟩ := h
  rw [hp, hx, drop_append_of_le_length hq.pos_le]
  exact prefix_append _ _

section Step

variable {s t : Loop}

/-- **Step.** The stream only grows. -/
theorem step_stream {e : Event} (hs : FrameInv s) (hsafe : signalSafe s e ∧ stopSafe s e)
    (h : s.step e = some t) : s.stream <+: t.stream := by
  cases hs.advance hsafe h with
  | quiet hquiet =>
    have heq : t.stream = s.stream := by
      rw [stream, stream, hquiet.queue, hquiet.sent]
    exact heq ▸ prefix_refl _
  | queues hqueues =>
    rw [stream, stream, hqueues.sent]
    exact (prefix_append_right_inj _).mpr (hqueues.ext.drop hs.queue)
  | emits _ _ _ _ hsync _ hq hsent =>
    have heq : t.stream = s.stream := by
      rw [stream, stream, hq, hsent, nonAck_append, append_assoc, account_stream hs.queue hsync]
    exact heq ▸ prefix_refl _
  | closes _ hout _ ht =>
    -- the queue is empty by then
    rw [stream, stream, ht, (hs.queue.wire_of_idle hout).1]
    simp

/-- Once the loop has stopped it does not start again. -/
theorem inLoop_of_step {e : Event} (h : s.step e = some t) (ht : t.inLoop = true) :
    s.inLoop = true ∧ stopSafe s e := by
  have hin : s.inLoop = true := by
    cases step_moves h with
    | quiet hquiet =>
      rcases hquiet.phase with rfl | hclosed | ⟨hin, -, -⟩
      · exact ht
      · simp [inLoop, hclosed] at ht
      · exact hin
    | write hphase | signal hphase | result hphase | wayland hphase | ack hphase =>
      simp [inLoop, hphase]
    | stop hphase => exact hphase
    | endQueue hphase => simp [inLoop, hphase] at ht
    | endMsg => cases ht
  refine ⟨hin, ?_⟩
  cases e with
  | stop error sendCloseMsg =>
    exfalso
    unfold inLoop at hin
    unfold step at h
    cases hp : s.phase with
    | ending m n => simp [hp] at hin
    | closed => simp [hp] at hin
    | poll | eofs | signals | results | wayland | finish | halted =>
      simp only [hp] at h
      split at h
      · cases h
        cases ht
      · cases h
  | _ => trivial

end Step

theorem along_of_inLoop {s t : Loop} {es : List Event}
    (hsafe : Transition.Along step signalSafe s es) (hrun : s.run es = some t)
    (ht : t.inLoop = true) :
    s.inLoop = true ∧
      Transition.Along step (fun s e => signalSafe s e ∧ stopSafe s e) s es := by
  induction es generalizing s with
  | nil =>
    cases hrun
    exact ⟨ht, trivial⟩
  | cons e es ih =>
    obtain ⟨u, hu, hrest⟩ := Transition.run_cons hrun
    obtain ⟨huin, hualong⟩ := ih (hsafe.2 u hu) hrest
    obtain ⟨hin, hstop⟩ := inLoop_of_step hu huin
    refine ⟨hin, ⟨hsafe.1, hstop⟩, ?_⟩
    intro u' hu'
    rw [hu] at hu'
    cases hu'
    exact hualong

/-- **Run.** -/
theorem run_stream {s t : Loop} {es : List Event} (hs : FrameInv s)
    (hsafe : Transition.Along step (fun s e => signalSafe s e ∧ stopSafe s e) s es)
    (hrun : s.run es = some t) : s.stream <+: t.stream :=
  Transition.run_rel (R := fun s t => s.stream <+: t.stream) (fun _ => prefix_refl _)
    (fun _ _ _ => List.IsPrefix.trans) (fun _ _ _ hs hsafe h => step_frameInv hs hsafe h)
    (fun _ _ _ hs hsafe h => step_stream hs hsafe h) hs hsafe hrun

/-- A header is queued behind everything else. -/
theorem processWayland2_header {q q' : TransferQueue} (h : processWayland2 q = .ok q')
    (hbefore : q.protocolHeaderAdded = false) (hafter : q'.protocolHeaderAdded = true) :
    ∃ vs header, q'.otherMessages = vs ++ [u32le header] ∧
      buildWmsgHeader .protocol (q'.protocolData.length + 4) = .ok header ∧
      q.otherMessages.flatten <+: vs.flatten := by
  obtain ⟨r, hr, h⟩ := Res.bind_eq_ok.mp h
  have hrids : r.protocolHeaderAdded = false ∧
      q.otherMessages.flatten <+: r.otherMessages.flatten := by
    unfold injectRids at hr
    split at hr
    · cases hr
      exact ⟨hbefore, prefix_refl _⟩
    · obtain ⟨header, -, hr⟩ := Res.bind_eq_ok.mp hr
      cases hr
      refine ⟨hbefore, ?_⟩
      simp
  unfold addProtocolHeader at h
  split at h
  · obtain ⟨header, hheader, h⟩ := Res.bind_eq_ok.mp h
    cases h
    exact ⟨r.otherMessages, header, rfl, hheader, hrids.2⟩
  · cases h
    rw [hrids.1] at hafter
    cases hafter

/-- The step that sets the mark for a queued header has queued it, behind the write position. -/
theorem header_queued {s s₁ : Loop} {work : Option WaylandWork} (hs : FrameInv s)
    (hstep : s.step (.wayland work) = some s₁)
    (hbefore : s.queue.protocolHeaderAdded = false)
    (hafter : s₁.queue.protocolHeaderAdded = true) :
    ∃ vs header, s₁.queue.otherMessages = vs ++ [u32le header] ∧
      buildWmsgHeader .protocol (s₁.queue.protocolData.length + 4) = .ok header ∧
      s₁.queue.nbytesWritten ≤ vs.flatten.length := by
  cases step_moves hstep with
  | quiet hquiet =>
    rw [hquiet.queue, hbefore] at hafter
    cases hafter
  | @wayland _ q q' p hphase hq hq' =>
    have hok : QueueOk q ∧ q.protocolHeaderAdded = false := by
      rcases hq with rfl | ⟨w, hout, hpend, rfl⟩
      · exact ⟨hs.queue, hbefore⟩
      · obtain ⟨h1, -, h3⟩ := processWayland1_ok w hs.queue hbefore (protocolData_of_idle hout hpend)
        exact ⟨h1, h3⟩
    have hnot : q' ≠ q := by
      rintro rfl
      rw [hok.2] at hafter
      cases hafter
    rcases hq' with ⟨-, h⟩ | ⟨-, -, h⟩ | ⟨-, hpend, h⟩
    · exact absurd h hnot
    · exact absurd h hnot
    · obtain ⟨vs, header, hmsgs, hheader, hpre⟩ := processWayland2_header h hok.2 hafter
      have hexp : q.expectedRecvdMsgs = 0 := by
        simpa [TransferQueue.hasPendingComputeTasks] using hpend
      obtain ⟨-, hext, -⟩ := processWayland2_ok hok.1 (fun _ => hexp) h
      refine ⟨vs, header, hmsgs, hheader, ?_⟩
      have hpos := hok.1.pos_le
      have hlen := hpre.length_le
      rw [TransferQueue.wire, hok.2] at hpos
      show q'.nbytesWritten ≤ _
      rw [hext.pos]
      simp only [Bool.false_eq_true, if_false, append_nil] at hpos
      omega

/-- **A header is followed by its payload.** Once the header of `protocolData` is queued, what the
loop writes, acknowledgements aside, is what was written before, the rest of the messages queued
before the header, the header, the payload, and only then anything else. -/
theorem payload_follows_header {display : Bool} {version : Nat} {es₁ es₂ : List Event}
    {work : Option WaylandWork} {s s₁ t : Loop}
    (hrun : (Loop.initial display version).run es₁ = some s)
    (hstep : s.step (.wayland work) = some s₁)
    (hbefore : s.queue.protocolHeaderAdded = false)
    (hafter : s₁.queue.protocolHeaderAdded = true)
    (hrun₁ : s₁.run es₂ = some t) (hloop : t.inLoop = true)
    (hsafe : Transition.Along Loop.step signalSafe (Loop.initial display version)
      (es₁ ++ .wayland work :: es₂)) :
    ∃ vs header, s₁.queue.otherMessages = vs ++ [u32le header] ∧
      buildWmsgHeader .protocol (s₁.queue.protocolData.length + 4) = .ok header ∧
      s₁.queue.nbytesWritten ≤ vs.flatten.length ∧
      (nonAck t.sent <+: nonAck s₁.sent ++ vs.flatten.drop s₁.queue.nbytesWritten ++
          u32le header ++ s₁.queue.protocolData ∨
        nonAck s₁.sent ++ vs.flatten.drop s₁.queue.nbytesWritten ++
          u32le header ++ s₁.queue.protocolData <+: nonAck t.sent) := by
  have hrest : s.run (.wayland work :: es₂) = some t := by
    show (s.step (.wayland work)).bind _ = _
    rw [hstep]
    exact hrun₁
  have hall := Transition.run_trans hrun hrest
  obtain ⟨-, halong⟩ := along_of_inLoop hsafe hall hloop
  have hs := run_frameInv (FrameInv.initial display version) halong.append_left hrun
  have htail := halong.append_right hrun
  have hs₁ := step_frameInv hs htail.1 hstep
  obtain ⟨vs, header, hmsgs, hheader, hpos⟩ := header_queued hs hstep hbefore hafter
  refine ⟨vs, header, hmsgs, hheader, hpos, ?_⟩
  have hstream : s₁.stream = nonAck s₁.sent ++ vs.flatten.drop s₁.queue.nbytesWritten ++
      u32le header ++ s₁.queue.protocolData := by
    rw [stream, TransferQueue.wire, hafter, hmsgs, flatten_append, if_pos rfl,
      append_assoc, drop_append_of_le_length hpos]
    simp
  have hgrow : s₁.stream <+: t.stream := run_stream hs₁ (htail.2 s₁ hstep) hrun₁
  rw [hstream] at hgrow
  exact prefix_or_prefix_of_prefix (prefix_append _ _) hgrow

/-- The loop of the display side before and after it queues the header for `syncRequest`. -/
def beforeSync : Loop := { Loop.initial true 16 with phase := .wayland }

def afterSync : Loop :=
  { Loop.initial true 16 with
    phase := .finish
    queue := { TransferQueue.initial with
      protocolData := syncRequest.output
      protocolHeaderAdded := true
      otherMessages := [[0, 2, 0, 0]] } }

/-- The same, with the header and two bytes of the payload written. -/
def sixWritten : Loop :=
  { Loop.initial true 16 with
    phase := .eofs false
    queue := { afterSync.queue with nbytesWritten := 6 }
    sent := tagOther [0, 2, 0, 0, 1, 0] }

theorem payload_follows_header_sync :
    ∃ vs header, afterSync.queue.otherMessages = vs ++ [u32le header] ∧
      buildWmsgHeader .protocol (afterSync.queue.protocolData.length + 4) = .ok header ∧
      afterSync.queue.nbytesWritten ≤ vs.flatten.length ∧
      (nonAck sixWritten.sent <+: nonAck afterSync.sent ++
          vs.flatten.drop afterSync.queue.nbytesWritten ++ u32le header ++
          afterSync.queue.protocolData ∨
        nonAck afterSync.sent ++ vs.flatten.drop afterSync.queue.nbytesWritten ++
          u32le header ++ afterSync.queue.protocolData <+: nonAck sixWritten.sent) := by
  have hrun : (initial true 16).run idleEvents = some beforeSync := by decide
  have hstep : beforeSync.step (.wayland (some syncRequest)) = some afterSync := by decide
  have hrun₁ : afterSync.run [.finish 0 16 false false, .write (.wrote 6)] = some sixWritten := by
    decide
  exact payload_follows_header hrun hstep rfl rfl hrun₁ rfl (by decide)

/-- A timeline signal that arrives when the header is written and the payload is not. -/
def signalEvents : List Event :=
  [.finish 0 16 false false, .write (.wrote 4), .eofs false false false false, .signal 5 7,
    .signalsDone, .resultsDone, .wayland none, .finish 0 16 false false, .write (.wrote 16)]

/-- **Signals break this.** The header announces 12 bytes of payload, and a SignalTimeline message
follows it instead. -/
theorem signal_splits_payload :
    (Loop.initial true 16).run idleEvents = some beforeSync ∧
    beforeSync.step (.wayland (some syncRequest)) = some afterSync ∧
    buildWmsgHeader .protocol (syncRequest.output.length + 4) = .ok 512 ∧
    ∃ t, afterSync.run signalEvents = some t ∧ t.inLoop = true ∧
      nonAck t.sent = u32le 512 ++
        [22, 2, 0, 0, 5, 0, 0, 0, 7, 0, 0, 0, 0, 0, 0, 0] := by
  refine ⟨by decide, by decide, by decide, _, rfl, by decide, by decide⟩

end Waypipe
