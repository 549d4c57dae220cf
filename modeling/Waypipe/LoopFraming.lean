import Waypipe.MainLoop

/-!
# Framing of the channel stream

What the loop writes, acknowledgements aside, is a sequence of whole wire messages, cut off at the
position of the next write.  The queue stores the payload of a Protocol message apart from its
header, so this rests on nothing being queued between the two: results of worker threads cannot
arrive then, because the header is only added when none is outstanding, but timeline signals can
(`signalSafe`).  At the end of the loop it also rests on no result being outstanding while
protocol data waits for its header (`stopSafe`).

`FrameInv.advance` says what a step does under these conditions; `step_frameInv` and
`run_frameInv` are the invariant, for one step and for every run.
-/

namespace Waypipe

open Framing TransferQueue Loop List

variable {q q' : TransferQueue} {len : Nat} {v : List UInt8}

namespace TransferQueue

/-- All queued bytes in the order in which they are meant to follow each other: the payload
belongs to the stream once its header is queued. -/
def wire (q : TransferQueue) : List UInt8 :=
  q.otherMessages.flatten ++ if q.protocolHeaderAdded then q.protocolData else []

/-- The pieces that `wire` consists of. -/
def vectors (q : TransferQueue) : List (List UInt8) :=
  q.otherMessages ++ if q.protocolHeaderAdded then [q.protocolData] else []

theorem flatten_vectors (q : TransferQueue) : q.vectors.flatten = q.wire := by
  rw [vectors, wire, flatten_append]
  split
  · simp
  · simp

theorem wire_eq_sendable (h : q.sendProtocol = q.protocolHeaderAdded) :
    q.wire = q.sendable := by
  rw [wire, sendable, h]

theorem unsent_eq_wire (h : q.sendProtocol = q.protocolHeaderAdded) :
    q.unsent = q.wire.drop q.nbytesWritten := by
  rw [unsent, wire_eq_sendable h]

theorem netLen_eq_wire (h : q.sendProtocol = q.protocolHeaderAdded) :
    q.netLen = q.wire.length := by
  rw [netLen_eq, wire_eq_sendable h]

theorem taken_le (h : len ≤ q.planned.length) :
    q.taken len ≤ q.unsent.length := by
  have hlead := q.lead_le
  rw [planned_eq] at h
  simp only [length_append, length_tagOther, length_take, length_drop] at h
  unfold taken
  omega

end TransferQueue

/-- What holds of the queue between the steps of the loop. -/
structure QueueOk (q : TransferQueue) : Prop where
  ackPos : q.ackNwritten < 8
  /-- The vectors are those of whole messages. -/
  parted : wmsgFraming.Parted q.vectors
  aligned : q.protocolData.length % 4 = 0
  fits : q.protocolData.length ≤ 4096
  /-- A queued header has its payload, and nothing else is coming. -/
  header : q.protocolHeaderAdded = true →
    q.protocolData ≠ [] ∧ q.expectedRecvdMsgs = 0 ∧ q.protocolRids = [] ∧ q.otherMessages ≠ []
  empty : q.otherMessages = [] → q.nbytesWritten = 0
  busy : q.otherMessages ≠ [] → q.nbytesWritten < q.wire.length

namespace QueueOk

variable {q : TransferQueue}

theorem framed (h : QueueOk q) : Wmsgs q.wire := by
  rw [← q.flatten_vectors]
  exact h.parted.framed

theorem pos_le (h : QueueOk q) : q.nbytesWritten ≤ q.wire.length := by
  by_cases ho : q.otherMessages = []
  · rw [h.empty ho]
    exact Nat.zero_le _
  · exact Nat.le_of_lt (h.busy ho)

/-- The header of protocol data is one of the messages. -/
theorem headerAdded_of_no_messages (h : QueueOk q) (ho : q.otherMessages = []) :
    q.protocolHeaderAdded = false := by
  cases ha : q.protocolHeaderAdded with
  | false => rfl
  | true => exact absurd ho (h.header ha).2.2.2

theorem initial : QueueOk initial where
  ackPos := by decide
  parted := Parted.nil
  aligned := rfl
  fits := Nat.zero_le _
  header := by intro h; cases h
  empty := by intro _; rfl
  busy := by intro h; exact absurd rfl h

/-- Whole messages may be queued as long as no header waits for its payload. -/
theorem pushAll (h : QueueOk q) (hh : q.protocolHeaderAdded = false) (vs : List (List UInt8))
    (hvs : wmsgFraming.Parted vs) (k : Nat) :
    QueueOk { q with otherMessages := q.otherMessages ++ vs, expectedRecvdMsgs := k } := by
  have hwire : q.wire = q.otherMessages.flatten := by simp [wire, hh]
  have hwire' : wire { q with
      otherMessages := q.otherMessages ++ vs, expectedRecvdMsgs := k } = q.wire ++ vs.flatten := by
    simp [wire, hh]
  refine ⟨h.ackPos, ?_, h.aligned, h.fits, ?_, ?_, ?_⟩
  · have hparts := h.parted.append hvs
    simpa only [vectors, hh, Bool.false_eq_true, if_false, append_nil] using hparts
  · intro h'
    rw [hh] at h'
    cases h'
  · intro h'
    exact h.empty (List.append_eq_nil_iff.mp h').1
  · intro _
    rw [hwire', length_append]
    by_cases ho : q.otherMessages = []
    · -- the first messages of a batch
      have hvs0 : vs ≠ [] := by
        rintro rfl
        simp_all
      have : vs.flatten.length ≠ 0 := fun h0 => hvs0 (hvs.eq_nil (List.length_eq_zero_iff.mp h0))
      have := h.empty ho
      show q.nbytesWritten < _
      omega
    · have := h.busy ho
      show q.nbytesWritten < _
      omega

theorem pushMsg {m : List UInt8} (h : QueueOk q) (hh : q.protocolHeaderAdded = false)
    (hm : IsWmsg m) (k : Nat) : QueueOk { q.push m with expectedRecvdMsgs := k } :=
  h.pushAll hh [m] (IsFrame.parted (by simpa using hm)) k

end QueueOk

/-! ## The steps on the queue -/

/-- `q'` has the same position as `q` and only more whole messages behind it. -/
structure Extends (q q' : TransferQueue) : Prop where
  pos : q'.nbytesWritten = q.nbytesWritten
  wire : ∃ x, q'.wire = q.wire ++ x

theorem Extends.refl (q : TransferQueue) : Extends q q := ⟨rfl, [], by simp⟩

theorem Extends.trans {r t : TransferQueue} (h₁ : Extends q r) (h₂ : Extends r t) :
    Extends q t := by
  obtain ⟨hp₁, x, hx⟩ := h₁
  obtain ⟨hp₂, y, hy⟩ := h₂
  exact ⟨hp₂.trans hp₁, x ++ y, by rw [hy, hx, append_assoc]⟩

theorem Extends.take (h : Extends q q') (hq : QueueOk q) :
    q'.wire.take q'.nbytesWritten = q.wire.take q.nbytesWritten := by
  obtain ⟨hp, x, hx⟩ := h
  rw [hp, hx, take_append_of_le_length hq.pos_le]

theorem injectRids_ok (hq : QueueOk q) (h : injectRids q = .ok q') :
    QueueOk q' ∧ Extends q q' ∧ q'.protocolRids = [] ∧
      q'.protocolData = q.protocolData ∧ q'.protocolHeaderAdded = q.protocolHeaderAdded ∧
      q'.expectedRecvdMsgs = q.expectedRecvdMsgs := by
  unfold injectRids at h
  split at h
  · next he =>
    cases h
    exact ⟨hq, Extends.refl q, List.isEmpty_iff.mp he, rfl, rfl, rfl⟩
  · next he =>
    obtain ⟨header, hh, h⟩ := Res.bind_eq_ok.mp h
    cases h
    have hadd : q.protocolHeaderAdded = false := by
      cases ha : q.protocolHeaderAdded with
      | false => rfl
      | true => exact absurd (hq.header ha).2.2.1 (by simpa using he)
    have hlen : ∀ rids : List Rid, (rids.map i32le).flatten.length = rids.length * 4 := by
      intro rids
      induction rids with
      | nil => rfl
      | cons r rids ih =>
        rw [map_cons, flatten_cons, length_append, ih, length_i32le, length_cons]
        omega
    have hmsg : IsWmsg (u32le header ++ (q.protocolRids.map i32le).flatten) :=
      isWmsg_words hh (by rw [hlen]; omega) (by omega)
    have hok := hq.pushMsg hadd hmsg q.expectedRecvdMsgs
    refine ⟨⟨hok.ackPos, hok.parted, hok.aligned, hok.fits, ?_, hok.empty, hok.busy⟩, ⟨rfl, ?_⟩,
      rfl, rfl, rfl, rfl⟩
    · intro h'
      rw [hadd] at h'
      cases h'
    · exact ⟨u32le header ++ (q.protocolRids.map i32le).flatten, by
        simp [wire, hadd]⟩

theorem addProtocolHeader_ok (hq : QueueOk q) (hrids : q.protocolRids = [])
    (hexp : q.protocolData ≠ [] → q.expectedRecvdMsgs = 0) (h : addProtocolHeader q = .ok q') :
    QueueOk q' ∧ Extends q q' ∧ q'.sendProtocol = q'.protocolHeaderAdded := by
  unfold addProtocolHeader at h
  split at h
  · next hc =>
    simp only [Bool.and_eq_true, decide_eq_true_eq, Bool.not_eq_true'] at hc
    obtain ⟨hpos, hadd⟩ := hc
    obtain ⟨header, hh, h⟩ := Res.bind_eq_ok.mp h
    cases h
    have hdata : q.protocolData ≠ [] := ne_nil_of_length_pos hpos
    have haligned := hq.aligned
    have hmsg : IsWmsg (u32le header ++ q.protocolData) :=
      isWmsg_words hh (Nat.add_comm _ _) (by omega)
    have hwire : wire { q with
        otherMessages := q.otherMessages ++ [u32le header], protocolHeaderAdded := true } =
        q.wire ++ (u32le header ++ q.protocolData) := by
      simp [wire, hadd]
    refine ⟨⟨hq.ackPos, ?_, hq.aligned, hq.fits, ?_, ?_, ?_⟩, ⟨rfl, _, hwire⟩, ?_⟩
    · have hparts : wmsgFraming.Parted [u32le header, q.protocolData] :=
        IsFrame.parted (by simpa using hmsg)
      simpa [vectors, hadd] using hq.parted.append hparts
    · intro _
      exact ⟨hdata, hexp hdata, hrids, by simp⟩
    · intro h'
      simp at h'
    · intro _
      have := hq.pos_le
      have := hmsg.length_pos
      show q.nbytesWritten < _
      rw [hwire, length_append]
      omega
    · simp [sendProtocol, hpos, hexp hdata]
  · next hc =>
    cases h
    refine ⟨hq, Extends.refl q, ?_⟩
    cases hadd : q.protocolHeaderAdded with
    | true =>
      obtain ⟨hdata, hexp', -, -⟩ := hq.header hadd
      simp [sendProtocol, List.length_pos_iff.mpr hdata, hexp']
    | false =>
      have : ¬0 < q.protocolData.length := by simpa [hadd] using hc
      simp [sendProtocol, this]

/-- **Headers.** `processWayland2` appends whole messages, and leaves a queue whose payload may be
sent exactly when its header is queued. -/
theorem processWayland2_ok (hq : QueueOk q) (hexp : q.protocolData ≠ [] → q.expectedRecvdMsgs = 0)
    (h : processWayland2 q = .ok q') :
    QueueOk q' ∧ Extends q q' ∧ q'.sendProtocol = q'.protocolHeaderAdded := by
  obtain ⟨r, hr, hq'⟩ := Res.bind_eq_ok.mp h
  obtain ⟨hrok, hrext, hrids, hdata, -, hexp'⟩ := injectRids_ok hq hr
  have hhead : r.protocolData ≠ [] → r.expectedRecvdMsgs = 0 := by
    rw [hdata, hexp']
    exact hexp
  obtain ⟨hok, hext, hsync⟩ := addProtocolHeader_ok hrok hrids hhead hq'
  exact ⟨hok, hrext.trans hext, hsync⟩

theorem collectAll_ok (env : CollectEnv) (sfds : List ShadowFd) :
    ∀ {q : TransferQueue}, QueueOk q → q.protocolHeaderAdded = false →
      QueueOk (collectAll env sfds q).2 ∧ Extends q (collectAll env sfds q).2 ∧
        (collectAll env sfds q).2.protocolHeaderAdded = false := by
  induction sfds with
  | nil =>
    intro q hq hadd
    exact ⟨hq, Extends.refl q, hadd⟩
  | cons sfd sfds ih =>
    intro q hq hadd
    obtain ⟨vs, ts, hvs, -, hqueue⟩ := collectUpdates_grows env { sfd, queue := q, tasks := [] }
    have hok : QueueOk (Eff.exec (collectUpdates env) { sfd, queue := q, tasks := [] }).2.queue := by
      rw [hqueue]
      exact hq.pushAll hadd vs hvs _
    have hext : Extends q (Eff.exec (collectUpdates env) { sfd, queue := q, tasks := [] }).2.queue := by
      rw [hqueue]
      exact ⟨rfl, vs.flatten, by simp [wire, hadd]⟩
    have hadd' : (Eff.exec (collectUpdates env)
        { sfd, queue := q, tasks := [] }).2.queue.protocolHeaderAdded = false := by
      rw [hqueue]
      exact hadd
    simp only [collectAll]
    cases hx : Eff.exec (collectUpdates env) { sfd, queue := q, tasks := [] } with
    | mk r t =>
      rw [hx] at hok hext hadd'
      cases r with
      | ok keep =>
        obtain ⟨h1, h2, h3⟩ := ih hok hadd'
        exact ⟨h1, hext.trans h2, h3⟩
      | error e => exact ⟨hok, hext, hadd'⟩

theorem processWayland1_ok (w : WaylandWork) (hq : QueueOk q) (hadd : q.protocolHeaderAdded = false)
    (hdata : q.protocolData = []) :
    QueueOk (processWayland1 q w).2 ∧ Extends q (processWayland1 q w).2 ∧
      (processWayland1 q w).2.protocolHeaderAdded = false := by
  have hwire : wire { q with
      protocolData := q.protocolData ++ w.output, protocolRids := q.protocolRids ++ w.rids } =
      q.wire := by
    simp [wire, hadd]
  have hok : QueueOk { q with
      protocolData := q.protocolData ++ w.output, protocolRids := q.protocolRids ++ w.rids } := by
    refine ⟨hq.ackPos, ?_, ?_, ?_, ?_, hq.empty, ?_⟩
    · simpa [vectors, hadd] using hq.parted
    · show (q.protocolData ++ w.output).length % 4 = 0
      rw [hdata]
      exact w.aligned
    · show (q.protocolData ++ w.output).length ≤ 4096
      rw [hdata]
      exact w.fits
    · intro h
      rw [hadd] at h
      cases h
    · intro h
      rw [hwire]
      exact hq.busy h
  have hext : Extends q { q with
      protocolData := q.protocolData ++ w.output, protocolRids := q.protocolRids ++ w.rids } :=
    ⟨rfl, [], by rw [hwire, append_nil]⟩
  simp only [processWayland1]
  cases w.translateErr with
  | some e => exact ⟨hok, hext, hadd⟩
  | none =>
    obtain ⟨h1, h2, h3⟩ := collectAll_ok w.env w.sfds hok hadd
    exact ⟨h1, hext.trans h2, h3⟩

/-! ## A write -/

theorem ackAfter_lt (h8 : q.ackNwritten < 8) (len : Nat) :
    (q.ackAfter len).2.2 < 8 := by
  have hlen := q.length_ackRest
  have hpos : (if (0 < q.ackNwritten && q.ackRest.length ≤ len) = true then 0
      else if 0 < q.ackNwritten then q.ackNwritten + len else q.ackNwritten) < 8 := by
    by_cases h0 : 0 < q.ackNwritten
    · rw [if_pos h0] at hlen
      by_cases hle : q.ackRest.length ≤ len
      · simp [h0, hle]
      · simp only [h0, hle, decide_true, decide_false, Bool.and_false, Bool.false_eq_true, if_false,
          if_true]
        omega
    · simp [h0, h8]
  simp only [ackAfter]
  cases q.injects with
  | true =>
    simp only [if_true]
    split
    · assumption
    · exact hpos
  | false => simpa using hpos

section Write

variable {q : TransferQueue} (hq : QueueOk q) (hsync : q.sendProtocol = q.protocolHeaderAdded)
  (len : Nat)
include hq hsync

/-- After a write, the payload may still be sent exactly when its header is queued. -/
theorem account_synced : (q.account len).sendProtocol = (q.account len).protocolHeaderAdded := by
  have h8 := Nat.le_of_lt hq.ackPos
  obtain ⟨-, -, -, -, -, -, hexp⟩ := q.account_ack h8 len
  rcases q.account_batch h8 len with ⟨-, -, hdata, hadd, -⟩ | ⟨-, -, hdata, hadd, -⟩
  · rw [hadd, ← hsync, sendProtocol, sendProtocol, hdata, hexp]
  · cases hsp : q.sendProtocol with
    | true =>
      rw [hsp] at hdata hadd
      simp [sendProtocol, hdata, hadd]
    | false =>
      rw [hsp] at hdata hadd
      rw [hadd, if_neg (by decide), ← hsync, hsp]
      simp only [sendProtocol] at hsp ⊢
      rw [hdata, hexp]
      simpa using hsp

theorem account_ok (hlen : len ≤ q.planned.length) : QueueOk (q.account len) := by
  have h8 := Nat.le_of_lt hq.ackPos
  have htaken := taken_le hlen
  have hpos := hq.pos_le
  obtain ⟨-, -, hnw, -, -, hrids, hexp⟩ := q.account_ack h8 len
  rw [unsent_eq_wire hsync, length_drop] at htaken
  rcases q.account_batch h8 len with ⟨hne, ho, hdata, hadd, hp⟩ | ⟨hfull, ho, hdata, hadd, hp⟩
  · have hwire : (q.account len).wire = q.wire := by
      rw [wire, ho, hdata, hadd, ← wire]
    rw [netLen_eq_wire hsync] at hne
    refine ⟨?_, ?_, ?_, ?_, ?_, ?_, ?_⟩
    · rw [hnw]
      exact ackAfter_lt hq.ackPos len
    · rw [vectors, ho, hdata, hadd]
      exact hq.parted
    · rw [hdata]
      exact hq.aligned
    · rw [hdata]
      exact hq.fits
    · rw [hadd, hdata, hexp, hrids, ho]
      exact hq.header
    · rw [ho, hp]
      intro hnil
      have h0 := hq.empty hnil
      have hadd0 := hq.headerAdded_of_no_messages hnil
      have : q.wire.length = 0 := by simp [wire, hnil, hadd0]
      omega
    · intro _
      rw [hwire, hp]
      omega
  · have hadd0 : (q.account len).protocolHeaderAdded = false := by
      rw [hadd]
      cases hsp : q.sendProtocol with
      | true => rfl
      | false => rw [if_neg (by decide), ← hsync, hsp]
    have hvectors : (q.account len).vectors = [] := by simp [vectors, ho, hadd0]
    refine ⟨?_, ?_, ?_, ?_, ?_, ?_, ?_⟩
    · rw [hnw]
      exact ackAfter_lt hq.ackPos len
    · rw [hvectors]
      exact Parted.nil
    · rw [hdata]
      split
      · rfl
      · exact hq.aligned
    · rw [hdata]
      split
      · exact Nat.zero_le _
      · exact hq.fits
    · intro h
      rw [hadd0] at h
      cases h
    · intro _
      exact hp
    · intro h
      exact absurd ho h

/-- What a write emits of the messages, followed by what it leaves, is what there was. -/
theorem account_stream :
    nonAck (q.planned.take len) ++ (q.account len).wire.drop (q.account len).nbytesWritten =
      q.wire.drop q.nbytesWritten := by
  have h8 := Nat.le_of_lt hq.ackPos
  rw [← unsent_eq_wire (account_synced hq hsync len),
    ← unsent_eq_wire hsync, q.account_unsent h8, q.nonAck_take_planned,
    take_append_drop]

/-- The position in the stream stays that of the queue. -/
theorem account_placed {x : List UInt8}
    (hx : wmsgFraming.Equiv x (q.wire.take q.nbytesWritten)) :
    wmsgFraming.Equiv (x ++ nonAck (q.planned.take len))
      ((q.account len).wire.take (q.account len).nbytesWritten) := by
  have h8 := Nat.le_of_lt hq.ackPos
  have hemit := q.nonAck_take_planned len
  rw [unsent_eq_wire hsync] at hemit
  have hcat : q.wire.take q.nbytesWritten ++ nonAck (q.planned.take len) =
      q.wire.take (q.nbytesWritten + q.taken len) := by
    rw [hemit, ← take_add]
  have hequiv := hx.append_right (nonAck (q.planned.take len))
  rw [hcat] at hequiv
  rcases q.account_batch h8 len with ⟨-, ho, hdata, hadd, hp⟩ | ⟨hfull, -, -, -, hp⟩
  · have hwire : (q.account len).wire = q.wire := by
      rw [wire, ho, hdata, hadd, ← wire]
    rw [hwire, hp]
    exact hequiv
  · -- the batch is complete, so the stream is at a message boundary
    rw [hfull, netLen_eq_wire hsync, take_length] at hequiv
    rw [hp, take_zero]
    intro z
    rw [hequiv z, hq.framed.append_iff, nil_append]

end Write

/-! ## The invariant -/

/-- No timeline signal is queued between a header and its payload. -/
def signalSafe (s : Loop) : Event → Prop
  | .signal _ _ => s.queue.protocolHeaderAdded = false
  | _ => True

/-- The loop does not stop with results outstanding while protocol data waits for its header. -/
def stopSafe (s : Loop) : Event → Prop
  | .stop _ _ => s.queue.protocolData ≠ [] → s.queue.expectedRecvdMsgs = 0
  | _ => True

instance (s : Loop) (e : Event) : Decidable (signalSafe s e) := by
  cases e <;> unfold signalSafe <;> infer_instance

instance (s : Loop) (e : Event) : Decidable (stopSafe s e) := by
  cases e <;> unfold stopSafe <;> infer_instance

/-- How much of the closing messages is written. -/
def Phase.tail : Phase → List UInt8
  | .ending endmsg n => endmsg.take n
  | _ => []

/-- The stream so far has the same continuations as the written part of the queue. -/
structure FrameInv (s : Loop) : Prop where
  queue : QueueOk s.queue
  synced : s.writable = true → s.queue.sendProtocol = s.queue.protocolHeaderAdded
  placed : s.phase ≠ .closed → wmsgFraming.Equiv (nonAck s.sent)
    (s.queue.wire.take s.queue.nbytesWritten ++ s.phase.tail)
  endmsg : ∀ m n, s.phase = .ending m n →
    Wmsgs m ∧ n ≤ m.length ∧ (0 < n → s.queue.hasFromWayOutput = false)

theorem Phase.tail_of_inLoop {s : Loop} (h : s.inLoop = true) : s.phase.tail = [] := by
  unfold inLoop at h
  unfold tail
  split at h <;> simp_all

theorem not_closed_of_inLoop {s : Loop} (h : s.inLoop = true) : s.phase ≠ .closed := by
  intro hp
  simp [inLoop, hp] at h

/-- A queue without output has nothing on the wire. -/
theorem QueueOk.wire_of_idle (hq : QueueOk q) (hout : q.hasFromWayOutput = false) :
    q.wire = [] ∧ q.protocolHeaderAdded = false := by
  simp only [hasFromWayOutput, Bool.or_eq_false_iff, Bool.not_eq_false', List.isEmpty_iff] at hout
  have hadd := hq.headerAdded_of_no_messages hout.1.1.1
  exact ⟨by simp [wire, hout.1.1.1, hadd], hadd⟩

/-- A queue without output and without outstanding results has no protocol data. -/
theorem protocolData_of_idle (hout : q.hasFromWayOutput = false)
    (hpend : q.hasPendingComputeTasks = false) : q.protocolData = [] := by
  simp only [hasFromWayOutput, hasPendingComputeTasks,
    sendProtocol, Bool.or_eq_false_iff, Bool.and_eq_false_iff, decide_eq_false_iff_not,
    beq_eq_false_iff_ne] at hout hpend
  by_contra hne
  have hpos := List.length_pos_iff.mpr hne
  omega

theorem signalTimelineMsg_isWmsg {rid : Rid} {current : Nat} {msg : List UInt8}
    (h : signalTimelineMsg rid current = .ok msg) : IsWmsg msg := by
  obtain ⟨header, hheader, h⟩ := Res.bind_eq_ok.mp h
  cases h
  exact isWmsg_words hheader (by simp) (by decide)

theorem FrameInv.initial (display : Bool) (version : Nat) :
    FrameInv (Loop.initial display version) := by
  have hqueue : QueueOk (Loop.initial display version).queue := by
    unfold Loop.initial
    dsimp only
    split
    · have hheader : buildWmsgHeader .version 8 = .ok (8 * 2 ^ 5 ||| WmsgType.version.code) := rfl
      exact QueueOk.initial.pushMsg rfl (isWmsg_words hheader (by simp) (by decide)) 0
    · exact QueueOk.initial
  refine ⟨hqueue, ?_, ?_, ?_⟩
  · intro _
    unfold Loop.initial
    dsimp only
    split <;> rfl
  · intro _
    have hpos : (Loop.initial display version).queue.nbytesWritten = 0 := by
      unfold Loop.initial
      dsimp only
      split <;> rfl
    rw [hpos]
    exact Framing.Equiv.refl wmsgFraming []
  · intro m n h
    cases h

section Step

variable {s t : Loop}

theorem FrameInv.of_quiet (hs : FrameInv s) (h : Loop.Quiet s t) : FrameInv t := by
  obtain ⟨hq, hsent, -, hphase⟩ := h
  rcases hphase with rfl | hclosed | ⟨hin, hin', hwr⟩
  · exact hs
  · refine ⟨hq ▸ hs.queue, ?_, ?_, ?_⟩
    · intro hw
      simp [writable, hclosed] at hw
    · intro hne
      exact absurd hclosed hne
    · intro m n hp
      rw [hclosed] at hp
      cases hp
  · refine ⟨hq ▸ hs.queue, ?_, ?_, ?_⟩
    · intro hw
      rw [hq]
      exact hs.synced (hwr hw)
    · intro _
      rw [hq, hsent, Phase.tail_of_inLoop hin', ← Phase.tail_of_inLoop hin]
      exact hs.placed (not_closed_of_inLoop hin)
    · intro m n hp
      simp [inLoop, hp] at hin'

/-- The step only queues whole messages, with the payload of a Protocol message and its header
together. -/
structure Queues (s t : Loop) : Prop where
  inLoop : s.inLoop = true
  sent : t.sent = s.sent
  queue : QueueOk t.queue
  ext : Extends s.queue t.queue
  synced : t.writable = true → t.queue.sendProtocol = t.queue.protocolHeaderAdded
  phase : t.inLoop = true ∨ ∃ m, t.phase = .ending m 0 ∧ Wmsgs m

theorem Queues.tail (h : Queues s t) : t.phase.tail = [] := by
  rcases h.phase with hin | ⟨m, hp, -⟩
  · exact Phase.tail_of_inLoop hin
  · rw [hp]
    rfl

theorem FrameInv.of_queues (hs : FrameInv s) (h : Queues s t) : FrameInv t := by
  refine ⟨h.queue, h.synced, ?_, ?_⟩
  · intro _
    have hplaced := hs.placed (not_closed_of_inLoop h.inLoop)
    rw [Phase.tail_of_inLoop h.inLoop, ← h.ext.take hs.queue] at hplaced
    rw [h.tail, h.sent]
    exact hplaced
  · intro m n hp
    rcases h.phase with hin | ⟨m', hp', hm⟩
    · simp [inLoop, hp] at hin
    · rw [hp'] at hp
      cases hp
      exact ⟨hm, Nat.zero_le _, by intro h0; cases h0⟩

theorem FrameInv.write (hs : FrameInv s) (hphase : s.phase = .poll) (hway : s.fromWay ≠ .off)
    (hlen : len ≤ s.queue.planned.length) :
    FrameInv { s with queue := s.queue.account len, sent := s.sent ++ s.queue.planned.take len,
                      phase := .eofs false } := by
  have hsync := hs.synced (by simp [writable, hphase, hway])
  have hplaced := hs.placed (by simp [hphase])
  rw [Phase.tail_of_inLoop (by simp [inLoop, hphase]), append_nil] at hplaced
  refine ⟨account_ok hs.queue hsync len hlen, ?_, ?_, ?_⟩
  · intro _
    exact account_synced hs.queue hsync len
  · intro _
    show wmsgFraming.Equiv (nonAck (s.sent ++ s.queue.planned.take len)) (_ ++ [])
    rw [append_nil, nonAck_append]
    exact account_placed hs.queue hsync len hplaced
  · intro m n hp
    cases hp

theorem FrameInv.signal {msg : List UInt8} (hs : FrameInv s) (hphase : s.phase = .signals)
    (hmsg : IsWmsg msg) (hadd : s.queue.protocolHeaderAdded = false) :
    Queues s { s with queue := s.queue.push msg } where
  inLoop := by simp [inLoop, hphase]
  sent := rfl
  queue := hs.queue.pushMsg hadd hmsg s.queue.expectedRecvdMsgs
  ext := ⟨rfl, msg, by simp [wire, push, hadd]⟩
  synced := hs.synced
  phase := .inl (by simp [inLoop, hphase])

/-- A result cannot arrive between a header and its payload. -/
theorem FrameInv.result {msg : TaskMsg} (hs : FrameInv s) (hphase : s.phase = .results)
    (hpos : 0 < s.queue.expectedRecvdMsgs)
    (hq : q = { s.queue with expectedRecvdMsgs := s.queue.expectedRecvdMsgs - 1 } ∨
      msg.bytes ≠ [] ∧
        q = { s.queue.push msg.bytes with
          expectedRecvdMsgs := s.queue.expectedRecvdMsgs - 1 }) :
    Queues s { s with queue := q } := by
  have hin : s.inLoop = true := by simp [inLoop, hphase]
  have hadd : s.queue.protocolHeaderAdded = false := by
    cases ha : s.queue.protocolHeaderAdded with
    | false => rfl
    | true =>
      have := (hs.queue.header ha).2.1
      omega
  have hsync : writable { s with queue := q } = true →
      q.sendProtocol = q.protocolHeaderAdded := by
    intro hw
    simp [writable, hphase] at hw
  rcases hq with rfl | ⟨hne, rfl⟩
  · have hok := hs.queue.pushAll hadd [] Parted.nil (s.queue.expectedRecvdMsgs - 1)
    rw [append_nil] at hok
    exact ⟨hin, rfl, hok, ⟨rfl, [], by simp [wire]⟩, hsync, .inl hin⟩
  · have hmsg := msg.whole.resolve_left hne
    exact ⟨hin, rfl, hs.queue.pushMsg hadd hmsg _,
      ⟨rfl, msg.bytes, by simp [wire, push, hadd]⟩, hsync, .inl hin⟩

/-- `processWayland1` is only called on a queue that is empty, and `processWayland2` only when no
result is outstanding. -/
theorem FrameInv.wayland {p : Phase} (hs : FrameInv s) (hphase : s.phase = .wayland)
    (hq : q = s.queue ∨ ∃ w, s.queue.hasFromWayOutput = false ∧
      s.queue.hasPendingComputeTasks = false ∧ q = (processWayland1 s.queue w).2)
    (hq' : p = .halted ∧ q' = q ∨
      p = .finish ∧ q.hasPendingComputeTasks = true ∧ q' = q ∨
      p = .finish ∧ q.hasPendingComputeTasks = false ∧ processWayland2 q = .ok q') :
    Queues s { s with queue := q', phase := p } := by
  have hin : s.inLoop = true := by simp [inLoop, hphase]
  have hok : QueueOk q ∧ Extends s.queue q := by
    rcases hq with rfl | ⟨w, hout, hpend, rfl⟩
    · exact ⟨hs.queue, Extends.refl _⟩
    · obtain ⟨h1, h2, -⟩ := processWayland1_ok w hs.queue (hs.queue.wire_of_idle hout).2
        (protocolData_of_idle hout hpend)
      exact ⟨h1, h2⟩
  rcases hq' with ⟨rfl, rfl⟩ | ⟨rfl, hpend, rfl⟩ | ⟨rfl, hpend, hadd⟩
  · refine ⟨hin, rfl, hok.1, hok.2, ?_, .inl rfl⟩
    intro hw
    cases hw
  · refine ⟨hin, rfl, hok.1, hok.2, ?_, .inl rfl⟩
    intro _
    have hexp : 0 < q'.expectedRecvdMsgs := by
      simpa [hasPendingComputeTasks] using hpend
    show q'.sendProtocol = q'.protocolHeaderAdded
    cases ha : q'.protocolHeaderAdded with
    | false =>
      simp only [sendProtocol, Bool.and_eq_false_iff, beq_eq_false_iff_ne]
      exact .inr (Nat.ne_of_gt hexp)
    | true =>
      have := (hok.1.header ha).2.1
      omega
  · have hexp : q.expectedRecvdMsgs = 0 := by
      simpa [hasPendingComputeTasks] using hpend
    obtain ⟨hok', hext', hsync⟩ := processWayland2_ok hok.1 (fun _ => hexp) hadd
    exact ⟨hin, rfl, hok', hok.2.trans hext', fun _ => hsync, .inl rfl⟩

theorem FrameInv.ack {val : Nat} (hs : FrameInv s) (hphase : s.phase = .finish)
    (hphase' : t.phase = .poll) (hq : t.queue = s.queue.requestAck val)
    (hsent : t.sent = s.sent) (hway : t.fromWay ≠ .off → s.fromWay ≠ .off) : Queues s t := by
  -- only the acknowledgement changes
  have hsame : (s.queue.requestAck val).wire = s.queue.wire ∧
      (s.queue.requestAck val).nbytesWritten = s.queue.nbytesWritten ∧
      QueueOk (s.queue.requestAck val) ∧
      (s.queue.requestAck val).sendProtocol = s.queue.sendProtocol ∧
      (s.queue.requestAck val).protocolHeaderAdded = s.queue.protocolHeaderAdded := by
    obtain ⟨h1, h2, h3, h4, h5, h6, h7⟩ := hs.queue
    unfold requestAck
    split
    · exact ⟨rfl, rfl, ⟨h1, h2, h3, h4, h5, h6, h7⟩, rfl, rfl⟩
    · exact ⟨rfl, rfl, ⟨h1, h2, h3, h4, h5, h6, h7⟩, rfl, rfl⟩
  obtain ⟨hwire, hpos, hok, hsend, hadd⟩ := hsame
  refine ⟨by simp [inLoop, hphase], hsent, hq ▸ hok, ?_, ?_, .inl ?_⟩
  · rw [hq]
    exact ⟨hpos, [], by rw [hwire, append_nil]⟩
  · intro hw
    rw [hq, hsend, hadd]
    apply hs.synced
    simp only [writable, hphase', hphase] at hw ⊢
    simpa using hway (by simpa using hw)
  · simp [inLoop, hphase']

theorem closeMsg_isWmsg (h : closeMsg = .ok v) : IsWmsg v := by
  obtain ⟨header, hheader, h⟩ := Res.bind_eq_ok.mp h
  cases h
  exact isWmsg_words hheader (by simp) (by decide)

theorem errorMsg_isWmsg {error : List UInt8} (h : errorMsg error = .ok v) : IsWmsg v := by
  obtain ⟨header, hheader, h⟩ := Res.bind_eq_ok.mp h
  obtain ⟨_, hmod, h⟩ := Res.bind_eq_ok.mp h
  obtain ⟨event, hevent, h⟩ := Res.bind_eq_ok.mp h
  cases h
  have hlen := Wayland.length_writeEvtWlDisplayError hevent
  have hmod := beq_iff_eq.mp (assert_eq_ok.mp hmod)
  refine buildWmsgHeader_isFrame hheader (Nat.le_add_right 4 _) ?_
  rw [align4_of_mod hmod, hlen, Nat.add_comm]

/-- The closing messages: an error message if there is an error, and a close message if wanted. -/
theorem endMsg_eq_ok {error : Option (List UInt8)} {sendCloseMsg : Bool}
    (h : endMsg error sendCloseMsg = .ok v) :
    ∃ err close, v = err ++ close ∧
      (error = none ∧ err = [] ∨ ∃ msg, error = some msg ∧ errorMsg msg = .ok err) ∧
      (sendCloseMsg = false ∧ close = [] ∨ sendCloseMsg = true ∧ closeMsg = .ok close) := by
  obtain ⟨err, herr, h⟩ := Res.bind_eq_ok.mp h
  obtain ⟨close, hclose, h⟩ := Res.bind_eq_ok.mp h
  cases h
  refine ⟨err, close, rfl, ?_, ?_⟩
  · cases error with
    | none =>
      cases herr
      exact .inl ⟨rfl, rfl⟩
    | some msg => exact .inr ⟨msg, rfl, herr⟩
  · cases sendCloseMsg with
    | false =>
      cases hclose
      exact .inl ⟨rfl, rfl⟩
    | true => exact .inr ⟨rfl, hclose⟩

theorem endMsg_wmsgs {error : Option (List UInt8)} {sendCloseMsg : Bool}
    (h : endMsg error sendCloseMsg = .ok v) : Wmsgs v := by
  obtain ⟨err, close, rfl, herr, hclose⟩ := endMsg_eq_ok h
  have h1 : Wmsgs err := by
    rcases herr with ⟨-, rfl⟩ | ⟨msg, -, hmsg⟩
    · exact Framed.nil
    · exact (errorMsg_isWmsg hmsg).framed
  have h2 : Wmsgs close := by
    rcases hclose with ⟨-, rfl⟩ | ⟨-, hmsg⟩
    · exact Framed.nil
    · exact (closeMsg_isWmsg hmsg).framed
  exact h1.append h2

/-- Nothing of the closing messages is written while the queue has output. -/
theorem FrameInv.tail_of_output {n : Nat} {endmsg : List UInt8} (hs : FrameInv s)
    (hphase : s.phase = .ending endmsg n) (hout : s.queue.hasFromWayOutput = true) :
    s.phase.tail = [] := by
  by_cases h0 : 0 < n
  · rw [(hs.endmsg endmsg n hphase).2.2 h0] at hout
    cases hout
  · rw [hphase, Nat.eq_zero_of_not_pos h0]
    rfl

theorem FrameInv.endQueue {n : Nat} {endmsg : List UInt8} (hs : FrameInv s)
    (hphase : s.phase = .ending endmsg n) (hout : s.queue.hasFromWayOutput = true)
    (hlen : len ≤ s.queue.planned.length) :
    FrameInv { s with queue := s.queue.account len,
                      sent := s.sent ++ s.queue.planned.take len } := by
  have hsync := hs.synced (by simp [writable, hphase])
  have hplaced := hs.placed (by simp [hphase])
  have htail := hs.tail_of_output hphase hout
  rw [htail, append_nil] at hplaced
  refine ⟨account_ok hs.queue hsync len hlen, ?_, ?_, ?_⟩
  · intro _
    exact account_synced hs.queue hsync len
  · intro _
    show wmsgFraming.Equiv (nonAck (s.sent ++ s.queue.planned.take len)) (_ ++ s.phase.tail)
    rw [htail, append_nil, nonAck_append]
    exact account_placed hs.queue hsync len hplaced
  · intro m k hp
    obtain ⟨hm, hk, hdone⟩ := hs.endmsg m k hp
    refine ⟨hm, hk, ?_⟩
    intro h0
    rw [hdone h0] at hout
    cases hout

theorem FrameInv.endMsg {n : Nat} {endmsg : List UInt8} (hs : FrameInv s)
    (hphase : s.phase = .ending endmsg n) (hout : s.queue.hasFromWayOutput = false)
    (hlen : len ≤ endmsg.length - n) :
    FrameInv { s with phase := .ending endmsg (n + len),
                      sent := s.sent ++ tagOther ((endmsg.drop n).take len) } := by
  obtain ⟨hm, hn, -⟩ := hs.endmsg endmsg n hphase
  have hplaced := hs.placed (by simp [hphase])
  refine ⟨hs.queue, ?_, ?_, ?_⟩
  · intro _
    exact hs.synced (by simp [writable, hphase])
  · intro _
    show wmsgFraming.Equiv (nonAck (s.sent ++ tagOther ((endmsg.drop n).take len)))
      (s.queue.wire.take s.queue.nbytesWritten ++ endmsg.take (n + len))
    rw [hphase] at hplaced
    rw [nonAck_append, nonAck_tagOther, take_add, ← append_assoc]
    exact hplaced.append_right _
  · intro m k hp
    cases hp
    refine ⟨hm, ?_, ?_⟩
    · omega
    · intro _
      exact hout

/-- What a step does that keeps headers and payloads together. -/
inductive Advance (s : Loop) (e : Event) (t : Loop) : Prop where
  | quiet (h : Loop.Quiet s t)
      (hidle : ∀ len, e.writes = some len → s.queue.needsNewAck = false)
  | queues (h : Queues s t) (he : e.writes = none)
  /-- The queue is written to. -/
  | emits {len : Nat} (he : e.writes = some len) (htail : s.phase.tail = [])
      (htail' : t.phase.tail = []) (hopen : s.phase ≠ .closed)
      (hsync : s.queue.sendProtocol = s.queue.protocolHeaderAdded)
      (hlen : len ≤ s.queue.planned.length) (hq : t.queue = s.queue.account len)
      (hsent : t.sent = s.sent ++ s.queue.planned.take len) (hinv : FrameInv t)
  /-- The closing messages are written. -/
  | closes {len n : Nat} {endmsg : List UInt8} (hphase : s.phase = .ending endmsg n)
      (hout : s.queue.hasFromWayOutput = false) (hlen : len ≤ endmsg.length - n)
      (ht : t = { s with phase := .ending endmsg (n + len),
                         sent := s.sent ++ tagOther ((endmsg.drop n).take len) })

theorem FrameInv.advance {e : Event} (hs : FrameInv s) (hsafe : signalSafe s e ∧ stopSafe s e)
    (h : s.step e = some t) : Advance s e t := by
  cases step_moves h with
  | quiet hquiet hidle => exact .quiet hquiet hidle
  | write hphase hway hlen =>
    have hsync := hs.synced (by simp [writable, hphase, hway])
    have htail := Phase.tail_of_inLoop (s := s) (by simp [inLoop, hphase])
    exact .emits rfl htail rfl (by simp [hphase]) hsync hlen rfl rfl (hs.write hphase hway hlen)
  | signal hphase hmsg =>
    exact .queues (hs.signal hphase (signalTimelineMsg_isWmsg hmsg) hsafe.1) rfl
  | result hphase hpos hq => exact .queues (hs.result hphase hpos hq) rfl
  | wayland hphase hq hq' => exact .queues (hs.wayland hphase hq hq') rfl
  | ack hphase hphase' _ hq hsent _ hway =>
    exact .queues (hs.ack hphase hphase' hq hsent hway) rfl
  | stop hphase hend hq =>
    obtain ⟨hok, hext, hsync⟩ := processWayland2_ok hs.queue hsafe.2 hq
    exact .queues ⟨hphase, rfl, hok, hext, fun _ => hsync, .inr ⟨_, rfl, endMsg_wmsgs hend⟩⟩ rfl
  | endQueue hphase hout hlen =>
    have hsync := hs.synced (by simp [writable, hphase])
    have htail := hs.tail_of_output hphase hout
    exact .emits rfl htail htail (by simp [hphase]) hsync hlen rfl rfl (hs.endQueue hphase hout hlen)
  | endMsg hphase hout hlen => exact .closes hphase hout hlen rfl

/-- **Step.** Every step that keeps headers and payloads together keeps the invariant. -/
theorem step_frameInv {e : Event} (hs : FrameInv s) (hsafe : signalSafe s e ∧ stopSafe s e)
    (h : s.step e = some t) : FrameInv t := by
  cases hs.advance hsafe h with
  | quiet hquiet => exact hs.of_quiet hquiet
  | queues hqueues => exact hs.of_queues hqueues
  | emits _ _ _ _ _ _ _ _ hinv => exact hinv
  | closes hphase hout hlen ht =>
    rw [ht]
    exact hs.endMsg hphase hout hlen

end Step

/-- Every run of such steps keeps it. -/
theorem run_frameInv {s t : Loop} {es : List Event} (hs : FrameInv s)
    (hsafe : Transition.Along step (fun s e => signalSafe s e ∧ stopSafe s e) s es)
    (hrun : s.run es = some t) : FrameInv t :=
  Transition.run_invariant (fun _ _ _ hs hsafe h => step_frameInv hs hsafe h) hs hsafe hrun

end Waypipe
