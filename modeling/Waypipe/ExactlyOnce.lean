import Waypipe.LoopFraming

/-!
# Every byte is written once

The queue for the channel, on its own: writes of any length, requests for acknowledgements, messages
and protocol data that are queued, and results of worker threads, in any order.  Every write emits as
many bytes as `writev` takes.  Leaving acknowledgements aside, what has been written is the beginning
of what was queued, and what is missing is exactly what the queue still holds
(`sender_writes_once`).
-/

namespace Waypipe

open TransferQueue Transition List

/-! ## Queues -/

namespace TransferQueue

/-- A queue of messages that are multiples of four bytes, each in any vectors, whose position is
inside of what it holds, or that is empty. -/
structure Ready (q : TransferQueue) : Prop where
  ackPos : q.ackNwritten < 8
  messages : q.otherMessages.flatten.length % 4 = 0
  content : q.otherMessages.flatten = [] → q.otherMessages = []
  payload : q.protocolData.length % 4 = 0
  position : q.nbytesWritten < q.sendable.length ∨ q.nbytesWritten = 0 ∧ q.sendable = []

instance (q : TransferQueue) : Decidable q.Ready :=
  decidable_of_iff (q.ackNwritten < 8 ∧ q.otherMessages.flatten.length % 4 = 0 ∧
      (q.otherMessages.flatten = [] → q.otherMessages = []) ∧ q.protocolData.length % 4 = 0 ∧
      (q.nbytesWritten < q.sendable.length ∨ q.nbytesWritten = 0 ∧ q.sendable = []))
    ⟨fun ⟨h₁, h₂, h₃, h₄, h₅⟩ => ⟨h₁, h₂, h₃, h₄, h₅⟩,
      fun ⟨h₁, h₂, h₃, h₄, h₅⟩ => ⟨h₁, h₂, h₃, h₄, h₅⟩⟩

variable {q : TransferQueue}

namespace Ready

variable (h : q.Ready)

include h

theorem netLen_mod : q.netLen % 4 = 0 := by
  have hmsgs := h.messages
  have hdata := h.payload
  rw [netLen_eq, sendable, length_append]
  split
  · omega
  · rw [length_nil]
    omega

theorem le_sendable : q.nbytesWritten ≤ q.sendable.length := by
  rcases h.position with hpos | ⟨hpos, _⟩
  · omega
  · omega

/-- Nothing that a write checks can fail. -/
theorem writeToChannel_ne_panic (r : WritevResult) (msg : String) :
    writeToChannel q r ≠ .error (.panic msg) := by
  have hmod : (q.netLen % 4 == 0) = true := by
    rw [beq_iff_eq]
    exact h.netLen_mod
  intro hpanic
  unfold writeToChannel at hpanic
  rw [assert_of hmod, Res.ok_bind] at hpanic
  by_cases hidle : (q.netLen == 0 && !q.needsNewAck && q.ackNwritten == 0) = true
  · rw [if_pos hidle] at hpanic
    cases hpanic
  · rw [if_neg hidle] at hpanic
    have hguard : (decide (q.nbytesWritten < q.netLen) ||
        (q.needsNewAck || decide (0 < q.ackNwritten))) = true := by
      rcases h.position with hpos | ⟨_, hnil⟩
      · rw [netLen_eq, decide_eq_true hpos]
        rfl
      · have hzero : q.netLen = 0 := by rw [netLen_eq, hnil]; rfl
        by_contra hno
        simp only [Bool.or_eq_true, decide_eq_true_eq, not_or, Bool.not_eq_true, Nat.not_lt,
          Nat.le_zero] at hno
        exact hidle (by simp [hzero, hno.2.1, hno.2.2])
    rw [assert_of hguard, Res.ok_bind] at hpanic
    cases r <;> cases hpanic

/-- A queue with nothing left to write is empty. -/
theorem reset (hnil : q.unsent = []) :
    q.otherMessages = [] ∧ q.nbytesWritten = 0 ∧ q.sendProtocol = false := by
  have hlen : q.sendable.length ≤ q.nbytesWritten := drop_eq_nil_iff.mp hnil
  rcases h.position with hpos | ⟨hpos, hsend⟩
  · omega
  · unfold sendable at hsend
    rw [append_eq_nil_iff] at hsend
    refine ⟨h.content hsend.1, hpos, ?_⟩
    by_contra hsp
    rw [Bool.not_eq_false] at hsp
    have hdata := hsend.2
    rw [if_pos hsp] at hdata
    unfold sendProtocol at hsp
    rw [hdata] at hsp
    cases hsp

/-- A write leaves such a queue. -/
theorem account {len : Nat} (hlen : len ≤ q.planned.length) : (q.account len).Ready := by
  have h8 : q.ackNwritten ≤ 8 := Nat.le_of_lt h.ackPos
  obtain ⟨-, -, hack, -, -, -, hexp⟩ := q.account_ack h8 len
  have hackPos : (q.account len).ackNwritten < 8 := by
    rw [hack]
    exact ackAfter_lt h.ackPos len
  have htaken := taken_le hlen
  rw [unsent, length_drop] at htaken
  have hle := h.le_sendable
  rcases q.account_batch h8 len with ⟨hne, hother, hdata, -, hpos⟩ | ⟨hfull, hother, hdata, -, hpos⟩
  · have hsend : (q.account len).sendable = q.sendable := by
      unfold sendable sendProtocol
      rw [hother, hdata, hexp]
    refine ⟨hackPos, by rw [hother]; exact h.messages, by rw [hother]; exact h.content,
      by rw [hdata]; exact h.payload, .inl ?_⟩
    rw [hsend, hpos]
    rw [netLen_eq] at hne
    omega
  · refine ⟨hackPos, by rw [hother]; rfl, fun _ => hother, ?_, .inr ⟨hpos, ?_⟩⟩
    · rw [hdata]
      split
      · rfl
      · exact h.payload
    · have hnil : (q.account len).unsent = [] := by
        rw [q.account_unsent h8, unsent, drop_drop, hfull, netLen_eq, drop_length]
      rwa [unsent, hpos, drop_zero] at hnil

end Ready

end TransferQueue

/-- A write emits as many bytes as `writev` takes. -/
theorem length_written {q q' : TransferQueue} {len : Nat} {eof : Bool} {bytes : List OutByte}
    (hlen : len ≤ q.planned.length) (h : writeToChannel q (.wrote len) = .ok (eof, bytes, q')) :
    bytes.length = len := by
  unfold writeToChannel at h
  obtain ⟨-, -, h⟩ := Res.bind_eq_ok.mp h
  split at h
  next hidle =>
    -- there was nothing to take
    cases h
    simp only [Bool.and_eq_true, beq_iff_eq, Bool.not_eq_true'] at hidle
    obtain ⟨⟨hnet, hneeds⟩, hpos⟩ := hidle
    rw [netLen_eq, length_eq_zero_iff] at hnet
    have hplanned : q.planned = [] := by
      rw [planned_eq]
      simp [ackRest, newAck, injects, unsent, hnet, hneeds, hpos, tagOther]
    rw [hplanned] at hlen
    exact (Nat.le_zero.mp hlen).symm
  · obtain ⟨-, -, h⟩ := Res.bind_eq_ok.mp h
    cases h
    rw [length_take, Nat.min_eq_left hlen]

/-! ## Runs -/

/-- A queue with the bytes that were written from it. -/
structure Sender where
  queue : TransferQueue
  sent : List OutByte
  /-- All messages that were queued, and the protocol data that is done with, in order. -/
  log : List UInt8

inductive SenderEvent where
  /-- The queue is written; `writev` returns the given result. -/
  | write (r : WritevResult)
  | ack (val : Nat)
  /-- The vectors of a message. -/
  | push (vs : List (List UInt8))
  /-- Protocol data, and tasks whose results have to be sent before it. -/
  | payload (data : List UInt8) (tasks : Nat)
  /-- The result of a task, which may be empty. -/
  | result (v : List UInt8)

/-- How many bytes `writev` takes. -/
def SenderEvent.takes : SenderEvent → Nat
  | .write (.wrote len) => len
  | _ => 0

namespace Sender

/-- The bytes before the position have been written. -/
def start (q : TransferQueue) : Sender where
  queue := q
  sent := tagOther (q.sendable.take q.nbytesWritten)
  log := q.otherMessages.flatten

/-- Everything that may be sent: the messages, and the protocol data when it may follow them. -/
def stream (s : Sender) : List UInt8 :=
  s.log ++ if s.queue.sendProtocol then s.queue.protocolData else []

/-- The state after a write. -/
def wrote (s : Sender) (bytes : List OutByte) (q : TransferQueue) : Sender where
  queue := q
  sent := s.sent ++ bytes
  log := if s.queue.protocolData ≠ [] ∧ q.protocolData = [] then s.log ++ s.queue.protocolData
    else s.log

def step (s : Sender) : SenderEvent → Option Sender
  | .write r =>
    if r.possible s.queue.planned.length then
      match writeToChannel s.queue r with
      | .ok (_, bytes, q) => some (s.wrote bytes q)
      | .error _ => none
    else none
  | .ack val => some { s with queue := s.queue.requestAck val }
  | .push vs => some { s with
      queue := { s.queue with otherMessages := s.queue.otherMessages ++ vs }
      log := s.log ++ vs.flatten }
  | .payload data tasks =>
    some { s with queue := { s.queue with
      protocolData := s.queue.protocolData ++ data
      expectedRecvdMsgs := s.queue.expectedRecvdMsgs + tasks } }
  | .result v =>
    if 0 < s.queue.expectedRecvdMsgs then
      let q := { s.queue with expectedRecvdMsgs := s.queue.expectedRecvdMsgs - 1 }
      some { s with queue := if v.isEmpty then q else q.push v, log := s.log ++ v }
    else none

/-- Messages are queued as long as the protocol data is not being sent, and new protocol data when
there is none. -/
def orderly (s : Sender) : SenderEvent → Prop
  | .push vs => vs.flatten ≠ [] ∧ vs.flatten.length % 4 = 0 ∧ (s.queue.protocolData = [] ∨
      0 < s.queue.expectedRecvdMsgs ∨ s.queue.nbytesWritten ≤ s.queue.otherMessages.flatten.length)
  | .payload data _ => data.length % 4 = 0 ∧ s.queue.protocolData = []
  | .result v => v.length % 4 = 0
  | .write _ | .ack _ => True

instance (s : Sender) (e : SenderEvent) : Decidable (s.orderly e) :=
  match e with
  | .push _ | .payload _ _ => inferInstanceAs (Decidable (_ ∧ _))
  | .result _ => inferInstanceAs (Decidable (_ = _))
  | .write _ | .ack _ => inferInstanceAs (Decidable True)

/-- What has been written and what the queue holds is everything. -/
structure Conserves (s : Sender) : Prop where
  ready : s.queue.Ready
  conserved : s.stream = nonAck s.sent ++ s.queue.unsent

theorem start_conserves {q : TransferQueue} (hq : q.Ready) : (start q).Conserves := by
  refine ⟨hq, ?_⟩
  show q.sendable = nonAck (tagOther _) ++ q.unsent
  rw [nonAck_tagOther, unsent, take_append_drop]

variable {s t : Sender}

/-- A write moves bytes from the queue to the channel. -/
theorem Conserves.write {len : Nat} (hs : s.Conserves) (hlen : len ≤ s.queue.planned.length) :
    (s.wrote (s.queue.planned.take len) (s.queue.account len)).Conserves := by
  have h8 : s.queue.ackNwritten ≤ 8 := Nat.le_of_lt hs.ready.ackPos
  obtain ⟨-, -, -, -, -, -, hexp⟩ := s.queue.account_ack h8 len
  refine ⟨hs.ready.account hlen, ?_⟩
  have hstream : (s.wrote (s.queue.planned.take len) (s.queue.account len)).stream = s.stream := by
    unfold stream wrote
    dsimp only
    rcases s.queue.account_batch h8 len with ⟨-, -, hdata, -, -⟩ | ⟨-, -, hdata, -, -⟩
    · have hsend : (s.queue.account len).sendProtocol = s.queue.sendProtocol := by
        rw [sendProtocol, sendProtocol, hdata, hexp]
      rw [hdata, hsend, if_neg fun h => h.1 h.2]
    · cases hsend : s.queue.sendProtocol with
      | true =>
        rw [hsend, if_pos rfl] at hdata
        have hne : s.queue.protocolData ≠ [] := by
          intro hnil
          rw [sendProtocol, hnil] at hsend
          cases hsend
        have hnot : (s.queue.account len).sendProtocol = false := by
          rw [sendProtocol, hdata]
          rfl
        rw [if_pos ⟨hne, hdata⟩, hnot]
        simp
      | false =>
        rw [hsend, if_neg (by decide)] at hdata
        have hsend' : (s.queue.account len).sendProtocol = false := by
          rw [← hsend, sendProtocol, sendProtocol, hdata, hexp]
        rw [hdata, hsend', if_neg fun h => h.1 h.2]
  rw [hstream, hs.conserved]
  show _ = nonAck (s.sent ++ s.queue.planned.take len) ++ (s.queue.account len).unsent
  rw [nonAck_append, nonAck_take_planned, account_unsent _ h8, append_assoc, take_append_drop]

/-- Nothing of the protocol data has been written when it may not be sent. -/
theorem Conserves.pos_le (hs : s.Conserves) (h : s.queue.sendProtocol = false) :
    s.queue.nbytesWritten ≤ s.queue.otherMessages.flatten.length := by
  have hle := hs.ready.le_sendable
  rwa [sendable_of_not _ h] at hle

/-- Messages are added before the protocol data, of which nothing has been written. -/
theorem Conserves.queued {q : TransferQueue} {v : List UInt8} (hs : s.Conserves) (hready : q.Ready)
    (hpos : q.nbytesWritten = s.queue.nbytesWritten)
    (hle : s.queue.nbytesWritten ≤ s.queue.otherMessages.flatten.length)
    (hother : q.otherMessages.flatten = s.queue.otherMessages.flatten ++ v) :
    ({ queue := q, sent := s.sent, log := s.log ++ v } : Sender).Conserves := by
  refine ⟨hready, ?_⟩
  have hlog : s.log = nonAck s.sent ++ s.queue.otherMessages.flatten.drop s.queue.nbytesWritten := by
    have h := hs.conserved
    unfold stream unsent sendable at h
    rw [drop_append_of_le_length hle, ← append_assoc] at h
    exact append_cancel_right h
  show s.log ++ v ++ _ = nonAck s.sent ++ (q.otherMessages.flatten ++ _).drop q.nbytesWritten
  rw [hpos, hother, hlog]
  simp only [append_assoc]
  rw [drop_append_of_le_length hle]

/-- More can be sent than before, from the same position. -/
theorem ready_of_longer {q q' : TransferQueue} {vs : List (List UInt8)} (hq : q.Ready)
    (hack : q'.ackNwritten = q.ackNwritten) (hpos : q'.nbytesWritten = q.nbytesWritten)
    (hother : q'.otherMessages = q.otherMessages ++ vs) (hmod : vs.flatten.length % 4 = 0)
    (hcontent : vs.flatten = [] → vs = []) (hdata : q'.protocolData.length % 4 = 0)
    (hlen : q.sendable.length ≤ q'.sendable.length) : q'.Ready := by
  refine ⟨by rw [hack]; exact hq.ackPos, ?_, ?_, hdata, ?_⟩
  · have hmsgs := hq.messages
    rw [hother, flatten_append, length_append]
    omega
  · intro hnil
    rw [hother, flatten_append, append_eq_nil_iff] at hnil
    rw [hother, hq.content hnil.1, hcontent hnil.2]
    rfl
  rw [hpos]
  rcases hq.position with h | ⟨h, _⟩
  · left
    omega
  · by_cases hnil : q'.sendable = []
    · exact .inr ⟨h, hnil⟩
    · left
      have := length_pos_iff.mpr hnil
      omega

theorem Conserves.push {vs : List (List UInt8)} (hs : s.Conserves) (hv : s.orderly (.push vs)) :
    ({ s with
        queue := { s.queue with otherMessages := s.queue.otherMessages ++ vs }
        log := s.log ++ vs.flatten } : Sender).Conserves := by
  obtain ⟨hne, hmod, hwhen⟩ := hv
  refine hs.queued (ready_of_longer hs.ready rfl rfl rfl hmod (fun hnil => absurd hnil hne)
    hs.ready.payload ?_) rfl ?_ flatten_append
  · show (s.queue.otherMessages.flatten ++ _).length ≤
      ((s.queue.otherMessages ++ vs).flatten ++ _).length
    rw [flatten_append]
    simp only [length_append]
    show _ + (if s.queue.sendProtocol then s.queue.protocolData else []).length ≤
      _ + (if s.queue.sendProtocol then s.queue.protocolData else []).length
    omega
  · rcases hwhen with hnone | hwait | hle
    · refine hs.pos_le ?_
      rw [sendProtocol, hnone]
      rfl
    · refine hs.pos_le ?_
      rw [sendProtocol, Bool.and_eq_false_iff]
      right
      simp only [beq_eq_false_iff_ne]
      omega
    · exact hle

theorem Conserves.payload {data : List UInt8} {tasks : Nat} (hs : s.Conserves)
    (hmod : data.length % 4 = 0) (hnone : s.queue.protocolData = []) :
    ({ s with queue := { s.queue with
        protocolData := s.queue.protocolData ++ data
        expectedRecvdMsgs := s.queue.expectedRecvdMsgs + tasks } } : Sender).Conserves := by
  have hsend : s.queue.sendProtocol = false := by
    rw [sendProtocol, hnone]
    rfl
  have h := hs.queued (v := []) (q := { s.queue with
      protocolData := s.queue.protocolData ++ data
      expectedRecvdMsgs := s.queue.expectedRecvdMsgs + tasks })
    (ready_of_longer hs.ready rfl rfl (append_nil _).symm rfl (fun _ => rfl) ?_ ?_) rfl
    (hs.pos_le hsend) (append_nil _).symm
  · rwa [append_nil] at h
  · show (s.queue.protocolData ++ data).length % 4 = 0
    rw [hnone]
    exact hmod
  · rw [sendable_of_not _ hsend]
    show _ ≤ (s.queue.otherMessages.flatten ++ _).length
    rw [length_append]
    omega

theorem Conserves.result {v : List UInt8} (hs : s.Conserves) (hmod : v.length % 4 = 0)
    (hwait : 0 < s.queue.expectedRecvdMsgs) (q : TransferQueue)
    (hq : q = { s.queue with
      otherMessages := if v.isEmpty then s.queue.otherMessages else s.queue.otherMessages ++ [v]
      expectedRecvdMsgs := s.queue.expectedRecvdMsgs - 1 }) :
    ({ s with queue := q, log := s.log ++ v } : Sender).Conserves := by
  subst hq
  have hsend : s.queue.sendProtocol = false := by
    rw [sendProtocol, Bool.and_eq_false_iff]
    right
    simp only [beq_eq_false_iff_ne]
    omega
  obtain ⟨vs, hvs, hother, hcontent⟩ : ∃ vs : List (List UInt8), vs.flatten = v ∧
      (if v.isEmpty then s.queue.otherMessages else s.queue.otherMessages ++ [v]) =
        s.queue.otherMessages ++ vs ∧ (vs.flatten = [] → vs = []) := by
    cases v with
    | nil => exact ⟨[], rfl, (append_nil _).symm, fun _ => rfl⟩
    | cons b v => exact ⟨[b :: v], append_nil _, rfl, by simp⟩
  subst hvs
  refine hs.queued (ready_of_longer hs.ready rfl rfl hother hmod hcontent hs.ready.payload ?_) rfl
    (hs.pos_le hsend) (by rw [hother, flatten_append])
  rw [sendable_of_not _ hsend]
  show _ ≤ ((if vs.flatten.isEmpty then s.queue.otherMessages
    else s.queue.otherMessages ++ [vs.flatten]).flatten ++ _).length
  rw [hother, flatten_append, length_append, length_append]
  omega

/-- A request for an acknowledgement touches nothing else. -/
theorem Conserves.ack (hs : s.Conserves) (val : Nat) :
    ({ s with queue := s.queue.requestAck val } : Sender).Conserves := by
  unfold requestAck
  split
  · exact ⟨⟨hs.ready.ackPos, hs.ready.messages, hs.ready.content, hs.ready.payload,
      hs.ready.position⟩, hs.conserved⟩
  · exact ⟨⟨hs.ready.ackPos, hs.ready.messages, hs.ready.content, hs.ready.payload,
      hs.ready.position⟩, hs.conserved⟩

theorem Conserves.step {e : SenderEvent} (hs : s.Conserves) (he : s.orderly e)
    (h : s.step e = some t) : t.Conserves := by
  cases e with
  | write r =>
    simp only [Sender.step] at h
    split at h
    · rename_i hpossible
      split at h
      · rename_i bytes q hwrite
        cases h
        rcases writeToChannel_eq_ok hwrite with ⟨len, rfl, -, rfl, rfl⟩ | ⟨rfl, rfl, -⟩
        · exact hs.write (of_decide_eq_true hpossible)
        · -- nothing was written
          refine ⟨hs.ready, ?_⟩
          show (if _ ∧ _ then _ else s.log) ++ _ = nonAck (s.sent ++ []) ++ s.queue.unsent
          rw [if_neg fun hcleared => hcleared.1 hcleared.2, append_nil]
          exact hs.conserved
      · cases h
    · cases h
  | ack val =>
    cases h
    exact hs.ack val
  | push v =>
    cases h
    exact hs.push he
  | payload data tasks =>
    cases h
    exact hs.payload he.1 he.2
  | result v =>
    simp only [Sender.step] at h
    split at h
    · rename_i hwait
      cases h
      refine hs.result he hwait _ ?_
      cases v with
      | nil => rfl
      | cons b v => rfl
    · cases h

/-- A write adds to the stream what `writev` takes, and nothing else does. -/
theorem length_sent_step {e : SenderEvent} (h : s.step e = some t) :
    t.sent.length = s.sent.length + e.takes := by
  cases e with
  | write r =>
    simp only [Sender.step] at h
    split at h
    next hpossible =>
      split at h
      next bytes q hwrite =>
        cases h
        show (s.sent ++ bytes).length = _
        rw [length_append]
        congr 1
        cases r with
        | wrote len => exact length_written (of_decide_eq_true hpossible) hwrite
        | disconnected | retry | failed =>
          rcases writeToChannel_eq_ok hwrite with ⟨_, hr, -⟩ | ⟨rfl, -⟩
          · cases hr
          · rfl
      · cases h
    · cases h
  | ack | push | payload =>
    cases h
    rfl
  | result v =>
    simp only [Sender.step] at h
    split at h
    · cases h
      rfl
    · cases h

theorem length_sent_run {es : List SenderEvent} (h : Transition.run Sender.step s es = some t) :
    t.sent.length = s.sent.length + (es.map SenderEvent.takes).sum := by
  induction es generalizing s with
  | nil =>
    cases h
    rfl
  | cons e es ih =>
    obtain ⟨u, hu, hrest⟩ := run_cons h
    rw [ih hrest, length_sent_step hu, map_cons, sum_cons, Nat.add_assoc]

end Sender

/-- From any queue of whole messages, whatever `writev` takes and whenever acknowledgements are
requested: as many bytes have been written as `writev` has taken; those that do not belong to
acknowledgements and what the queue still holds are together everything that was queued, in order; no
check of a write fails; a write that is taken whole writes everything that is left; and once
everything is written the queue is empty. -/
theorem sender_writes_once (q : TransferQueue) (hq : q.Ready) (es : List SenderEvent) (s : Sender)
    (halong : Transition.Along Sender.step Sender.orderly (.start q) es)
    (hrun : Transition.run Sender.step (.start q) es = some s) :
    s.sent.length = (Sender.start q).sent.length + (es.map SenderEvent.takes).sum ∧
      s.stream = nonAck s.sent ++ s.queue.unsent ∧
      (∀ r msg, writeToChannel s.queue r ≠ .error (.panic msg)) ∧
      nonAck s.queue.planned = s.queue.unsent ∧
      (nonAck s.sent = s.stream → s.queue.otherMessages = [] ∧ s.queue.nbytesWritten = 0 ∧
        (s.queue.expectedRecvdMsgs = 0 → s.queue.protocolData = []) ∧
        s.queue.hasFromWayOutput = (s.queue.needsNewAck || decide (0 < s.queue.ackNwritten))) := by
  have hs : s.Conserves := run_invariant (fun _ _ _ hs he h => hs.step he h)
    (Sender.start_conserves hq) halong hrun
  refine ⟨Sender.length_sent_run hrun, hs.conserved, hs.ready.writeToChannel_ne_panic, ?_, ?_⟩
  · rw [planned_eq]
    simp [nonAck_ackRest, nonAck_newAck]
  · intro hall
    have hnil : s.queue.unsent = [] := by
      have h := hs.conserved
      rw [← hall] at h
      exact append_right_eq_self.mp h.symm
    obtain ⟨hother, hpos, hsend⟩ := hs.ready.reset hnil
    refine ⟨hother, hpos, fun hexp => ?_, ?_⟩
    · rw [sendProtocol, hexp] at hsend
      by_contra hne
      have hlen := length_pos_iff.mpr hne
      simp [hlen] at hsend
    · simp [hasFromWayOutput, hother, hsend]

/-- A message with a body of three bytes and its padding, and protocol data that waits for a task. -/
def paddedMessage : TransferQueue :=
  { TransferQueue.initial with
    otherMessages := [[1, 2, 3, 4, 5, 6, 7, 8], [9, 10, 11], [12]]
    protocolData := [21, 22, 23, 24]
    expectedRecvdMsgs := 1 }

/-- The body is partly written when an acknowledgement is requested, and the acknowledgement when
another message is queued and the result of the task arrives. -/
def splitWrites : List SenderEvent :=
  [.write (.wrote 9), .ack 3, .write .retry, .write (.wrote 9), .push [[31, 32, 33], [34]],
    .result [13, 14, 15, 16], .write (.wrote 14)]

theorem sender_writes_once_split : ∃ s,
    Transition.run Sender.step (.start paddedMessage) splitWrites = some s ∧ s.sent.length = 32 ∧
      s.stream = [1, 2, 3, 4, 5, 6, 7, 8, 9, 10, 11, 12, 31, 32, 33, 34, 13, 14, 15, 16,
        21, 22, 23, 24] ∧
      nonAck s.sent = s.stream ∧ s.queue.otherMessages = [] ∧ s.queue.protocolData = [] := by
  have hready : paddedMessage.Ready := by decide
  have halong : Transition.Along Sender.step Sender.orderly (.start paddedMessage) splitWrites := by
    decide +kernel
  have hrun : ∃ s, run Sender.step (.start paddedMessage) splitWrites = some s ∧
      s.stream = [1, 2, 3, 4, 5, 6, 7, 8, 9, 10, 11, 12, 31, 32, 33, 34, 13, 14, 15, 16,
        21, 22, 23, 24] ∧ s.queue.unsent = [] ∧ s.queue.expectedRecvdMsgs = 0 :=
    ⟨_, rfl, by decide +kernel, by decide +kernel, by decide +kernel⟩
  obtain ⟨s, hrun, hstream, hunsent, hexp⟩ := hrun
  obtain ⟨hlen, hconserved, -, -, hdone⟩ := sender_writes_once paddedMessage hready splitWrites s
    halong hrun
  rw [hunsent, append_nil] at hconserved
  obtain ⟨hother, -, hdata, -⟩ := hdone hconserved.symm
  exact ⟨s, hrun, hlen, hstream, hconserved.symm, hother, hdata hexp⟩

end Waypipe
