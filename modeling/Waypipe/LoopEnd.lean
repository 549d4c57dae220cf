import Waypipe.AckPlacement
import Waypipe.AckCompletion

/-!
# The end of the stream

When the loop stops, `loop_end_to_channel` writes out the queue and then the closing messages.
`FullInv` follows the whole stream, acknowledgements included: up to the rest of a started
acknowledgement, it has the same continuations as the written part of the queue.  So when
everything is written, the stream is whole messages followed by the closing messages
(`closing_sequence_framed`), and until then every write brings this closer (`left`).

That the accounting may forget an acknowledgement that was not reached does not matter here, unless
another one is partly written (`restSafe`).
-/

namespace Waypipe

open Framing TransferQueue List

variable {s t : Loop} {q : TransferQueue} {endmsg : List UInt8}

/-- The bytes on the channel. -/
def bytesOf (sent : List OutByte) : List UInt8 := sent.map Prod.snd

@[simp] theorem bytesOf_append (s t : List OutByte) : bytesOf (s ++ t) = bytesOf s ++ bytesOf t :=
  map_append

@[simp] theorem bytesOf_tagOther (bs : List UInt8) : bytesOf (tagOther bs) = bs := by
  simp [bytesOf, tagOther]

@[simp] theorem bytesOf_tagAck (pos : Nat) (bs : List UInt8) : bytesOf (tagAck pos bs) = bs := by
  induction bs generalizing pos with
  | nil => rfl
  | cons b bs ih => simpa [bytesOf, tagAck] using ih (pos + 1)

theorem ackMsg_isWmsg (v : Nat) : IsWmsg (ackMsg v).toList := by
  have hheader : buildWmsgHeader .ackNblocks 8 = .ok (8 * 2 ^ 5 ||| WmsgType.ackNblocks.code) := rfl
  exact isWmsg_words hheader (by simp) (by decide)

/-- A write that carries a new acknowledgement takes the rest of a started one; the accounting
forgets what is left of it otherwise. -/
def restSafe (s : Loop) (e : Event) : Prop :=
  ∀ len, e.writes = some len → s.queue.needsNewAck = true →
    s.queue.nbytesWritten ≤ s.queue.otherMessages.flatten.length →
    s.queue.ackNwritten = 0 ∨ 8 ≤ s.queue.ackNwritten + len

instance (s : Loop) (e : Event) : Decidable (restSafe s e) :=
  match h : e.writes with
  | none => isTrue (by intro len hlen; rw [h] at hlen; cases hlen)
  | some n => decidable_of_iff (s.queue.needsNewAck = true →
      s.queue.nbytesWritten ≤ s.queue.otherMessages.flatten.length →
      s.queue.ackNwritten = 0 ∨ 8 ≤ s.queue.ackNwritten + n) (by simp [restSafe, h])

/-- All the conditions under which the stream is well framed. -/
structure StreamSafe (s : Loop) (e : Event) : Prop where
  signal : signalSafe s e
  stop : stopSafe s e
  ack : ackSafe s e
  rest : restSafe s e

instance (s : Loop) (e : Event) : Decidable (StreamSafe s e) :=
  decidable_of_iff (signalSafe s e ∧ stopSafe s e ∧ ackSafe s e ∧ restSafe s e)
    ⟨fun ⟨h1, h2, h3, h4⟩ => ⟨h1, h2, h3, h4⟩, fun ⟨h1, h2, h3, h4⟩ => ⟨h1, h2, h3, h4⟩⟩

/-- An acknowledgement that is wanted is a message. -/
def AckWanted (q : TransferQueue) : Prop := q.needsNewAck = true → ∃ v, q.nextAck = ackMsg v

theorem AckWanted.congr {q' : TransferQueue} (h : AckWanted q) (hq : q'.ackFields = q.ackFields) :
    AckWanted q' := by
  simp only [ackFields, Prod.mk.injEq] at hq
  rw [AckWanted, nextAck, hq.1, hq.2.1, hq.2.2.1, hq.2.2.2.1]
  exact h

theorem AckWanted.account (h : AckWanted q) (h8 : q.ackNwritten < 8) (len : Nat) :
    AckWanted (q.account len) := by
  intro hneeds
  obtain ⟨hneeds', -⟩ := q.account_ack (Nat.le_of_lt h8) len
  rw [hneeds'] at hneeds
  cases hinj : q.injects with
  | true =>
    simp only [ackAfter, hinj, if_true] at hneeds
    cases hneeds
  | false =>
    rw [q.nextAck_account h8 hinj]
    simp only [ackAfter, hinj, Bool.false_eq_true, if_false] at hneeds
    exact h hneeds

theorem step_ackWanted {e : Event} (hs : AckWanted s.queue) (h8 : s.queue.ackNwritten < 8)
    (h : s.step e = some t) : AckWanted t.queue := by
  cases Loop.step_moves h with
  | quiet hquiet =>
    rw [hquiet.queue]
    exact hs
  | write => exact hs.account h8 _
  | signal => exact hs
  | result _ _ hq => rcases hq with rfl | ⟨-, rfl⟩ <;> exact hs
  | wayland _ hq hq' => exact hs.congr (wayland_ackFields hq hq')
  | @ack _ _ _ _ _ val _ _ _ hq =>
    intro _
    rw [hq, requestAck]
    split
    next h0 => exact ⟨val, if_pos h0⟩
    next h0 => exact ⟨val, if_neg h0⟩
  | stop _ _ hq => exact hs.congr (processWayland2_ackFields hq)
  | endQueue => exact hs.account h8 _
  | endMsg => exact hs

/-- The whole stream, with the rest of a started acknowledgement, is placed like the queue. -/
structure FullInv (s : Loop) : Prop where
  frame : FrameInv s
  ack : AckWanted s.queue
  full : s.phase ≠ .closed → ∃ base, s.sent = base ++ tagOther s.phase.tail ∧
    wmsgFraming.Equiv (bytesOf (base ++ s.queue.ackRest))
      (s.queue.wire.take s.queue.nbytesWritten)

/-- Steps that do not write leave the rest of a started acknowledgement alone. -/
theorem ackRest_of_step {e : Event} (h : s.step e = some t) (he : e.writes = none) :
    t.queue.ackRest = s.queue.ackRest := by
  have hfields : ∀ {q q' : TransferQueue}, q'.ackFields = q.ackFields → q'.ackRest = q.ackRest := by
    intro q q' hq
    simp only [ackFields, Prod.mk.injEq] at hq
    rw [ackRest, ackRest, hq.2.1, hq.2.2.2.1]
  cases Loop.step_moves h with
  | quiet hquiet => rw [hquiet.queue]
  | write => cases he
  | signal => rfl
  | result _ _ hq => rcases hq with rfl | ⟨-, rfl⟩ <;> rfl
  | wayland _ hq hq' => exact hfields (wayland_ackFields hq hq')
  | ack _ _ _ hq =>
    rw [hq, requestAck]
    split
    · rfl
    next h0 => simp [ackRest, h0]
  | stop _ _ hq => exact hfields (processWayland2_ackFields hq)
  | endQueue => cases he
  | endMsg => cases he

/-- An acknowledgement that a write carries and does not get to is forgotten. -/
theorem ackAfter_of_lost {len : Nat} (hinj : q.injects = true)
    (hlen : len ≤ q.ackRest.length + q.lead) :
    (q.ackAfter len).1 = false ∧ (q.ackAfter len).2.2 = 0 := by
  simp only [ackAfter, hinj, if_true]
  exact ⟨trivial, by rw [if_pos (by omega)]; omega⟩

/-- Nothing but the rest of a started acknowledgement and of a started vector is written then. -/
theorem take_planned_of_lost {len : Nat} (hrest : q.ackRest.length ≤ len)
    (hlen : len ≤ q.ackRest.length + q.lead) :
    q.planned.take len = q.ackRest ++ tagOther (q.unsent.take (len - q.ackRest.length)) := by
  have hlead : (tagOther (q.unsent.take q.lead)).length = q.lead := by
    rw [length_tagOther, length_take_of_le q.lead_le]
  rw [planned_eq, take_append, take_of_length_le hrest,
    take_append_of_le_length (by omega), take_tagOther, take_take,
    Nat.min_eq_left (by omega)]

/-- What a write emits, with the rest of the acknowledgement it starts, is what it emits of the
messages with at most one whole acknowledgement in it, at a message boundary. -/
theorem write_full {x : List UInt8} {len : Nat} (h8 : q.ackNwritten < 8)
    (hsync : q.sendProtocol = q.protocolHeaderAdded)
    (hnext : q.injects = true → ∃ v, q.nextAck = ackMsg v)
    (hrest : q.injects = true → q.ackRest.length ≤ len)
    (hx : wmsgFraming.Equiv x (q.wire.take q.nbytesWritten))
    (hsafe : q.injects = true → q.ackRest.length + q.lead < len →
      Wmsgs (q.wire.take (q.nbytesWritten + q.lead))) :
    ∃ y, q.ackRest ++ y = q.planned.take len ++ (q.account len).ackRest ∧
      wmsgFraming.Equiv (x ++ bytesOf y) (x ++ nonAck (q.planned.take len)) := by
  by_cases hlost : q.injects = true ∧ len ≤ q.ackRest.length + q.lead
  · obtain ⟨hinj, hlen⟩ := hlost
    obtain ⟨-, -, hpos, -⟩ := q.account_ack (Nat.le_of_lt h8) len
    have hnone : (q.account len).ackRest = [] := by
      rw [ackRest, hpos, (ackAfter_of_lost hinj hlen).2]
      rfl
    rw [take_planned_of_lost (hrest hinj) hlen, hnone, append_nil]
    refine ⟨_, rfl, ?_⟩
    rw [nonAck_append, q.nonAck_ackRest, nonAck_tagOther, bytesOf_tagOther]
    exact Framing.Equiv.refl _ _
  have hreach : q.reachesAck len := by
    intro hinj
    by_contra hlen
    exact hlost ⟨hinj, by omega⟩
  rw [q.account_ackRest (Nat.le_of_lt h8) hreach]
  cases hinj : q.injects with
  | false =>
    refine ⟨tagOther (q.unsent.take (len - q.ackRest.length)), ?_, ?_⟩
    · rw [q.take_planned_of_not hinj, if_neg (by decide)]
      by_cases hle : q.ackRest.length ≤ len
      · rw [take_of_length_le hle, drop_eq_nil_of_le hle, append_nil]
      · rw [Nat.sub_eq_zero_of_le (by omega), take_zero]
        simp [tagOther]
    · rw [q.take_planned_of_not hinj, nonAck_append, nonAck_tagOther,
        nonAck_take_of_nil q.nonAck_ackRest, bytesOf_tagOther]
      exact Framing.Equiv.refl _ _
  | true =>
    obtain ⟨v, hv⟩ := hnext hinj
    have hlt := hreach hinj
    refine ⟨tagOther (q.unsent.take q.lead) ++ (q.newAck ++
      tagOther ((q.unsent.drop q.lead).take (len - q.ackRest.length - q.lead - 8))), ?_, ?_⟩
    · rw [q.take_planned_of_reach hinj hlt, newAck, if_pos hinj, if_pos rfl, ← take_tagAck]
      by_cases hm : len - q.ackRest.length - q.lead < 8
      · rw [Nat.sub_eq_zero_of_le (Nat.le_of_lt hm), take_zero]
        simp [tagOther]
      · have hwhole : (tagAck 0 q.nextAck.toList).length ≤ len - q.ackRest.length - q.lead := by
          rw [length_tagAck, Vector.length_toList]
          omega
        rw [take_of_length_le hwhole, drop_eq_nil_of_le hwhole]
        simp
    · -- the acknowledgement is inserted where the queue has a message boundary
      have hbound : Wmsgs (x ++ q.unsent.take q.lead) := by
        have := hsafe hinj hlt
        rw [take_add, ← unsent_eq_wire hsync] at this
        exact (hx _).mpr this
      have hack : Wmsgs (ackMsg v).toList := (ackMsg_isWmsg v).framed
      have hins := ((Framing.Equiv.refl wmsgFraming (x ++ q.unsent.take q.lead)).insert hbound
        hack).append_right ((q.unsent.drop q.lead).take (len - q.ackRest.length - q.lead - 8))
      rw [q.take_planned_of_reach hinj hlt, newAck, if_pos hinj, hv]
      simpa [q.nonAck_ackRest] using hins

/-- A step keeps the whole stream in place. -/
theorem step_fullInv {e : Event} (hs : FullInv s) (hsafe : StreamSafe s e)
    (h : s.step e = some t) : FullInv t := by
  refine ⟨step_frameInv hs.frame ⟨hsafe.signal, hsafe.stop⟩ h,
    step_ackWanted hs.ack hs.frame.queue.ackPos h, ?_⟩
  intro hopen'
  cases hs.frame.advance ⟨hsafe.signal, hsafe.stop⟩ h with
  | quiet hquiet =>
    rcases hquiet.phase with rfl | hclosed | ⟨hin, hin', -⟩
    · exact hs.full hopen'
    · exact absurd hclosed hopen'
    · rw [hquiet.sent, hquiet.queue, Phase.tail_of_inLoop hin', ← Phase.tail_of_inLoop hin]
      exact hs.full (not_closed_of_inLoop hin)
  | queues hqueues he =>
    have hfull := hs.full (not_closed_of_inLoop hqueues.inLoop)
    rw [Phase.tail_of_inLoop hqueues.inLoop] at hfull
    rw [hqueues.sent, hqueues.tail, ackRest_of_step h he, hqueues.ext.take hs.frame.queue]
    exact hfull
  | @emits len he htail htail' hopen hsync hlen hq hsent =>
    obtain ⟨base, hbase, hx⟩ := hs.full hopen
    rw [htail, show tagOther [] = [] from rfl, append_nil] at hbase
    subst hbase
    have hneeds : s.queue.injects = true → s.queue.needsNewAck = true := by
      intro hinj
      rw [injects, Bool.and_eq_true] at hinj
      exact hinj.1
    have hrest : s.queue.injects = true → s.queue.ackRest.length ≤ len := by
      intro hinj
      rw [injects, Bool.and_eq_true, Option.isSome_iff_exists] at hinj
      obtain ⟨hneeds, c, hcut⟩ := hinj
      rw [length_ackRest]
      rcases hsafe.rest len he hneeds (Nat.le_of_add_right_le (ackCut_some hcut)) with h0 | hlen
      · simp [h0]
      · split <;> omega
    obtain ⟨y, hy, hequiv⟩ := write_full hs.frame.queue.ackPos hsync
      (fun hinj => hs.ack (hneeds hinj)) hrest hx
      ((hs.frame.queue.split_iff len).mp (hsafe.ack len he))
    refine ⟨t.sent, ?_, ?_⟩
    · rw [htail', show tagOther [] = [] from rfl, append_nil]
    · rw [hsent, hq, append_assoc, ← hy, ← append_assoc, bytesOf_append]
      exact hequiv.trans (account_placed hs.frame.queue hsync len hx)
  | @closes len n endmsg hphase hout hlen ht =>
    obtain ⟨base, hbase, hx⟩ := hs.full (by simp [hphase])
    refine ⟨base, ?_, ?_⟩
    · rw [ht, hbase, hphase]
      show (base ++ tagOther (endmsg.take n)) ++ _ = base ++ tagOther (endmsg.take (n + len))
      rw [append_assoc, ← tagOther_append, ← take_add]
    · rw [ht]
      exact hx

theorem FullInv.initial (display : Bool) (version : Nat) :
    FullInv (Loop.initial display version) := by
  refine ⟨FrameInv.initial display version, ?_, ?_⟩
  · unfold Loop.initial AckWanted
    dsimp only
    split <;> exact nofun
  intro hopen
  have hplaced := (FrameInv.initial display version).placed hopen
  refine ⟨[], rfl, ?_⟩
  have hrest : (Loop.initial display version).queue.ackRest = [] := by
    unfold Loop.initial
    dsimp only
    split <;> rfl
  rw [show (Loop.initial display version).phase.tail = [] from rfl, append_nil] at hplaced
  rw [hrest]
  exact hplaced

/-! ## Writing to the end -/

/-- How many bytes are left to write, a new acknowledgement included. -/
def TransferQueue.left (q : TransferQueue) : Nat :=
  q.ackRest.length + q.unsent.length + if q.needsNewAck then 8 else 0

/-- How many bytes `loop_end_to_channel` has left to write. -/
def Loop.left (s : Loop) : Nat :=
  s.queue.left + match s.phase with
    | .ending endmsg n => endmsg.length - n
    | _ => 0

/-- How many bytes the next write of `loop_end_to_channel` hands to the kernel. -/
def Loop.offered (s : Loop) : Nat :=
  match s.phase with
  | .ending endmsg n =>
    if s.queue.hasFromWayOutput then s.queue.planned.length else endmsg.length - n
  | _ => 0

/-- Every byte written counts. -/
theorem left_account {len : Nat} (h8 : q.ackNwritten < 8) (hlen : len ≤ q.planned.length) :
    (q.account len).left + len ≤ q.left := by
  by_cases hlost : q.injects = true ∧ len ≤ q.ackRest.length + q.lead
  · obtain ⟨hinj, hlen⟩ := hlost
    obtain ⟨hneeds, -, hpos, -⟩ := q.account_ack (Nat.le_of_lt h8) len
    rw [(ackAfter_of_lost hinj hlen).1] at hneeds
    rw [(ackAfter_of_lost hinj hlen).2] at hpos
    have hlead := q.lead_le
    unfold left
    rw [hneeds, q.account_unsent (Nat.le_of_lt h8), (q.account len).length_ackRest, hpos,
      length_drop, taken]
    simp only [Nat.lt_irrefl, Bool.false_eq_true, if_false]
    omega
  have hreach : q.reachesAck len := by
    intro hinj
    by_contra hlen
    exact hlost ⟨hinj, by omega⟩
  have hcons := congrArg length (q.write_conserves (Nat.le_of_lt h8) hreach)
  have hplan := congrArg length q.planned_eq
  have hlead := q.lead_le
  obtain ⟨hneeds, -⟩ := q.account_ack (Nat.le_of_lt h8) len
  simp only [length_append, length_tagOther, length_take, length_drop,
    q.length_newAck] at hcons hplan
  unfold left
  cases hinj : q.injects with
  | true =>
    have hn : q.needsNewAck = true := by
      rw [injects, Bool.and_eq_true] at hinj
      exact hinj.1
    rw [q.ackAfter_of_reach hinj (hreach hinj)] at hneeds
    dsimp only at hneeds
    rw [hinj, if_pos rfl] at hplan
    rw [hneeds, hn, if_neg (by decide), if_pos rfl]
    omega
  | false =>
    have hsame : (q.ackAfter len).1 = q.needsNewAck := by
      simp [ackAfter, hinj]
    rw [hinj, if_neg (by decide)] at hplan
    rw [hneeds, hsame]
    omega

/-- The output of a queue without messages is an acknowledgement. -/
theorem QueueOk.ack_of_no_messages (hq : QueueOk q) (hsync : q.sendProtocol = q.protocolHeaderAdded)
    (hout : q.hasFromWayOutput = true) (ho : q.otherMessages = []) :
    q.needsNewAck = true ∨ 0 < q.ackNwritten := by
  have hadd := hq.headerAdded_of_no_messages ho
  simpa only [hasFromWayOutput, ho, hsync, hadd, isEmpty_nil, Bool.not_true,
    Bool.false_and, Bool.false_or, Bool.or_eq_true, decide_eq_true_eq] using hout

/-- As long as there is output, some of it is handed to the kernel. -/
theorem QueueOk.planned_pos (hq : QueueOk q) (hsync : q.sendProtocol = q.protocolHeaderAdded)
    (hout : q.hasFromWayOutput = true) :
    0 < q.planned.length := by
  have hplan := congrArg length q.planned_eq
  have hlead := q.lead_le
  have hun : q.unsent.length = q.wire.length - q.nbytesWritten := by
    rw [unsent_eq_wire hsync, length_drop]
  simp only [length_append, length_tagOther, length_take, length_drop,
    q.length_newAck, q.length_ackRest] at hplan
  by_cases ho : q.otherMessages = []
  · rcases hq.ack_of_no_messages hsync hout ho with hneeds | hpos
    · have hinj : q.injects = true := by
        simp [injects, hneeds, ho, hq.empty ho, ackCut]
      rw [hinj, if_pos rfl] at hplan
      omega
    · rw [if_pos hpos] at hplan
      have := hq.ackPos
      omega
  · have := hq.busy ho
    omega

/-- The assertions of `write_to_channel` hold. -/
theorem QueueOk.writeToChannel (hq : QueueOk q) (hsync : q.sendProtocol = q.protocolHeaderAdded)
    (hout : q.hasFromWayOutput = true) (len : Nat) :
    writeToChannel q (.wrote len) = .ok (false, q.planned.take len, q.account len) := by
  have hmod : (q.netLen % 4 == 0) = true := by
    rw [netLen_eq_wire hsync, beq_iff_eq]
    exact hq.framed.length_mod
  have hbusy : (decide (q.nbytesWritten < q.netLen) || (q.needsNewAck || decide (0 < q.ackNwritten)))
      = true := by
    rw [netLen_eq_wire hsync]
    simp only [Bool.or_eq_true, decide_eq_true_eq]
    by_cases ho : q.otherMessages = []
    · exact .inr (hq.ack_of_no_messages hsync hout ho)
    · exact .inl (hq.busy ho)
  have hidle : (q.netLen == 0 && !q.needsNewAck && q.ackNwritten == 0) = false := by
    simp only [Bool.or_eq_true, decide_eq_true_eq] at hbusy
    rcases hbusy with h | h | h
    · simp [show q.netLen ≠ 0 by omega]
    · simp [h]
    · simp [show q.ackNwritten ≠ 0 by omega]
  simp [Waypipe.writeToChannel, assert, hmod, hbusy, hidle]
  rfl

theorem step_closed {e : Event} (h : s.phase = .closed) : s.step e = none := by
  unfold Loop.step
  rw [h]
  cases e <;> rfl

theorem run_ending {ws : List Event} {m : List UInt8}
    (hs : s.phase = .closed ∨ ∃ n, s.phase = .ending m n) (hrun : s.run ws = some t) :
    t.phase = .closed ∨ ∃ n, t.phase = .ending m n := by
  refine Transition.run_invariant (C := fun _ _ => True)
    (P := fun s => s.phase = .closed ∨ ∃ n, s.phase = .ending m n) ?_ hs
    (Transition.Along.of_forall fun _ _ => trivial) hrun
  rintro s e t (hclosed | ⟨n, hn⟩) - h
  · rw [step_closed hclosed] at h
    cases h
  · cases Loop.step_moves h with
    | quiet hquiet =>
      rcases hquiet.phase with rfl | hclosed | ⟨hin, -, -⟩
      · exact .inr ⟨n, hn⟩
      · exact .inl hclosed
      · simp [Loop.inLoop, hn] at hin
    | write hphase | signal hphase | result hphase | wayland hphase | ack hphase =>
      rw [hn] at hphase
      cases hphase
    | stop hphase => simp [Loop.inLoop, hn] at hphase
    | endQueue => exact .inr ⟨n, hn⟩
    | endMsg hphase =>
      rw [hn] at hphase
      cases hphase
      exact .inr ⟨_, rfl⟩

theorem stop_ending {error : Option (List UInt8)} {sendCloseMsg : Bool}
    (h : s.step (.stop error sendCloseMsg) = some t) :
    ∃ endmsg, endMsg error sendCloseMsg = .ok endmsg ∧ t.phase = .ending endmsg 0 := by
  unfold Loop.step at h
  cases hp : s.phase with
  | ending | closed =>
    simp only [hp] at h
    cases h
  | poll | eofs | signals | results | wayland | finish | halted =>
    simp only [hp] at h
    split at h
    next endmsg q hend hq =>
      cases h
      exact ⟨endmsg, hend, rfl⟩
    · cases h

/-- A write of `loop_end_to_channel` with any positive count succeeds and brings the end closer. -/
theorem FullInv.progress {n len : Nat} (hs : FullInv s) (hphase : s.phase = .ending endmsg n)
    (hpos : 0 < len) (hlen : len ≤ s.offered) :
    ∃ t, s.step (.endWrite (.wrote len)) = some t ∧ t.left < s.left := by
  unfold Loop.offered at hlen
  unfold Loop.step
  rw [hphase] at hlen ⊢
  dsimp only at hlen ⊢
  unfold Loop.endStep
  cases hout : s.queue.hasFromWayOutput with
  | true =>
    have hsync := hs.frame.synced (by simp [Loop.writable, hphase])
    rw [hout, if_pos rfl] at hlen
    have hposs : (WritevResult.wrote len).possible s.queue.planned.length = true := by
      simpa [WritevResult.possible] using hlen
    rw [if_pos rfl, if_pos hposs, hs.frame.queue.writeToChannel hsync hout]
    refine ⟨_, rfl, ?_⟩
    have := left_account hs.frame.queue.ackPos hlen
    simp only [Loop.left, hphase]
    omega
  | false =>
    rw [hout, if_neg (by decide)] at hlen
    rw [if_neg (by decide), if_pos (by omega)]
    dsimp only
    rw [if_pos hlen]
    refine ⟨_, rfl, ?_⟩
    simp only [Loop.left, hphase]
    omega

/-- Everything is written, the closing messages included. -/
def Loop.finished (s : Loop) : Prop :=
  s.queue.hasFromWayOutput = false ∧ ∃ endmsg, s.phase = .ending endmsg endmsg.length

theorem FullInv.offered_pos {n : Nat} (hs : FullInv s) (hphase : s.phase = .ending endmsg n)
    (hnot : ¬ s.finished) : 0 < s.offered := by
  have hsync := hs.frame.synced (by simp [Loop.writable, hphase])
  obtain ⟨-, hn, -⟩ := hs.frame.endmsg endmsg n hphase
  unfold Loop.offered
  rw [hphase]
  dsimp only
  split
  next hout => exact hs.frame.queue.planned_pos hsync hout
  next hout =>
    have hne : n ≠ endmsg.length := by
      rintro rfl
      exact hnot ⟨by simpa using hout, endmsg, hphase⟩
    omega

/-- The stream at the end. -/
theorem FullInv.finished (hs : FullInv s) (hphase : s.phase = .ending endmsg endmsg.length)
    (hout : s.queue.hasFromWayOutput = false) :
    ∃ pre, Wmsgs pre ∧ bytesOf s.sent = pre ++ endmsg := by
  obtain ⟨base, hbase, hx⟩ := hs.full (by simp [hphase])
  have hrest : s.queue.ackRest = [] := by
    simp only [hasFromWayOutput, Bool.or_eq_false_iff, decide_eq_false_iff_not] at hout
    rw [ackRest, if_neg hout.2]
  rw [hrest, append_nil, (hs.frame.queue.wire_of_idle hout).1, take_nil] at hx
  refine ⟨bytesOf base, hx.framed_iff.mpr Framed.nil, ?_⟩
  rw [hbase, bytesOf_append, bytesOf_tagOther, hphase, Phase.tail, take_length]

/-- **The closing sequence.** Let the loop stop after any run, with or without an error, and let
`loop_end_to_channel` write in any portions.  As long as it is not finished it has something to
write, and every write of at least one byte brings the end closer; when it is finished, the bytes
on the channel are whole messages, then the error message if there is an error, then the close
message if it is wanted. -/
theorem closing_sequence_framed {display : Bool} {version : Nat} {es ws : List Event}
    {s s₁ t : Loop} {error : Option (List UInt8)} {sendCloseMsg : Bool}
    (hsafe : Transition.Along Loop.step StreamSafe (Loop.initial display version)
      (es ++ .stop error sendCloseMsg :: ws))
    (hrun : (Loop.initial display version).run es = some s)
    (hstop : s.step (.stop error sendCloseMsg) = some s₁)
    (hend : s₁.run ws = some t) (hopen : t.phase ≠ .closed) :
    ∃ err close,
      (error = none ∧ err = [] ∨
        ∃ msg, error = some msg ∧ errorMsg msg = .ok err ∧ IsWmsg err) ∧
      (sendCloseMsg = false ∧ close = [] ∨
        sendCloseMsg = true ∧ closeMsg = .ok close ∧ IsWmsg close) ∧
      (t.finished → ∃ pre, Wmsgs pre ∧ bytesOf t.sent = pre ++ (err ++ close)) ∧
      (¬ t.finished → 0 < t.offered ∧ ∀ len, 0 < len → len ≤ t.offered →
        ∃ u, t.step (.endWrite (.wrote len)) = some u ∧ u.left < t.left) := by
  have hrest : s.run (.stop error sendCloseMsg :: ws) = some t := by
    show (s.step (.stop error sendCloseMsg)).bind _ = _
    rw [hstop]
    exact hend
  have hinv : FullInv t := Transition.run_invariant
    (fun _ _ _ hs hsafe h => step_fullInv hs hsafe h) (FullInv.initial display version) hsafe
    (Transition.run_trans hrun hrest)
  obtain ⟨endmsg, hmsg, hphase₁⟩ := stop_ending hstop
  obtain ⟨n, hphase⟩ := (run_ending (.inr ⟨0, hphase₁⟩) hend).resolve_left hopen
  obtain ⟨err, close, rfl, herr, hclose⟩ := endMsg_eq_ok hmsg
  refine ⟨err, close, ?_, ?_, ?_, ?_⟩
  · rcases herr with h | ⟨msg, h, hok⟩
    · exact .inl h
    · exact .inr ⟨msg, h, hok, errorMsg_isWmsg hok⟩
  · rcases hclose with h | ⟨h, hok⟩
    · exact .inl h
    · exact .inr ⟨h, hok, closeMsg_isWmsg hok⟩
  · rintro ⟨hout, m, hm⟩
    rw [hphase] at hm
    cases hm
    exact hinv.finished hphase hout
  · intro hnot
    refine ⟨hinv.offered_pos hphase hnot, ?_⟩
    intro len hpos hlen
    exact hinv.progress hphase hpos hlen

/-- An acknowledgement is partly written when the loop stops, and the rest is written in two
portions. -/
def quietStopEvents : List Event :=
  idleEvents ++ [.wayland none, .finish 1 16 false false, .write (.wrote 5)]

def quietEndEvents : List Event := [.endWrite (.wrote 3), .endWrite (.wrote 8)]

theorem closing_sequence_framed_quiet :
    ∃ s s₁ t pre, (Loop.initial false 16).run quietStopEvents = some s ∧
      s.step (.stop none true) = some s₁ ∧ s₁.run quietEndEvents = some t ∧ Wmsgs pre ∧
      bytesOf t.sent = pre ++ [18, 1, 0, 0, 0, 0, 0, 0] := by
  have hrun : ∃ s s₁ t, (Loop.initial false 16).run quietStopEvents = some s ∧
      s.step (.stop none true) = some s₁ ∧ s₁.run quietEndEvents = some t ∧
      t.phase = .ending [18, 1, 0, 0, 0, 0, 0, 0] 8 ∧ t.queue.hasFromWayOutput = false :=
    ⟨_, _, _, rfl, rfl, rfl, by decide, by decide⟩
  obtain ⟨s, s₁, t, hrun, hstop, hend, hphase, hout⟩ := hrun
  have hopen : t.phase ≠ .closed := by rw [hphase]; decide
  obtain ⟨err, close, herr, hclose, hfin, -⟩ :=
    closing_sequence_framed (by decide) hrun hstop hend hopen
  obtain ⟨pre, hpre, hbytes⟩ := hfin ⟨hout, _, hphase⟩
  have herr' : err = [] := by
    rcases herr with ⟨-, h⟩ | ⟨msg, h, -⟩
    · exact h
    · cases h
  have hclose' : close = [18, 1, 0, 0, 0, 0, 0, 0] := by
    rcases hclose with ⟨h, -⟩ | ⟨-, h, -⟩
    · cases h
    · cases h
      decide
  rw [herr', hclose'] at hbytes
  exact ⟨s, s₁, t, pre, hrun, hstop, hend, hpre, hbytes⟩

/-- A request, and a damaged file of 64 bytes that goes with it. -/
def damagedRequest : WaylandWork :=
  { syncRequest with
    sfds := [{
      remoteId := 1, onlyHere := false
      data := .file {
        bufferSize := 64, remoteBufsize := 64, readonly := false, damage := .everything
        core := some { memMirror := replicate 64 0, mapping := replicate 64 7, shared := 0 }
        fd := 3, pendingApplyTasks := 0 } }] }

/-- The loop stops while the file is being compared. -/
def pendingStopEvents : List Event := idleEvents ++ [.wayland (some damagedRequest)]

/-- **A header without payload.** `process_wayland_2` has queued the header of the 12 bytes of
protocol data, but they are not sent while a result is outstanding, and the close message takes
their place. -/
theorem stop_drops_payload :
    ∃ s s₁ t, (Loop.initial false 16).run pendingStopEvents = some s ∧
      s.queue.expectedRecvdMsgs = 1 ∧ s.step (.stop none true) = some s₁ ∧
      s₁.run [.endWrite (.wrote 4), .endWrite (.wrote 8)] = some t ∧ t.finished ∧
      bytesOf t.sent = [0, 2, 0, 0] ++ [18, 1, 0, 0, 0, 0, 0, 0] ∧ ¬ Wmsgs (bytesOf t.sent) := by
  refine ⟨_, _, _, rfl, by decide, rfl, rfl, ⟨by decide, _, rfl⟩, by decide, by decide⟩

end Waypipe
