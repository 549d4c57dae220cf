import Waypipe.MainLoop

/-!
# Acknowledgements are completed, and the last one counts

A write can end inside an acknowledgement; the next one then continues it before anything else.
A new value requested meanwhile waits in `ackMsgNxt`.  When the queue has run empty, the last whole
acknowledgement in the stream carries `lastAck` (`last_ack_written`).

This needs every write to get at least one byte into a new acknowledgement that it carries
(`reachSafe`): the accounting of `write_to_channel` takes a new acknowledgement for started as soon
as it was handed to `writev`.
-/

namespace Waypipe

open TransferQueue List

variable {len : Nat}

/-- The stream is made of bytes of messages and of whole acknowledgements, which carry `vs`. -/
inductive Pieced : List OutByte → List Nat → Prop where
  | nil : Pieced [] []
  | other {s : List OutByte} {vs : List Nat} (b : UInt8) (h : Pieced s vs) :
      Pieced (s ++ [(.other, b)]) vs
  | ack {s : List OutByte} {vs : List Nat} (v : Nat) (h : Pieced s vs) :
      Pieced (s ++ tagAck 0 (ackMsg v).toList) (vs ++ [v])

theorem Pieced.append_other {s : List OutByte} {vs : List Nat} (h : Pieced s vs)
    (bs : List UInt8) : Pieced (s ++ tagOther bs) vs := by
  induction bs generalizing s with
  | nil => simpa [tagOther] using h
  | cons b bs ih =>
    have := ih (h.other b)
    rwa [append_assoc] at this

theorem tagAck_append (pos : Nat) (bs cs : List UInt8) :
    tagAck pos (bs ++ cs) = tagAck pos bs ++ tagAck (pos + bs.length) cs := by
  induction bs generalizing pos with
  | nil => simp [tagAck]
  | cons b bs ih =>
    simp only [cons_append, tagAck, ih, length_cons]
    rw [show pos + 1 + bs.length = pos + (bs.length + 1) by omega]

namespace TransferQueue

variable (q : TransferQueue)

/-- The bytes of a started acknowledgement that are written. -/
def ackDone : List OutByte := tagAck 0 (q.ackMsgCur.toList.take q.ackNwritten)

/-- A write that has got into the new acknowledgement. -/
theorem take_planned_of_reach (hinj : q.injects = true)
    (hlen : q.ackRest.length + q.lead < len) :
    q.planned.take len = q.ackRest ++ (tagOther (q.unsent.take q.lead) ++
      (tagAck 0 (q.nextAck.toList.take (len - q.ackRest.length - q.lead)) ++
        tagOther ((q.unsent.drop q.lead).take (len - q.ackRest.length - q.lead - 8)))) := by
  have hlead : (tagOther (q.unsent.take q.lead)).length = q.lead := by
    rw [length_tagOther, length_take_of_le q.lead_le]
  have h1 : len = q.ackRest.length + (q.lead + (len - q.ackRest.length - q.lead)) := by omega
  rw [planned_eq, newAck, if_pos hinj]
  nth_rewrite 1 [h1]
  rw [take_length_add_append]
  nth_rewrite 1 [← hlead]
  rw [take_length_add_append, take_append, take_tagAck, take_tagOther, length_tagAck,
    Vector.length_toList]

/-- A write that carries no new acknowledgement. -/
theorem take_planned_of_not (hinj : q.injects = false) :
    q.planned.take len = q.ackRest.take len ++
      tagOther (q.unsent.take (len - q.ackRest.length)) := by
  have hun : tagOther (q.unsent.take q.lead) ++ tagOther (q.unsent.drop q.lead) =
      tagOther q.unsent := by
    rw [← tagOther_append, take_append_drop]
  rw [planned_eq, newAck, hinj, if_neg (by decide), nil_append, hun, take_append, take_tagOther]

/-- A write that does not carry the acknowledgement that is wanted leaves it to the next one. -/
theorem nextAck_account (h8 : q.ackNwritten < 8) (hinj : q.injects = false) :
    (q.account len).nextAck = q.nextAck := by
  obtain ⟨-, hcur, hpos, hnxt, -⟩ := q.account_ack (Nat.le_of_lt h8) len
  simp only [ackAfter, hinj, Bool.false_eq_true, if_false] at hcur hpos
  rw [nextAck, nextAck, hcur, hpos, hnxt]
  by_cases h0 : 0 < q.ackNwritten
  · by_cases hdone : q.ackRest.length ≤ len
    · simp [h0, hdone]
    · simp [h0, hdone]
  · simp [h0]

/-- A started acknowledgement together with its rest is whole. -/
theorem ackDone_append_ackRest (h0 : 0 < q.ackNwritten) (h8 : q.ackNwritten < 8) :
    q.ackDone ++ q.ackRest = tagAck 0 q.ackMsgCur.toList := by
  have hlen : (q.ackMsgCur.toList.take q.ackNwritten).length = q.ackNwritten := by
    rw [length_take, Vector.length_toList]
    omega
  have happ := tagAck_append 0 (q.ackMsgCur.toList.take q.ackNwritten)
    (q.ackMsgCur.toList.drop q.ackNwritten)
  rw [take_append_drop, hlen, Nat.zero_add] at happ
  rw [ackDone, ackRest, if_pos h0, happ]

end TransferQueue

/-- How the acknowledgement fields relate to the stream and to the values requested. -/
structure AckInv (q : TransferQueue) (sent : List OutByte) (requests : List Nat) : Prop where
  pos : q.ackNwritten < 8
  pieced : ∃ base vs, Pieced base vs ∧ vs ⊆ requests ∧ sent = base ++ q.ackDone ∧
    (q.needsNewAck = false → q.ackNwritten = 0 → vs.getLast? = requests.getLast?)
  /-- The next acknowledgement carries the last value requested. -/
  wanted : q.needsNewAck = true → q.nextAck = ackMsg q.lastAck
  started : 0 < q.ackNwritten →
    ∃ v ∈ requests, q.ackMsgCur = ackMsg v ∧ (q.needsNewAck = false → v = q.lastAck)
  last : q.needsNewAck = true ∨ 0 < q.ackNwritten → requests.getLast? = some q.lastAck
  requests : requests = [] ∨ requests.getLast? = some q.lastAck

namespace AckInv

variable {q : TransferQueue} {sent : List OutByte} {requests : List Nat}

/-- Once a started acknowledgement is completed, the stream is made of whole ones. -/
theorem complete (h : AckInv q sent requests) :
    ∃ vs, Pieced (sent ++ q.ackRest) vs ∧ vs ⊆ requests ∧
      (q.needsNewAck = false → vs.getLast? = requests.getLast?) := by
  obtain ⟨base, vs, hbase, hsub, rfl, hlast⟩ := h.pieced
  by_cases h0 : 0 < q.ackNwritten
  · obtain ⟨v, hmem, hcur, hv⟩ := h.started h0
    refine ⟨vs ++ [v], ?_, ?_, ?_⟩
    · rw [append_assoc, q.ackDone_append_ackRest h0 h.pos, hcur]
      exact hbase.ack v
    · exact append_subset.mpr ⟨hsub, by simpa using hmem⟩
    · intro hneeds
      rw [getLast?_concat, hv hneeds, h.last (.inr h0)]
  · have hz : q.ackNwritten = 0 := by omega
    refine ⟨vs, ?_, hsub, fun hneeds => hlast hneeds hz⟩
    simpa [ackDone, ackRest, hz, tagAck] using hbase

/-- A write that gets into the new acknowledgement. -/
theorem write_reach (h : AckInv q sent requests) (hinj : q.injects = true)
    (hlen : q.ackRest.length + q.lead < len) :
    AckInv (q.account len) (sent ++ q.planned.take len) requests := by
  have hneeds : q.needsNewAck = true := by
    rw [injects, Bool.and_eq_true] at hinj
    exact hinj.1
  have hnext := h.wanted hneeds
  have hreq := h.last (.inl hneeds)
  obtain ⟨h1, h2, h3, -, h5, -⟩ := q.account_ack (Nat.le_of_lt h.pos) len
  rw [q.ackAfter_of_reach hinj hlen] at h1 h2 h3
  dsimp only at h1 h2 h3
  have hmem : q.lastAck ∈ requests := mem_of_getLast? hreq
  obtain ⟨vs, hvs, hsub, -⟩ := h.complete
  have hbase := hvs.append_other (q.unsent.take q.lead)
  rw [q.take_planned_of_reach hinj hlen]
  by_cases hm : len - q.ackRest.length - q.lead < 8
  · rw [if_pos hm] at h3
    refine ⟨by omega, ⟨_, vs, hbase, hsub, ?_, ?_⟩, ?_, ?_, ?_, ?_⟩
    · rw [ackDone, h2, h3, Nat.sub_eq_zero_of_le (Nat.le_of_lt hm), take_zero]
      simp [tagOther]
    · omega
    · rw [h1]
      intro h
      cases h
    · intro _
      exact ⟨q.lastAck, hmem, by rw [h2, hnext], fun _ => h5.symm⟩
    · intro _
      rw [h5]
      exact hreq
    · rw [h5]
      exact .inr hreq
  · rw [if_neg hm] at h3
    have hwhole : q.nextAck.toList.take (len - q.ackRest.length - q.lead) =
        (ackMsg q.lastAck).toList := by
      rw [hnext, take_of_length_le (by rw [Vector.length_toList]; omega)]
    refine ⟨by omega, ⟨_, _, (hbase.ack q.lastAck).append_other
      ((q.unsent.drop q.lead).take (len - q.ackRest.length - q.lead - 8)),
      append_subset.mpr ⟨hsub, by simpa using hmem⟩, ?_, ?_⟩, ?_, ?_, ?_, ?_⟩
    · rw [ackDone, h3, hwhole]
      simp [tagAck]
    · intro _ _
      rw [getLast?_concat, hreq]
    · rw [h1]
      intro h
      cases h
    · omega
    · rw [h1, h3]
      rintro (h | h) <;> cases h
    · rw [h5]
      exact .inr hreq

/-- A write that carries no new acknowledgement. -/
theorem write_other (h : AckInv q sent requests) (hinj : q.injects = false) :
    AckInv (q.account len) (sent ++ q.planned.take len) requests := by
  obtain ⟨h1, h2, h3, -, h5, -⟩ := q.account_ack (Nat.le_of_lt h.pos) len
  have hlen := q.length_ackRest
  simp only [ackAfter, hinj, Bool.false_eq_true, if_false] at h1 h2 h3
  rw [q.take_planned_of_not hinj]
  by_cases hdone : q.ackRest.length ≤ len
  · -- the started acknowledgement, if there is one, is completed
    have hnw : (q.account len).ackNwritten = 0 := by
      rw [h3]
      by_cases h0 : 0 < q.ackNwritten
      · simp [h0, hdone]
      · simp [show q.ackNwritten = 0 by omega]
    obtain ⟨vs, hvs, hsub, hlast⟩ := h.complete
    have hbase := hvs.append_other (q.unsent.take (len - q.ackRest.length))
    refine ⟨by omega, ⟨_, vs, hbase, hsub, ?_, ?_⟩, ?_, ?_, ?_, ?_⟩
    · rw [ackDone, hnw, take_of_length_le hdone]
      simp [tagAck]
    · intro hneeds _
      exact hlast (h1 ▸ hneeds)
    · intro hneeds
      rw [q.nextAck_account h.pos hinj, h5]
      exact h.wanted (h1 ▸ hneeds)
    · omega
    · rw [h1, hnw, h5]
      rintro (hneeds | hneeds)
      · exact h.last (.inl hneeds)
      · cases hneeds
    · rw [h5]
      exact h.requests
  · -- the write ends inside the started acknowledgement
    have h0 : 0 < q.ackNwritten := by
      by_contra h0
      rw [if_neg h0] at hlen
      omega
    rw [if_pos h0] at hlen
    simp only [h0, hdone, decide_true, decide_false, Bool.and_false, Bool.false_eq_true, if_false,
      if_true] at h2 h3
    obtain ⟨base, vs, hbase, hsub, rfl, -⟩ := h.pieced
    refine ⟨by omega, ⟨base, vs, hbase, hsub, ?_, ?_⟩, ?_, ?_, ?_, ?_⟩
    · have hrest : q.ackRest.take len =
          tagAck q.ackNwritten ((q.ackMsgCur.toList.drop q.ackNwritten).take len) := by
        rw [ackRest, if_pos h0, take_tagAck]
      have htake : (q.ackMsgCur.toList.take q.ackNwritten).length = q.ackNwritten := by
        rw [length_take, Vector.length_toList]
        have := h.pos
        omega
      rw [Nat.sub_eq_zero_of_le (by omega), take_zero, hrest, ackDone,
        ackDone, h2, h3, take_add, tagAck_append, htake, Nat.zero_add]
      simp [tagOther]
    · omega
    · intro hneeds
      rw [q.nextAck_account h.pos hinj, h5]
      exact h.wanted (h1 ▸ hneeds)
    · intro _
      obtain ⟨v, hmem, hv, hv'⟩ := h.started h0
      refine ⟨v, hmem, by rw [h2, hv], ?_⟩
      rw [h1, h5]
      exact hv'
    · intro _
      rw [h5]
      exact h.last (.inr h0)
    · rw [h5]
      exact h.requests

theorem write (h : AckInv q sent requests) (hreach : q.reachesAck len) :
    AckInv (q.account len) (sent ++ q.planned.take len) requests := by
  cases hinj : q.injects with
  | true => exact h.write_reach hinj (hreach hinj)
  | false => exact h.write_other hinj

/-- A new value may be requested while the acknowledgement of an older one is partly written. -/
theorem request (h : AckInv q sent requests) (val : Nat) :
    AckInv (q.requestAck val) sent (requests ++ [val]) := by
  have hlast : (requests ++ [val]).getLast? = some val := getLast?_concat
  obtain ⟨base, vs, hbase, hsub, hsent, -⟩ := h.pieced
  have hsub' := subset_append_of_subset_left [val] hsub
  unfold requestAck
  split
  next h0 =>
    obtain ⟨v, hmem, hv, -⟩ := h.started h0
    refine ⟨h.pos, ⟨base, vs, hbase, hsub', hsent, ?_⟩, ?_, ?_, fun _ => hlast, .inr hlast⟩
    · intro hneeds
      cases hneeds
    · intro _
      exact if_pos h0
    · intro _
      exact ⟨v, mem_append_left _ hmem, hv, by intro hneeds; cases hneeds⟩
  next h0 =>
    have hz : q.ackNwritten = 0 := by omega
    refine ⟨h.pos, ⟨base, vs, hbase, hsub', ?_, ?_⟩, ?_, ?_, fun _ => hlast, .inr hlast⟩
    · simpa [ackDone, hz] using hsent
    · intro hneeds
      cases hneeds
    · intro _
      exact if_neg h0
    · intro h0'
      exact absurd h0' h0

end AckInv

/-! ## The other steps -/

/-- The fields that hold acknowledgements. -/
def TransferQueue.ackFields (q : TransferQueue) :
    Bool × AckMsg × AckMsg × Nat × Nat :=
  (q.needsNewAck, q.ackMsgCur, q.ackMsgNxt, q.ackNwritten, q.lastAck)

theorem AckInv.congr {q q' : TransferQueue} {sent : List OutByte} {requests : List Nat}
    (h : AckInv q sent requests) (hq : q'.ackFields = q.ackFields) : AckInv q' sent requests := by
  simp only [ackFields, Prod.mk.injEq] at hq
  obtain ⟨h1, h2, h3, h4, h5⟩ := hq
  obtain ⟨hpos, hpieced, hwanted, hstarted, hlast, hreq⟩ := h
  refine ⟨?_, ?_, ?_, ?_, ?_, ?_⟩
  · rwa [h4]
  · rwa [ackDone, h1, h2, h4]
  · rwa [nextAck, h1, h2, h3, h4, h5]
  · rwa [h1, h2, h4, h5]
  · rwa [h1, h4, h5]
  · rwa [h5]

theorem collectAll_ackFields (env : CollectEnv) (sfds : List ShadowFd) (q : TransferQueue) :
    (collectAll env sfds q).2.ackFields = q.ackFields := by
  induction sfds generalizing q with
  | nil => rfl
  | cons sfd sfds ih =>
    obtain ⟨vs, ts, -, -, hqueue⟩ := collectUpdates_grows env { sfd, queue := q, tasks := [] }
    have hsame : (Eff.exec (collectUpdates env)
        { sfd, queue := q, tasks := [] }).2.queue.ackFields = q.ackFields := by
      rw [hqueue]
      rfl
    simp only [collectAll]
    cases hx : Eff.exec (collectUpdates env) { sfd, queue := q, tasks := [] } with
    | mk r t =>
      rw [hx] at hsame
      cases r with
      | ok keep => exact (ih t.queue).trans hsame
      | error e => exact hsame

theorem processWayland1_ackFields (q : TransferQueue) (w : WaylandWork) :
    (processWayland1 q w).2.ackFields = q.ackFields := by
  simp only [processWayland1]
  cases w.translateErr with
  | some e => rfl
  | none => exact collectAll_ackFields w.env w.sfds _

theorem processWayland2_ackFields {q q' : TransferQueue} (h : processWayland2 q = .ok q') :
    q'.ackFields = q.ackFields := by
  obtain ⟨r, hr, h⟩ := Res.bind_eq_ok.mp h
  have hrids : r.ackFields = q.ackFields := by
    unfold injectRids at hr
    split at hr
    · cases hr
      rfl
    · obtain ⟨header, -, hr⟩ := Res.bind_eq_ok.mp hr
      cases hr
      rfl
  unfold addProtocolHeader at h
  split at h
  · obtain ⟨header, -, h⟩ := Res.bind_eq_ok.mp h
    cases h
    exact hrids
  · cases h
    exact hrids

theorem wayland_ackFields {q₀ q q' : TransferQueue} {p : Phase}
    (hq : q = q₀ ∨ ∃ w, q₀.hasFromWayOutput = false ∧
      q₀.hasPendingComputeTasks = false ∧ q = (processWayland1 q₀ w).2)
    (hq' : p = .halted ∧ q' = q ∨
      p = .finish ∧ q.hasPendingComputeTasks = true ∧ q' = q ∨
      p = .finish ∧ q.hasPendingComputeTasks = false ∧ processWayland2 q = .ok q') :
    q'.ackFields = q₀.ackFields := by
  have hfirst : q.ackFields = q₀.ackFields := by
    rcases hq with rfl | ⟨w, -, -, rfl⟩
    · rfl
    · exact processWayland1_ackFields q₀ w
  rcases hq' with ⟨-, rfl⟩ | ⟨-, -, rfl⟩ | ⟨-, -, h2⟩
  · exact hfirst
  · exact hfirst
  · exact (processWayland2_ackFields h2).trans hfirst

/-- A write that carries a new acknowledgement gets into it. -/
def reachSafe (s : Loop) (e : Event) : Prop :=
  ∀ len, e.writes = some len → s.queue.reachesAck len

instance (s : Loop) (e : Event) : Decidable (reachSafe s e) :=
  match h : e.writes with
  | none => isTrue (by intro len hlen; rw [h] at hlen; cases hlen)
  | some n => decidable_of_iff (s.queue.reachesAck n) (by simp [reachSafe, h])

/-- A step under this condition keeps the stream of acknowledgements. -/
theorem step_ackInv {s t : Loop} {e : Event} (hs : AckInv s.queue s.sent s.ackRequests)
    (hsafe : reachSafe s e) (h : s.step e = some t) : AckInv t.queue t.sent t.ackRequests := by
  cases Loop.step_moves h with
  | quiet hquiet =>
    rw [hquiet.queue, hquiet.sent, hquiet.ackRequests]
    exact hs
  | write => exact hs.write (hsafe _ rfl)
  | signal => exact hs.congr rfl
  | result _ _ hq =>
    refine hs.congr ?_
    rcases hq with rfl | ⟨-, rfl⟩ <;> rfl
  | wayland _ hq hq' => exact hs.congr (wayland_ackFields hq hq')
  | ack _ _ _ hq hsent hreq =>
    rw [hq, hsent, hreq]
    exact hs.request _
  | stop _ _ hq => exact hs.congr (processWayland2_ackFields hq)
  | endQueue => exact hs.write (hsafe _ rfl)
  | @endMsg len n endmsg _ hout =>
    -- only once everything else, acknowledgements included, is written
    obtain ⟨base, vs, hbase, hsub, hsent, hlast⟩ := hs.pieced
    have hz : s.queue.ackNwritten = 0 := by
      simp only [hasFromWayOutput, Bool.or_eq_false_iff, decide_eq_false_iff_not] at hout
      omega
    refine ⟨hs.pos, ⟨_, vs, hbase.append_other ((endmsg.drop n).take len), hsub, ?_, hlast⟩,
      hs.wanted, hs.started, hs.last, hs.requests⟩
    rw [hsent]
    simp [ackDone, hz, tagAck]

theorem AckInv.initial (display : Bool) (version : Nat) :
    AckInv (Loop.initial display version).queue [] [] := by
  have h0 : AckInv TransferQueue.initial [] [] := by
    refine ⟨by decide, ⟨[], [], .nil, nil_subset _, rfl, fun _ _ => rfl⟩, ?_, ?_, ?_, .inl rfl⟩
    · intro h
      cases h
    · intro h
      exact absurd h (by decide)
    · rintro (h | h) <;> exact absurd h (by decide)
  refine h0.congr ?_
  unfold Loop.initial
  dsimp only
  split <;> rfl

/-- **Acknowledgements are not lost.** The stream consists of message bytes and of whole
acknowledgements of requested values, with a started one at its end at most; and when there is no
output left, the last whole acknowledgement carries the last value requested. -/
theorem last_ack_written {display : Bool} {version : Nat} {es : List Event} {t : Loop}
    (hsafe : Transition.Along Loop.step reachSafe (Loop.initial display version) es)
    (hrun : (Loop.initial display version).run es = some t) :
    ∃ base vs, Pieced base vs ∧ vs ⊆ t.ackRequests ∧ t.sent = base ++ t.queue.ackDone ∧
      (0 < t.queue.ackNwritten → ∃ v ∈ t.ackRequests, t.queue.ackMsgCur = ackMsg v) ∧
      (t.queue.hasFromWayOutput = false → t.queue.ackDone = [] ∧
        (t.ackRequests = [] ∧ vs = [] ∨ vs.getLast? = some t.queue.lastAck)) := by
  have hinv : AckInv t.queue t.sent t.ackRequests :=
    Transition.run_invariant (P := fun s => AckInv s.queue s.sent s.ackRequests)
      (fun _ _ _ hs hsafe h => step_ackInv hs hsafe h) (AckInv.initial display version) hsafe hrun
  obtain ⟨base, vs, hbase, hsub, hsent, hlast⟩ := hinv.pieced
  refine ⟨base, vs, hbase, hsub, hsent, ?_, ?_⟩
  · intro h0
    obtain ⟨v, hmem, hv, -⟩ := hinv.started h0
    exact ⟨v, hmem, hv⟩
  · intro hout
    simp only [hasFromWayOutput, Bool.or_eq_false_iff, decide_eq_false_iff_not] at hout
    have hz : t.queue.ackNwritten = 0 := by omega
    have hdone := hlast hout.1.2 hz
    refine ⟨by simp [ackDone, hz, tagAck], ?_⟩
    rcases hinv.requests with hnil | hsome
    · rw [hnil, getLast?_nil, getLast?_eq_none_iff] at hdone
      exact .inl ⟨hnil, hdone⟩
    · exact .inr (hdone.trans hsome)

/-- The value 2 is requested while the acknowledgement of 1 is partly written. -/
def twoAcksEvents : List Event :=
  idleEvents ++ [.wayland none, .finish 1 16 false false, .write (.wrote 5),
    .eofs false false false false, .signalsDone, .resultsDone, .wayland none,
    .finish 1 16 false false, .write (.wrote 11)]

theorem last_ack_written_two :
    ∃ t base vs, (Loop.initial false 16).run twoAcksEvents = some t ∧ Pieced base vs ∧
      t.sent = base ∧ t.queue.lastAck = 2 ∧ vs.getLast? = some 2 := by
  have hrun : ∃ t, (Loop.initial false 16).run twoAcksEvents = some t ∧
      t.queue.hasFromWayOutput = false ∧ t.queue.lastAck = 2 ∧ t.ackRequests = [1, 2] :=
    ⟨_, rfl, by decide, by decide, by decide⟩
  obtain ⟨t, hrun, hout, hlast, hreq⟩ := hrun
  obtain ⟨base, vs, hbase, -, hsent, -, hidle⟩ := last_ack_written (by decide) hrun
  obtain ⟨hdone, hvs⟩ := hidle hout
  rw [hdone, append_nil] at hsent
  rw [hreq, hlast] at hvs
  exact ⟨t, base, vs, hrun, hbase, hsent, hlast, hvs.resolve_left (by simp)⟩

/-- A message arrives when half of a vector is written; the next write does not finish it. -/
def lostAckEvents : List Event :=
  idleEvents ++ [.wayland (some syncRequest), .finish 0 16 false false, .write (.wrote 2),
    .eofs false false false false, .signalsDone, .resultsDone, .wayland none,
    .finish 1 16 false false, .write (.wrote 1),
    .eofs false false false false, .signalsDone, .resultsDone, .wayland none,
    .finish 0 16 false false, .write (.wrote 13)]

/-- **A lost acknowledgement.** The value 1 was requested, everything is written, and there is no
acknowledgement in the stream. -/
theorem ack_lost :
    ∃ t, (Loop.initial false 16).run lostAckEvents = some t ∧ t.ackRequests = [1] ∧
      t.queue.lastAck = 1 ∧ t.queue.hasFromWayOutput = false ∧
      t.sent = tagOther ([0, 2, 0, 0] ++ syncRequest.output) :=
  ⟨_, rfl, by decide, by decide, by decide, by decide⟩

end Waypipe
