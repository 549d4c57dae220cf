import Waypipe.LoopFraming

/-!
# Where acknowledgements start

`write_to_channel` injects a new acknowledgement behind the vectors that are started.  A message may
be queued as several vectors, and the payload of a Protocol message follows its header as one more,
so the place need not be between two messages.  `ack_starts_at_boundary` says exactly when it is: a
write that gets there finds no message of which some vectors are started and others are not.
-/

namespace Waypipe

open Framing Loop TransferQueue List

theorem getElem?_tagAck (pos : Nat) (bs : List UInt8) (i : Nat) :
    (tagAck pos bs)[i]? = bs[i]?.map fun b => (.ack (pos + i), b) := by
  induction bs generalizing pos i with
  | nil => simp [tagAck]
  | cons b bs ih =>
    cases i with
    | zero => rfl
    | succ i =>
      simp only [tagAck, getElem?_cons_succ, ih]
      rw [show pos + 1 + i = pos + (i + 1) by omega]

/-- Wherever an acknowledgement starts, the other bytes before it are whole messages. -/
def AcksFramed (sent : List OutByte) : Prop :=
  ∀ i b, sent[i]? = some (.ack 0, b) → Wmsgs (nonAck (sent.take i))

/-! ## The shape of the queue -/

/-- The vectors that have a byte among the first `n`. -/
def startedIn : List (List UInt8) → Nat → List (List UInt8)
  | [], _ => []
  | v :: vs, n => if n = 0 then [] else v :: startedIn vs (n - v.length)

theorem startedIn_zero (vs : List (List UInt8)) : startedIn vs 0 = [] := by
  cases vs with
  | nil => rfl
  | cons v vs => exact if_pos rfl

theorem startedIn_isPrefix (vs : List (List UInt8)) (n : Nat) : startedIn vs n <+: vs := by
  induction vs generalizing n with
  | nil => exact prefix_refl _
  | cons v vs ih =>
    unfold startedIn
    split
    · exact nil_prefix
    · exact (prefix_cons_inj v).mpr (ih _)

theorem startedIn_append_of_le (vs ws : List (List UInt8)) {n : Nat} (h : n ≤ vs.flatten.length) :
    startedIn (vs ++ ws) n = startedIn vs n := by
  induction vs generalizing n with
  | nil =>
    rw [Nat.le_zero.mp h, startedIn_zero, startedIn_zero]
  | cons v vs ih =>
    rw [flatten_cons, length_append] at h
    rw [cons_append, startedIn, startedIn, ih (by omega)]

theorem startedIn_append_of_lt (vs ws : List (List UInt8)) {n : Nat} (h : vs.flatten.length < n) :
    startedIn (vs ++ ws) n = vs ++ startedIn ws (n - vs.flatten.length) := by
  induction vs generalizing n with
  | nil => rfl
  | cons v vs ih =>
    rw [flatten_cons, length_append] at h
    rw [cons_append, startedIn, if_neg (by omega), ih (by omega), flatten_cons,
      length_append, Nat.sub_sub]
    rfl

/-- The started vectors end where a new acknowledgement is injected. -/
theorem length_startedIn {vs : List (List UInt8)} {n c : Nat} (h : ackCut vs n = some c) :
    (startedIn vs n).flatten.length = n + c := by
  induction vs generalizing n with
  | nil =>
    rw [ackCut] at h
    split at h
    next h0 =>
      cases h
      rw [h0]
      rfl
    · cases h
  | cons v vs ih =>
    by_cases h0 : n = 0
    · subst h0
      rw [ackCut_zero] at h
      cases h
      rw [startedIn_zero]
      rfl
    · rw [ackCut] at h
      rw [startedIn, if_neg h0, flatten_cons, length_append]
      split at h
      · rw [ih h]
        omega
      next hv =>
        cases h
        rw [Nat.sub_eq_zero_of_le (by omega), startedIn_zero]
        simp only [flatten_nil, length_nil]
        omega

namespace TransferQueue

variable (q : TransferQueue)

/-- The vectors that are written, in full or in part. -/
def started : List (List UInt8) := startedIn q.vectors q.nbytesWritten

/-- The vectors of which nothing is written. -/
def waiting : List (List UInt8) := q.vectors.drop q.started.length

/-- How many bytes are left of an acknowledgement and a vector that are partly written. -/
def inProgress : Nat :=
  (if 0 < q.ackNwritten then 8 - q.ackNwritten else 0) +
    (q.started.flatten.length - q.nbytesWritten)

theorem started_append_waiting : q.started ++ q.waiting = q.vectors :=
  (prefix_iff_eq_append.mp (startedIn_isPrefix _ _))

theorem flatten_started : q.started.flatten = q.wire.take q.started.flatten.length := by
  rw [← q.flatten_vectors, ← q.started_append_waiting, flatten_append, take_left]

end TransferQueue

/-- A write that gets past what is in progress, with an acknowledgement to inject there, finds no
message of which some vectors are started and others are not: no body that waits behind its header,
and no payload behind the header of a Protocol message. -/
def ackSafe (s : Loop) (e : Event) : Prop :=
  ∀ len, e.writes = some len → s.queue.needsNewAck = true → s.queue.inProgress < len →
    ¬ wmsgFraming.Splits s.queue.started s.queue.waiting

instance (s : Loop) (e : Event) : Decidable (ackSafe s e) :=
  match h : e.writes with
  | none => isTrue (by intro len hlen; rw [h] at hlen; cases hlen)
  | some n => decidable_of_iff (s.queue.needsNewAck = true → s.queue.inProgress < n →
      ¬ wmsgFraming.Splits s.queue.started s.queue.waiting) (by simp [ackSafe, h])

/-- That no message is split there says that the acknowledgement would follow whole messages. -/
theorem QueueOk.split_iff {q : TransferQueue} (hq : QueueOk q) (len : Nat) :
    (q.needsNewAck = true → q.inProgress < len → ¬ wmsgFraming.Splits q.started q.waiting) ↔
      (q.injects = true → q.ackRest.length + q.lead < len →
        Wmsgs (q.wire.take (q.nbytesWritten + q.lead))) := by
  have hparted := hq.parted
  rw [← q.started_append_waiting] at hparted
  rw [← hparted.framed_iff, q.length_ackRest]
  cases hcut : ackCut q.otherMessages q.nbytesWritten with
  | some c =>
    have hstarted : q.started.flatten.length = q.nbytesWritten + c := by
      rw [started, vectors, startedIn_append_of_le _ _ (Nat.le_of_add_right_le (ackCut_some hcut))]
      exact length_startedIn hcut
    have hinj : q.injects = q.needsNewAck := by simp [injects, hcut]
    have hlead : q.lead = c := by simp [lead, hcut]
    rw [hinj, hlead, inProgress, hstarted, Nat.add_sub_cancel_left, ← hstarted, ← flatten_started]
  | none =>
    -- the payload is started: there is no place for an acknowledgement before its end
    have hall : q.started = q.vectors := by
      have hlt := ackCut_none hcut
      rw [started, vectors, startedIn_append_of_lt _ _ hlt]
      congr 1
      split
      · exact if_neg (by omega)
      · rfl
    have hframed : Wmsgs q.started.flatten := by
      rw [hall]
      exact hq.parted.framed
    have hinj : q.injects = false := by simp [injects, hcut]
    simp [hframed, hinj]

/-! ## Where a write starts an acknowledgement -/

namespace TransferQueue

variable (q : TransferQueue)

/-- The only place in a write where an acknowledgement starts. -/
theorem planned_ack_start {i : Nat} :
    (∃ b, q.planned[i]? = some (.ack 0, b)) ↔
      q.injects = true ∧ i = q.ackRest.length + q.lead := by
  have hlead : (tagOther (q.unsent.take q.lead)).length = q.lead := by
    rw [length_tagOther, length_take_of_le q.lead_le]
  have hrest : ∀ (j : Nat) (b : UInt8), q.ackRest[j]? ≠ some (Origin.ack 0, b) := by
    intro j b
    unfold ackRest
    split
    next h0 =>
      rw [getElem?_tagAck]
      intro h
      obtain ⟨_, _, heq⟩ := Option.map_eq_some_iff.mp h
      rw [Prod.mk.injEq, Origin.ack.injEq] at heq
      omega
    · simp
  have hother : ∀ (bs : List UInt8) (j : Nat) (b : UInt8),
      (tagOther bs)[j]? ≠ some (Origin.ack 0, b) := by
    intro bs j b h
    rw [tagOther, getElem?_map] at h
    obtain ⟨_, _, heq⟩ := Option.map_eq_some_iff.mp h
    cases heq
  rw [planned_eq]
  constructor
  · rintro ⟨b, h⟩
    rw [getElem?_append] at h
    split at h
    · exact absurd h (hrest i b)
    next hi =>
      rw [getElem?_append, hlead] at h
      split at h
      · exact absurd h (hother _ _ b)
      next hi' =>
        rw [getElem?_append] at h
        split at h
        · unfold newAck at h
          split at h
          next hinj =>
            rw [getElem?_tagAck] at h
            obtain ⟨_, _, heq⟩ := Option.map_eq_some_iff.mp h
            rw [Prod.mk.injEq, Origin.ack.injEq] at heq
            exact ⟨hinj, by omega⟩
          · cases h
        · exact absurd h (hother _ _ b)
  · rintro ⟨hinj, rfl⟩
    have hpos : 0 < q.newAck.length := by rw [length_newAck, hinj]; decide
    rw [getElem?_append_right (by omega), Nat.add_sub_cancel_left,
      getElem?_append_right (by omega), hlead, Nat.sub_self,
      getElem?_append_left hpos, newAck, if_pos hinj, getElem?_tagAck]
    exact ⟨q.nextAck[0], by simp⟩

/-- The bytes that precede a new acknowledgement in the write that starts it. -/
theorem nonAck_before_ack {len : Nat} (hlen : q.ackRest.length + q.lead ≤ len) :
    nonAck ((q.planned.take len).take (q.ackRest.length + q.lead)) = q.unsent.take q.lead := by
  have hlead : (tagOther (q.unsent.take q.lead)).length = q.lead := by
    rw [length_tagOther, length_take_of_le q.lead_le]
  rw [take_take, Nat.min_eq_left hlen, planned_eq, ← append_assoc,
    take_left' (by rw [length_append, hlead]), nonAck_append, nonAck_ackRest,
    nonAck_tagOther, nil_append]

end TransferQueue

theorem acksFramed_append_other (sent : List OutByte) (bs : List UInt8) :
    AcksFramed (sent ++ tagOther bs) ↔ AcksFramed sent := by
  constructor
  · intro h i b hi
    have hlt := (List.getElem?_eq_some_iff.mp hi).1
    have := h i b (by rw [getElem?_append_left hlt, hi])
    rwa [take_append_of_le_length (Nat.le_of_lt hlt)] at this
  · intro h i b hi
    rw [getElem?_append] at hi
    split at hi
    next hlt =>
      rw [take_append_of_le_length (Nat.le_of_lt hlt)]
      exact h i b hi
    · rw [tagOther, getElem?_map] at hi
      obtain ⟨_, _, heq⟩ := Option.map_eq_some_iff.mp hi
      cases heq

/-- One write: what it adds is safe exactly when its new acknowledgement, if it gets there, starts
behind whole messages. -/
theorem acksFramed_append_planned (q : TransferQueue) (sent : List OutByte) (len : Nat) :
    AcksFramed (sent ++ q.planned.take len) ↔ AcksFramed sent ∧
      (q.injects = true → q.ackRest.length + q.lead < len →
        Wmsgs (nonAck sent ++ q.unsent.take q.lead)) := by
  constructor
  · intro h
    constructor
    · intro i b hi
      have hlt := (List.getElem?_eq_some_iff.mp hi).1
      have := h i b (by rw [getElem?_append_left hlt, hi])
      rwa [take_append_of_le_length (Nat.le_of_lt hlt)] at this
    · intro hinj hlen
      obtain ⟨b, hb⟩ := q.planned_ack_start.mpr ⟨hinj, rfl⟩
      have hat := h (sent.length + (q.ackRest.length + q.lead)) b (by
        rw [getElem?_append_right (Nat.le_add_right _ _), Nat.add_sub_cancel_left,
          getElem?_take_of_lt hlen, hb])
      rwa [take_length_add_append, nonAck_append, q.nonAck_before_ack (Nat.le_of_lt hlen)] at hat
  · rintro ⟨hsent, hnew⟩ i b hi
    rw [getElem?_append] at hi
    split at hi
    next hlt =>
      rw [take_append_of_le_length (Nat.le_of_lt hlt)]
      exact hsent i b hi
    next hge =>
      rw [getElem?_take] at hi
      split at hi
      next hlt =>
        obtain ⟨hinj, hpos⟩ := q.planned_ack_start.mp ⟨b, hi⟩
        have hi' : i = sent.length + (q.ackRest.length + q.lead) := by omega
        rw [hi', take_length_add_append, nonAck_append, q.nonAck_before_ack (by omega)]
        exact hnew hinj (by omega)
      · cases hi

/-- One step, from the position of the stream in the queue. -/
theorem step_acksFramed {s t : Loop} {e : Event} (hs : FrameInv s)
    (hsafe : signalSafe s e ∧ stopSafe s e) (h : s.step e = some t) :
    AcksFramed t.sent ↔ AcksFramed s.sent ∧ ackSafe s e := by
  have hvacuous : (∀ len, e.writes = some len → s.queue.needsNewAck = false) → ackSafe s e := by
    intro hidle len hlen hinj
    simp [hidle len hlen] at hinj
  cases hs.advance hsafe h with
  | quiet hquiet hidle =>
    rw [hquiet.sent]
    exact ⟨fun h' => ⟨h', hvacuous hidle⟩, And.left⟩
  | queues hqueues he =>
    rw [hqueues.sent]
    exact ⟨fun h' => ⟨h', hvacuous (by rw [he]; intro _ h0; cases h0)⟩, And.left⟩
  | @emits len he htail _ hopen hsync hlen hq hsent =>
    have hplaced := hs.placed hopen
    rw [htail, append_nil] at hplaced
    have hbound : Wmsgs (nonAck s.sent ++ s.queue.unsent.take s.queue.lead) ↔
        Wmsgs (s.queue.wire.take (s.queue.nbytesWritten + s.queue.lead)) := by
      rw [take_add, ← TransferQueue.unsent_eq_wire hsync]
      exact hplaced _
    rw [hsent, acksFramed_append_planned, hbound, ← hs.queue.split_iff]
    constructor
    · rintro ⟨h1, h2⟩
      refine ⟨h1, ?_⟩
      intro len' hlen' hinj hreach
      rw [he] at hlen'
      cases hlen'
      exact h2 hinj hreach
    · rintro ⟨h1, h2⟩
      exact ⟨h1, h2 len he⟩
  | closes hphase hout hlen ht =>
    have hidle : s.queue.needsNewAck = false := by
      simp only [TransferQueue.hasFromWayOutput, Bool.or_eq_false_iff] at hout
      exact hout.1.2
    rw [ht, acksFramed_append_other]
    exact ⟨fun h' => ⟨h', hvacuous (fun _ _ => hidle)⟩, And.left⟩

/-- The condition of every step of a run is the condition for the run. -/
theorem run_acksFramed {s t : Loop} {es : List Event} (hs : FrameInv s)
    (hsafe : Transition.Along step (fun s e => signalSafe s e ∧ stopSafe s e) s es)
    (hrun : s.run es = some t) :
    AcksFramed t.sent ↔ AcksFramed s.sent ∧ Transition.Along step ackSafe s es := by
  induction es generalizing s with
  | nil =>
    cases hrun
    exact ⟨fun h => ⟨h, trivial⟩, And.left⟩
  | cons e es ih =>
    obtain ⟨u, hu, hrest⟩ := Transition.run_cons hrun
    rw [ih (step_frameInv hs hsafe.1 hu) (hsafe.2 u hu) hrest, step_acksFramed hs hsafe.1 hu]
    constructor
    · rintro ⟨⟨h1, h2⟩, h3⟩
      refine ⟨h1, h2, ?_⟩
      intro u' hu'
      rw [hu] at hu'
      cases hu'
      exact h3
    · rintro ⟨h1, h2, h3⟩
      exact ⟨⟨h1, h2⟩, h3 u hu⟩

/-- **Acknowledgements start at message boundaries** exactly when every write that gets to a new
acknowledgement finds all messages of the queue started with all their vectors, or not at all. -/
theorem ack_starts_at_boundary {display : Bool} {version : Nat} {es : List Event} {t : Loop}
    (hsafe : Transition.Along Loop.step (fun s e => signalSafe s e ∧ stopSafe s e)
      (Loop.initial display version) es)
    (hrun : (Loop.initial display version).run es = some t) :
    AcksFramed t.sent ↔ Transition.Along Loop.step ackSafe (Loop.initial display version) es := by
  rw [run_acksFramed (FrameInv.initial display version) hsafe hrun]
  refine and_iff_right ?_
  intro i b hi
  simp [Loop.initial] at hi

/-- Two messages are queued, and part of the first is written when a message arrives. -/
def queuedAckEvents : List Event :=
  [.noWrite, .eofs false false false false, .signal 5 9, .signal 6 3, .signalsDone, .resultsDone,
    .wayland none, .finish 0 16 false false, .write (.wrote 6),
    .eofs false false false false, .signalsDone, .resultsDone, .wayland none,
    .finish 1 16 false false, .write (.wrote 34)]

theorem ack_starts_at_boundary_between :
    ∃ t, (Loop.initial true 16).run queuedAckEvents = some t ∧
      t.sent = tagOther [22, 2, 0, 0, 5, 0, 0, 0, 9, 0, 0, 0, 0, 0, 0, 0] ++
        (tagAck 0 [16, 1, 0, 0, 1, 0, 0, 0] ++
          tagOther [22, 2, 0, 0, 6, 0, 0, 0, 3, 0, 0, 0, 0, 0, 0, 0]) ∧
      AcksFramed t.sent :=
  ⟨_, rfl, by decide,
    (@ack_starts_at_boundary true 16 queuedAckEvents _ (by decide) rfl).mpr (by decide)⟩

/-- A message arrives when the header of a Protocol message is written and its payload is not. -/
def splitAckEvents : List Event :=
  idleEvents ++ [.wayland (some syncRequest), .finish 0 16 false false, .write (.wrote 4),
    .eofs false false false false, .signalsDone, .resultsDone, .wayland none,
    .finish 1 16 false false, .write (.wrote 20)]

/-- **An acknowledgement inside a message.** The vector with the header ends there, the message
does not: the peer takes the acknowledgement for the first 8 of the 12 bytes of payload. -/
theorem ack_splits_message :
    ∃ t, (Loop.initial false 16).run splitAckEvents = some t ∧
      t.sent = tagOther [0, 2, 0, 0] ++
        (tagAck 0 [16, 1, 0, 0, 1, 0, 0, 0] ++ tagOther syncRequest.output) ∧
      ¬ AcksFramed t.sent := by
  refine ⟨_, rfl, by decide, ?_⟩
  intro h
  exact absurd (h 4 16 (by decide)) (by decide)

end Waypipe
