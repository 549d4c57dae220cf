import Waypipe.Util

/-!
# The queue of messages for the channel

`TransferQueue` holds what one instance still has to send to the other: complete messages and
message parts (`otherMessages`), one block of Wayland protocol data, and up to two
acknowledgements.  `writeToChannel` gathers all of it for one `writev` call and then accounts for
however many bytes the call took.

An acknowledgement is not part of the byte order of the queue: a new one is injected in front of
the first vector that has not been started.  Every emitted byte is therefore tagged with its
`Origin`.  `planned_eq` says what one call hands to `writev`: the rest of a started
acknowledgement, the rest of a started vector, the new acknowledgement, and then everything else.
-/

namespace Waypipe

/-- The bytes of an acknowledgement. -/
abbrev AckMsg := Vector UInt8 8

open LeBytes List

/-- Where a byte written to the channel comes from: it is byte `pos` of an acknowledgement, or
part of any other message. -/
inductive Origin where
  | ack (pos : Nat)
  | other
  deriving DecidableEq, Repr

abbrev OutByte := Origin × UInt8

/-- The bytes of an acknowledgement from position `pos` on. -/
def tagAck : Nat → List UInt8 → List OutByte
  | _, [] => []
  | pos, b :: bs => (.ack pos, b) :: tagAck (pos + 1) bs

def tagOther (bs : List UInt8) : List OutByte := bs.map fun b => (.other, b)

/-- The bytes of a stream that do not belong to acknowledgements. -/
def nonAck (s : List OutByte) : List UInt8 :=
  s.filterMap fun b => if b.1 = .other then some b.2 else none

structure TransferQueue where
  /-- `protocol_data[..protocol_len]`: translated Wayland messages. -/
  protocolData : List UInt8
  /-- Whether the header for `protocolData` is already in `otherMessages`. -/
  protocolHeaderAdded : Bool
  protocolRids : List Rid
  /-- Value of the last acknowledgement that was requested. -/
  lastAck : Nat
  needsNewAck : Bool
  ackMsgCur : AckMsg
  ackMsgNxt : AckMsg
  /-- How much of `ackMsgCur` has been written, when part of it has. -/
  ackNwritten : Nat
  otherMessages : List (List UInt8)
  /-- Number of results that worker threads still have to deliver. -/
  expectedRecvdMsgs : Nat
  /-- Bytes written of `otherMessages` followed by `protocolData`. -/
  nbytesWritten : Nat
  deriving DecidableEq, Repr

variable (q : TransferQueue)

namespace TransferQueue

/-- The queue as `main_interface_loop` sets it up. -/
def initial : TransferQueue where
  protocolData := []
  protocolHeaderAdded := false
  protocolRids := []
  lastAck := 0
  needsNewAck := false
  ackMsgCur := .replicate 8 0
  ackMsgNxt := .replicate 8 0
  ackNwritten := 0
  otherMessages := []
  expectedRecvdMsgs := 0
  nbytesWritten := 0

def push (v : List UInt8) : TransferQueue :=
  { q with otherMessages := q.otherMessages ++ [v] }

def sendProtocol : Bool :=
  0 < q.protocolData.length && q.expectedRecvdMsgs == 0

def hasFromWayOutput : Bool :=
  !q.otherMessages.isEmpty || (q.sendProtocol && 0 < q.protocolData.length)
    || q.needsNewAck || 0 < q.ackNwritten

def hasPendingComputeTasks : Bool := 0 < q.expectedRecvdMsgs

def netLen : Nat :=
  q.otherMessages.foldl (fun n v => n + v.length)
    (if q.sendProtocol then q.protocolData.length else 0)

end TransferQueue

/-! ## Gathering the vectors of one write -/

/-- The local variables of `write_to_channel` while it builds the list of vectors. -/
structure Gather where
  nwritten : Nat
  iovs : List (List OutByte)
  injectedWholeAck : Bool
  firstPartialLen : Nat

/-- Add the new acknowledgement unless it was added before or a vector is partly written. -/
def Gather.injectAck (optWholeAck : Option AckMsg) (g : Gather) : Gather :=
  match optWholeAck with
  | some ackmsg =>
    if !g.injectedWholeAck && g.nwritten == 0 then
      { g with iovs := g.iovs ++ [tagAck 0 ackmsg.toList], injectedWholeAck := true }
    else g
  | none => g

def Gather.addMsg (optWholeAck : Option AckMsg) (g : Gather) (v : List UInt8) : Gather :=
  if v.length ≤ g.nwritten then { g with nwritten := g.nwritten - v.length }
  else
    let g := g.injectAck optWholeAck
    let g := if 0 < g.nwritten then { g with firstPartialLen := v.length - g.nwritten } else g
    { g with iovs := g.iovs ++ [tagOther (v.drop g.nwritten)], nwritten := 0 }

namespace TransferQueue

/-- The acknowledgement that has not been started, if one is wanted. -/
def optWholeAck : Option AckMsg :=
  if q.needsNewAck then some (if 0 < q.ackNwritten then q.ackMsgNxt else q.ackMsgCur) else none

/-- The local variables before the loop over `other_messages`. -/
def gatherStart : Gather where
  nwritten := q.nbytesWritten
  iovs := if 0 < q.ackNwritten then
    [tagAck q.ackNwritten (q.ackMsgCur.toList.drop q.ackNwritten)] else []
  injectedWholeAck := false
  firstPartialLen := 0

/-- The vectors of acknowledgements and queued messages. -/
def gatherMsgs : Gather :=
  (q.otherMessages.foldl (Gather.addMsg q.optWholeAck) q.gatherStart).injectAck q.optWholeAck

/-- All vectors handed to `writev` by one call. -/
def gather : Gather :=
  let g := q.gatherMsgs
  if g.nwritten < q.protocolData.length && q.sendProtocol then
    { g with iovs := g.iovs ++ [tagOther (q.protocolData.drop g.nwritten)] }
  else g

/-- The bytes that the write could emit, in order. -/
def planned : List OutByte := q.gather.iovs.flatten

/-! ## Accounting for the bytes written -/

/-- Record how much of a started acknowledgement was written; returns what is left of `len`. -/
def absorbPartialAck (len : Nat) : TransferQueue × Nat :=
  if 0 < q.ackNwritten then
    let absorbed := min (8 - q.ackNwritten) len
    let q := { q with ackNwritten := q.ackNwritten + absorbed }
    if q.ackNwritten = 8 then
      ({ q with ackNwritten := 0, ackMsgCur := q.ackMsgNxt }, len - absorbed)
    else (q, len - absorbed)
  else (q, len)

def absorbFirstPartial (firstPartialLen : Nat) (q : TransferQueue) (len : Nat) :
    TransferQueue × Nat :=
  if 0 < firstPartialLen then
    let absorbed := min firstPartialLen len
    ({ q with nbytesWritten := q.nbytesWritten + absorbed }, len - absorbed)
  else (q, len)

def absorbWholeAck (injectedWholeAck : Bool) (q : TransferQueue) (len : Nat) :
    TransferQueue × Nat :=
  if injectedWholeAck then
    let absorbed := min 8 len
    let q := if absorbed < 8 then { q with ackNwritten := absorbed } else q
    ({ q with needsNewAck := false }, len - absorbed)
  else (q, len)

def absorbRest (sendProtocol : Bool) (netLen : Nat) (q : TransferQueue) (len : Nat) :
    TransferQueue :=
  let q := { q with nbytesWritten := q.nbytesWritten + len }
  if q.nbytesWritten = netLen then
    let q := if sendProtocol then { q with protocolData := [], protocolHeaderAdded := false } else q
    { q with otherMessages := [], nbytesWritten := 0 }
  else q

/-- The queue after `writev` has taken `len` bytes. -/
def account (len : Nat) : TransferQueue :=
  let g := q.gather
  let (q₁, len) := q.absorbPartialAck len
  let (q₂, len) := absorbFirstPartial g.firstPartialLen q₁ len
  let (q₃, len) := absorbWholeAck g.injectedWholeAck q₂ len
  absorbRest q.sendProtocol q.netLen q₃ len

end TransferQueue

/-- What `writev` can return. -/
inductive WritevResult where
  | wrote (len : Nat)
  /-- `EPIPE` or `ECONNRESET` -/
  | disconnected
  /-- `EINTR` or `EAGAIN` -/
  | retry
  | failed (errno : String)
  deriving DecidableEq, Repr

/-- `write_to_channel`: whether the channel has closed, the bytes emitted, and the new queue. -/
def writeToChannel (r : WritevResult) :
    Res (Bool × List OutByte × TransferQueue) := do
  assert (q.netLen % 4 == 0) "net_len % 4 == 0"
  if q.netLen == 0 && !q.needsNewAck && q.ackNwritten == 0 then
    return (false, [], q)
  assert (q.nbytesWritten < q.netLen || (q.needsNewAck || 0 < q.ackNwritten))
    "queue.nbytes_written < net_len || (queue.needs_new_ack || queue.ack_nwritten > 0)"
  match r with
  | .wrote len => return (false, q.planned.take len, q.account len)
  | .disconnected => return (true, [], q)
  | .retry => return (false, [], q)
  | .failed errno => throw (.err s!"Error writing to socket: {errno}")

theorem writeToChannel_eq_ok {q q' : TransferQueue} {r : WritevResult} {eof : Bool}
    {bytes : List OutByte} (h : writeToChannel q r = .ok (eof, bytes, q')) :
    (∃ len, r = .wrote len ∧ eof = false ∧ bytes = q.planned.take len ∧ q' = q.account len) ∨
      bytes = [] ∧ q' = q ∧ ∀ len, r = .wrote len → q.needsNewAck = false := by
  unfold writeToChannel at h
  obtain ⟨-, -, h⟩ := Res.bind_eq_ok.mp h
  split at h
  next hidle =>
    cases h
    refine .inr ⟨rfl, rfl, ?_⟩
    intro _ _
    simp only [Bool.and_eq_true, Bool.not_eq_true'] at hidle
    exact hidle.1.2
  · obtain ⟨-, -, h⟩ := Res.bind_eq_ok.mp h
    cases r with
    | wrote len =>
      cases h
      exact .inl ⟨len, rfl, rfl, rfl, rfl⟩
    | disconnected | retry =>
      cases h
      exact .inr ⟨rfl, rfl, by intro _ h; cases h⟩
    | failed errno => cases h

theorem writeToChannel_eq_err {q : TransferQueue} {r : WritevResult} {e : String}
    (h : writeToChannel q r = .error (.err e)) : ∃ errno, r = .failed errno := by
  unfold writeToChannel assert at h
  repeat' split at h
  all_goals first | exact ⟨_, rfl⟩ | cases h

/-! ## Tagged bytes -/

@[simp] theorem length_tagAck (pos : Nat) (bs : List UInt8) : (tagAck pos bs).length = bs.length := by
  induction bs generalizing pos with
  | nil => rfl
  | cons b bs ih => simp [tagAck, ih]

theorem take_tagAck (n pos : Nat) (bs : List UInt8) :
    (tagAck pos bs).take n = tagAck pos (bs.take n) := by
  induction bs generalizing n pos with
  | nil => simp [tagAck]
  | cons b bs ih =>
    cases n with
    | zero => rfl
    | succ n => simp [tagAck, ih]

theorem drop_tagAck (n pos : Nat) (bs : List UInt8) :
    (tagAck pos bs).drop n = tagAck (pos + n) (bs.drop n) := by
  induction bs generalizing n pos with
  | nil => simp [tagAck]
  | cons b bs ih =>
    cases n with
    | zero => rfl
    | succ n =>
      simp only [tagAck, drop_succ_cons, ih]
      rw [show pos + 1 + n = pos + (n + 1) by omega]

@[simp] theorem length_tagOther (bs : List UInt8) : (tagOther bs).length = bs.length := by
  simp [tagOther]

theorem tagOther_append (bs cs : List UInt8) : tagOther (bs ++ cs) = tagOther bs ++ tagOther cs :=
  map_append

theorem take_tagOther (n : Nat) (bs : List UInt8) :
    (tagOther bs).take n = tagOther (bs.take n) := (map_take ..).symm

@[simp] theorem nonAck_append (s t : List OutByte) : nonAck (s ++ t) = nonAck s ++ nonAck t :=
  filterMap_append

@[simp] theorem nonAck_tagOther (bs : List UInt8) : nonAck (tagOther bs) = bs := by
  simp [nonAck, tagOther, filterMap_map]

@[simp] theorem nonAck_tagAck (pos : Nat) (bs : List UInt8) : nonAck (tagAck pos bs) = [] := by
  induction bs generalizing pos with
  | nil => rfl
  | cons b bs ih => simpa [nonAck, tagAck] using ih (pos + 1)

/-! ## What one write gathers -/

/-- How far behind the write position `n` a new acknowledgement is injected: at the position
itself if it is between two vectors, after the vector it lies in otherwise; not at all once the
position has passed the last vector. -/
def ackCut : List (List UInt8) → Nat → Option Nat
  | [], n => if n = 0 then some 0 else none
  | v :: vs, n =>
    if v.length ≤ n then ackCut vs (n - v.length)
    else if n = 0 then some 0 else some (v.length - n)

theorem ackCut_zero (vs : List (List UInt8)) : ackCut vs 0 = some 0 := by
  induction vs with
  | nil => rfl
  | cons v vs ih =>
    by_cases hv : v.length ≤ 0
    · rw [ackCut, if_pos hv, Nat.zero_sub]
      exact ih
    · rw [ackCut, if_neg hv, if_pos rfl]

theorem ackCut_some {vs : List (List UInt8)} {n c : Nat} (h : ackCut vs n = some c) :
    n + c ≤ vs.flatten.length := by
  induction vs generalizing n with
  | nil =>
    simp only [ackCut] at h
    split at h
    · cases h
      simp_all
    · cases h
  | cons v vs ih =>
    rw [flatten_cons, length_append]
    simp only [ackCut] at h
    split at h
    · have := ih h
      omega
    · split at h
      · cases h
        omega
      · cases h
        omega

theorem ackCut_none {vs : List (List UInt8)} {n : Nat} (h : ackCut vs n = none) :
    vs.flatten.length < n := by
  induction vs generalizing n with
  | nil =>
    simp only [ackCut] at h
    split at h
    · cases h
    · simp
      omega
  | cons v vs ih =>
    rw [flatten_cons, length_append]
    simp only [ackCut] at h
    split at h
    · have := ih h
      omega
    · split at h <;> cases h

namespace Gather

variable (ack : Option AckMsg)

theorem injectAck_of_injected {ack : Option AckMsg} {g : Gather}
    (h : ack = none ∨ g.injectedWholeAck = true) : g.injectAck ack = g := by
  unfold injectAck
  rcases h with rfl | h
  · rfl
  · cases ack with
    | none => rfl
    | some a => simp [h]

theorem injectAck_nwritten (g : Gather) :
    (g.injectAck ack).nwritten = g.nwritten := by
  unfold injectAck
  split
  · split <;> rfl
  · rfl

theorem addMsg_nil (g : Gather) : addMsg ack g [] = g := by
  simp [addMsg]

/-- Where no vector is partly written, the acknowledgement is injected and the next vector is taken
whole. -/
theorem addMsg_boundary {g : Gather} {v : List UInt8}
    (h0 : g.nwritten = 0) (hv : v ≠ []) :
    addMsg ack g v = { g.injectAck ack with
      iovs := (g.injectAck ack).iovs ++ [tagOther v], nwritten := 0 } := by
  have hpos := length_pos_iff.mpr hv
  have h0' := (injectAck_nwritten ack g).trans h0
  simp only [addMsg, if_neg (show ¬ v.length ≤ g.nwritten by omega)]
  rw [if_neg (by omega), h0', drop_zero]

/-- Once the acknowledgement is in (or none is wanted) and no vector is partly written, the
remaining vectors are taken whole. -/
theorem fold_whole (vs : List (List UInt8)) :
    ∀ g : Gather, g.nwritten = 0 → (ack = none ∨ g.injectedWholeAck = true) →
      let r := vs.foldl (addMsg ack) g
      r.nwritten = 0 ∧ r.injectedWholeAck = g.injectedWholeAck ∧
        r.firstPartialLen = g.firstPartialLen ∧
        r.iovs.flatten = g.iovs.flatten ++ tagOther vs.flatten := by
  induction vs with
  | nil =>
    intro g h0 _
    simp [h0, tagOther]
  | cons v vs ih =>
    intro g h0 hinj
    by_cases hv : v = []
    · simpa [hv, addMsg_nil] using ih g h0 hinj
    · rw [foldl_cons, addMsg_boundary ack h0 hv, injectAck_of_injected hinj]
      obtain ⟨h1, h2, h3, h4⟩ := ih { g with iovs := g.iovs ++ [tagOther v], nwritten := 0 } rfl hinj
      refine ⟨h1, h2, h3, ?_⟩
      rw [h4, flatten_cons, tagOther_append]
      simp

/-- The bytes of the acknowledgement to inject, if there is one. -/
def wholeAckBytes : List OutByte :=
  ack.elim [] fun a => tagAck 0 a.toList

/-- Between two vectors, the acknowledgement comes first and then the vectors. -/
theorem fold_boundary (vs : List (List UInt8)) :
    ∀ g : Gather, g.nwritten = 0 → g.injectedWholeAck = false →
      let r := (vs.foldl (addMsg ack) g).injectAck ack
      r.nwritten = 0 ∧ r.injectedWholeAck = ack.isSome ∧ r.firstPartialLen = g.firstPartialLen ∧
        r.iovs.flatten = g.iovs.flatten ++ (wholeAckBytes ack ++ tagOther vs.flatten) := by
  intro g h0 hinj
  have hinject : (g.injectAck ack).injectedWholeAck = ack.isSome ∧
      (g.injectAck ack).firstPartialLen = g.firstPartialLen ∧
      (g.injectAck ack).iovs.flatten = g.iovs.flatten ++ wholeAckBytes ack := by
    cases ack <;> simp [injectAck, h0, hinj, wholeAckBytes]
  have hin : ack = none ∨ (g.injectAck ack).injectedWholeAck = true := by
    rw [hinject.1]
    cases ack <;> simp
  have h0' := (injectAck_nwritten ack g).trans h0
  -- it goes in front of the first vector that is not empty, or to the end
  have hfold : (vs.foldl (addMsg ack) g).injectAck ack = vs.foldl (addMsg ack) (g.injectAck ack) := by
    induction vs with
    | nil => rfl
    | cons v vs ih =>
      by_cases hv : v = []
      · simpa [hv, addMsg_nil] using ih
      · have hsame : addMsg ack g v = addMsg ack (g.injectAck ack) v := by
          rw [addMsg_boundary ack h0 hv, addMsg_boundary ack h0' hv, injectAck_of_injected hin]
        have hflag := (fold_whole ack (v :: vs) _ h0' hin).2.1
        rw [foldl_cons, hsame, ← foldl_cons]
        exact injectAck_of_injected (hin.imp_right hflag.trans)
  obtain ⟨h1, h2, h3, h4⟩ := fold_whole ack vs _ h0' hin
  rw [hfold]
  exact ⟨h1, h2.trans hinject.1, h3.trans hinject.2.1, by rw [h4, hinject.2.2, append_assoc]⟩

/-- A vector that is partly written is continued before anything else. -/
theorem addMsg_partial {g : Gather} {v : List UInt8}
    (h0 : 0 < g.nwritten) (hv : g.nwritten < v.length) :
    addMsg ack g v = { g with iovs := g.iovs ++ [tagOther (v.drop g.nwritten)], nwritten := 0,
                              firstPartialLen := v.length - g.nwritten } := by
  have hinject : g.injectAck ack = g := by
    unfold injectAck
    cases ack with
    | none => rfl
    | some a => simp [Nat.ne_of_gt h0]
  simp only [addMsg, if_neg (Nat.not_le.mpr hv), hinject, if_pos h0]

/-- The vectors of `vs` behind the write position, with the acknowledgement at `ackCut`. -/
theorem fold_cut (vs : List (List UInt8)) :
    ∀ (g : Gather), g.injectedWholeAck = false → g.firstPartialLen = 0 →
      let r := (vs.foldl (addMsg ack) g).injectAck ack
      match ackCut vs g.nwritten with
      | some c => r.nwritten = 0 ∧ r.injectedWholeAck = ack.isSome ∧ r.firstPartialLen = c ∧
          r.iovs.flatten = g.iovs.flatten ++ (tagOther ((vs.flatten.drop g.nwritten).take c) ++
            (wholeAckBytes ack ++ tagOther (vs.flatten.drop (g.nwritten + c))))
      | none => r.nwritten = g.nwritten - vs.flatten.length ∧ r.injectedWholeAck = false ∧
          r.firstPartialLen = 0 ∧ r.iovs.flatten = g.iovs.flatten := by
  induction vs with
  | nil =>
    intro g hinj hfp
    by_cases h0 : g.nwritten = 0
    · have hb := fold_boundary ack [] g h0 hinj
      rw [h0, ackCut_zero]
      simpa [hfp, tagOther] using hb
    · have hcut : ackCut [] g.nwritten = none := by rw [ackCut, if_neg h0]
      have hskip : g.injectAck ack = g := by
        cases ack with
        | none => rfl
        | some a => simp [injectAck, h0]
      simp only [hcut, foldl_nil, hskip, flatten_nil, length_nil, Nat.sub_zero]
      exact ⟨trivial, hinj, hfp, trivial⟩
  | cons v vs ih =>
    intro g hinj hfp
    by_cases hv : v.length ≤ g.nwritten
    · -- the whole vector was written before
      have hstep : addMsg ack g v = { g with nwritten := g.nwritten - v.length } := by
        rw [addMsg, if_pos hv]
      have hih := ih { g with nwritten := g.nwritten - v.length } hinj hfp
      have hdrop : ∀ k, (v ++ vs.flatten).drop (g.nwritten + k) =
          vs.flatten.drop (g.nwritten - v.length + k) := by
        intro k
        rw [drop_append, drop_eq_nil_of_le (by omega), nil_append,
          show g.nwritten + k - v.length = g.nwritten - v.length + k by omega]
      simp only [foldl_cons, hstep, ackCut, if_pos hv, flatten_cons] at hih ⊢
      cases hcut : ackCut vs (g.nwritten - v.length) with
      | some c =>
        rw [hcut] at hih
        obtain ⟨h1, h2, h3, h4⟩ := hih
        refine ⟨h1, h2, h3, ?_⟩
        have hdrop0 := hdrop 0
        simp only [Nat.add_zero] at hdrop0
        rw [h4, hdrop0, hdrop c]
      | none =>
        rw [hcut] at hih
        obtain ⟨h1, h2, h3, h4⟩ := hih
        refine ⟨?_, h2, h3, h4⟩
        rw [h1, length_append]
        omega
    · by_cases h0 : g.nwritten = 0
      · have hb := fold_boundary ack (v :: vs) g h0 hinj
        rw [h0, ackCut_zero]
        simpa [hfp, tagOther] using hb
      · have hlt : g.nwritten < v.length := Nat.not_le.mp hv
        have hstep := addMsg_partial ack (Nat.pos_of_ne_zero h0) hlt
        simp only [foldl_cons, hstep, ackCut, if_neg hv, if_neg h0, flatten_cons]
        obtain ⟨h1, h2, h3, h4⟩ := fold_boundary ack vs
          { g with iovs := g.iovs ++ [tagOther (v.drop g.nwritten)], nwritten := 0,
                   firstPartialLen := v.length - g.nwritten } rfl hinj
        refine ⟨h1, h2, h3, ?_⟩
        have htake : ((v ++ vs.flatten).drop g.nwritten).take (v.length - g.nwritten) =
            v.drop g.nwritten := by
          rw [drop_append_of_le_length (Nat.le_of_lt hlt)]
          exact take_left' (by simp)
        have hrest : (v ++ vs.flatten).drop (g.nwritten + (v.length - g.nwritten)) =
            vs.flatten := drop_left' (by omega)
        rw [h4, htake, hrest]
        simp

end Gather

namespace TransferQueue

/-- Everything of the current batch except acknowledgements: the queued vectors, and the protocol
data when it may be sent. -/
def sendable : List UInt8 :=
  q.otherMessages.flatten ++ if q.sendProtocol then q.protocolData else []

/-- The part of the batch that has not been written. -/
def unsent : List UInt8 := q.sendable.drop q.nbytesWritten

/-- What is left of an acknowledgement that was started. -/
def ackRest : List OutByte :=
  if 0 < q.ackNwritten then tagAck q.ackNwritten (q.ackMsgCur.toList.drop q.ackNwritten) else []

/-- Whether the next write carries a new acknowledgement. -/
def injects : Bool := q.needsNewAck && (ackCut q.otherMessages q.nbytesWritten).isSome

/-- How much of `unsent` precedes a new acknowledgement. -/
def lead : Nat := (ackCut q.otherMessages q.nbytesWritten).getD 0

/-- The acknowledgement that the next write would start. -/
def nextAck : AckMsg := if 0 < q.ackNwritten then q.ackMsgNxt else q.ackMsgCur

def newAck : List OutByte := if q.injects then tagAck 0 q.nextAck.toList else []

theorem netLen_eq : q.netLen = q.sendable.length := by
  have hfold : ∀ (vs : List (List UInt8)) (n : Nat),
      vs.foldl (fun n v => n + v.length) n = vs.flatten.length + n := by
    intro vs
    induction vs with
    | nil => simp
    | cons v vs ih =>
      intro n
      rw [foldl_cons, ih, flatten_cons, length_append]
      omega
  rw [netLen, hfold, sendable, length_append]
  split <;> rfl

theorem sendable_of_not (h : q.sendProtocol = false) : q.sendable = q.otherMessages.flatten := by
  simp [sendable, h]

/-- Appending the payload vector is the same whether or not it is empty. -/
theorem gather_payload (g : Gather) :
    (if g.nwritten < q.protocolData.length && q.sendProtocol then
      { g with iovs := g.iovs ++ [tagOther (q.protocolData.drop g.nwritten)] } else g).iovs.flatten =
    g.iovs.flatten ++ tagOther ((if q.sendProtocol then q.protocolData else []).drop g.nwritten) := by
  by_cases hs : q.sendProtocol
  · by_cases hn : g.nwritten < q.protocolData.length
    · simp [hs, hn]
    · simp [hs, hn, tagOther, drop_eq_nil_of_le (Nat.not_lt.mp hn)]
  · simp [hs, tagOther]

/-- `Gather.fold_cut` for the vectors of this queue. -/
theorem gatherMsgs_cut :
    match ackCut q.otherMessages q.nbytesWritten with
    | some c => q.gatherMsgs.nwritten = 0 ∧ q.gatherMsgs.injectedWholeAck = q.optWholeAck.isSome ∧
        q.gatherMsgs.firstPartialLen = c ∧ q.gatherMsgs.iovs.flatten = q.ackRest ++
          (tagOther ((q.otherMessages.flatten.drop q.nbytesWritten).take c) ++
            (Gather.wholeAckBytes q.optWholeAck ++
              tagOther (q.otherMessages.flatten.drop (q.nbytesWritten + c))))
    | none => q.gatherMsgs.nwritten = q.nbytesWritten - q.otherMessages.flatten.length ∧
        q.gatherMsgs.injectedWholeAck = false ∧ q.gatherMsgs.firstPartialLen = 0 ∧
        q.gatherMsgs.iovs.flatten = q.ackRest := by
  have hstart : q.gatherStart.iovs.flatten = q.ackRest := by
    unfold gatherStart ackRest
    split <;> simp
  rw [← hstart]
  exact Gather.fold_cut q.optWholeAck q.otherMessages q.gatherStart rfl rfl

theorem gather_flags :
    q.gather.injectedWholeAck = q.injects ∧ q.gather.firstPartialLen = q.lead := by
  have hfold := q.gatherMsgs_cut
  have hsome : q.optWholeAck.isSome = q.needsNewAck := by
    cases h : q.needsNewAck <;> simp [optWholeAck, h]
  simp only [gather, injects, lead]
  cases hcut : ackCut q.otherMessages q.nbytesWritten with
  | some c =>
    rw [hcut] at hfold
    obtain ⟨-, h2, h3, -⟩ := hfold
    split <;> simp [h2, h3, hsome]
  | none =>
    rw [hcut] at hfold
    obtain ⟨-, h2, h3, -⟩ := hfold
    split <;> simp [h2, h3]

/-- **One write.** The vectors of a write are the rest of a started acknowledgement, the rest of a
started vector, the new acknowledgement, and everything else of the batch. -/
theorem planned_eq : q.planned = q.ackRest ++
    (tagOther (q.unsent.take q.lead) ++ (q.newAck ++ tagOther (q.unsent.drop q.lead))) := by
  have hfold := q.gatherMsgs_cut
  simp only [planned, gather, gather_payload]
  generalize hpay : (if q.sendProtocol = true then q.protocolData else []) = payload
  have hsend : q.unsent = (q.otherMessages.flatten ++ payload).drop q.nbytesWritten := by
    rw [unsent, sendable, hpay]
  cases hcut : ackCut q.otherMessages q.nbytesWritten with
  | some c =>
    rw [hcut] at hfold
    obtain ⟨h1, -, -, h4⟩ := hfold
    have hle := ackCut_some hcut
    have hlead : q.lead = c := by simp [lead, hcut]
    have hack : Gather.wholeAckBytes q.optWholeAck = q.newAck := by
      cases hn : q.needsNewAck <;>
        simp [Gather.wholeAckBytes, optWholeAck, newAck, injects, nextAck, hn, hcut]
    have htake : q.unsent.take c = (q.otherMessages.flatten.drop q.nbytesWritten).take c := by
      rw [hsend, drop_append_of_le_length (by omega), take_append_of_le_length]
      rw [length_drop]
      omega
    have hdrop : q.unsent.drop c = q.otherMessages.flatten.drop (q.nbytesWritten + c) ++ payload := by
      rw [hsend, drop_drop, drop_append_of_le_length hle]
    rw [h1, h4, hack, hlead, htake, hdrop, tagOther_append]
    simp
  | none =>
    rw [hcut] at hfold
    obtain ⟨h1, -, -, h4⟩ := hfold
    have hlt := ackCut_none hcut
    have hlead : q.lead = 0 := by simp [lead, hcut]
    have hack : q.newAck = [] := by simp [newAck, injects, hcut]
    have hunsent : q.unsent = payload.drop (q.nbytesWritten - q.otherMessages.flatten.length) := by
      rw [hsend, drop_append, drop_eq_nil_of_le (by omega), nil_append]
    rw [h1, h4, hack, hlead, hunsent]
    simp [tagOther]

theorem length_ackRest :
    q.ackRest.length = if 0 < q.ackNwritten then 8 - q.ackNwritten else 0 := by
  unfold ackRest
  split <;> simp

theorem length_newAck : q.newAck.length = if q.injects then 8 else 0 := by
  unfold newAck
  split <;> simp

theorem lead_le : q.lead ≤ q.unsent.length := by
  unfold lead
  cases hcut : ackCut q.otherMessages q.nbytesWritten with
  | none => simp
  | some c =>
    have := ackCut_some hcut
    simp only [Option.getD_some, unsent, sendable, length_drop, length_append]
    omega

/-! ## What a write leaves behind -/

/-- How many bytes other than acknowledgements are among the first `len` bytes of a write. -/
def taken (len : Nat) : Nat :=
  min q.lead (len - q.ackRest.length) + (len - q.ackRest.length - q.lead - q.newAck.length)

/-- The acknowledgement fields after a write of `len` bytes: the remaining flag, the current
message and how much of it is written. -/
def ackAfter (len : Nat) : Bool × AckMsg × Nat :=
  let done := 0 < q.ackNwritten && q.ackRest.length ≤ len
  let cur := if done then q.ackMsgNxt else q.ackMsgCur
  let pos := if done then 0 else if 0 < q.ackNwritten then q.ackNwritten + len else q.ackNwritten
  if q.injects then
    let m := len - q.ackRest.length - q.lead
    (false, cur, if m < 8 then m else pos)
  else (q.needsNewAck, cur, pos)

theorem absorbPartialAck_eq (h8 : q.ackNwritten ≤ 8) (len : Nat) :
    q.absorbPartialAck len =
      ({ q with
          ackMsgCur := if 0 < q.ackNwritten && q.ackRest.length ≤ len then q.ackMsgNxt
            else q.ackMsgCur
          ackNwritten := if 0 < q.ackNwritten && q.ackRest.length ≤ len then 0
            else if 0 < q.ackNwritten then q.ackNwritten + len else q.ackNwritten },
        len - q.ackRest.length) := by
  rw [q.length_ackRest]
  by_cases h0 : 0 < q.ackNwritten
  · by_cases hlen : 8 - q.ackNwritten ≤ len
    · have hmin : min (8 - q.ackNwritten) len = 8 - q.ackNwritten := Nat.min_eq_left hlen
      have h8' : q.ackNwritten + (8 - q.ackNwritten) = 8 := by omega
      simp [absorbPartialAck, h0, h8', hlen]
    · have hmin : min (8 - q.ackNwritten) len = len := by omega
      have hne : q.ackNwritten + len ≠ 8 := by omega
      have hsub : len - (8 - q.ackNwritten) = 0 := by omega
      simp [absorbPartialAck, h0, hmin, hne, hlen, hsub]
  · simp [absorbPartialAck, h0]

theorem absorbFirstPartial_eq (c len : Nat) :
    absorbFirstPartial c q len = ({ q with nbytesWritten := q.nbytesWritten + min c len }, len - c) := by
  by_cases hc : 0 < c
  · have : len - min c len = len - c := by omega
    simp [absorbFirstPartial, hc, this]
  · have : c = 0 := by omega
    simp [absorbFirstPartial, this]

/-- The accounting in closed form, up to the last step. -/
theorem account_eq (h8 : q.ackNwritten ≤ 8) (len : Nat) :
    q.account len = absorbRest q.sendProtocol q.netLen
      { q with
        needsNewAck := (q.ackAfter len).1
        ackMsgCur := (q.ackAfter len).2.1
        ackNwritten := (q.ackAfter len).2.2
        nbytesWritten := q.nbytesWritten + min q.lead (len - q.ackRest.length) }
      (len - q.ackRest.length - q.lead - q.newAck.length) := by
  simp only [account, q.gather_flags.1, q.gather_flags.2, q.absorbPartialAck_eq h8,
    absorbFirstPartial_eq, length_newAck]
  cases hinj : q.injects with
  | false => simp [absorbWholeAck, ackAfter, hinj]
  | true =>
    by_cases hm : len - q.ackRest.length - q.lead < 8
    · have hmin : min 8 (len - q.ackRest.length - q.lead) = len - q.ackRest.length - q.lead := by
        omega
      have hsub : len - q.ackRest.length - q.lead - 8 = 0 := by omega
      simp [absorbWholeAck, ackAfter, hinj, hm, hmin, hsub]
    · have hmin : min 8 (len - q.ackRest.length - q.lead) = 8 := by omega
      simp [absorbWholeAck, ackAfter, hinj, hm, hmin]

/-- The acknowledgement fields are those of `ackAfter`, and nothing a write does touches the
counters of requests and results. -/
theorem account_ack (h8 : q.ackNwritten ≤ 8) (len : Nat) :
    (q.account len).needsNewAck = (q.ackAfter len).1 ∧
    (q.account len).ackMsgCur = (q.ackAfter len).2.1 ∧
    (q.account len).ackNwritten = (q.ackAfter len).2.2 ∧
    (q.account len).ackMsgNxt = q.ackMsgNxt ∧ (q.account len).lastAck = q.lastAck ∧
    (q.account len).protocolRids = q.protocolRids ∧
    (q.account len).expectedRecvdMsgs = q.expectedRecvdMsgs := by
  rw [q.account_eq h8, absorbRest]
  split
  · split <;> exact ⟨rfl, rfl, rfl, rfl, rfl, rfl, rfl⟩
  · exact ⟨rfl, rfl, rfl, rfl, rfl, rfl, rfl⟩

/-- A write either leaves part of the batch, and only moves the position, or completes the batch
and clears it. -/
theorem account_batch (h8 : q.ackNwritten ≤ 8) (len : Nat) :
    (q.nbytesWritten + q.taken len ≠ q.netLen ∧
      (q.account len).otherMessages = q.otherMessages ∧
      (q.account len).protocolData = q.protocolData ∧
      (q.account len).protocolHeaderAdded = q.protocolHeaderAdded ∧
      (q.account len).nbytesWritten = q.nbytesWritten + q.taken len) ∨
    (q.nbytesWritten + q.taken len = q.netLen ∧
      (q.account len).otherMessages = [] ∧
      (q.account len).protocolData = (if q.sendProtocol then [] else q.protocolData) ∧
      (q.account len).protocolHeaderAdded =
        (if q.sendProtocol then false else q.protocolHeaderAdded) ∧
      (q.account len).nbytesWritten = 0) := by
  have hsum : q.nbytesWritten + min q.lead (len - q.ackRest.length) +
      (len - q.ackRest.length - q.lead - q.newAck.length) = q.nbytesWritten + q.taken len := by
    rw [taken, Nat.add_assoc]
  rw [q.account_eq h8, absorbRest]
  simp only [hsum]
  by_cases hfull : q.nbytesWritten + q.taken len = q.netLen
  · right
    rw [if_pos hfull]
    refine ⟨hfull, rfl, ?_, ?_, rfl⟩ <;> cases q.sendProtocol <;> rfl
  · left
    rw [if_neg hfull]
    exact ⟨hfull, rfl, rfl, rfl, rfl⟩

/-- **Payload accounting.** Whatever the length of the write, the position advances by exactly the
bytes that were written of the batch. -/
theorem account_unsent (h8 : q.ackNwritten ≤ 8) (len : Nat) :
    (q.account len).unsent = q.unsent.drop (q.taken len) := by
  have hdrop : q.unsent.drop (q.taken len) = q.sendable.drop (q.nbytesWritten + q.taken len) := by
    rw [unsent, drop_drop]
  obtain ⟨-, -, -, -, -, -, hexp⟩ := q.account_ack h8 len
  rcases q.account_batch h8 len with ⟨-, hother, hdata, -, hpos⟩ | ⟨hfull, hother, hdata, -, hpos⟩
  · have hsp : (q.account len).sendProtocol = q.sendProtocol := by
      rw [sendProtocol, sendProtocol, hdata, hexp]
    rw [hdrop, unsent, sendable, hother, hdata, hsp, hpos, ← sendable]
  · have hnil : (q.account len).sendable = [] := by
      cases hsp : q.sendProtocol with
      | true =>
        rw [hsp] at hdata
        simp [sendable, sendProtocol, hother, hdata]
      | false =>
        rw [hsp] at hdata
        have hsp' : (q.account len).sendProtocol = false := by
          simpa [sendProtocol, hdata, hexp] using hsp
        simp [sendable, hsp', hother]
    rw [unsent, hnil, hdrop, hfull, netLen_eq, drop_nil, drop_length]

theorem nonAck_ackRest : nonAck q.ackRest = [] := by
  unfold ackRest
  split
  · exact nonAck_tagAck _ _
  · rfl

theorem nonAck_newAck : nonAck q.newAck = [] := by
  unfold newAck
  split
  · exact nonAck_tagAck _ _
  · rfl

theorem nonAck_take_of_nil {s : List OutByte} (h : nonAck s = []) (n : Nat) :
    nonAck (s.take n) = [] := by
  rw [← take_append_drop n s, nonAck_append] at h
  exact (append_eq_nil_iff.mp h).1

theorem nonAck_take_planned (len : Nat) :
    nonAck (q.planned.take len) = q.unsent.take (q.taken len) := by
  have hlead := q.lead_le
  have hl : (q.unsent.take q.lead).length = q.lead := length_take_of_le hlead
  rw [planned_eq]
  simp only [take_append, nonAck_append, take_tagOther, nonAck_tagOther, length_tagOther, hl,
    nonAck_take_of_nil q.nonAck_ackRest, nonAck_take_of_nil q.nonAck_newAck, nil_append]
  have htake : ∀ a b : Nat, b = 0 ∨ q.lead ≤ a →
      (q.unsent.take q.lead).take a ++ (q.unsent.drop q.lead).take b =
        q.unsent.take (min q.lead a + b) := by
    rintro a b (rfl | hab)
    · rw [take_take, take_zero, append_nil, Nat.add_zero, Nat.min_comm]
    · rw [take_of_length_le (by omega), Nat.min_eq_left hab, take_add]
  rw [taken]
  exact htake _ _ (by omega)

/-- A new acknowledgement is reached by a write that gets past everything in front of it. -/
def reachesAck (len : Nat) : Prop := q.injects = true → q.ackRest.length + q.lead < len

instance (len : Nat) : Decidable (q.reachesAck len) := inferInstanceAs (Decidable (_ → _))

/-- A write that gets to the new acknowledgement takes over its message. -/
theorem ackAfter_of_reach {len : Nat} (hinj : q.injects = true)
    (hlen : q.ackRest.length + q.lead < len) :
    q.ackAfter len = (false, q.nextAck, if len - q.ackRest.length - q.lead < 8
      then len - q.ackRest.length - q.lead else 0) := by
  have hle : q.ackRest.length ≤ len := by omega
  by_cases h0 : 0 < q.ackNwritten
  · simp [ackAfter, hinj, nextAck, h0, hle]
  · simp [ackAfter, hinj, nextAck, show q.ackNwritten = 0 by omega]

/-- What is left of acknowledgements after a write that reaches the one it carries. -/
theorem account_ackRest (h8 : q.ackNwritten ≤ 8) {len : Nat} (hreach : q.reachesAck len) :
    (q.account len).ackRest = if q.injects then
        q.newAck.drop (len - q.ackRest.length - q.lead) else q.ackRest.drop len := by
  obtain ⟨-, hcur, hpos, -⟩ := q.account_ack h8 len
  have hlen := q.length_ackRest
  rw [ackRest, hcur, hpos]
  cases hinj : q.injects with
  | true =>
    have hlt := hreach hinj
    rw [q.ackAfter_of_reach hinj hlt, newAck, if_pos hinj, drop_tagAck, Nat.zero_add, if_pos rfl]
    dsimp only
    by_cases hm : len - q.ackRest.length - q.lead < 8
    · rw [if_pos hm, if_pos (by omega)]
    · rw [if_neg hm, if_neg (by omega), drop_eq_nil_of_le (by simp; omega)]
      rfl
  | false =>
    simp only [ackAfter, hinj, Bool.false_eq_true, if_false]
    by_cases h0 : 0 < q.ackNwritten
    · rw [if_pos h0] at hlen
      have hrest : q.ackRest = tagAck q.ackNwritten (q.ackMsgCur.toList.drop q.ackNwritten) := by
        rw [ackRest, if_pos h0]
      by_cases hle : q.ackRest.length ≤ len
      · rw [drop_eq_nil_of_le hle]
        simp [h0, hle]
      · simp only [h0, hle, decide_true, decide_false, Bool.and_false, Bool.false_eq_true,
          if_false, if_true]
        rw [if_pos (by omega), hrest, drop_tagAck, drop_drop]
    · simp [h0, ackRest]

/-- **Conservation.** What a write emits, followed by what it leaves behind, is what it gathered,
provided that it reaches a new acknowledgement that it carries. -/
theorem write_conserves (h8 : q.ackNwritten ≤ 8) {len : Nat} (hreach : q.reachesAck len) :
    q.planned.take len ++ ((q.account len).ackRest ++ tagOther (q.account len).unsent) =
      q.planned := by
  have hlead := q.lead_le
  have hl : (q.unsent.take q.lead).length = q.lead := length_take_of_le hlead
  suffices h : q.planned.drop len = (q.account len).ackRest ++ tagOther (q.account len).unsent by
    rw [← h, take_append_drop]
  have htag : ∀ (n : Nat) (bs : List UInt8), (tagOther bs).drop n = tagOther (bs.drop n) :=
    fun n bs => (map_drop ..).symm
  rw [q.account_ackRest h8 hreach, q.account_unsent h8, planned_eq]
  simp only [drop_append, htag, length_tagOther, hl]
  cases hinj : q.injects with
  | true =>
    have hlt := hreach hinj
    have hn : q.newAck.length = 8 := by rw [length_newAck, hinj]; rfl
    rw [drop_eq_nil_of_le (show q.ackRest.length ≤ len by omega),
      drop_eq_nil_of_le (show (q.unsent.take q.lead).length ≤ len - q.ackRest.length by omega),
      drop_drop, taken, hn, Nat.min_eq_left (by omega)]
    simp [tagOther]
  | false =>
    have hn : q.newAck = [] := by rw [newAck, hinj]; rfl
    have htaken : q.taken len = len - q.ackRest.length := by
      rw [taken, hn, length_nil]
      omega
    rw [hn, htaken]
    simp only [drop_nil, nil_append, length_nil, Nat.sub_zero, Bool.false_eq_true,
      if_false, drop_drop]
    congr 1
    rw [← tagOther_append]
    congr 1
    nth_rewrite 3 [← take_append_drop q.lead q.unsent]
    rw [drop_append, hl, drop_drop]

end TransferQueue

end Waypipe
