import Waypipe.Lib.Transition
import Waypipe.Collect
import Waypipe.Wayland.Codec

/-!
# The main loop, seen from the outgoing queue

One iteration of `loop_inner` polls, writes to the channel, reacts to end of file, queues timeline
signals, takes the results of worker threads, translates Wayland input (`processWayland1`), adds
the headers for it (`processWayland2`), processes the channel, and requests an acknowledgement.
`Loop.step` is the loop with each of these as one event, in the order of the source; everything
that comes from outside (write counts, results, signals, input) is in the event.  When the loop
stops, `loop_end_to_channel` takes over: it writes what is queued and then the closing messages.

`sent` and `ackRequests` are not program state: they record the bytes written to the channel and
the acknowledgements requested.
-/

namespace Waypipe

open Wayland

def MIN_PROTOCOL_VERSION : Nat := 16

inductive DirectionState where
  | on
  | drain
  | off
  deriving DecidableEq, Repr

/-! ## Adding headers -/

variable (q : TransferQueue)

/-- First half of `process_wayland_2`: the message that names the descriptors of the protocol
data. -/
def injectRids : Res TransferQueue :=
  if q.protocolRids.isEmpty then .ok q
  else do
    let header ← buildWmsgHeader .injectRIDs (q.protocolRids.length * 4 + 4)
    return { q with
      otherMessages := q.otherMessages ++ [u32le header ++ (q.protocolRids.map i32le).flatten]
      protocolRids := [] }

/-- Second half: the header of the protocol data.  The data itself stays where it is, and is
taken to follow the last vector. -/
def addProtocolHeader : Res TransferQueue :=
  if 0 < q.protocolData.length && !q.protocolHeaderAdded then do
    let header ← buildWmsgHeader .protocol (q.protocolData.length + 4)
    return { q with
      otherMessages := q.otherMessages ++ [u32le header]
      protocolHeaderAdded := true }
  else .ok q

def processWayland2 : Res TransferQueue := do
  addProtocolHeader (← injectRids q)

/-! ## Translating input -/

/-- What one call of `process_wayland_1` finds to do: the output of the message translation and
the descriptors that are visited afterwards. -/
structure WaylandWork where
  output : List UInt8
  rids : List Rid
  /-- The translation stops with an error after this output. -/
  translateErr : Option String
  sfds : List ShadowFd
  env : CollectEnv
  aligned : output.length % 4 = 0
  fits : output.length ≤ 4096

/-- Messages without descriptors. -/
def WaylandWork.plain (output : List UInt8) (aligned : output.length % 4 = 0)
    (fits : output.length ≤ 4096) : WaylandWork where
  output := output
  rids := []
  translateErr := none
  sfds := []
  env := .plain
  aligned := aligned
  fits := fits

/-- Visit the descriptors in turn; stops at the first failure, with what is queued by then. -/
def collectAll (env : CollectEnv) : List ShadowFd → TransferQueue → Res Unit × TransferQueue
  | [], q => (.ok (), q)
  | sfd :: sfds, q =>
    match Eff.exec (collectUpdates env) { sfd, queue := q, tasks := [] } with
    | (.ok _, s) => collectAll env sfds s.queue
    | (.error e, s) => (.error e, s.queue)

def processWayland1 (w : WaylandWork) : Res Unit × TransferQueue :=
  let q := { q with
    protocolData := q.protocolData ++ w.output
    protocolRids := q.protocolRids ++ w.rids }
  match w.translateErr with
  | some e => (.error (.err e), q)
  | none => collectAll w.env w.sfds q

/-! ## Acknowledgements -/

/-- The message that acknowledges `val` received messages. -/
def ackMsg (val : Nat) : AckMsg :=
  ⟨(u32le (8 * 2 ^ 5 ||| WmsgType.ackNblocks.code) ++ u32le val).toArray, by simp⟩

/-- Request an acknowledgement; one that is partly written must not be overwritten. -/
def TransferQueue.requestAck (val : Nat) : TransferQueue :=
  if 0 < q.ackNwritten then
    { q with ackMsgNxt := ackMsg val, needsNewAck := true, lastAck := val }
  else { q with ackMsgCur := ackMsg val, needsNewAck := true, lastAck := val }

/-! ## The loop -/

/-- A message from a worker thread: nothing, or one whole wire message. -/
structure TaskMsg where
  bytes : List UInt8
  whole : bytes = [] ∨ IsWmsg bytes

/-- Where the program is within an iteration, or after the loop. -/
inductive Phase where
  | poll
  | eofs (chanWriteEof : Bool)
  | signals
  | results
  | wayland
  | finish
  /-- The loop has failed and only stops. -/
  | halted
  /-- `loop_end_to_channel`, with the closing messages and how much of them is written. -/
  | ending (endmsg : List UInt8) (nwritten : Nat)
  /-- Writing has ended early, because the channel closed or failed. -/
  | closed
  deriving DecidableEq, Repr

structure Loop where
  phase : Phase
  onDisplaySide : Bool
  fromWay : DirectionState
  fromChan : DirectionState
  wireVersion : Nat
  messageCounter : Nat
  queue : TransferQueue
  sent : List OutByte
  ackRequests : List Nat
  deriving DecidableEq, Repr

inductive Event where
  /-- The channel is writable; `writev` returns the given result. -/
  | write (r : WritevResult)
  | noWrite
  | eofs (progRead progWrite chanRead chanWrite : Bool)
  /-- A timeline point that the other instance waits for has been reached. -/
  | signal (rid : Rid) (current : Nat)
  | signalsDone
  | result (msg : TaskMsg)
  | resultsDone
  | wayland (work : Option WaylandWork)
  /-- Channel messages are processed, and directions that are drained turn off. -/
  | finish (received version : Nat) (chanDrained wayProcessable : Bool)
  /-- The loop ends, by itself, by a signal or by an error anywhere. -/
  | stop (error : Option (List UInt8)) (sendCloseMsg : Bool)
  | endWrite (r : WritevResult)

/-- How many bytes `writev` takes in this event. -/
def Event.writes : Event → Option Nat
  | .write (.wrote len) | .endWrite (.wrote len) => some len
  | _ => none

/-- `writev` takes no more bytes than it is given. -/
def WritevResult.possible (r : WritevResult) (total : Nat) : Bool :=
  match r with
  | .wrote len => len ≤ total
  | _ => true

def drainOrOff : DirectionState → DirectionState
  | .on | .drain => .drain
  | .off => .off

def signalTimelineMsg (rid : Rid) (current : Nat) : Res (List UInt8) := do
  let header ← buildWmsgHeader .signalTimeline 16
  return u32le header ++ (i32le rid ++ u64le current)

/-- The error message that is sent to the other instance. -/
def errorMsg (error : List UInt8) : Res (List UInt8) := do
  let err := asciiBytes "waypipe-client internal error: " ++ error
  let errmsgLen := 4 + lengthEvtWlDisplayError err.length
  let header ← buildWmsgHeader .protocol errmsgLen
  assert (errmsgLen % 4 == 0) "errmsg_len % 4 == 0"
  let event ← writeEvtWlDisplayError 1 1 0 err
  return u32le header ++ event

def closeMsg : Res (List UInt8) := do
  let header ← buildWmsgHeader .close 8
  return u32le header ++ u32le 0

/-- The closing messages. -/
def endMsg (error : Option (List UInt8)) (sendCloseMsg : Bool) : Res (List UInt8) := do
  let err ← error.elim (.ok []) errorMsg
  let close ← (if sendCloseMsg then closeMsg else .ok [] : Res (List UInt8))
  return err ++ close

namespace Loop

/-- The loop when `main_interface_loop` enters it. -/
def initial (onDisplaySide : Bool) (initWireVersion : Nat) : Loop where
  phase := .poll
  onDisplaySide := onDisplaySide
  fromWay := .on
  fromChan := .on
  wireVersion := initWireVersion
  messageCounter := 0
  queue :=
    if MIN_PROTOCOL_VERSION < initWireVersion then
      TransferQueue.initial.push
        (u32le (8 * 2 ^ 5 ||| WmsgType.version.code) ++ u32le initWireVersion)
    else TransferQueue.initial
  sent := []
  ackRequests := []

variable (s : Loop)

/-- The write of one iteration. -/
def writeStep (r : WritevResult) : Option Loop :=
  match writeToChannel s.queue r with
  | .ok (eof, bytes, q) => some { s with queue := q, sent := s.sent ++ bytes, phase := .eofs eof }
  | .error (.err _) => some { s with phase := .halted }
  | .error (.panic _) => none

/-- Both parts of `process_wayland`, when the direction is not off. -/
def waylandStep (work : Option WaylandWork) : Option Loop :=
  let (r, q) := match work with
    | some w =>
      if !s.queue.hasFromWayOutput && !s.queue.hasPendingComputeTasks then
        processWayland1 s.queue w
      else (.ok (), s.queue)
    | none => (.ok (), s.queue)
  match r with
  | .error (.panic _) => none
  | .error (.err _) => some { s with queue := q, phase := .halted }
  | .ok () =>
    if !q.hasPendingComputeTasks then
      match processWayland2 q with
      | .ok q => some { s with queue := q, phase := .finish }
      | .error _ => none
    else some { s with queue := q, phase := .finish }

/-- A new acknowledgement, when messages have arrived since the last one. -/
def ackStep : Loop :=
  if s.fromWay = .on ∧ s.fromChan = .on ∧ s.wireVersion ≤ 16 then
    let val := s.messageCounter % 2 ^ 32
    if val ≠ s.queue.lastAck then
      { s with queue := s.queue.requestAck val, ackRequests := s.ackRequests ++ [val] }
    else s
  else s

/-- Directions that are drained and have nothing left turn off. -/
def drainStep (chanDrained wayProcessable : Bool) : Loop :=
  { s with
    fromChan := if s.fromChan = .drain ∧ chanDrained then .off else s.fromChan
    fromWay := if s.fromWay = .drain ∧ !wayProcessable ∧ !s.queue.hasFromWayOutput then .off
      else s.fromWay }

/-- One write of `loop_end_to_channel`. -/
def endStep (endmsg : List UInt8) (nwritten : Nat) (r : WritevResult) : Option Loop :=
  if s.queue.hasFromWayOutput then
    if r.possible s.queue.planned.length then
      match writeToChannel s.queue r with
      | .ok (false, bytes, q) => some { s with queue := q, sent := s.sent ++ bytes }
      | .ok (true, _, q) => some { s with queue := q, phase := .closed }
      | .error (.err _) => some { s with phase := .closed }
      | .error (.panic _) => none
    else none
  else if nwritten < endmsg.length then
    match r with
    | .wrote len =>
      if len ≤ endmsg.length - nwritten then
        some { s with
          phase := .ending endmsg (nwritten + len)
          sent := s.sent ++ tagOther ((endmsg.drop nwritten).take len) }
      else none
    | .retry => some s
    | .disconnected | .failed _ => some { s with phase := .closed }
  else none

/-- One event; `none` when it cannot happen in this state. -/
def step (e : Event) : Option Loop :=
  match e, s.phase with
  | .write r, .poll =>
    if s.fromWay ≠ .off ∧ s.queue.hasFromWayOutput ∧ r.possible s.queue.planned.length then
      s.writeStep r
    else none
  | .noWrite, .poll =>
    if s.fromWay ≠ .off ∨ s.fromChan ≠ .off then some { s with phase := .eofs false } else none
  | .eofs progRead progWrite chanRead chanWrite, .eofs chanWriteEof =>
    let fromChan := if progRead || progWrite then .off else s.fromChan
    let fromWay := if chanRead || chanWrite || chanWriteEof then .off else s.fromWay
    some { s with
      fromWay := if progRead then drainOrOff fromWay else fromWay
      fromChan := if chanRead then drainOrOff fromChan else fromChan
      phase := .signals }
  | .signal rid current, .signals =>
    -- only the display side waits for release points
    if s.onDisplaySide then
      match signalTimelineMsg rid current with
      | .ok msg => some { s with queue := s.queue.push msg }
      | .error _ => none
    else none
  | .signalsDone, .signals => some { s with phase := .results }
  | .result msg, .results =>
    if 0 < s.queue.expectedRecvdMsgs then
      let q := { s.queue with expectedRecvdMsgs := s.queue.expectedRecvdMsgs - 1 }
      some { s with
        queue := if s.fromWay ≠ .off ∧ !msg.bytes.isEmpty then q.push msg.bytes else q }
    else none
  | .resultsDone, .results => some { s with phase := .wayland }
  | .wayland work, .wayland =>
    if s.fromWay ≠ .off then s.waylandStep work else some { s with phase := .finish }
  | .finish received version chanDrained wayProcessable, .finish =>
    let s := { s with messageCounter := s.messageCounter + received, wireVersion := version }
    some { (s.ackStep.drainStep chanDrained wayProcessable) with phase := .poll }
  | .stop _ _, .ending _ _ | .stop _ _, .closed => none
  | .stop error sendCloseMsg, _ =>
    match endMsg error sendCloseMsg, processWayland2 s.queue with
    | .ok endmsg, .ok q => some { s with queue := q, phase := .ending endmsg 0 }
    | _, _ => none
  | .endWrite r, .ending endmsg nwritten => s.endStep endmsg nwritten r
  | _, _ => none

abbrev run (es : List Event) : Option Loop := Transition.run step s es

/-! ## What a step can do -/

/-- The loop has not handed over to `loop_end_to_channel`. -/
def inLoop : Bool :=
  match s.phase with
  | .ending _ _ | .closed => false
  | _ => true

/-- The phases in which the queue may be written to, or come to be written to before
`processWayland2` is called. -/
def writable : Bool :=
  match s.phase with
  | .poll | .eofs _ | .signals | .finish => s.fromWay ≠ .off
  | .ending _ _ => true
  | _ => false

/-- The step leaves the queue and the stream alone. -/
structure Quiet (s t : Loop) : Prop where
  queue : t.queue = s.queue
  sent : t.sent = s.sent
  ackRequests : t.ackRequests = s.ackRequests
  phase : t = s ∨ t.phase = .closed ∨
    (s.inLoop = true ∧ t.inLoop = true ∧ (t.writable = true → s.writable = true))

/-- The effects of a step, by kind. -/
inductive Moves (s : Loop) : Event → Loop → Prop where
  | quiet {e t} (h : Quiet s t)
      (hidle : ∀ len, e.writes = some len → s.queue.needsNewAck = false) : Moves s e t
  | write {len} (hphase : s.phase = .poll) (hway : s.fromWay ≠ .off)
      (hlen : len ≤ s.queue.planned.length) :
      Moves s (.write (.wrote len))
        { s with queue := s.queue.account len, sent := s.sent ++ s.queue.planned.take len,
                 phase := .eofs false }
  | signal {rid current msg} (hphase : s.phase = .signals)
      (hmsg : signalTimelineMsg rid current = .ok msg) :
      Moves s (.signal rid current) { s with queue := s.queue.push msg }
  | result {msg q} (hphase : s.phase = .results)
      (hpos : 0 < s.queue.expectedRecvdMsgs)
      (hq : q = { s.queue with expectedRecvdMsgs := s.queue.expectedRecvdMsgs - 1 } ∨
        msg.bytes ≠ [] ∧
          q = { s.queue.push msg.bytes with
            expectedRecvdMsgs := s.queue.expectedRecvdMsgs - 1 }) :
      Moves s (.result msg) { s with queue := q }
  | wayland {work q q' p} (hphase : s.phase = .wayland)
      (hq : q = s.queue ∨ ∃ w, s.queue.hasFromWayOutput = false ∧
        s.queue.hasPendingComputeTasks = false ∧ q = (processWayland1 s.queue w).2)
      (hq' : p = .halted ∧ q' = q ∨
        p = .finish ∧ q.hasPendingComputeTasks = true ∧ q' = q ∨
        p = .finish ∧ q.hasPendingComputeTasks = false ∧ processWayland2 q = .ok q') :
      Moves s (.wayland work) { s with queue := q', phase := p }
  | ack {received version chanDrained wayProcessable t val} (hphase : s.phase = .finish)
      (hphase' : t.phase = .poll)
      (hval : val ≠ s.queue.lastAck) (hq : t.queue = s.queue.requestAck val)
      (hsent : t.sent = s.sent) (hreq : t.ackRequests = s.ackRequests ++ [val])
      (hway : t.fromWay ≠ .off → s.fromWay ≠ .off) :
      Moves s (.finish received version chanDrained wayProcessable) t
  | stop {error sendCloseMsg endmsg q} (hphase : s.inLoop = true)
      (hend : endMsg error sendCloseMsg = .ok endmsg) (hq : processWayland2 s.queue = .ok q) :
      Moves s (.stop error sendCloseMsg) { s with queue := q, phase := .ending endmsg 0 }
  | endQueue {len n endmsg} (hphase : s.phase = .ending endmsg n)
      (hout : s.queue.hasFromWayOutput = true) (hlen : len ≤ s.queue.planned.length) :
      Moves s (.endWrite (.wrote len))
        { s with queue := s.queue.account len, sent := s.sent ++ s.queue.planned.take len }
  | endMsg {len n endmsg} (hphase : s.phase = .ending endmsg n)
      (hout : s.queue.hasFromWayOutput = false) (hlen : len ≤ endmsg.length - n) :
      Moves s (.endWrite (.wrote len))
        { s with phase := .ending endmsg (n + len),
                 sent := s.sent ++ tagOther ((endmsg.drop n).take len) }

variable {s t : Loop}

theorem waylandStep_moves {work : Option WaylandWork} (hphase : s.phase = .wayland)
    (h : s.waylandStep work = some t) : Moves s (.wayland work) t := by
  unfold waylandStep at h
  split at h
  next r q hwork =>
  have hq : q = s.queue ∨ ∃ w, s.queue.hasFromWayOutput = false ∧
      s.queue.hasPendingComputeTasks = false ∧ q = (processWayland1 s.queue w).2 := by
    cases work with
    | none => exact .inl (congrArg Prod.snd hwork).symm
    | some w =>
      by_cases hidle : (!s.queue.hasFromWayOutput && !s.queue.hasPendingComputeTasks) = true
      · simp only [hidle, if_true] at hwork
        simp only [Bool.and_eq_true, Bool.not_eq_true'] at hidle
        exact .inr ⟨w, hidle.1, hidle.2, (congrArg Prod.snd hwork).symm⟩
      · simp only [hidle, Bool.false_eq_true, if_false] at hwork
        exact .inl (congrArg Prod.snd hwork).symm
  split at h
  · cases h
  · cases h
    exact .wayland hphase hq (.inl ⟨rfl, rfl⟩)
  · split at h
    next hpend =>
      split at h
      next q' hq' =>
        cases h
        exact .wayland hphase hq (.inr (.inr ⟨rfl, by simpa using hpend, hq'⟩))
      · cases h
    next hpend =>
      cases h
      exact .wayland hphase hq (.inr (.inl ⟨rfl, by simpa using hpend, rfl⟩))

theorem endStep_moves {endmsg : List UInt8} {n : Nat} {r : WritevResult}
    (hphase : s.phase = .ending endmsg n) (h : s.endStep endmsg n r = some t) :
    Moves s (.endWrite r) t := by
  unfold endStep at h
  split at h
  next hout =>
    split at h
    next hposs =>
      split at h
      next bytes q hw =>
        cases h
        rcases writeToChannel_eq_ok hw with ⟨len, rfl, -, rfl, rfl⟩ | ⟨rfl, rfl, hidle⟩
        · exact .endQueue hphase hout (by simpa [WritevResult.possible] using hposs)
        · refine .quiet ⟨rfl, by simp, rfl, .inl (by simp)⟩ ?_
          intro len hw
          cases r with
          | wrote n => exact hidle n rfl
          | _ => cases hw
      next bytes q hw =>
        cases h
        rcases writeToChannel_eq_ok hw with ⟨len, -, heof, -, -⟩ | ⟨-, rfl, hidle⟩
        · cases heof
        · refine .quiet ⟨rfl, rfl, rfl, .inr (.inl rfl)⟩ ?_
          intro len hw
          cases r with
          | wrote n => exact hidle n rfl
          | _ => cases hw
      next hw =>
        cases h
        obtain ⟨errno, rfl⟩ := writeToChannel_eq_err hw
        exact .quiet ⟨rfl, rfl, rfl, .inr (.inl rfl)⟩ (by intro len hw; cases hw)
      · cases h
    · cases h
  next hout =>
    split at h
    · cases r with
      | wrote len =>
        dsimp only at h
        split at h
        next hlen =>
          cases h
          exact .endMsg hphase (by simpa using hout) hlen
        · cases h
      | retry =>
        cases h
        exact .quiet ⟨rfl, rfl, rfl, .inl rfl⟩ (by intro len hw; cases hw)
      | disconnected | failed errno =>
        cases h
        exact .quiet ⟨rfl, rfl, rfl, .inr (.inl rfl)⟩ (by intro len hw; cases hw)
    · cases h

theorem fromWay_drainStep (chanDrained wayProcessable : Bool)
    (h : (s.drainStep chanDrained wayProcessable).fromWay ≠ .off) : s.fromWay ≠ .off := by
  intro hoff
  simp [drainStep, hoff] at h

theorem finish_moves {received version : Nat} {chanDrained wayProcessable : Bool}
    (hphase : s.phase = .finish) :
    Moves s (.finish received version chanDrained wayProcessable)
      { (({ s with messageCounter := s.messageCounter + received,
                   wireVersion := version } : Loop).ackStep.drainStep chanDrained wayProcessable)
        with phase := .poll } := by
  have hin : s.inLoop = true := by simp [inLoop, hphase]
  unfold ackStep
  split
  · dsimp only
    split
    next hval =>
      exact .ack hphase rfl hval rfl rfl rfl (fromWay_drainStep chanDrained wayProcessable)
    · refine .quiet ⟨rfl, rfl, rfl, .inr (.inr ⟨hin, rfl, ?_⟩)⟩ (by intro len hw; cases hw)
      simpa [writable, hphase] using fromWay_drainStep chanDrained wayProcessable
  · refine .quiet ⟨rfl, rfl, rfl, .inr (.inr ⟨hin, rfl, ?_⟩)⟩ (by intro len hw; cases hw)
    simpa [writable, hphase] using fromWay_drainStep chanDrained wayProcessable

/-- **Inversion.** Every step is one of the moves. -/
theorem step_moves {e : Event} (h : s.step e = some t) : Moves s e t := by
  unfold step at h
  split at h
  next r hphase =>
    split at h
    next hw =>
      obtain ⟨hway, -, hposs⟩ := hw
      unfold writeStep at h
      split at h
      next eof bytes q hwrite =>
        cases h
        rcases writeToChannel_eq_ok hwrite with ⟨len, rfl, rfl, rfl, rfl⟩ | ⟨rfl, rfl, hidle⟩
        · exact .write hphase hway (by simpa [WritevResult.possible] using hposs)
        · refine .quiet ⟨rfl, by simp, rfl, .inr (.inr ⟨?_, rfl, ?_⟩)⟩ ?_
          · simp [inLoop, hphase]
          · simp [writable, hphase]
          · intro len hw
            cases r with
            | wrote n => exact hidle n rfl
            | _ => cases hw
      next hwrite =>
        cases h
        obtain ⟨errno, rfl⟩ := writeToChannel_eq_err hwrite
        refine .quiet ⟨rfl, rfl, rfl, .inr (.inr ⟨?_, rfl, ?_⟩)⟩ (by intro len hw; cases hw)
        · simp [inLoop, hphase]
        · simp [writable]
      · cases h
    · cases h
  next hphase =>
    split at h
    · cases h
      refine .quiet ⟨rfl, rfl, rfl, .inr (.inr ⟨?_, rfl, ?_⟩)⟩ (by intro len hw; cases hw)
      · simp [inLoop, hphase]
      · simp [writable, hphase]
    · cases h
  next progRead progWrite chanRead chanWrite chanWriteEof hphase =>
    cases h
    refine .quiet ⟨rfl, rfl, rfl, .inr (.inr ⟨?_, rfl, ?_⟩)⟩ (by intro len hw; cases hw)
    · simp [inLoop, hphase]
    · -- a direction that is off stays off
      simp only [writable, hphase, ne_eq, decide_not, Bool.not_eq_true', decide_eq_false_iff_not]
      intro hoff hway
      apply hoff
      rw [hway]
      cases progRead <;> simp [drainOrOff]
  next rid current hphase =>
    split at h
    · split at h
      next msg hmsg =>
        cases h
        exact .signal hphase hmsg
      · cases h
    · cases h
  next hphase =>
    cases h
    refine .quiet ⟨rfl, rfl, rfl, .inr (.inr ⟨?_, rfl, ?_⟩)⟩ (by intro len hw; cases hw)
    · simp [inLoop, hphase]
    · simp [writable]
  next msg hphase =>
    split at h
    next hpos =>
      cases h
      by_cases hpush : s.fromWay ≠ .off ∧ (!msg.bytes.isEmpty) = true
      · rw [if_pos hpush]
        exact .result hphase hpos (.inr ⟨by simpa using hpush.2, rfl⟩)
      · rw [if_neg hpush]
        exact .result hphase hpos (.inl rfl)
    · cases h
  next hphase =>
    cases h
    refine .quiet ⟨rfl, rfl, rfl, .inr (.inr ⟨?_, rfl, ?_⟩)⟩ (by intro len hw; cases hw)
    · simp [inLoop, hphase]
    · simp [writable]
  next work hphase =>
    split at h
    · exact waylandStep_moves hphase h
    next hoff =>
      cases h
      refine .quiet ⟨rfl, rfl, rfl, .inr (.inr ⟨?_, rfl, ?_⟩)⟩ (by intro len hw; cases hw)
      · simp [inLoop, hphase]
      · simp_all [writable]
  next received version chanDrained wayProcessable hphase =>
    cases h
    exact finish_moves hphase
  · cases h
  · cases h
  next error sendCloseMsg hnot hnot' =>
    split at h
    next endmsg q hend hq =>
      cases h
      refine .stop ?_ hend hq
      unfold inLoop
      split
      next m n hp => exact absurd hp (hnot m n)
      next hp => exact absurd hp hnot'
      · rfl
    · cases h
  next r endmsg n hphase => exact endStep_moves hphase h
  · cases h

end Loop

/-- The events of an iteration up to `process_wayland`, with nothing to do. -/
def idleEvents : List Event :=
  [.noWrite, .eofs false false false false, .signalsDone, .resultsDone]

/-- A `wl_display.sync` request. -/
def syncRequest : WaylandWork :=
  .plain [1, 0, 0, 0, 0, 0, 12, 0, 3, 0, 0, 0] (by decide) (by decide)

end Waypipe
