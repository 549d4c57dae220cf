import Waypipe.Kernel
import Waypipe.MainLoop
import Waypipe.Tracking.Process

/-!
# Messages from the channel, byte by byte

`processChannel` takes the messages that the read buffer holds.  A message of type `Protocol` holds
Wayland messages; when one of them cannot be processed yet, what is left is made into a shorter
message in place: a new header is written over bytes that are done with, and the view of the message
is moved forward.  A view is modelled by the bytes that it owns.

How a Wayland message and a message to a descriptor are processed are parameters here.
-/

namespace Waypipe

open Wayland LeBytes

def WAYPIPE_PROTOCOL_VERSION : Nat := 17

/-- `ReadBufferView::advance` -/
def advance (data : List UInt8) (skip : Nat) : Res (List UInt8) := do
  assert (skip % 4 == 0) "skip % 4 == 0"
  let len := data.length
  assert (skip ≤ data.length) s!"{skip} <?= {len}"
  return data.drop skip

/-! ## The messages of one protocol message -/

/-- The first Wayland message of a region, and what follows it. -/
def splitMsg (region : List UInt8) : Res (WaylandMsg × List UInt8) :=
  if region.length < 8 then fail "Truncated Wayland message inside Protocol message"
  else
    let header2 := leNat ((region.drop 4).take 4)
    let length := header2 / 2 ^ 16
    if h : 8 ≤ length ∧ length % 4 = 0 ∧ length ≤ region.length then
      .ok ({
        bytes := region.take length
        aligned := by
          rw [List.length_take_of_le h.2.2]
          exact h.2.1
        hasHeader := by
          rw [List.length_take_of_le h.2.2]
          exact h.1
        framed := by
          rw [List.length_take_of_le h.2.2, List.drop_take, List.take_take,
            Nat.min_eq_left (by omega)] },
        region.drop length)
    else
      let regionLength := region.length
      fail (s!"invalid Wayland message: bad length field: {length} " ++
        s!"(compare region length {regionLength})")

/-- How far the loop over the messages of a region has got. -/
structure Region where
  rest : List UInt8
  /-- The descriptor that the next message has to wait for. -/
  waitingFor : Option Rid
  ctx : Ctx
  /-- The messages that are done; a record, which the program does not keep. -/
  done : List WaylandMsg

section

variable (proc : WaylandMsg → Handler)

/-- Process the messages of a region, of which there are at most `fuel`.  The output of a message
that is not done does not count. -/
def processRegion : Nat → List UInt8 → Ctx → Res Region
  | 0, rest, ctx => .ok { rest, waitingFor := none, ctx, done := [] }
  | fuel + 1, region, c =>
    if region.isEmpty then .ok { rest := [], waitingFor := none, ctx := c, done := [] }
    else do
      let (msg, tail) ← splitMsg region
      match ← proc msg c with
      | (.done, c) =>
        let r ← processRegion fuel tail c
        return { r with done := msg :: r.done }
      | (.waitFor rid, ctx) =>
        return {
          rest := region
          waitingFor := some rid
          ctx := { ctx with core := { ctx.core with out := c.core.out } }
          done := [] }
      | (.needsSpace nbytes nfds, ctx) =>
        let capacity := c.core.out.capacity
        if capacity < nbytes ∨ MAX_OUTGOING_FDS < nfds then
          fail (s!"Failed to send message(s): not enough space, ({nbytes}, {nfds}) vs " ++
            s!"({capacity}, {MAX_OUTGOING_FDS})")
        else return {
          rest := region
          waitingFor := none
          ctx := { ctx with core := { ctx.core with out := c.core.out } }
          done := [] }

end

/-! ## One message -/

/-- What `process_channel` works on. -/
structure Channel where
  /-- The tracked state, the output, and the queues of descriptors. -/
  ctx : Ctx
  /-- How much of the output has been written. -/
  outputStart : Nat
  nextMsg : Option (List UInt8)
  /-- The messages that the read buffer holds. -/
  input : List (List UInt8)
  messageCounter : Nat
  waitingFor : Option Rid
  wireVersion : Nat
  hasFirstMessage : Bool
  hasReceivedClose : Bool
  /-- Tasks for the worker threads. -/
  decompress : List ApplyTask
  /-- The Wayland messages that are done; a record, which the program does not keep. -/
  done : List WaylandMsg

namespace Channel

/-- Write the header of what is left over the end of what is done, and move the view there. -/
def shorten (data : List UInt8) (length unproc : Nat) : Res (List UInt8) := do
  let trailLength := unproc + 4
  let skip ← checkedSub length trailLength
  let header ← buildWmsgHeader .protocol trailLength
  let msg ← writeAt (data.take length) skip (u32le header)
  advance (msg ++ data.drop length) skip

/-- A message with Wayland messages; what is left of it is returned. -/
def processProtocol (proc : WaylandMsg → Handler) (data msg : List UInt8) (s : Channel) :
    Res (Option (List UInt8) × Channel) := do
  -- only append to output that has not started to be written
  assert (s.outputStart == 0) "chan_msg.output.start == 0"
  if msg.length < 4 then .error (.panic "range start index 4 out of range for slice")
  else do
    let r ← processRegion proc (msg.length - 4) (msg.drop 4) s.ctx
    let s := { s with
      ctx := r.ctx
      waitingFor := r.waitingFor.or s.waitingFor
      done := s.done ++ r.done }
    if 0 < r.rest.length then do
      let data ← shorten data msg.length r.rest.length
      let messageCounter ← checkedSub s.messageCounter 1
      return (some data, { s with messageCounter })
    else return (none, s)

def processVersion (isFirst : Bool) (data : List UInt8) (s : Channel) : Res Channel := do
  let version ← readU32 data 4
  if WAYPIPE_PROTOCOL_VERSION < version then
    fail (s!"waypipe client replied with larger protocol version ({version}) " ++
      s!"than requested ({WAYPIPE_PROTOCOL_VERSION})")
  else if version < MIN_PROTOCOL_VERSION then
    fail s!"waypipe client requested too small of a version: {version}"
  else if !isFirst then fail "Version message must be the first sent by waypipe-client"
  else if s.ctx.glob.onDisplaySide then fail "waypipe-server should not send Version message"
  else return { s with wireVersion := version }

def injectRid (s : Channel) (rid : Rid) : Res Channel :=
  match s.ctx.glob.fresh.lookup rid with
  | none => fail s!"Injecting RID {rid} which has no matching created ShadowFd"
  | some sfd => .ok { s with ctx := s.ctx.inject rid sfd }

def processInjectRids (msg : List UInt8) (s : Channel) : Res Channel :=
  let length := msg.length
  if length % 4 ≠ 0 then fail s!"InjectRIDs length {length} not divisible by four"
  else do
    let rids ← (List.range ((length - 4) / 4)).mapM fun i => readI32 msg (4 + 4 * i)
    rids.foldlM injectRid s

/-- Messages of all other types.  `msg` is the message without padding. -/
def processOther (sfdMsg : WmsgType → List UInt8 → GlobAct (Option ApplyTask)) (typ : WmsgType)
    (isFirst : Bool) (data msg : List UInt8) (s : Channel) : Res Channel :=
  match typ with
  | .version => processVersion isFirst data s
  | .injectRIDs => processInjectRids msg s
  | .ackNblocks =>
    let wireVersion := s.wireVersion
    if 16 < wireVersion then
      fail ("Received AckNBlocks message, but reconnection support is explicitly disabled " ++
        s!"at wire version {wireVersion}")
    else .ok s
  | .restart => fail "Unsupported Restart message"
  | .close => .ok { s with hasReceivedClose := true }
  | _ => do
    let (task, glob) ← (sfdMsg typ msg).run s.ctx.glob
    return { s with ctx := s.ctx.setGlob glob, decompress := s.decompress ++ task.toList }

/-- The messages that are acknowledged. -/
def counts (typ : WmsgType) : Bool := typ != .close && typ != .ackNblocks && typ != .restart

section

variable (proc : WaylandMsg → Handler)
  (sfdMsg : WmsgType → List UInt8 → GlobAct (Option ApplyTask))

/-- One message; what is left of it is returned. -/
def processView (data : List UInt8) (s : Channel) : Res (Option (List UInt8) × Channel) := do
  let header := leNat (← slice data 0 4)
  let text := hex header
  match parseWmsgHeader header with
  | none => fail s!"Failed to parse wmsg header: {text}"
  | some (length, typ) => do
    let msg ← slice data 0 length
    let isFirst := !s.hasFirstMessage
    let s := { s with
      messageCounter := s.messageCounter + if counts typ then 1 else 0
      hasFirstMessage := true }
    match typ with
    | .protocol => processProtocol proc data msg s
    | _ => return (none, ← processOther sfdMsg typ isFirst data msg s)

/-- The loop of `process_channel`. -/
def processFrom : List (List UInt8) → Channel → Res Channel
  | [], s => .ok { s with nextMsg := none, input := [] }
  | data :: rest, s => do
    match ← processView proc sfdMsg data s with
    | (none, s) => processFrom rest s
    | (some data, s) => return { s with nextMsg := some data, input := rest }

def processChannel (s : Channel) : Res Channel :=
  match s.nextMsg with
  | none => .ok s
  | some data => processFrom proc sfdMsg (data :: s.input) s

end

/-- The read buffer has another message; the first one is taken out at once. -/
def receive (s : Channel) (data : List UInt8) : Channel :=
  match s.nextMsg with
  | some _ => { s with input := s.input ++ [data] }
  | none =>
    match s.input ++ [data] with
    | [] => s
    | first :: rest => { s with nextMsg := some first, input := rest }

end Channel

end Waypipe
