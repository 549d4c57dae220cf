import Waypipe.Util

/-!
# Reading messages from the channel

`ReadBuffer` reads into large chunks of memory and hands out views of the messages in them.  A
chunk may be full before a message is: then the rest of the message and the following ones are read
at once, into two chunks (`read_with_old`), or what is there of the message is copied into a larger
chunk (`move_tail_to_new`).  Chunks are modelled by their size and their initialised bytes; views
refer to them, so that a view sees what is written to its chunk later.
-/

namespace Waypipe

open LeBytes

/-- Memory of a fixed size, of which the first bytes are initialised. -/
structure ReadBufferChunk where
  size : Nat
  data : List UInt8
  deriving DecidableEq, Repr

/-- A message in a chunk. -/
structure ReadBufferView where
  base : Nat
  start : Nat
  dataLen : Nat
  deriving DecidableEq, Repr

/-- `chunks` are all chunks ever allocated; the others refer to them by index. -/
structure ReadBuffer where
  chunks : List ReadBufferChunk
  /-- A chunk with one last message in it to complete. -/
  old : Option Nat
  current : Nat
  lastMsgStart : Nat
  stop : Nat
  msgQueue : List ReadBufferView
  deriving DecidableEq, Repr

def MAX_NORMAL_MSG_SIZE : Nat := 2 ^ 18

namespace ReadBufferChunk

def new (len : Nat) : Res ReadBufferChunk := do
  assert (0 < len) "len > 0"
  return { size := len, data := [] }

/-- Read initialised memory. -/
def read (c : ReadBufferChunk) (start len : Nat) : Res (List UInt8) := do
  assert (start + len ≤ c.data.length) "read of uninitialised memory"
  return (c.data.drop start).take len

/-- Write to memory directly behind, or inside, the initialised part. -/
def write (c : ReadBufferChunk) (start : Nat) (bytes : List UInt8) : Res ReadBufferChunk := do
  assert (start ≤ c.data.length && start + bytes.length ≤ c.size) "write out of bounds"
  return { c with data := c.data.take start ++ bytes ++ c.data.drop (start + bytes.length) }

end ReadBufferChunk

/-- What `readv` can return; of the bytes that are there it takes as many as fit. -/
inductive ReadvResult where
  | bytes (available : List UInt8)
  | reset
  /-- `EINTR` or `EAGAIN` -/
  | retry
  | failed (errno : String)
  deriving DecidableEq, Repr

namespace ReadBuffer

variable (b : ReadBuffer)

def new : Res ReadBuffer := do
  let chunk ← ReadBufferChunk.new (4 * MAX_NORMAL_MSG_SIZE)
  return { chunks := [chunk], old := none, current := 0, lastMsgStart := 0, stop := 0, msgQueue := [] }

def getChunk (i : Nat) : Res ReadBufferChunk :=
  match b.chunks[i]? with
  | some c => .ok c
  | none => .error (.panic "dangling chunk")

def getMessagePaddedLen (base : ReadBufferChunk) (start : Nat) : Res Nat := do
  let headerSlice ← base.read start 4
  let header := leNat headerSlice
  match parseWmsgHeader header with
  | none => throw (.err s!"Failed to parse wmsg header: {header}")
  | some (msgLen, _) =>
    if msgLen < 4 then throw (.err s!"Message lengths must be at least 4, not {msgLen}")
    else return align4 msgLen

/-- Whether the input has ended, and the bytes read; `space` is the total length of the vectors. -/
def readInner (space : Nat) (src : ReadvResult) : Res (Bool × List UInt8) := do
  assert (0 < space) "iovs.iter().map(|x| x.iov_len).sum::<usize>() > 0"
  match src with
  | .bytes available => return ((available.take space).isEmpty, available.take space)
  | .reset => return (true, [])
  | .retry => return (false, [])
  | .failed errno => throw (.err s!"Error reading from channel socket: {errno}")

/-- Copy the last incomplete message into a new chunk. -/
def moveTailToNew (newSize : Nat) : Res ReadBuffer := do
  let base ← b.getChunk b.current
  let nxt ← ReadBufferChunk.new newSize
  let len ← checkedSub b.stop b.lastMsgStart
  assert (len ≤ newSize) "new_size >= self.end - self.last_msg_start"
  let tail ← base.read b.lastMsgStart len
  let nxt ← nxt.write 0 tail
  return { b with
    chunks := b.chunks ++ [nxt]
    current := b.chunks.length
    stop := len
    lastMsgStart := 0 }

/-- The loop of `extract_messages`; `fuel` bounds the number of messages. -/
def extractLoop (chunk : ReadBufferChunk) (current stop : Nat) :
    Nat → Nat → List ReadBufferView → Res (Nat × List ReadBufferView)
  | 0, lastMsgStart, msgQueue => return (lastMsgStart, msgQueue)
  | fuel + 1, lastMsgStart, msgQueue => do
    let len ← checkedSub stop lastMsgStart
    if len < 4 then return (lastMsgStart, msgQueue)
    else
      let msgLen ← getMessagePaddedLen chunk lastMsgStart
      if msgLen ≤ len then
        extractLoop chunk current stop fuel (lastMsgStart + msgLen)
          (msgQueue ++ [{ base := current, start := lastMsgStart, dataLen := msgLen }])
      else return (lastMsgStart, msgQueue)

def extractMessages : Res ReadBuffer := do
  let chunk ← b.getChunk b.current
  let (lastMsgStart, msgQueue) ← extractLoop chunk b.current b.stop (b.stop + 1) b.lastMsgStart
    b.msgQueue
  return { b with lastMsgStart, msgQueue }

/-- Write to the chunk `i`. -/
def fill (i start : Nat) (bytes : List UInt8) : Res ReadBuffer := do
  let chunk ← b.getChunk i
  let chunk ← chunk.write start bytes
  return { b with chunks := b.chunks.set i chunk }

/-- Read the rest of the message in the chunk `old`, and more into the current chunk.  Like the
functions below, this returns whether the input has ended, the bytes taken from it, and the buffer. -/
def readWithOld (old : Nat) (src : ReadvResult) :
    Res (Bool × List UInt8 × ReadBuffer) := do
  let oldChunk ← b.getChunk old
  let current ← b.getChunk b.current
  let len ← checkedSub b.stop b.lastMsgStart
  assert (4 ≤ len) "self.end - self.last_msg_start >= 4"
  let msgLen ← getMessagePaddedLen oldChunk b.lastMsgStart
  let msgEnd := b.lastMsgStart + msgLen
  let rest ← checkedSub msgEnd b.stop
  let space ← checkedSub current.size MAX_NORMAL_MSG_SIZE
  let (eof, bytes) ← readInner (rest + space) src
  let b ← b.fill old b.stop (bytes.take rest)
  let b ← b.fill b.current 0 (bytes.drop rest)
  if bytes.length < rest then return (eof, bytes, { b with stop := b.stop + bytes.length })
  else
    let b ← extractMessages { b with
      old := none
      msgQueue := b.msgQueue ++ [{ base := old, start := b.lastMsgStart, dataLen := msgLen }]
      lastMsgStart := 0
      stop := bytes.length - rest }
    return (eof, bytes, b)

/-- The last part of `read_more`: read into the current chunk. -/
def readCurrent (src : ReadvResult) : Res (Bool × List UInt8 × ReadBuffer) := do
  let chunk ← b.getChunk b.current
  let left ← checkedSub chunk.size b.stop
  assert (MAX_NORMAL_MSG_SIZE ≤ left) "chunk.size - self.end >= MAX_NORMAL_MSG_SIZE"
  let room ← checkedSub chunk.size MAX_NORMAL_MSG_SIZE
  let space ← checkedSub room b.stop
  let (eof, bytes) ← readInner space src
  let b ← b.fill b.current b.stop bytes
  let b ← extractMessages { b with stop := b.stop + bytes.length }
  return (eof, bytes, b)

/-- Read when the length of the message in progress is known. -/
def readKnown (cap msgLen : Nat) (src : ReadvResult) :
    Res (Bool × List UInt8 × ReadBuffer) :=
  let msgEnd := b.lastMsgStart + msgLen
  if cap < msgEnd then do
    let newSize := max (2 * msgLen) (4 * MAX_NORMAL_MSG_SIZE)
    assert (msgLen + MAX_NORMAL_MSG_SIZE < newSize) "new_size > msg_len + MAX_NORMAL_MSG_SIZE"
    let b ← b.moveTailToNew newSize
    b.readCurrent src
  else if cap - msgEnd ≤ MAX_NORMAL_MSG_SIZE then do
    -- complete this message, and start a new chunk
    let nxt ← ReadBufferChunk.new (4 * MAX_NORMAL_MSG_SIZE)
    let old := b.current
    readWithOld { b with
      chunks := b.chunks ++ [nxt], current := b.chunks.length, old := some old } old src
  else b.readCurrent src

/-- Read when there is no message in progress, or only part of its header. -/
def readUnknown (cap : Nat) (src : ReadvResult) :
    Res (Bool × List UInt8 × ReadBuffer) := do
  let msgEnd := b.lastMsgStart
  assert (msgEnd ≤ cap) "msg_end <= cap"
  if cap - msgEnd ≤ MAX_NORMAL_MSG_SIZE then do
    let b ← b.moveTailToNew (4 * MAX_NORMAL_MSG_SIZE)
    b.readCurrent src
  else b.readCurrent src

/-- Read more input. -/
def readMore (src : ReadvResult) : Res (Bool × List UInt8 × ReadBuffer) :=
  match b.old with
  | some old => b.readWithOld old src
  | none => do
    let chunk ← b.getChunk b.current
    let len ← checkedSub b.stop b.lastMsgStart
    if 4 ≤ len then do
      let msgLen ← getMessagePaddedLen chunk b.lastMsgStart
      b.readKnown chunk.size msgLen src
    else b.readUnknown chunk.size src

def popNextMsg : Option ReadBufferView × ReadBuffer :=
  (b.msgQueue.head?, { b with msgQueue := b.msgQueue.tail })

end ReadBuffer

/-! ## A connection -/

/-- A buffer and its input.  `taken` are the bytes read so far, `pending` the ones that follow, and
`popped` the views handed out. -/
structure Reader where
  buf : ReadBuffer
  pending : List UInt8
  taken : List UInt8
  popped : List ReadBufferView
  deriving DecidableEq, Repr

inductive ReadEvent where
  /-- `readMore` is called when the kernel has `n` more bytes. -/
  | read (n : Nat)
  | reset
  | retry
  | pop
  deriving DecidableEq, Repr

namespace Reader

def start (stream : List UInt8) : Res Reader := do
  let buf ← ReadBuffer.new
  return { buf, pending := stream, taken := [], popped := [] }

def receive (s : Reader) (src : ReadvResult) : Res Reader := do
  let (_, bytes, buf) ← s.buf.readMore src
  return { s with buf, pending := s.pending.drop bytes.length, taken := s.taken ++ bytes }

def step (s : Reader) : ReadEvent → Res Reader
  | .read n => s.receive (.bytes (s.pending.take n))
  | .reset => s.receive .reset
  | .retry => s.receive .retry
  | .pop =>
    let (v, buf) := s.buf.popNextMsg
    .ok { s with buf, popped := s.popped ++ v.toList }

def run (s : Reader) : List ReadEvent → Res Reader
  | [] => .ok s
  | e :: es => do
    let t ← s.step e
    t.run es

end Reader

end Waypipe
