import Waypipe.Lib.Effect
import Waypipe.ShadowFd

/-!
# Collecting updates

`collectUpdates` looks at one shadowed file descriptor and queues what the other instance needs to
follow it: messages that create or resize the copy, transfers of contents, and tasks for the
worker threads, whose results are queued later.

The main result is `collectUpdates_grows`: whatever the descriptor and however the function ends,
the queue only gains whole wire messages at its end, and the number of outstanding results goes up
by the number of new tasks.  Several of the messages are queued in more than one vector.
-/

namespace Waypipe

open List

variable {typ : WmsgType}

def DIFF_CHUNKSIZE : Nat := 262144

/-! ## Splitting damage into shards -/

/-- One step of the first loop of `split_damage`: damaged bytes below the trailing part, and
whether the trailing part is damaged. -/
def measureInterval (finalChunk bufSize : Nat) (acc : Nat × Bool) (r : Nat × Nat) :
    Res (Nat × Bool) := do
  assert (r.1 < r.2) "r.0 < r.1"
  assert (r.1 % 64 == 0 && r.2 % 64 == 0) "r.0 % 64 == 0 && r.1 % 64 == 0"
  if finalChunk < r.2 then
    -- the last interval ended near the trailing segment, and was rounded up
    if r.1 < bufSize then
      assert (r.1 ≤ finalChunk) "final_chunk >= r.0"
      return (acc.1 + (finalChunk - r.1), true)
    else return acc
  else return (acc.1 + (r.2 - r.1), acc.2)

/-- The inner loop of `split_damage`: take intervals until `remaining` bytes are covered.  The
part of an interval that is left over comes first in the rest. -/
def takeShard (finalChunk : Nat) : Nat → List (Nat × Nat) → List (Nat × Nat) × List (Nat × Nat)
  | _, [] => ([], [])
  | remaining, cur :: rest =>
    if remaining = 0 then ([], cur :: rest)
    else if finalChunk < cur.2 ∧ finalChunk ≤ cur.1 then ([], rest)
    else
      let cur := if finalChunk < cur.2 then (cur.1, finalChunk) else cur
      if cur.2 - cur.1 ≤ remaining then
        let (output, rest) := takeShard finalChunk (remaining - (cur.2 - cur.1)) rest
        (cur :: output, rest)
      else ([(cur.1, cur.1 + remaining)], (cur.1 + remaining, cur.2) :: rest)

/-- The outer loop of `split_damage`, over the remaining shard numbers. -/
def splitShards (finalChunk netLen nshards : Nat) :
    List Nat → List (Nat × Nat) → Res (List (List (Nat × Nat)))
  | [], _ => return []
  | i :: is, pending => do
    let start ← splitInterval 0 (netLen / 64) nshards i
    let stop ← splitInterval 0 (netLen / 64) nshards (i + 1)
    let (output, pending) := takeShard finalChunk (64 * stop - 64 * start) pending
    let parts ← splitShards finalChunk netLen nshards is pending
    return output :: parts

/-- Partition damaged intervals into shards; returns the number of trailing bytes to check and
the intervals of each shard. -/
def splitDamage (intervals : List (Nat × Nat)) (bufSize : Nat) :
    Res (Nat × List (List (Nat × Nat))) := do
  let finalChunk := 64 * (bufSize / 64)
  let (netLen, hasTrailing) ← intervals.foldlM (measureInterval finalChunk bufSize) (0, false)
  assert (netLen < 2 ^ 32) "called Result::unwrap() on an Err value"
  assert (netLen % 64 == 0) "net_len % 64 == 0"
  if netLen == 0 then
    if hasTrailing then return (bufSize % 64, [[]]) else return (0, [])
  else
    let nshards := ceildiv (netLen / 64) (DIFF_CHUNKSIZE / 64)
    let parts ← splitShards finalChunk netLen nshards (range nshards) intervals
    return (if hasTrailing then bufSize % 64 else 0, parts)

/-! ## State and environment of `collect_updates` -/

/-- What `collect_updates` changes: the descriptor, the queue, and the list of tasks. -/
structure Collecting where
  sfd : ShadowFd
  queue : TransferQueue
  tasks : List WorkTask

abbrev CollectM (α : Type) := Eff Fault Collecting α

/-- Answers of the device and of other descriptors that `collect_updates` reads. -/
structure CollectEnv where
  codec : Codec
  opts : Options
  supportsBinarySemaphoreImport : Bool
  /-- `export_sync_file`: whether the kernel gives a sync file. -/
  exportSyncFile : Except String Bool
  exportBinarySemaphore : Except String Unit
  /-- Contents that `copy_from_dmabuf` reads, of the requested length. -/
  copyFromDmabuf : Nat → Except String (List UInt8)
  isTimeline : SfdRef → Bool

/-- An environment without compression and without a DMABUF device. -/
def CollectEnv.plain : CollectEnv where
  codec := Codec.stored
  opts := .plain
  supportsBinarySemaphoreImport := false
  exportSyncFile := .ok false
  exportBinarySemaphore := .ok ()
  copyFromDmabuf n := .ok (replicate n 0)
  isTimeline _ := false

def liftRes {α : Type} (x : Res α) : CollectM α := Eff.ofExcept x

def liftErr {α : Type} (x : Except String α) : CollectM α :=
  Eff.ofExcept (match x with | .ok a => .ok a | .error e => .error (.err e))

/-- Append the vectors of one message to the queue. -/
def pushVectors (vs : List (List UInt8)) : CollectM Unit :=
  modify fun s => { s with
    queue := { s.queue with otherMessages := s.queue.otherMessages ++ vs } }

/-- Hand a task to the workers and expect one more result. -/
def queueTask (t : WorkTask) : CollectM Unit :=
  modify fun s => { s with
    queue := { s.queue with expectedRecvdMsgs := s.queue.expectedRecvdMsgs + 1 }
    tasks := s.tasks ++ [t] }

def setSfd (f : ShadowFd → ShadowFd) : CollectM Unit := modify fun s => { s with sfd := f s.sfd }

def setFile (data : ShadowFdFile) : CollectM Unit := setSfd fun sfd => { sfd with data := .file data }

def setDmabuf (data : ShadowFdDmabuf) : CollectM Unit :=
  setSfd fun sfd => { sfd with data := .dmabuf data }

/-- The padding vector, present only when there is something to pad. -/
def padVectors (len : Nat) : List (List UInt8) :=
  let pad := align4 len - len
  if 0 < pad then [replicate pad 0] else []

/-! ## Whole-file transfers -/

variable (env : CollectEnv) (rid : Rid) (onlyHere : Bool)

/-- One message of `construct_fill_transfers`. -/
def constructFillTransfer (bufsize nshards : Nat)
    (mapping : List UInt8) (i : Nat) : CollectM Unit := do
  let start ← liftRes (splitInterval 0 (bufsize / 64) nshards i)
  let stop ← liftRes (splitInterval 0 (bufsize / 64) nshards (i + 1))
  let start := 64 * start
  let stop := 64 * stop + if i = nshards - 1 then bufsize % 64 else 0
  let space := stop - start
  liftRes (assert (start + space ≤ mapping.length) "index out of bounds")
  let output := (mapping.drop start).take space
  let compressed := env.codec.compress env.opts.compression output
  let header ← liftRes (buildWmsgHeader .bufferFill (16 + compressed.length))
  pushVectors ([u32le header ++ i32le rid ++ u32le start ++ u32le stop, compressed]
    ++ padVectors compressed.length)

def constructFillTransfers (bufsize : Nat) (mapping : List UInt8) :
    CollectM Unit := do
  let trailSize := bufsize % 64
  let nshards := ceildiv (bufsize / 64) (DIFF_CHUNKSIZE / 64)
  let nshards := if nshards = 0 ∧ 0 < trailSize then 1 else nshards
  (range nshards).forM (constructFillTransfer env rid bufsize nshards mapping)

/-! ## Files -/

/-- The span of the intervals of a shard. -/
def shardRegion (output : List (Nat × Nat)) : Option (Nat × Nat) :=
  match output.head?, output.getLast? with
  | some a, some b => some (a.1, b.2)
  | _, _ => none

/-- The checks and the parameters that the diff tasks of files and DMABUFs share. -/
def checkShard (nparts trailLen i : Nat) (output : List (Nat × Nat)) : Res Nat := do
  if i = nparts - 1 then assert (0 < output.length + trailLen) "output.len() + trail_len > 0"
  else assert (!output.isEmpty) "!output.is_empty()"
  return if i = nparts - 1 ∧ 0 < trailLen then trailLen else 0

def diffTaskFor (nparts trailLen : Nat)
    (part : List (Nat × Nat) × Nat) : CollectM Unit := do
  let trailing ← liftRes (checkShard nparts trailLen part.2 part.1)
  queueTask (.diff
    { rid, compression := env.opts.compression, region := shardRegion part.1
      intervals := part.1, trailing })

/-- Damage as a list of intervals, for a buffer of `size` bytes. -/
def Damage.toIntervals (d : Damage) (size : Nat) : List (Nat × Nat) :=
  match d with
  | .everything => [(0, align size 64)]
  | .intervals x => x

/-- A message of a header and two words, as `OpenFile` and `ExtendFile` are. -/
def fileSizeMsg (typ : WmsgType) (rid : Rid) (size : Nat) : Res (List UInt8) := do
  let header ← buildWmsgHeader typ 12
  return u32le header ++ (i32le rid ++ u32le size)

/-- Send the creation message of a file that has not been announced. -/
def announceOpen (data : ShadowFdFile) : CollectM ShadowFdFile := do
  if onlyHere then
    let msg ← liftRes (fileSizeMsg .openFile rid data.bufferSize)
    pushVectors [msg]
    let data := { data with remoteBufsize := data.bufferSize }
    setSfd fun sfd => { sfd with onlyHere := false, data := .file data }
    pure data
  else pure data

/-- Send the new size of a file that has grown since it was announced. -/
def announceExtend (data : ShadowFdFile) : CollectM ShadowFdFile := do
  if data.remoteBufsize < data.bufferSize then do
    liftRes (assert (!data.readonly) "!data.readonly")
    let msg ← liftRes (fileSizeMsg .extendFile rid data.bufferSize)
    pushVectors [msg]
    let data := { data with remoteBufsize := data.bufferSize }
    setFile data
    pure data
  else pure data

/-- Contents of a read-only file are sent once, in full. -/
def collectReadonly (firstVisit : Bool) (data : ShadowFdFile) :
    CollectM Unit :=
  if firstVisit then
    match data.core with
    | none => throw (.panic "called Option::unwrap() on a None value")
    | some core => constructFillTransfers env rid data.bufferSize core.mapping
  else pure ()

/-- `unwrap`: panics when there is nothing where a value is needed. -/
def unwrapFor {α : Type} (x : Option α) (needed : Bool) : CollectM Unit :=
  if x.isNone && needed then throw (.panic "called Option::unwrap() on a None value") else pure ()

/-- Damaged parts of a writable file are compared with the mirror by diff tasks, each of which
holds a reference to the core of the file. -/
def collectDamage (data : ShadowFdFile) : CollectM Bool := do
  let damagedIntervals := data.damage.toIntervals data.bufferSize
  if damagedIntervals.isEmpty then return true
  else
    let (trailLen, parts) ← liftRes (splitDamage damagedIntervals data.bufferSize)
    unwrapFor data.core (!parts.isEmpty)
    parts.zipIdx.forM (diffTaskFor env rid parts.length trailLen)
    setFile { data with
      core := data.core.map fun core => { core with shared := core.shared + parts.length }
      damage := .intervals [] }
    return true

def collectFile (data : ShadowFdFile) :
    CollectM Bool := do
  let data ← announceOpen rid onlyHere data
  let data ← announceExtend rid data
  if data.readonly then
    collectReadonly env rid onlyHere data
    return true
  else collectDamage env rid data

/-! ## DMABUFs -/

/-- `dmabuf_slice_make_ideal`: parameters of a tightly packed linear image. -/
def dmabufSliceMakeIdeal (drmFormat width height bpp : Nat) : Res (List UInt8) := do
  assert (width * bpp < 2 ^ 32) "called Option::unwrap() on a None value"
  return u32le width ++ u32le height ++ u32le drmFormat ++ u32le 1 ++ u32le 0
    ++ replicate 12 0 ++ u32le (width * bpp) ++ replicate 12 0 ++ u64le 0 ++ [1]
    ++ replicate 7 0

theorem length_dmabufSliceMakeIdeal {drmFormat width height bpp : Nat} {v : List UInt8}
    (h : dmabufSliceMakeIdeal drmFormat width height bpp = .ok v) : v.length = 64 := by
  obtain ⟨-, -, h⟩ := Res.bind_eq_ok.mp h
  cases h
  simp

section Dmabufs

variable (data : ShadowFdDmabuf) (syncFile : Bool)

/-- Whether there is a sync file to wait for, and whether the buffer has to be polled. -/
def dmabufSetupImplicitSync :
    Except String (Bool × Bool) :=
  if data.usingImplicitSync then
    match data.buf with
    | .vulkan .. =>
      if !env.supportsBinarySemaphoreImport then .ok (false, true)
      else match env.exportSyncFile with
        | .error e => .error e
        | .ok true => .ok (true, false)
        | .ok false => .ok (false, true)
    | .gbm .. => .ok (false, false)
  else .ok (false, false)

/-- The message that creates a DMABUF: a header part and the image parameters. -/
def openDmabufMsg : CollectM Unit := do
  let slice ← liftRes (dmabufSliceMakeIdeal data.drmFormat data.buf.width data.buf.height data.buf.bpp)
  let nominalSize := data.buf.nominalSize data.viewRowStride
  if data.videoEncode then do
    match env.opts.videoFormat with
    | none => throw (.panic "called Option::unwrap() on a None value")
    | some f =>
      let header ← liftRes (buildWmsgHeader .openDMAVidDstV2 (16 + slice.length))
      pushVectors [u32le header ++ (i32le rid ++ u32le nominalSize ++ u32le f.code), slice]
  else do
    let header ← liftRes (buildWmsgHeader .openDMABUF (12 + slice.length))
    pushVectors [u32le header ++ (i32le rid ++ u32le nominalSize), slice]

def openDmabuf :
    CollectM Unit :=
  if onlyHere then do
    openDmabufMsg env rid data
    setSfd fun sfd => { sfd with onlyHere := false }
  else pure ()

/-- The acquire points of a buffer, which must all belong to timelines. -/
def drainAcquires : CollectM (List (Nat × SfdRef)) :=
  if data.acquires.all fun a => env.isTimeline a.2 then pure data.acquires
  else throw (.panic "Expected timeline sfd")

/-- Every task of a Vulkan buffer that waits for a sync file imports it anew. -/
def importSemaphore : CollectM Unit :=
  if syncFile then liftErr env.exportBinarySemaphore else pure ()

variable (acquires : List (Nat × SfdRef))

/-- One fill task for the part `i` of the buffer. -/
def fillTaskFor
    (copied : List UInt8) (nominalSize nshards i : Nat) :
    CollectM Unit := do
  let start ← liftRes (splitInterval 0 (nominalSize / 64) nshards i)
  let stop ← liftRes (splitInterval 0 (nominalSize / 64) nshards (i + 1))
  let start := 64 * start
  let stop := 64 * stop + if i = nshards - 1 then nominalSize % 64 else 0
  let t : FillDmabufTask :=
    { rid, compression := env.opts.compression, regionStart := start, regionEnd := stop, acquires }
  match data.buf with
  | .vulkan .. =>
    importSemaphore env syncFile
    queueTask (.fillDmabuf t)
  | .gbm .. => queueTask (.fillDmabuf2 t ((copied.drop start).take (stop - start)))

def diffDmabufTaskFor
    (nparts trailLen : Nat) (part : List (Nat × Nat) × Nat) :
    CollectM Unit := do
  let trailing ← liftRes (checkShard nparts trailLen part.2 part.1)
  match data.buf with
  | .vulkan .. =>
    importSemaphore env syncFile
    queueTask (.diffDmabuf
      { rid, compression := env.opts.compression, region := shardRegion part.1
        intervals := part.1, trailing, acquires })
  | .gbm .. => throw (.panic "not yet implemented")

/-- A buffer with a video encoder: one task encodes the next frame. -/
def collectVideo : CollectM Bool := do
  let damagedIntervals := data.damage.toIntervals (data.buf.nominalSize data.viewRowStride)
  if damagedIntervals.isEmpty then return true
  else
    let acquires ← drainAcquires env data
    setDmabuf { data with acquires := [] }
    let (syncFile, _) ← liftErr (dmabufSetupImplicitSync env data)
    let data := { data with acquires := [], usingImplicitSync := false }
    setDmabuf data
    importSemaphore env syncFile
    setDmabuf { data with damage := .intervals [] }
    queueTask (.videoEncode rid acquires)
    return true

/-- With libgbm, the contents are copied out at once. -/
def readPixels (nominalSize : Nat) :
    CollectM (List UInt8) :=
  match data.buf with
  | .gbm .. => liftErr (env.copyFromDmabuf nominalSize)
  | .vulkan .. => pure []

/-- The first time there is any damage, fill the whole buffer and set up the mirror. -/
def queueFill
    (copied : List UInt8) (nominalSize : Nat) : CollectM Unit := do
  let data := { data with firstDamage := false, mirror := some (data.mirror.getD nominalSize) }
  setDmabuf data
  let nshards := ceildiv (nominalSize / 64) (DIFF_CHUNKSIZE / 64)
  (range nshards).forM (fillTaskFor env rid data syncFile acquires copied nominalSize nshards)
  setDmabuf { data with damage := .intervals [] }

/-- Later on, diff the damaged parts against the mirror. -/
def queueDiff
    (damagedIntervals : List (Nat × Nat)) (nominalSize : Nat) :
    CollectM Unit := do
  let (trailLen, parts) ← liftRes (splitDamage damagedIntervals nominalSize)
  unwrapFor data.mirror (!parts.isEmpty)
  parts.zipIdx.forM (diffDmabufTaskFor env rid data syncFile acquires parts.length trailLen)
  setDmabuf { data with damage := .intervals [] }

/-- A buffer without video encoding. -/
def collectPixels : CollectM Bool := do
  let nominalSize := data.buf.nominalSize data.viewRowStride
  let damagedIntervals := data.damage.toIntervals nominalSize
  if damagedIntervals.isEmpty then return true
  else
    let acquires ← drainAcquires env data
    setDmabuf { data with acquires := [] }
    let (syncFile, _) ← liftErr (dmabufSetupImplicitSync env data)
    let data := { data with acquires := [], usingImplicitSync := false }
    setDmabuf data
    let copied ← readPixels env data nominalSize
    if data.firstDamage || !copied.isEmpty then
      queueFill env rid data syncFile acquires copied nominalSize
      return true
    else
      queueDiff env rid data syncFile acquires damagedIntervals nominalSize
      return true

def collectDmabuf :
    CollectM Bool := do
  match data.videoEncode, data.buf with
  | true, .gbm .. => throw (.panic "internal error: entered unreachable code")
  | _, _ =>
    openDmabuf env rid onlyHere data
    if data.videoEncode then collectVideo env rid data else collectPixels env rid data

end Dmabufs

/-! ## Timelines and pipes -/

def collectTimeline : CollectM Bool := do
  if onlyHere then
    let header ← liftRes (buildWmsgHeader .openTimeline 16)
    pushVectors [u32le header ++ (i32le rid ++ u64le 0)]
    setSfd fun sfd => { sfd with onlyHere := false }
    return true
  else return true

/-- A message of a header and a remote id. -/
def ridMsg (typ : WmsgType) (rid : Rid) : Res (List UInt8) := do
  let header ← buildWmsgHeader typ 8
  return u32le header ++ i32le rid

def ShadowFdPipeBuffer.readingFromChannel : ShadowFdPipeBuffer → Bool
  | readFromWayland _ => false
  | readFromChannel _ => true

/-- Announce a new pipe to the other instance. -/
def announcePipe (onlyHere readingFromChannel : Bool) : CollectM Unit := do
  if onlyHere then
    let msg ← liftRes (ridMsg (if readingFromChannel then .openIRPipe else .openIWPipe) rid)
    pushVectors [msg]
    setSfd fun sfd => { sfd with onlyHere := false }
  else pure ()

/-- Send what was read from the program. -/
def transferPipe (data : ShadowFdPipe) : CollectM Unit := do
  match data.buf with
  | .readFromWayland buf =>
    if 0 < buf.length then
      let header ← liftRes (buildWmsgHeader .pipeTransfer (8 + buf.length))
      pushVectors ([u32le header ++ i32le rid, buf] ++ padVectors buf.length)
      setSfd fun sfd => { sfd with data := .pipe { data with buf := .readFromWayland [] } }
    else pure ()
  | .readFromChannel _ => pure ()

def collectPipe (data : ShadowFdPipe) : CollectM Bool := do
  let readingFromChannel := data.buf.readingFromChannel
  announcePipe rid onlyHere readingFromChannel
  transferPipe rid data
  if data.programClosed then
    let msg ← liftRes (ridMsg (if readingFromChannel then .pipeShutdownR else .pipeShutdownW) rid)
    pushVectors [msg]
    return false
  else return true

/-- Queue the messages and tasks for one descriptor; `false` when it should be dropped. -/
def collectUpdates : CollectM Bool := do
  let sfd := (← get).sfd
  match sfd.data with
  | .file data => collectFile env sfd.remoteId sfd.onlyHere data
  | .dmabuf data => collectDmabuf env sfd.remoteId sfd.onlyHere data
  | .timeline _ => collectTimeline sfd.remoteId sfd.onlyHere
  | .pipe data => collectPipe sfd.remoteId sfd.onlyHere data

/-! ## What collecting does to the queue -/

/-- The queue has only gained the vectors of whole messages at its end and expected results, one for
each new task. -/
def Grows (s t : Collecting) : Prop :=
  ∃ vs ts, wmsgFraming.Parted vs ∧ t.tasks = s.tasks ++ ts ∧
    t.queue = { s.queue with
      otherMessages := s.queue.otherMessages ++ vs
      expectedRecvdMsgs := s.queue.expectedRecvdMsgs + ts.length }

theorem Grows.refl (s : Collecting) : Grows s s :=
  ⟨[], [], Framing.Parted.nil, by simp, by simp⟩

theorem Grows.trans {s t u : Collecting} (h₁ : Grows s t) (h₂ : Grows t u) : Grows s u := by
  obtain ⟨vs, ts, hvs, hts, hq⟩ := h₁
  obtain ⟨ws, us, hws, hus, hr⟩ := h₂
  refine ⟨vs ++ ws, ts ++ us, hvs.append hws, ?_, ?_⟩
  · rw [hus, hts, append_assoc]
  · rw [hr, hq]
    simp only [append_assoc, length_append, Nat.add_assoc]

/-- `m` lets the queue grow by whole messages only. -/
def Collects {α : Type} (m : CollectM α) : Prop := Eff.Always Grows m

namespace Collects

variable {α β : Type}

theorem pure (a : α) : Collects (Pure.pure a) := Eff.Always.pure Grows.refl a

theorem throw (e : Fault) : Collects (MonadExcept.throw e : CollectM α) :=
  Eff.Always.throw Grows.refl e

theorem bind {m : CollectM α} {f : α → CollectM β} (hm : Collects m) (hf : ∀ a, Collects (f a)) :
    Collects (m >>= f) := Eff.Always.bind (R := Grows) (fun _ _ _ => Grows.trans) hm hf

theorem liftRes_bind {x : Res α} {f : α → CollectM β} (hf : ∀ a, x = .ok a → Collects (f a)) :
    Collects (liftRes x >>= f) := Eff.Always.ofExcept_bind Grows.refl hf

theorem liftErr (x : Except String α) : Collects (Waypipe.liftErr x) := fun s => Grows.refl s

theorem forM {γ : Type} {f : γ → CollectM PUnit} (l : List γ) (hf : ∀ c, Collects (f c)) :
    Collects (l.forM f) := Eff.Always.forM (R := Grows) Grows.refl (fun _ _ _ => Grows.trans) l
      fun c _ => hf c

theorem setSfd (f : ShadowFd → ShadowFd) : Collects (Waypipe.setSfd f) := fun s =>
  ⟨[], [], Framing.Parted.nil, by simp [Waypipe.setSfd], by simp [Waypipe.setSfd]⟩

theorem queueTask (t : WorkTask) : Collects (Waypipe.queueTask t) := fun s =>
  ⟨[], [t], Framing.Parted.nil, by simp [Waypipe.queueTask], by simp [Waypipe.queueTask]⟩

/-- The vectors of one whole message may be appended. -/
theorem pushVectors {vs : List (List UInt8)} (h : IsWmsg vs.flatten) :
    Collects (Waypipe.pushVectors vs) := fun s =>
  ⟨vs, [], h.parted, by simp [Waypipe.pushVectors], by simp [Waypipe.pushVectors]⟩

theorem ite {c : Prop} {_ : Decidable c} {m n : CollectM α} (hm : Collects m) (hn : Collects n) :
    Collects (if c then m else n) := by
  split
  · exact hm
  · exact hn

end Collects

theorem length_padVectors (len : Nat) : (padVectors len).flatten.length = align4 len - len := by
  simp only [padVectors]
  split
  · simp
  · next h =>
    simp only [Nat.not_lt, Nat.le_zero] at h
    simp [h]

/-- A header part, a body and its padding are together one message. -/
theorem isWmsg_padded {header k : Nat} (fields : List UInt8) {body : List UInt8}
    (h : buildWmsgHeader typ (k + body.length) = .ok header) (hk : k = 4 + fields.length)
    (h4 : k % 4 = 0) :
    IsWmsg (([u32le header ++ fields, body] ++ padVectors body.length).flatten) := by
  have hpad := length_padVectors body.length
  have hle := le_align4 body.length
  have hsplit : ([u32le header ++ fields, body] ++ padVectors body.length).flatten =
      u32le header ++ (fields ++ (body ++ (padVectors body.length).flatten)) := by simp
  rw [hsplit]
  refine buildWmsgHeader_isFrame h (by omega) ?_
  rw [align4_add_left k h4]
  simp only [length_append, hpad]
  omega

/-- A message in one vector, of a header and fields that fill it. -/
theorem isWmsg_words {header len : Nat} {fields : List UInt8}
    (h : buildWmsgHeader typ len = .ok header) (hlen : len = 4 + fields.length)
    (h4 : len % 4 = 0) : IsWmsg (u32le header ++ fields) := by
  refine buildWmsgHeader_isFrame h (by omega) ?_
  rw [align4_of_mod h4]
  omega

theorem fileSizeMsg_isWmsg {rid : Rid} {size : Nat} {msg : List UInt8}
    (h : fileSizeMsg typ rid size = .ok msg) : IsWmsg msg := by
  obtain ⟨header, hh, hmsg⟩ := Res.bind_eq_ok.mp h
  cases hmsg
  exact isWmsg_words hh (by simp) (by decide)

theorem ridMsg_isWmsg {rid : Rid} {msg : List UInt8}
    (h : ridMsg typ rid = .ok msg) : IsWmsg msg := by
  obtain ⟨header, hh, hmsg⟩ := Res.bind_eq_ok.mp h
  cases hmsg
  exact isWmsg_words hh (by simp) (by decide)

theorem pushVectors_singleton {msg : List UInt8} (h : IsWmsg msg) :
    Collects (pushVectors [msg]) := .pushVectors (by simpa using h)

section Files

variable (data : ShadowFdFile)

theorem constructFillTransfers_collects (bufsize : Nat) (mapping : List UInt8) :
    Collects (constructFillTransfers env rid bufsize mapping) := by
  refine .forM _ fun i => ?_
  refine .liftRes_bind fun start _ => .liftRes_bind fun stop _ =>
    .liftRes_bind fun _ _ => .liftRes_bind fun header hh => ?_
  refine .pushVectors ?_
  rw [append_assoc, append_assoc]
  exact isWmsg_padded _ hh (by simp) (by decide)

theorem announceOpen_collects : Collects (announceOpen rid onlyHere data) := by
  refine .ite ?_ (.pure _)
  refine .liftRes_bind fun msg hmsg => ?_
  exact .bind (pushVectors_singleton (fileSizeMsg_isWmsg hmsg)) fun _ =>
    .bind (.setSfd _) fun _ => .pure _

theorem announceExtend_collects : Collects (announceExtend rid data) := by
  refine .ite ?_ (.pure _)
  refine .liftRes_bind fun _ _ => .liftRes_bind fun msg hmsg => ?_
  exact .bind (pushVectors_singleton (fileSizeMsg_isWmsg hmsg)) fun _ =>
    .bind (.setSfd _) fun _ => .pure _

theorem collectReadonly_collects : Collects (collectReadonly env rid onlyHere data) := by
  refine .ite ?_ (.pure _)
  cases data.core with
  | none => exact .throw _
  | some core => exact constructFillTransfers_collects env rid _ _

theorem unwrapFor_collects {α : Type} (x : Option α) (needed : Bool) :
    Collects (unwrapFor x needed) := .ite (.throw _) (.pure _)

theorem diffTaskFor_collects (nparts trailLen : Nat) (part : List (Nat × Nat) × Nat) :
    Collects (diffTaskFor env rid nparts trailLen part) :=
  .liftRes_bind fun _ _ => .queueTask _

theorem collectDamage_collects : Collects (collectDamage env rid data) := by
  refine .ite (.pure _) (.liftRes_bind fun p _ => ?_)
  refine .bind (unwrapFor_collects _ _) fun _ => ?_
  refine .bind (.forM _ (diffTaskFor_collects env rid p.2.length p.1)) fun _ => ?_
  exact .bind (.setSfd _) fun _ => .pure _

theorem collectFile_collects : Collects (collectFile env rid onlyHere data) := by
  refine .bind (announceOpen_collects rid onlyHere data) fun data₁ => ?_
  refine .bind (announceExtend_collects rid data₁) fun data₂ => .ite ?_ ?_
  · exact .bind (collectReadonly_collects env rid onlyHere data₂) fun _ => .pure _
  · exact collectDamage_collects env rid data₂

end Files

section Dmabufs

variable (data : ShadowFdDmabuf) (syncFile : Bool)
  (acquires : List (Nat × SfdRef))

theorem openDmabufMsg_collects : Collects (openDmabufMsg env rid data) := by
  refine .liftRes_bind fun slice hslice => ?_
  have hlen := length_dmabufSliceMakeIdeal hslice
  have hpad : padVectors slice.length = [] := by
    rw [hlen]
    rfl
  refine .ite ?_ ?_
  · cases env.opts.videoFormat with
    | none => exact .throw _
    | some f =>
      refine .liftRes_bind fun header hh => .pushVectors ?_
      have := isWmsg_padded (i32le rid ++ u32le (data.buf.nominalSize data.viewRowStride)
        ++ u32le f.code) hh (by simp) (by decide)
      rwa [hpad, append_nil] at this
  · refine .liftRes_bind fun header hh => .pushVectors ?_
    have := isWmsg_padded (i32le rid ++ u32le (data.buf.nominalSize data.viewRowStride)) hh
      (by simp) (by decide)
    rwa [hpad, append_nil] at this

theorem openDmabuf_collects : Collects (openDmabuf env rid onlyHere data) :=
  .ite (.bind (openDmabufMsg_collects env rid data) fun _ => .setSfd _)
    (.pure _)

theorem drainAcquires_collects : Collects (drainAcquires env data) := .ite (.pure _) (.throw _)

theorem importSemaphore_collects : Collects (importSemaphore env syncFile) := .ite (.liftErr _) (.pure _)

theorem collectVideo_collects : Collects (collectVideo env rid data) := by
  refine .ite (.pure _) ?_
  refine .bind (drainAcquires_collects env data) fun acquires => ?_
  refine .bind (.setSfd _) fun _ => .bind (.liftErr _) fun sync => ?_
  refine .bind (.setSfd _) fun _ => ?_
  refine .bind (importSemaphore_collects env sync.1) fun _ => ?_
  refine .bind (.setSfd _) fun _ => ?_
  exact .bind (.queueTask _) fun _ => .pure _

theorem fillTaskFor_collects (copied : List UInt8) (nominalSize nshards i : Nat) :
    Collects (fillTaskFor env rid data syncFile acquires copied nominalSize nshards i) := by
  refine .liftRes_bind fun start _ => .liftRes_bind fun stop _ => ?_
  cases data.buf with
  | vulkan w h b =>
    exact .bind (importSemaphore_collects env syncFile) fun _ => .queueTask _
  | gbm w h b => exact .queueTask _

theorem diffDmabufTaskFor_collects (nparts trailLen : Nat) (part : List (Nat × Nat) × Nat) :
    Collects (diffDmabufTaskFor env rid data syncFile acquires nparts trailLen part) := by
  refine .liftRes_bind fun trailing _ => ?_
  cases data.buf with
  | vulkan w h b =>
    exact .bind (importSemaphore_collects env syncFile) fun _ => .queueTask _
  | gbm w h b => exact .throw _

theorem queueFill_collects (copied : List UInt8) (nominalSize : Nat) :
    Collects (queueFill env rid data syncFile acquires copied nominalSize) :=
  .bind (.setSfd _) fun _ =>
    .bind (.forM _ (fillTaskFor_collects env rid _ syncFile acquires copied _ _))
      fun _ => .setSfd _

theorem queueDiff_collects (damaged : List (Nat × Nat)) (nominalSize : Nat) :
    Collects (queueDiff env rid data syncFile acquires damaged nominalSize) := by
  refine .liftRes_bind fun p _ => .bind (unwrapFor_collects _ _) fun _ => ?_
  exact .bind (.forM _ (diffDmabufTaskFor_collects env rid data syncFile acquires _ _))
    fun _ => .setSfd _

theorem readPixels_collects (nominalSize : Nat) : Collects (readPixels env data nominalSize) := by
  unfold readPixels
  cases data.buf with
  | vulkan w h b => exact .pure _
  | gbm w h b => exact .liftErr _

theorem collectPixels_collects : Collects (collectPixels env rid data) := by
  refine .ite (.pure _) ?_
  refine .bind (drainAcquires_collects env data) fun acquires => ?_
  refine .bind (.setSfd _) fun _ => .bind (.liftErr _) fun sync => ?_
  refine .bind (.setSfd _) fun _ => ?_
  refine .bind (readPixels_collects env _ _) fun copied => .ite ?_ ?_
  · exact .bind (queueFill_collects env rid _ sync.1 acquires copied _) fun _ => .pure _
  · exact .bind (queueDiff_collects env rid _ sync.1 acquires _ _) fun _ => .pure _

theorem collectDmabuf_collects : Collects (collectDmabuf env rid onlyHere data) := by
  unfold collectDmabuf
  split
  · exact .throw _
  · exact .bind (openDmabuf_collects env rid onlyHere data) fun _ =>
      .ite (collectVideo_collects env rid data) (collectPixels_collects env rid data)

end Dmabufs

section Pipes

variable (data : ShadowFdPipe)

theorem collectTimeline_collects : Collects (collectTimeline rid onlyHere) := by
  refine .ite (.liftRes_bind fun header hh => ?_) (.pure _)
  have hmsg : IsWmsg (u32le header ++ (i32le rid ++ u64le 0)) :=
    isWmsg_words hh (by simp) (by decide)
  exact .bind (pushVectors_singleton hmsg) fun _ =>
    .bind (.setSfd _) fun _ => .pure _

theorem announcePipe_collects (readingFromChannel : Bool) :
    Collects (announcePipe rid onlyHere readingFromChannel) := by
  refine .ite (.liftRes_bind fun msg hmsg => ?_) (.pure _)
  exact .bind (pushVectors_singleton (ridMsg_isWmsg hmsg)) fun _ => .setSfd _

theorem transferPipe_collects : Collects (transferPipe rid data) := by
  unfold transferPipe
  cases data.buf with
  | readFromWayland buf =>
    refine .ite (.liftRes_bind fun header hh => ?_) (.pure _)
    exact .bind (.pushVectors (isWmsg_padded _ hh (by simp) (by decide))) fun _ =>
      .setSfd _
  | readFromChannel buf => exact .pure _

theorem collectPipe_collects : Collects (collectPipe rid onlyHere data) := by
  refine .bind (announcePipe_collects rid onlyHere _) fun _ => ?_
  refine .bind (transferPipe_collects rid data) fun _ => ?_
  refine .ite (.liftRes_bind fun msg hmsg => ?_) (.pure _)
  exact .bind (pushVectors_singleton (ridMsg_isWmsg hmsg)) fun _ => .pure _

end Pipes

/-- **Collecting queues whole messages.** However `collectUpdates` ends, the queue has gained only
the vectors of whole wire messages at its end, and one expected result for each new task. -/
theorem collectUpdates_grows (s : Collecting) :
    Grows s (Eff.exec (collectUpdates env) s).2 := by
  suffices h : Collects (collectUpdates env) from h s
  refine .bind (Eff.Always.get Grows.refl) fun st => ?_
  dsimp only
  split
  · exact collectFile_collects env _ _ _
  · exact collectDmabuf_collects env _ _ _
  · exact collectTimeline_collects _ _
  · exact collectPipe_collects _ _ _

end Waypipe
