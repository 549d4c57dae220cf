import Waypipe.TransferQueue

/-!
# Shadowed file descriptors

The data that an instance keeps for every file descriptor it replicates: shared memory files,
DMABUFs, pipes and timelines (`ShadowFd`), and the tasks that worker threads run on them
(`WorkTask`).  References between them are indices into a heap, in place of the program's shared
pointers.
-/

namespace Waypipe

/-- A file descriptor number. -/
abbrev Fd := Nat

/-- Wayland object id. -/
abbrev ObjId := Nat

/-- Reference to a `ShadowFd` in the heap. -/
abbrev SfdRef := Nat

inductive Compression where
  | none
  | lz4 (level : Int)
  | zstd (level : Int)
  deriving DecidableEq, Repr

/-- The values are used in the wire protocol. -/
inductive VideoFormat where
  | h264
  | vp9
  | av1
  deriving DecidableEq, Repr

def VideoFormat.code : VideoFormat → Nat
  | h264 => 0
  | vp9 => 1
  | av1 => 2

/-- The compression libraries: what they compress, they decompress to the same bytes. -/
structure Codec where
  lz4Compress : Int → List UInt8 → List UInt8
  lz4Decompress : List UInt8 → Nat → Option (List UInt8)
  zstdCompress : Int → List UInt8 → List UInt8
  zstdDecompress : List UInt8 → Nat → Option (List UInt8)
  lz4_roundtrip : ∀ level src, lz4Decompress (lz4Compress level src) src.length = some src
  zstd_roundtrip : ∀ level src, zstdDecompress (zstdCompress level src) src.length = some src

/-- The codec that stores its input. -/
def Codec.stored : Codec where
  lz4Compress _ src := src
  lz4Decompress src _ := some src
  zstdCompress _ src := src
  zstdDecompress src _ := some src
  lz4_roundtrip _ _ := rfl
  zstd_roundtrip _ _ := rfl

def Codec.compress (c : Codec) : Compression → List UInt8 → List UInt8
  | .none, src => src
  | .lz4 lvl, src => c.lz4Compress lvl src
  | .zstd lvl, src => c.zstdCompress lvl src

/-- `decomp_into_vec`; without compression the length has to be right already. -/
def Codec.decompIntoVec (c : Codec) (comp : Compression) (src : List UInt8) (uncompLen : Nat) :
    Res (List UInt8) :=
  match comp with
  | .none => do
    assert (src.length == uncompLen) "src.len() == uncomp_len"
    return src
  | .lz4 _ => match c.lz4Decompress src uncompLen with
    | some v => .ok v
    | none => .error (.err "Failed to decompress")
  | .zstd _ => match c.zstdDecompress src uncompLen with
    | some v => .ok v
    | none => .error (.err "Failed to decompress")

theorem Codec.decompIntoVec_compress (c : Codec) (comp : Compression) (src : List UInt8) :
    c.decompIntoVec comp (c.compress comp src) src.length = .ok src := by
  cases comp with
  | none => simp [decompIntoVec, compress, assert]
  | lz4 lvl => simp [decompIntoVec, compress, c.lz4_roundtrip]
  | zstd lvl => simp [decompIntoVec, compress, c.zstd_roundtrip]

/-- The options that the modelled functions read. -/
structure Options where
  compression : Compression
  /-- `video.format` -/
  videoFormat : Option VideoFormat
  titlePrefix : List UInt8
  noGpu : Bool
  drmNode : Option (List UInt8)
  testSkipVulkan : Bool
  debug : Bool
  deriving DecidableEq, Repr

/-- No compression, and no DMABUFs. -/
def Options.plain : Options where
  compression := .none
  videoFormat := none
  titlePrefix := []
  noGpu := true
  drmNode := none
  testSkipVulkan := false
  debug := false

inductive Damage where
  | everything
  | intervals (l : List (Nat × Nat))
  deriving DecidableEq, Repr

/-- Data of a file that worker threads share with the main thread. -/
structure ShadowFdFileCore where
  memMirror : List UInt8
  /-- Contents of the mapped file, as the instance reads them. -/
  mapping : List UInt8
  /-- Number of tasks that hold a reference to the core. -/
  shared : Nat
  deriving DecidableEq, Repr

structure ShadowFdFile where
  bufferSize : Nat
  remoteBufsize : Nat
  readonly : Bool
  damage : Damage
  core : Option ShadowFdFileCore
  fd : Fd
  pendingApplyTasks : Nat
  deriving DecidableEq, Repr

/-- The device interface that holds a DMABUF, with the parameters of the image. -/
inductive DmabufImpl where
  | vulkan (width height bpp : Nat)
  | gbm (width height bpp : Nat)
  deriving DecidableEq, Repr

namespace DmabufImpl

def width : DmabufImpl → Nat
  | vulkan w _ _ | gbm w _ _ => w

def height : DmabufImpl → Nat
  | vulkan _ h _ | gbm _ h _ => h

def bpp : DmabufImpl → Nat
  | vulkan _ _ b | gbm _ _ b => b

def nominalSize (b : DmabufImpl) (viewRowStride : Option Nat) : Nat :=
  match viewRowStride with
  | some r => b.height * r
  | none => b.width * b.height * b.bpp

end DmabufImpl

structure AddDmabufPlane where
  fd : Fd
  planeIdx : Nat
  offset : Nat
  stride : Nat
  modifier : Nat
  deriving DecidableEq, Repr

structure ShadowFdDmabuf where
  buf : DmabufImpl
  /-- Size of the mirror, once there is one. -/
  mirror : Option Nat
  drmFormat : Nat
  drmModifier : Nat
  damage : Damage
  viewRowStride : Option Nat
  firstDamage : Bool
  exportPlanes : List AddDmabufPlane
  /-- Whether a video decoder is set up for the buffer. -/
  videoDecode : Bool
  /-- Whether a video encoder is set up for the buffer. -/
  videoEncode : Bool
  usingImplicitSync : Bool
  acquires : List (Nat × SfdRef)
  releases : List ((Rid × Nat) × SfdRef)
  pendingApplyTasks : Nat
  debugWaylandId : ObjId
  deriving DecidableEq, Repr

inductive ShadowFdPipeBuffer where
  /-- Bytes read from the program, at most 4096. -/
  | readFromWayland (data : List UInt8)
  | readFromChannel (data : List UInt8)
  deriving DecidableEq, Repr

structure ShadowFdPipe where
  buf : ShadowFdPipeBuffer
  programClosed : Bool
  channelClosed : Bool
  fd : Fd
  exportFd : Option Fd
  deriving DecidableEq, Repr

structure ShadowFdTimeline where
  /-- The semaphore, by the file descriptor that it was imported from or created with. -/
  timeline : Fd
  exportFd : Option Fd
  debugWaylandId : ObjId
  releases : List (Nat × SfdRef)
  deriving DecidableEq, Repr

inductive ShadowFdVariant where
  | file (data : ShadowFdFile)
  | pipe (data : ShadowFdPipe)
  | dmabuf (data : ShadowFdDmabuf)
  | timeline (data : ShadowFdTimeline)
  deriving DecidableEq, Repr

structure ShadowFd where
  remoteId : Rid
  /-- True until the descriptor has been announced to the other instance. -/
  onlyHere : Bool
  data : ShadowFdVariant
  deriving DecidableEq, Repr

/-! ## Tasks for worker threads -/

/-- Task to compute the changes of a shared memory file. -/
structure DiffTask where
  rid : Rid
  compression : Compression
  /-- Span of all intervals; `none` if there are only trailing bytes. -/
  region : Option (Nat × Nat)
  intervals : List (Nat × Nat)
  trailing : Nat
  deriving DecidableEq, Repr

/-- Task to copy part of a DMABUF. -/
structure FillDmabufTask where
  rid : Rid
  compression : Compression
  regionStart : Nat
  regionEnd : Nat
  acquires : List (Nat × SfdRef)
  deriving DecidableEq, Repr

structure DiffDmabufTask where
  rid : Rid
  compression : Compression
  region : Option (Nat × Nat)
  intervals : List (Nat × Nat)
  trailing : Nat
  acquires : List (Nat × SfdRef)
  deriving DecidableEq, Repr

inductive WorkTask where
  | fillDmabuf (t : FillDmabufTask)
  /-- The pixels are already copied out. -/
  | fillDmabuf2 (t : FillDmabufTask) (data : List UInt8)
  | diff (t : DiffTask)
  | diffDmabuf (t : DiffDmabufTask)
  | videoEncode (remoteId : Rid) (acquires : List (Nat × SfdRef))
  deriving DecidableEq, Repr

end Waypipe
