import Mathlib.Data.List.AList
import Waypipe.ShadowFd
import Waypipe.Wayland.Interfaces

/-!
# Tracked objects

The state that an instance keeps about the Wayland connection: one `WpObject` for every object of
a known interface, with extra data for the interfaces that need it, and the other fields of
`Globals` that translation reads or writes.
-/

namespace Waypipe

open Wayland (WaylandInterface)

/-- A finite map.  The program's ordered maps are used by key only. -/
abbrev Table (κ ν : Type) := AList fun _ : κ => ν

/-- Damage rectangle as in the requests of `wl_surface`. -/
structure WlRect where
  x : Int
  y : Int
  width : Int
  height : Int
  deriving DecidableEq, Repr

inductive WlOutputTransform where
  | normal | item90 | item180 | item270 | flipped | flipped90 | flipped180 | flipped270
  deriving DecidableEq, Repr

def WlOutputTransform.tryFrom : Nat → Option WlOutputTransform
  | 0 => some normal
  | 1 => some item90
  | 2 => some item180
  | 3 => some item270
  | 4 => some flipped
  | 5 => some flipped90
  | 6 => some flipped180
  | 7 => some flipped270
  | _ => none

/-- How a buffer is attached to a surface. -/
structure BufferAttachment where
  scale : Nat
  transform : WlOutputTransform
  /-- Viewport source x-offset, y-offset, width, height in 24.8 fixed point. -/
  viewportSrc : Option (Int × Int × Int × Int)
  viewportDst : Option (Int × Int)
  bufferUid : Nat
  bufferSize : Int × Int
  deriving DecidableEq, Repr

/-- Damage of one commit interval. -/
structure DamageBatch where
  attachment : BufferAttachment
  damage : List WlRect
  damageBuffer : List WlRect
  deriving DecidableEq, Repr

/-- The pending damage is at index 0, that of the last commit at index 1, and so on. -/
abbrev DamageHistory := Vector DamageBatch 7

structure ObjWlSurface where
  attachedBufferId : Option ObjId
  damageHistory : DamageHistory
  acquirePt : Option (Nat × SfdRef)
  releasePt : Option (Nat × SfdRef)
  viewportId : Option ObjId

structure ObjWpViewport where
  wlSurface : Option ObjId

structure ObjWlShmPool where
  buffer : SfdRef

/-- How a `wl_buffer` lies in its pool. -/
structure ObjWlBufferShm where
  width : Int
  height : Int
  format : Nat
  offset : Int
  stride : Int
  deriving DecidableEq, Repr

structure ObjWlBuffer where
  sfd : SfdRef
  shmInfo : Option ObjWlBufferShm
  uniqueId : Nat

structure DmabufTranche where
  flags : Nat
  /-- Format and modifier pairs. -/
  values : List (Nat × Nat)
  indices : List UInt8
  device : Nat
  deriving DecidableEq, Repr

def DmabufTranche.empty : DmabufTranche := { flags := 0, values := [], indices := [], device := 0 }

structure ObjZwpLinuxDmabuf where
  formatsSeen : List Nat

structure ObjZwpLinuxDmabufFeedback where
  inputFormatTable : Option (List (Nat × Nat))
  outputFormatTable : Option (List UInt8)
  mainDevice : Option Nat
  tranches : List DmabufTranche
  current : DmabufTranche
  processed : Bool
  queuedFormatTable : Option (SfdRef × Nat)

structure ObjZwpLinuxDmabufParams where
  dmabuf : Option SfdRef
  planes : List AddDmabufPlane

structure ObjWpDrmSyncobjSurface where
  surface : ObjId

structure ObjWpDrmSyncobjTimeline where
  timeline : SfdRef

structure ObjZwlrScreencopyFrame where
  buffer : Option (SfdRef × Option ObjWlBufferShm)

structure ObjExtImageCopyCaptureSession where
  dmabufDevice : Option Nat
  dmabufFormats : List (Nat × List Nat)
  lastFormatModList : List (Nat × Nat)
  frameList : List ObjId

structure ObjExtImageCopyCaptureFrame where
  buffer : Option (SfdRef × Option ObjWlBufferShm)
  captureSession : Option ObjId
  supportedModifiers : List (Nat × Nat)

structure ObjZwlrGammaControl where
  gammaSize : Option Nat

structure ObjWlRegistry where
  /-- Advertisements of the syncobj manager, kept until a DMABUF device is known. -/
  syncobjManagerReplay : List (Nat × Nat)

inductive WpExtra where
  | wlSurface (data : ObjWlSurface)
  | wlBuffer (data : ObjWlBuffer)
  | wlRegistry (data : ObjWlRegistry)
  | wlShmPool (data : ObjWlShmPool)
  | wpViewport (data : ObjWpViewport)
  | zwpDmabuf (data : ObjZwpLinuxDmabuf)
  | zwpDmabufFeedback (data : ObjZwpLinuxDmabufFeedback)
  | zwpDmabufParams (data : ObjZwpLinuxDmabufParams)
  | zwlrScreencopyFrame (data : ObjZwlrScreencopyFrame)
  | extImageCopyCaptureSession (data : ObjExtImageCopyCaptureSession)
  | extImageCopyCaptureFrame (data : ObjExtImageCopyCaptureFrame)
  | zwlrGammaControl (data : ObjZwlrGammaControl)
  | wpDrmSyncobjSurface (data : ObjWpDrmSyncobjSurface)
  | wpDrmSyncobjTimeline (data : ObjWpDrmSyncobjTimeline)
  | none

structure WpObject where
  objType : WaylandInterface
  extra : WpExtra

/-! ## DMABUF devices -/

/-- A Vulkan instance: what it says about the device with the given id, or about the best one. -/
structure VulkanInstance where
  hasDevice : Option Nat → Bool
  deviceSupportsTimelineImportExport : Option Nat → Bool

structure VulkanDevice where
  device : Nat
  /-- The modifiers that can be used with a format. -/
  supportedModifiers : Nat → List Nat
  supportsTimelineImportExport : Bool

structure GBMDevice where
  deviceId : Nat
  supportedModifiers : Nat → List Nat

inductive DmabufDevice where
  /-- Not yet known whether a device is needed. -/
  | unknown
  | unavailable
  | vulkanSetup (instance_ : VulkanInstance)
  | vulkan (instance_ : VulkanInstance) (vulk : VulkanDevice)
  | gbm (dev : GBMDevice)

/-! ## Globals -/

structure Globals where
  /-- All `ShadowFd`s ever created; a reference is an index. -/
  sfds : List ShadowFd
  map : Table Rid SfdRef
  /-- Descriptors that the other instance has opened and that no message has used yet. -/
  fresh : Table Rid SfdRef
  pipes : List SfdRef
  onDisplaySide : Bool
  maxLocalId : Int
  dmabufDevice : DmabufDevice
  objects : Table ObjId WpObject
  maxBufferUid : Nat
  presentationClock : Option Nat
  advertisedModifiers : Table Nat (List Nat)
  screencopyRestrictions : Table Nat (List Nat)
  opts : Options

/-- The object map with the initial object, `wl_display#1`. -/
def setupObjectMap : Table ObjId WpObject :=
  AList.singleton 1 { objType := .wlDisplay, extra := .none }

/-- The state at the start of a connection. -/
def Globals.start (onDisplaySide : Bool) (opts : Options) : Globals where
  sfds := []
  map := ∅
  fresh := ∅
  pipes := []
  onDisplaySide := onDisplaySide
  maxLocalId := if onDisplaySide then -1 else 1
  dmabufDevice := if opts.noGpu then .unavailable else .unknown
  objects := setupObjectMap
  maxBufferUid := 1
  presentationClock := none
  advertisedModifiers := ∅
  screencopyRestrictions := ∅
  opts := opts

end Waypipe
