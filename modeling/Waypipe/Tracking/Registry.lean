import Waypipe.Tracking.ObjectMap

/-!
# The registry

Globals are filtered: some interfaces are never passed on, some only up to the version that is
understood, and those for DMABUFs only when there is a device for them.
-/

namespace Waypipe

open Wayland

variable (sys : System) (q : Request)

/-- Interfaces that are never passed on. -/
def blacklist : List (List UInt8) :=
  [asciiBytes "wl_drm", asciiBytes "wp_drm_lease_device_v1",
    asciiBytes "zwlr_export_dmabuf_manager_v1",
    asciiBytes "zwp_linux_explicit_synchronization_v1",
    asciiBytes "wp_security_context_manager_v1"]

def ZWP_LINUX_DMABUF_V1 : List UInt8 := WaylandInterface.name .zwpLinuxDmabufV1

def WP_LINUX_DRM_SYNCOBJ_MANAGER_V1 : List UInt8 := WaylandInterface.name .wpLinuxDrmSyncobjManagerV1

/-- Interfaces of which a newer version would need more handling. -/
def versionLimited : List WaylandInterface :=
  [.wlShm, .zwpLinuxDmabufV1, .wpLinuxDrmSyncobjManagerV1, .extImageCopyCaptureManagerV1,
    .zwlrScreencopyManagerV1, .zwlrExportDmabufManagerV1]

/-- The version to announce for an interface. -/
def limitVersion (intf : List UInt8) (version : Nat) : Nat :=
  match versionLimited.find? fun code => code.name == intf with
  | some code => min version code.data.version
  | none => version

/-- `DmabufDevice::Unknown` -/
def DmabufDevice.isUnknown : DmabufDevice → Bool
  | unknown => true
  | _ => false

def DmabufDevice.isUnavailable : DmabufDevice → Bool
  | unavailable => true
  | _ => false

def DmabufDevice.isVulkanSetup : DmabufDevice → Bool
  | vulkanSetup _ => true
  | _ => false

/-- A device that is set up completely. -/
def DmabufDevice.isReady : DmabufDevice → Bool
  | vulkan _ _ | gbm _ => true
  | _ => false

def setDevice (dev : DmabufDevice) : GlobAct Unit :=
  modifyGlob fun g => { g with dmabufDevice := dev }

/-- The application side looks for a device when DMABUFs are first announced. -/
def setupDeviceForGlobal : GlobAct Unit := do
  let g ← getGlob
  if g.dmabufDevice.isUnknown && !g.onDisplaySide then
    let dev ← trySetupDmabufInstanceLight sys g.opts (← drmNodeDevice sys g.opts)
    assert (!dev.isUnknown) "!matches!(glob.dmabuf_device, DmabufDevice::Unknown)"
    setDevice dev

/-- Advertisements of the syncobj manager are stored while the device is not known. -/
def storeSyncobjManager (name version : Nat) : GlobAct Unit := do
  let reg ← extraOf q.objectId WpExtra.registryData? "Unexpected extra type for wl_registry"
  setExtra q.objectId (.wlRegistry { reg with
    syncobjManagerReplay := reg.syncobjManagerReplay ++ [(name, version)] })

/-- Whether timelines can be shared with the device, or will be once it is set up. -/
def timelinesUsable (g : Globals) : Res Bool :=
  match g.dmabufDevice with
  | .unknown => .ok true
  | .gbm _ | .unavailable => .ok false
  | .vulkanSetup inst => do
    return inst.deviceSupportsTimelineImportExport (← drmNodeDevice sys g.opts)
  | .vulkan _ vulk => .ok vulk.supportsTimelineImportExport

/-- Whether stored advertisements of the syncobj manager are replayed. -/
def timelinesSupported (g : Globals) : Res Bool :=
  match g.dmabufDevice with
  | .vulkanSetup _ => .ok true
  | .unknown => if g.onDisplaySide then .ok true else .error (.panic UNREACHABLE)
  | .unavailable => .error (.panic UNREACHABLE)
  | .gbm _ => .ok false
  | .vulkan _ vulk => .ok vulk.supportsTimelineImportExport

/-- The stored advertisements of the registry. -/
def lookReplay : Look (List (Nat × Nat)) := fun c => do
  let reg ← c.glob.extraOf q.objectId WpExtra.registryData? "Unexpected extra type for wl_registry"
  return reg.syncobjManagerReplay

/-- Replay the stored advertisements, or drop them. -/
def replaySyncobjManagers (replay : List (Nat × Nat)) : Act Unit := do
  let supported ← timelinesSupported (← getGlob)
  setExtra q.objectId (.wlRegistry { syncobjManagerReplay := [] })
  if supported then
    replay.forM fun (name, version) => emitMsg
      (writeEvtWlRegistryGlobal q.objectId name WP_LINUX_DRM_SYNCOBJ_MANAGER_V1 version)

/-- The global for DMABUFs. -/
def globalDmabuf (name version : Nat) : Handler :=
  .first (setupDeviceForGlobal sys) <|
  .looking (fun c => .ok c.glob.dmabufDevice.isUnavailable) fun unavailable =>
  if unavailable then .drop
  else
    .looking (lookReplay q) fun replay =>
    .needs (q.msg.length +
      lengthEvtWlRegistryGlobal WP_LINUX_DRM_SYNCOBJ_MANAGER_V1.length * replay.length) 0 <|
    .act do
      emitMsg (writeEvtWlRegistryGlobal q.objectId name ZWP_LINUX_DMABUF_V1 version)
      replaySyncobjManagers q replay

/-- Pass a global on with the given version. -/
def forwardGlobal (name : Nat) (intf : List UInt8) (version : Nat) : Handler :=
  .needs q.msg.length 0 <| .act do
    emitMsg (writeEvtWlRegistryGlobal q.objectId name intf version)

/-- The global for explicit synchronisation.  While the device is unknown it is stored for later,
and also passed on. -/
def globalSyncobjManager (name version : Nat) : Handler :=
  .looking (fun c => .ok c.glob.dmabufDevice.isUnknown) fun unknown =>
  if unknown then
    .first (storeSyncobjManager q name version) <|
    forwardGlobal q name WP_LINUX_DRM_SYNCOBJ_MANAGER_V1 version
  else
    .looking (fun c => timelinesUsable sys c.glob) fun usable =>
    if usable then forwardGlobal q name WP_LINUX_DRM_SYNCOBJ_MANAGER_V1 version else .drop

def wlRegistryGlobal : Handler :=
  .parsing (parseEvtWlRegistryGlobal q.msg) fun (name, intf, version) =>
  let version := limitVersion intf version
  if blacklist.contains intf then .drop
  else if intf = ZWP_LINUX_DMABUF_V1 then globalDmabuf sys q name version
  else if intf = WP_LINUX_DRM_SYNCOBJ_MANAGER_V1 then globalSyncobjManager sys q name version
  else forwardGlobal q name intf version

def trySetupDmabufInstance (lightSetup : Bool) (opts : Options) (device : Option Nat) :
    Res DmabufDevice :=
  if lightSetup then trySetupDmabufInstanceLight sys opts device
  else trySetupDmabufInstanceFull sys opts device

/-- Choose a device, if there is none yet. -/
def chooseDevice (lightSetup : Bool) : GlobAct Unit := do
  let g ← getGlob
  if g.dmabufDevice.isUnknown then
    let dev ← trySetupDmabufInstance sys lightSetup g.opts (← drmNodeDevice sys g.opts)
    assert (!dev.isUnknown) "!matches!(glob.dmabuf_device, DmabufDevice::Unknown)"
    setDevice dev

/-- Initialize the device completely, if it is not. -/
def completeDevice (lightSetup : Bool) : GlobAct Unit := do
  let g ← getGlob
  if !lightSetup && g.dmabufDevice.isVulkanSetup then
    setDevice (← completeDmabufSetup sys g.opts (← drmNodeDevice sys g.opts) g.dmabufDevice)

def requireDevice : GlobAct Unit := do
  if (← getGlob).dmabufDevice.isUnavailable then
    fail "Failed to set up a device to handle DMABUFS"

/-- Have a device set up for a client that binds the DMABUF interface.  From version 4 on, the
display side learns the device from feedback events. -/
def setupDeviceForBind (version : Nat) : GlobAct Unit := do
  let lightSetup := 4 ≤ version && (← getGlob).onDisplaySide
  chooseDevice sys lightSetup
  completeDevice sys lightSetup
  requireDevice

def wlRegistryBind : Handler :=
  .parsing (parseReqWlRegistryBind q.msg) fun (_, name, version, oid) =>
  if name = ZWP_LINUX_DMABUF_V1 then
    .first (setupDeviceForBind sys version) <|
    .needs q.msg.length 0 <| .act do
      copyMsg q.msg
      insertNewObject oid .zwpLinuxDmabufV1 (.zwpDmabuf { formatsSeen := [] })
  else defaultProcWayMsg q

end Waypipe
