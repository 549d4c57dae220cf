import Waypipe.Util

/-!
# Wayland interfaces

The interface tables of `wayland_gen.rs`: for every interface its name, the highest version that
is understood, and the signatures of its events and requests.  The position of a method in its list
is its opcode; `WaylandInterface.method` looks it up.  The names of methods are only used for logs.
-/

namespace Waypipe.Wayland

inductive WaylandInterface where
  | extDataControlDeviceV1
  | extDataControlManagerV1
  | extDataControlOfferV1
  | extDataControlSourceV1
  | extForeignToplevelHandleV1
  | extForeignToplevelImageCaptureSourceManagerV1
  | extForeignToplevelListV1
  | extImageCaptureSourceV1
  | extImageCopyCaptureCursorSessionV1
  | extImageCopyCaptureFrameV1
  | extImageCopyCaptureManagerV1
  | extImageCopyCaptureSessionV1
  | extOutputImageCaptureSourceManagerV1
  | gtkPrimarySelectionDevice
  | gtkPrimarySelectionDeviceManager
  | gtkPrimarySelectionOffer
  | gtkPrimarySelectionSource
  | wlBuffer
  | wlCallback
  | wlCompositor
  | wlDataDevice
  | wlDataDeviceManager
  | wlDataOffer
  | wlDataSource
  | wlDisplay
  | wlDrm
  | wlFixes
  | wlKeyboard
  | wlOutput
  | wlPointer
  | wlRegion
  | wlRegistry
  | wlSeat
  | wlShell
  | wlShellSurface
  | wlShm
  | wlShmPool
  | wlSubcompositor
  | wlSubsurface
  | wlSurface
  | wlTouch
  | wpColorManagementOutputV1
  | wpColorManagementSurfaceFeedbackV1
  | wpColorManagementSurfaceV1
  | wpColorManagerV1
  | wpCommitTimerV1
  | wpCommitTimingManagerV1
  | wpImageDescriptionCreatorIccV1
  | wpImageDescriptionCreatorParamsV1
  | wpImageDescriptionInfoV1
  | wpImageDescriptionReferenceV1
  | wpImageDescriptionV1
  | wpLinuxDrmSyncobjManagerV1
  | wpLinuxDrmSyncobjSurfaceV1
  | wpLinuxDrmSyncobjTimelineV1
  | wpPresentation
  | wpPresentationFeedback
  | wpSecurityContextManagerV1
  | wpSecurityContextV1
  | wpViewport
  | wpViewporter
  | xdgPopup
  | xdgPositioner
  | xdgSurface
  | xdgToplevel
  | xdgToplevelIconManagerV1
  | xdgToplevelIconV1
  | xdgWmBase
  | zwlrDataControlDeviceV1
  | zwlrDataControlManagerV1
  | zwlrDataControlOfferV1
  | zwlrDataControlSourceV1
  | zwlrExportDmabufFrameV1
  | zwlrExportDmabufManagerV1
  | zwlrGammaControlManagerV1
  | zwlrGammaControlV1
  | zwlrScreencopyFrameV1
  | zwlrScreencopyManagerV1
  | zwpInputMethodKeyboardGrabV2
  | zwpInputMethodManagerV2
  | zwpInputMethodV2
  | zwpInputPopupSurfaceV2
  | zwpLinuxBufferParamsV1
  | zwpLinuxDmabufFeedbackV1
  | zwpLinuxDmabufV1
  | zwpPrimarySelectionDeviceManagerV1
  | zwpPrimarySelectionDeviceV1
  | zwpPrimarySelectionOfferV1
  | zwpPrimarySelectionSourceV1
  | zwpVirtualKeyboardManagerV1
  | zwpVirtualKeyboardV1
  deriving DecidableEq, Repr

inductive WaylandArgument where
  | int
  | uint
  | fixed
  | string
  | optionalString
  | object (intf : WaylandInterface)
  | genericObject
  | newId (intf : WaylandInterface)
  | genericNewId
  | array
  | fd
  deriving DecidableEq, Repr

structure WaylandMethod where
  sig : List WaylandArgument
  destructor : Bool
  deriving DecidableEq, Repr

/-- Number of file descriptors that come with a message. -/
def WaylandMethod.fdCount (meth : WaylandMethod) : Nat := meth.sig.count .fd

/-- Data for a Wayland interface. -/
structure WaylandData where
  name : String
  evts : List WaylandMethod
  reqs : List WaylandMethod
  version : Nat
  deriving DecidableEq, Repr

inductive MethodId where
  | event (opcode : Nat)
  | request (opcode : Nat)
  deriving DecidableEq, Repr

namespace WaylandInterface

/-- The interfaces in the order of the table, which is sorted by name. -/
def list : List WaylandInterface := (List.range 91).map ofNat

/-- A method that leaves its object alone. -/
abbrev call (sig : List WaylandArgument) : WaylandMethod := ⟨sig, false⟩

/-- A method after which its object is gone. -/
abbrev destroy (sig : List WaylandArgument) : WaylandMethod := ⟨sig, true⟩

/-- The entry of `INTERFACE_TABLE`: the name, the events, the requests and the version. -/
def data : WaylandInterface → WaylandData
  | extDataControlDeviceV1 => ⟨"ext_data_control_device_v1",
    [call [.newId .extDataControlOfferV1], call [.object .extDataControlOfferV1], call [],
     call [.object .extDataControlOfferV1]],
    [call [.object .extDataControlSourceV1], destroy [], call [.object .extDataControlSourceV1]], 1⟩
  | extDataControlManagerV1 => ⟨"ext_data_control_manager_v1", [],
    [call [.newId .extDataControlSourceV1], call [.newId .extDataControlDeviceV1, .object .wlSeat],
     destroy []], 1⟩
  | extDataControlOfferV1 => ⟨"ext_data_control_offer_v1", [call [.string]],
    [call [.string, .fd], destroy []], 1⟩
  | extDataControlSourceV1 => ⟨"ext_data_control_source_v1",
    [call [.string, .fd], call []],
    [call [.string], destroy []], 1⟩
  | extForeignToplevelHandleV1 => ⟨"ext_foreign_toplevel_handle_v1",
    [call [], call [], call [.string], call [.string], call [.string]], [destroy []], 1⟩
  | extForeignToplevelImageCaptureSourceManagerV1 =>
    ⟨"ext_foreign_toplevel_image_capture_source_manager_v1", [],
    [call [.newId .extImageCaptureSourceV1, .object .extForeignToplevelHandleV1], destroy []], 1⟩
  | extForeignToplevelListV1 => ⟨"ext_foreign_toplevel_list_v1",
    [call [.newId .extForeignToplevelHandleV1], call []],
    [call [], destroy []], 1⟩
  | extImageCaptureSourceV1 => ⟨"ext_image_capture_source_v1", [], [destroy []], 1⟩
  | extImageCopyCaptureCursorSessionV1 => ⟨"ext_image_copy_capture_cursor_session_v1",
    [call [], call [], call [.int, .int], call [.int, .int]],
    [destroy [], call [.newId .extImageCopyCaptureSessionV1]], 1⟩
  | extImageCopyCaptureFrameV1 => ⟨"ext_image_copy_capture_frame_v1",
    [call [.uint], call [.int, .int, .int, .int], call [.uint, .uint, .uint], call [],
     call [.uint]],
    [destroy [], call [.object .wlBuffer], call [.int, .int, .int, .int], call []], 1⟩
  | extImageCopyCaptureManagerV1 => ⟨"ext_image_copy_capture_manager_v1", [],
    [call [.newId .extImageCopyCaptureSessionV1, .object .extImageCaptureSourceV1, .uint],
     call [.newId .extImageCopyCaptureCursorSessionV1, .object .extImageCaptureSourceV1,
       .object .wlPointer], destroy []], 1⟩
  | extImageCopyCaptureSessionV1 => ⟨"ext_image_copy_capture_session_v1",
    [call [.uint, .uint], call [.uint], call [.array], call [.uint, .array], call [], call []],
    [call [.newId .extImageCopyCaptureFrameV1], destroy []], 1⟩
  | extOutputImageCaptureSourceManagerV1 => ⟨"ext_output_image_capture_source_manager_v1", [],
    [call [.newId .extImageCaptureSourceV1, .object .wlOutput], destroy []], 1⟩
  | gtkPrimarySelectionDevice => ⟨"gtk_primary_selection_device",
    [call [.newId .gtkPrimarySelectionOffer], call [.object .gtkPrimarySelectionOffer]],
    [call [.object .gtkPrimarySelectionSource, .uint], destroy []], 1⟩
  | gtkPrimarySelectionDeviceManager => ⟨"gtk_primary_selection_device_manager", [],
    [call [.newId .gtkPrimarySelectionSource],
     call [.newId .gtkPrimarySelectionDevice, .object .wlSeat], destroy []], 1⟩
  | gtkPrimarySelectionOffer => ⟨"gtk_primary_selection_offer", [call [.string]],
    [call [.string, .fd], destroy []], 1⟩
  | gtkPrimarySelectionSource => ⟨"gtk_primary_selection_source",
    [call [.string, .fd], call []],
    [call [.string], destroy []], 1⟩
  | wlBuffer => ⟨"wl_buffer", [call []], [destroy []], 1⟩
  | wlCallback => ⟨"wl_callback", [destroy [.uint]], [], 1⟩
  | wlCompositor => ⟨"wl_compositor", [], [call [.newId .wlSurface], call [.newId .wlRegion]], 6⟩
  | wlDataDevice => ⟨"wl_data_device",
    [call [.newId .wlDataOffer],
     call [.uint, .object .wlSurface, .fixed, .fixed, .object .wlDataOffer], call [],
     call [.uint, .fixed, .fixed], call [], call [.object .wlDataOffer]],
    [call [.object .wlDataSource, .object .wlSurface, .object .wlSurface, .uint],
     call [.object .wlDataSource, .uint], destroy []], 3⟩
  | wlDataDeviceManager => ⟨"wl_data_device_manager", [],
    [call [.newId .wlDataSource], call [.newId .wlDataDevice, .object .wlSeat]], 3⟩
  | wlDataOffer => ⟨"wl_data_offer",
    [call [.string], call [.uint], call [.uint]],
    [call [.uint, .optionalString], call [.string, .fd], destroy [], call [],
     call [.uint, .uint]], 3⟩
  | wlDataSource => ⟨"wl_data_source",
    [call [.optionalString], call [.string, .fd], call [], call [], call [], call [.uint]],
    [call [.string], destroy [], call [.uint]], 3⟩
  | wlDisplay => ⟨"wl_display",
    [call [.genericObject, .uint, .string], call [.uint]],
    [call [.newId .wlCallback], call [.newId .wlRegistry]], 1⟩
  | wlDrm => ⟨"wl_drm",
    [call [.string], call [.uint], call [], call [.uint]],
    [call [.uint], call [.newId .wlBuffer, .uint, .int, .int, .uint, .uint],
     call [.newId .wlBuffer, .uint, .int, .int, .uint, .int, .int, .int, .int, .int, .int],
     call [.newId .wlBuffer, .fd, .int, .int, .uint, .int, .int, .int, .int, .int, .int]], 2⟩
  | wlFixes => ⟨"wl_fixes", [], [destroy [], call [.object .wlRegistry]], 1⟩
  | wlKeyboard => ⟨"wl_keyboard",
    [call [.uint, .fd, .uint], call [.uint, .object .wlSurface, .array],
     call [.uint, .object .wlSurface], call [.uint, .uint, .uint, .uint],
     call [.uint, .uint, .uint, .uint, .uint], call [.int, .int]], [destroy []], 10⟩
  | wlOutput => ⟨"wl_output",
    [call [.int, .int, .int, .int, .int, .string, .string, .int], call [.uint, .int, .int, .int],
     call [], call [.int], call [.string], call [.string]], [destroy []], 4⟩
  | wlPointer => ⟨"wl_pointer",
    [call [.uint, .object .wlSurface, .fixed, .fixed], call [.uint, .object .wlSurface],
     call [.uint, .fixed, .fixed], call [.uint, .uint, .uint, .uint], call [.uint, .uint, .fixed],
     call [], call [.uint], call [.uint, .uint], call [.uint, .int], call [.uint, .int],
     call [.uint, .uint]],
    [call [.uint, .object .wlSurface, .int, .int], destroy []], 10⟩
  | wlRegion => ⟨"wl_region", [],
    [destroy [], call [.int, .int, .int, .int], call [.int, .int, .int, .int]], 1⟩
  | wlRegistry => ⟨"wl_registry",
    [call [.uint, .string, .uint], call [.uint]], [call [.uint, .genericNewId]], 1⟩
  | wlSeat => ⟨"wl_seat",
    [call [.uint], call [.string]],
    [call [.newId .wlPointer], call [.newId .wlKeyboard], call [.newId .wlTouch], destroy []], 10⟩
  | wlShell => ⟨"wl_shell", [], [call [.newId .wlShellSurface, .object .wlSurface]], 1⟩
  | wlShellSurface => ⟨"wl_shell_surface",
    [call [.uint], call [.uint, .int, .int], call []],
    [call [.uint], call [.object .wlSeat, .uint], call [.object .wlSeat, .uint, .uint], call [],
     call [.object .wlSurface, .int, .int, .uint], call [.uint, .uint, .object .wlOutput],
     call [.object .wlSeat, .uint, .object .wlSurface, .int, .int, .uint], call [.object .wlOutput],
     call [.string], call [.string]], 1⟩
  | wlShm => ⟨"wl_shm", [call [.uint]], [call [.newId .wlShmPool, .fd, .int], destroy []], 2⟩
  | wlShmPool => ⟨"wl_shm_pool", [],
    [call [.newId .wlBuffer, .int, .int, .int, .int, .uint], destroy [], call [.int]], 2⟩
  | wlSubcompositor => ⟨"wl_subcompositor", [],
    [destroy [], call [.newId .wlSubsurface, .object .wlSurface, .object .wlSurface]], 1⟩
  | wlSubsurface => ⟨"wl_subsurface", [],
    [destroy [], call [.int, .int], call [.object .wlSurface], call [.object .wlSurface], call [],
     call []], 1⟩
  | wlSurface => ⟨"wl_surface",
    [call [.object .wlOutput], call [.object .wlOutput], call [.int], call [.uint]],
    [destroy [], call [.object .wlBuffer, .int, .int], call [.int, .int, .int, .int],
     call [.newId .wlCallback], call [.object .wlRegion], call [.object .wlRegion], call [],
     call [.int], call [.int], call [.int, .int, .int, .int], call [.int, .int]], 6⟩
  | wlTouch => ⟨"wl_touch",
    [call [.uint, .uint, .object .wlSurface, .int, .fixed, .fixed], call [.uint, .uint, .int],
     call [.uint, .int, .fixed, .fixed], call [], call [], call [.int, .fixed, .fixed],
     call [.int, .fixed]], [destroy []], 10⟩
  | wpColorManagementOutputV1 => ⟨"wp_color_management_output_v1", [call []],
    [destroy [], call [.newId .wpImageDescriptionV1]], 2⟩
  | wpColorManagementSurfaceFeedbackV1 => ⟨"wp_color_management_surface_feedback_v1",
    [call [.uint], call [.uint, .uint]],
    [destroy [], call [.newId .wpImageDescriptionV1], call [.newId .wpImageDescriptionV1]], 2⟩
  | wpColorManagementSurfaceV1 => ⟨"wp_color_management_surface_v1", [],
    [destroy [], call [.object .wpImageDescriptionV1, .uint], call []], 2⟩
  | wpColorManagerV1 => ⟨"wp_color_manager_v1",
    [call [.uint], call [.uint], call [.uint], call [.uint], call []],
    [destroy [], call [.newId .wpColorManagementOutputV1, .object .wlOutput],
     call [.newId .wpColorManagementSurfaceV1, .object .wlSurface],
     call [.newId .wpColorManagementSurfaceFeedbackV1, .object .wlSurface],
     call [.newId .wpImageDescriptionCreatorIccV1],
     call [.newId .wpImageDescriptionCreatorParamsV1], call [.newId .wpImageDescriptionV1],
     call [.newId .wpImageDescriptionV1, .object .wpImageDescriptionReferenceV1]], 2⟩
  | wpCommitTimerV1 => ⟨"wp_commit_timer_v1", [], [call [.uint, .uint, .uint], destroy []], 1⟩
  | wpCommitTimingManagerV1 => ⟨"wp_commit_timing_manager_v1", [],
    [destroy [], call [.newId .wpCommitTimerV1, .object .wlSurface]], 1⟩
  | wpImageDescriptionCreatorIccV1 => ⟨"wp_image_description_creator_icc_v1", [],
    [destroy [.newId .wpImageDescriptionV1], call [.fd, .uint, .uint]], 2⟩
  | wpImageDescriptionCreatorParamsV1 => ⟨"wp_image_description_creator_params_v1", [],
    [destroy [.newId .wpImageDescriptionV1], call [.uint], call [.uint], call [.uint],
     call [.int, .int, .int, .int, .int, .int, .int, .int], call [.uint, .uint, .uint],
     call [.int, .int, .int, .int, .int, .int, .int, .int], call [.uint, .uint], call [.uint],
     call [.uint]], 2⟩
  | wpImageDescriptionInfoV1 => ⟨"wp_image_description_info_v1",
    [destroy [], call [.fd, .uint], call [.int, .int, .int, .int, .int, .int, .int, .int],
     call [.uint], call [.uint], call [.uint], call [.uint, .uint, .uint],
     call [.int, .int, .int, .int, .int, .int, .int, .int], call [.uint, .uint], call [.uint],
     call [.uint]], [], 2⟩
  | wpImageDescriptionReferenceV1 => ⟨"wp_image_description_reference_v1", [], [destroy []], 1⟩
  | wpImageDescriptionV1 => ⟨"wp_image_description_v1",
    [call [.uint, .string], call [.uint], call [.uint, .uint]],
    [destroy [], call [.newId .wpImageDescriptionInfoV1]], 2⟩
  | wpLinuxDrmSyncobjManagerV1 => ⟨"wp_linux_drm_syncobj_manager_v1", [],
    [destroy [], call [.newId .wpLinuxDrmSyncobjSurfaceV1, .object .wlSurface],
     call [.newId .wpLinuxDrmSyncobjTimelineV1, .fd]], 1⟩
  | wpLinuxDrmSyncobjSurfaceV1 => ⟨"wp_linux_drm_syncobj_surface_v1", [],
    [destroy [], call [.object .wpLinuxDrmSyncobjTimelineV1, .uint, .uint],
     call [.object .wpLinuxDrmSyncobjTimelineV1, .uint, .uint]], 1⟩
  | wpLinuxDrmSyncobjTimelineV1 => ⟨"wp_linux_drm_syncobj_timeline_v1", [], [destroy []], 1⟩
  | wpPresentation => ⟨"wp_presentation", [call [.uint]],
    [destroy [], call [.object .wlSurface, .newId .wpPresentationFeedback]], 2⟩
  | wpPresentationFeedback => ⟨"wp_presentation_feedback",
    [call [.object .wlOutput], destroy [.uint, .uint, .uint, .uint, .uint, .uint, .uint],
     destroy []], [], 2⟩
  | wpSecurityContextManagerV1 => ⟨"wp_security_context_manager_v1", [],
    [destroy [], call [.newId .wpSecurityContextV1, .fd, .fd]], 1⟩
  | wpSecurityContextV1 => ⟨"wp_security_context_v1", [],
    [destroy [], call [.string], call [.string], call [.string], call []], 1⟩
  | wpViewport => ⟨"wp_viewport", [],
    [destroy [], call [.fixed, .fixed, .fixed, .fixed], call [.int, .int]], 1⟩
  | wpViewporter => ⟨"wp_viewporter", [],
    [destroy [], call [.newId .wpViewport, .object .wlSurface]], 1⟩
  | xdgPopup => ⟨"xdg_popup",
    [call [.int, .int, .int, .int], call [], call [.uint]],
    [destroy [], call [.object .wlSeat, .uint], call [.object .xdgPositioner, .uint]], 7⟩
  | xdgPositioner => ⟨"xdg_positioner", [],
    [destroy [], call [.int, .int], call [.int, .int, .int, .int], call [.uint], call [.uint],
     call [.uint], call [.int, .int], call [], call [.int, .int], call [.uint]], 7⟩
  | xdgSurface => ⟨"xdg_surface", [call [.uint]],
    [destroy [], call [.newId .xdgToplevel],
     call [.newId .xdgPopup, .object .xdgSurface, .object .xdgPositioner],
     call [.int, .int, .int, .int], call [.uint]], 7⟩
  | xdgToplevel => ⟨"xdg_toplevel",
    [call [.int, .int, .array], call [], call [.int, .int], call [.array]],
    [destroy [], call [.object .xdgToplevel], call [.string], call [.string],
     call [.object .wlSeat, .uint, .int, .int], call [.object .wlSeat, .uint],
     call [.object .wlSeat, .uint, .uint], call [.int, .int], call [.int, .int], call [], call [],
     call [.object .wlOutput], call [], call []], 7⟩
  | xdgToplevelIconManagerV1 => ⟨"xdg_toplevel_icon_manager_v1",
    [call [.int], call []],
    [destroy [], call [.newId .xdgToplevelIconV1],
     call [.object .xdgToplevel, .object .xdgToplevelIconV1]], 1⟩
  | xdgToplevelIconV1 => ⟨"xdg_toplevel_icon_v1", [],
    [destroy [], call [.string], call [.object .wlBuffer, .int]], 1⟩
  | xdgWmBase => ⟨"xdg_wm_base", [call [.uint]],
    [destroy [], call [.newId .xdgPositioner], call [.newId .xdgSurface, .object .wlSurface],
     call [.uint]], 7⟩
  | zwlrDataControlDeviceV1 => ⟨"zwlr_data_control_device_v1",
    [call [.newId .zwlrDataControlOfferV1], call [.object .zwlrDataControlOfferV1], call [],
     call [.object .zwlrDataControlOfferV1]],
    [call [.object .zwlrDataControlSourceV1], destroy [],
     call [.object .zwlrDataControlSourceV1]], 2⟩
  | zwlrDataControlManagerV1 => ⟨"zwlr_data_control_manager_v1", [],
    [call [.newId .zwlrDataControlSourceV1],
     call [.newId .zwlrDataControlDeviceV1, .object .wlSeat], destroy []], 2⟩
  | zwlrDataControlOfferV1 => ⟨"zwlr_data_control_offer_v1", [call [.string]],
    [call [.string, .fd], destroy []], 1⟩
  | zwlrDataControlSourceV1 => ⟨"zwlr_data_control_source_v1",
    [call [.string, .fd], call []],
    [call [.string], destroy []], 1⟩
  | zwlrExportDmabufFrameV1 => ⟨"zwlr_export_dmabuf_frame_v1",
    [call [.uint, .uint, .uint, .uint, .uint, .uint, .uint, .uint, .uint, .uint],
     call [.uint, .fd, .uint, .uint, .uint, .uint], call [.uint, .uint, .uint], call [.uint]],
    [destroy []], 1⟩
  | zwlrExportDmabufManagerV1 => ⟨"zwlr_export_dmabuf_manager_v1", [],
    [call [.newId .zwlrExportDmabufFrameV1, .int, .object .wlOutput], destroy []], 1⟩
  | zwlrGammaControlManagerV1 => ⟨"zwlr_gamma_control_manager_v1", [],
    [call [.newId .zwlrGammaControlV1, .object .wlOutput], destroy []], 1⟩
  | zwlrGammaControlV1 => ⟨"zwlr_gamma_control_v1",
    [call [.uint], call []],
    [call [.fd], destroy []], 1⟩
  | zwlrScreencopyFrameV1 => ⟨"zwlr_screencopy_frame_v1",
    [call [.uint, .uint, .uint, .uint], call [.uint], call [.uint, .uint, .uint], call [],
     call [.uint, .uint, .uint, .uint], call [.uint, .uint, .uint], call []],
    [call [.object .wlBuffer], destroy [], call [.object .wlBuffer]], 3⟩
  | zwlrScreencopyManagerV1 => ⟨"zwlr_screencopy_manager_v1", [],
    [call [.newId .zwlrScreencopyFrameV1, .int, .object .wlOutput],
     call [.newId .zwlrScreencopyFrameV1, .int, .object .wlOutput, .int, .int, .int, .int],
     destroy []], 3⟩
  | zwpInputMethodKeyboardGrabV2 => ⟨"zwp_input_method_keyboard_grab_v2",
    [call [.uint, .fd, .uint], call [.uint, .uint, .uint, .uint],
     call [.uint, .uint, .uint, .uint, .uint], call [.int, .int]], [destroy []], 1⟩
  | zwpInputMethodManagerV2 => ⟨"zwp_input_method_manager_v2", [],
    [call [.object .wlSeat, .newId .zwpInputMethodV2], destroy []], 1⟩
  | zwpInputMethodV2 => ⟨"zwp_input_method_v2",
    [call [], call [], call [.string, .uint, .uint], call [.uint], call [.uint, .uint], call [],
     call []],
    [call [.string], call [.string, .int, .int], call [.uint, .uint], call [.uint],
     call [.newId .zwpInputPopupSurfaceV2, .object .wlSurface],
     call [.newId .zwpInputMethodKeyboardGrabV2], destroy []], 1⟩
  | zwpInputPopupSurfaceV2 => ⟨"zwp_input_popup_surface_v2", [call [.int, .int, .int, .int]],
    [destroy []], 1⟩
  | zwpLinuxBufferParamsV1 => ⟨"zwp_linux_buffer_params_v1",
    [call [.newId .wlBuffer], call []],
    [destroy [], call [.fd, .uint, .uint, .uint, .uint, .uint], call [.int, .int, .uint, .uint],
     call [.newId .wlBuffer, .int, .int, .uint, .uint]], 5⟩
  | zwpLinuxDmabufFeedbackV1 => ⟨"zwp_linux_dmabuf_feedback_v1",
    [call [], call [.fd, .uint], call [.array], call [], call [.array], call [.array],
     call [.uint]], [destroy []], 5⟩
  | zwpLinuxDmabufV1 => ⟨"zwp_linux_dmabuf_v1",
    [call [.uint], call [.uint, .uint, .uint]],
    [destroy [], call [.newId .zwpLinuxBufferParamsV1], call [.newId .zwpLinuxDmabufFeedbackV1],
     call [.newId .zwpLinuxDmabufFeedbackV1, .object .wlSurface]], 5⟩
  | zwpPrimarySelectionDeviceManagerV1 => ⟨"zwp_primary_selection_device_manager_v1", [],
    [call [.newId .zwpPrimarySelectionSourceV1],
     call [.newId .zwpPrimarySelectionDeviceV1, .object .wlSeat], destroy []], 1⟩
  | zwpPrimarySelectionDeviceV1 => ⟨"zwp_primary_selection_device_v1",
    [call [.newId .zwpPrimarySelectionOfferV1], call [.object .zwpPrimarySelectionOfferV1]],
    [call [.object .zwpPrimarySelectionSourceV1, .uint], destroy []], 1⟩
  | zwpPrimarySelectionOfferV1 => ⟨"zwp_primary_selection_offer_v1", [call [.string]],
    [call [.string, .fd], destroy []], 1⟩
  | zwpPrimarySelectionSourceV1 => ⟨"zwp_primary_selection_source_v1",
    [call [.string, .fd], call []],
    [call [.string], destroy []], 1⟩
  | zwpVirtualKeyboardManagerV1 => ⟨"zwp_virtual_keyboard_manager_v1", [],
    [call [.object .wlSeat, .newId .zwpVirtualKeyboardV1]], 1⟩
  | zwpVirtualKeyboardV1 => ⟨"zwp_virtual_keyboard_v1", [],
    [call [.uint, .fd, .uint], call [.uint, .uint, .uint], call [.uint, .uint, .uint, .uint],
     destroy []], 1⟩

theorem mem_list (intf : WaylandInterface) : intf ∈ list := by
  cases intf <;> decide

/-- The name of the interface as it stands in a message. -/
def name (intf : WaylandInterface) : List UInt8 := asciiBytes intf.data.name

/-- The method of an interface with the given opcode. -/
def method (intf : WaylandInterface) : MethodId → Option WaylandMethod
  | .event opcode => intf.data.evts[opcode]?
  | .request opcode => intf.data.reqs[opcode]?

end WaylandInterface

/-- The table is sorted by name without duplicates, so that the binary search of the program finds
the only entry with the name. -/
def lookupIntfByName (name : List UInt8) : Option WaylandInterface :=
  WaylandInterface.list.find? fun intf => intf.name == name

end Waypipe.Wayland
