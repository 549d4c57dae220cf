import Waypipe.Wayland.Codec

/-!
# The messages that are looked into

Parsers and writers of `wayland_gen.rs` for the methods that message translation handles itself.
Every argument of a message takes whole 32-bit words, so what is written is a value of `Words`,
which carries the proof of that; a received message is a `WaylandMsg`, whose length is the one in
its header.
-/

namespace Waypipe.Wayland

open LeBytes

/-! ## Whole words -/

/-- Bytes that make up whole words. -/
structure Words where
  bytes : List UInt8
  aligned : bytes.length % 4 = 0
  deriving DecidableEq

namespace Words

def empty : Words := ⟨[], rfl⟩

def append (v w : Words) : Words where
  bytes := v.bytes ++ w.bytes
  aligned := by
    have hv := v.aligned
    have hw := w.aligned
    rw [List.length_append]
    omega

instance : Append Words := ⟨append⟩

@[simp] theorem bytes_append (v w : Words) : (v ++ w).bytes = v.bytes ++ w.bytes := rfl

def u32 (val : Nat) : Words := ⟨writeU32 val, by simp⟩

def obj (val : Nat) : Words := ⟨writeObj val, by simp⟩

def i32 (val : Int) : Words := ⟨writeI32 val, by simp⟩

def array (s : List UInt8) : Words := ⟨writeArray s, by rw [length_writeArray]; exact lengthArray_mod _⟩

def string (s : List UInt8) : Words :=
  ⟨writeString (some s), by rw [length_writeString]; exact lengthString_mod _⟩

/-- The words, if they fit into a message with its header. -/
def fitted (args : Words) : Words := if 8 + args.bytes.length < 2 ^ 16 then args else empty

theorem length_fitted (args : Words) : 8 + args.fitted.bytes.length < 2 ^ 16 := by
  unfold fitted
  split
  · assumption
  · decide

end Words

/-- A message as it is handed to translation: whole words, of the length that its header says. -/
structure WaylandMsg where
  bytes : List UInt8
  aligned : bytes.length % 4 = 0
  hasHeader : 8 ≤ bytes.length
  framed : leNat ((bytes.drop 4).take 4) / 2 ^ 16 = bytes.length

namespace WaylandMsg

def length (msg : WaylandMsg) : Nat := msg.bytes.length

def words (msg : WaylandMsg) : Words := ⟨msg.bytes, msg.aligned⟩

def objectId (msg : WaylandMsg) : Nat := leNat (msg.bytes.take 4)

/-- The second word of the header: length, count of file descriptors and opcode. -/
def header2 (msg : WaylandMsg) : Nat := leNat ((msg.bytes.drop 4).take 4)

/-- The message with the given arguments, as a program sends it; arguments that do not fit into a
message are left out. -/
def make (objectId opcode : Nat) (args : Words) : WaylandMsg where
  bytes := u32le objectId ++ u32le ((8 + args.fitted.bytes.length) * 2 ^ 16 + opcode % 2 ^ 16) ++
    args.fitted.bytes
  aligned := by
    have ha := args.fitted.aligned
    simp only [List.length_append, length_u32le]
    omega
  hasHeader := by
    simp only [List.length_append, length_u32le]
    omega
  framed := by
    have hlen := args.length_fitted
    rw [List.append_assoc, List.drop_left' (length_u32le _), List.take_left' (length_u32le _),
      show leNat (u32le _) = _ from leNat_leBytes_of_lt (by omega)]
    simp only [List.length_append, length_u32le]
    omega

end WaylandMsg

/-! ## Writing -/

/-- A message with the given arguments; `length` is the length that is put into the header. -/
def writeMsg (forId length opcode : Nat) (tagFds : Bool) (args : Words) : Res Words :=
  match h : writeHeader forId length opcode (if tagFds then 1 else 0) with
  | .error e => .error e
  | .ok header => .ok ⟨header ++ args.bytes, by
      have h8 := length_writeHeader h
      have ha := args.aligned
      rw [List.length_append]
      omega⟩

theorem writeMsg_eq_ok {forId length opcode : Nat} {tagFds : Bool} {args v : Words}
    (h : writeMsg forId length opcode tagFds args = .ok v) :
    v.bytes.length = 8 + args.bytes.length := by
  unfold writeMsg at h
  split at h
  · cases h
  · rename_i header heq
    cases h
    simp [length_writeHeader heq]

theorem writeMsg_isOk {forId length opcode : Nat} (tagFds : Bool) (args : Words)
    (hlen : length < 2 ^ 16) (hop : opcode < 2 ^ 8) :
    ∃ v, writeMsg forId length opcode tagFds args = .ok v := by
  have hh : writeHeader forId length opcode (if tagFds then 1 else 0) = .ok (u32le forId ++
      u32le (length * 2 ^ 16 + (if tagFds then 1 else 0) * 2 ^ 11 + opcode)) := by
    unfold writeHeader
    rw [assert_of]
    · rfl
    · cases tagFds <;> simp <;> omega
  unfold writeMsg
  split
  · rename_i e heq
    rw [hh] at heq
    cases heq
  · exact ⟨_, rfl⟩

variable (forId : Nat)

def lengthEvtWlRegistryGlobal (interfaceLen : Nat) : Nat := 16 + lengthString interfaceLen

def writeEvtWlRegistryGlobal (forId name : Nat) (interface : List UInt8) (version : Nat) :
    Res Words :=
  writeMsg forId (lengthEvtWlRegistryGlobal interface.length) 0 false
    (.u32 name ++ .string interface ++ .u32 version)

def lengthReqXdgToplevelSetTitle (titleLen : Nat) : Nat := 8 + lengthString titleLen

def writeReqXdgToplevelSetTitle (title : List UInt8) : Res Words :=
  writeMsg forId (lengthReqXdgToplevelSetTitle title.length) 2 false (.string title)

def lengthEvtZwpLinuxDmabufV1Modifier : Nat := 20

def writeEvtZwpLinuxDmabufV1Modifier (forId format modifierHi modifierLo : Nat) : Res Words :=
  writeMsg forId lengthEvtZwpLinuxDmabufV1Modifier 1 false
    (.u32 format ++ .u32 modifierHi ++ .u32 modifierLo)

def lengthReqZwpLinuxBufferParamsV1Add : Nat := 28

def writeReqZwpLinuxBufferParamsV1Add (tagFds : Bool)
    (planeIdx offset stride modifierHi modifierLo : Nat) : Res Words :=
  writeMsg forId lengthReqZwpLinuxBufferParamsV1Add 1 tagFds
    (.u32 planeIdx ++ .u32 offset ++ .u32 stride ++ .u32 modifierHi ++ .u32 modifierLo)

def lengthReqZwpLinuxBufferParamsV1Create : Nat := 24

def writeReqZwpLinuxBufferParamsV1Create (width height : Int) (format flags : Nat) :
    Res Words :=
  writeMsg forId lengthReqZwpLinuxBufferParamsV1Create 2 false
    (.i32 width ++ .i32 height ++ .u32 format ++ .u32 flags)

def lengthReqZwpLinuxBufferParamsV1CreateImmed : Nat := 28

def writeReqZwpLinuxBufferParamsV1CreateImmed (forId bufferId : Nat) (width height : Int)
    (format flags : Nat) : Res Words :=
  writeMsg forId lengthReqZwpLinuxBufferParamsV1CreateImmed 3 false
    (.obj bufferId ++ .i32 width ++ .i32 height ++ .u32 format ++ .u32 flags)

/-- The events that carry a timestamp as three words: the messages differ in opcode only. -/
def writeTimestamp (forId opcode tvSecHi tvSecLo tvNsec : Nat) : Res Words :=
  writeMsg forId 20 opcode false (.u32 tvSecHi ++ .u32 tvSecLo ++ .u32 tvNsec)

def writeEvtExtImageCopyCaptureFrameV1PresentationTime (forId tvSecHi tvSecLo tvNsec : Nat) :
    Res Words :=
  writeTimestamp forId 2 tvSecHi tvSecLo tvNsec

def writeEvtZwlrScreencopyFrameV1Ready (forId tvSecHi tvSecLo tvNsec : Nat) : Res Words :=
  writeTimestamp forId 2 tvSecHi tvSecLo tvNsec

def writeReqWpCommitTimerV1SetTimestamp (forId tvSecHi tvSecLo tvNsec : Nat) : Res Words :=
  writeTimestamp forId 0 tvSecHi tvSecLo tvNsec

def writeEvtWpPresentationFeedbackPresented
    (forId tvSecHi tvSecLo tvNsec refresh seqHi seqLo flags : Nat) : Res Words :=
  writeMsg forId 36 1 false (.u32 tvSecHi ++ .u32 tvSecLo ++ .u32 tvNsec ++ .u32 refresh ++
    .u32 seqHi ++ .u32 seqLo ++ .u32 flags)

/-- Length of a message whose only argument is an array. -/
def lengthOfArrayMsg (arrLen : Nat) : Nat := 8 + lengthArray arrLen

/-- A message whose only argument is an array. -/
def writeArrayMsg (forId opcode : Nat) (arr : List UInt8) : Res Words :=
  writeMsg forId (lengthOfArrayMsg arr.length) opcode false (.array arr)

def lengthEvtExtImageCopyCaptureSessionV1DmabufDevice (deviceLen : Nat) : Nat :=
  lengthOfArrayMsg deviceLen

def writeEvtExtImageCopyCaptureSessionV1DmabufDevice (device : List UInt8) :
    Res Words :=
  writeArrayMsg forId 2 device

def lengthEvtExtImageCopyCaptureSessionV1DmabufFormat (modifiersLen : Nat) : Nat :=
  12 + lengthArray modifiersLen

def writeEvtExtImageCopyCaptureSessionV1DmabufFormat (forId format : Nat)
    (modifiers : List UInt8) : Res Words :=
  writeMsg forId (lengthEvtExtImageCopyCaptureSessionV1DmabufFormat modifiers.length) 3 false
    (.u32 format ++ .array modifiers)

def lengthEvtExtImageCopyCaptureSessionV1Done : Nat := 8

def writeEvtExtImageCopyCaptureSessionV1Done : Res Words :=
  writeMsg forId lengthEvtExtImageCopyCaptureSessionV1Done 4 false .empty

def lengthEvtZwpLinuxDmabufFeedbackV1Done : Nat := 8

def writeEvtZwpLinuxDmabufFeedbackV1Done : Res Words :=
  writeMsg forId lengthEvtZwpLinuxDmabufFeedbackV1Done 0 false .empty

def lengthEvtZwpLinuxDmabufFeedbackV1FormatTable : Nat := 12

def writeEvtZwpLinuxDmabufFeedbackV1FormatTable (tagFds : Bool) (size : Nat) :
    Res Words :=
  writeMsg forId lengthEvtZwpLinuxDmabufFeedbackV1FormatTable 1 tagFds (.u32 size)

def lengthEvtZwpLinuxDmabufFeedbackV1MainDevice (deviceLen : Nat) : Nat :=
  lengthOfArrayMsg deviceLen

def writeEvtZwpLinuxDmabufFeedbackV1MainDevice (device : List UInt8) : Res Words :=
  writeArrayMsg forId 2 device

def lengthEvtZwpLinuxDmabufFeedbackV1TrancheDone : Nat := 8

def writeEvtZwpLinuxDmabufFeedbackV1TrancheDone : Res Words :=
  writeMsg forId lengthEvtZwpLinuxDmabufFeedbackV1TrancheDone 3 false .empty

def lengthEvtZwpLinuxDmabufFeedbackV1TrancheTargetDevice (deviceLen : Nat) : Nat :=
  lengthOfArrayMsg deviceLen

def writeEvtZwpLinuxDmabufFeedbackV1TrancheTargetDevice (device : List UInt8) :
    Res Words :=
  writeArrayMsg forId 4 device

def lengthEvtZwpLinuxDmabufFeedbackV1TrancheFormats (indicesLen : Nat) : Nat :=
  lengthOfArrayMsg indicesLen

def writeEvtZwpLinuxDmabufFeedbackV1TrancheFormats (indices : List UInt8) :
    Res Words :=
  writeArrayMsg forId 5 indices

def lengthEvtZwpLinuxDmabufFeedbackV1TrancheFlags : Nat := 12

def writeEvtZwpLinuxDmabufFeedbackV1TrancheFlags (forId flags : Nat) : Res Words :=
  writeMsg forId lengthEvtZwpLinuxDmabufFeedbackV1TrancheFlags 6 false (.u32 flags)

/-! ## Parsing -/

/-- A string that must not be null. -/
def parseSomeString : ArgParser (List UInt8) := do
  match ← parseString with
  | some s => return s
  | none => throw PARSE_ERROR

/-- The arguments of a message; failures become errors of the caller. -/
def parseArgs {α : Type} (args : ArgParser α) (msg : WaylandMsg) : Res α :=
  match parseMsg args msg.bytes with
  | .ok a => .ok a
  | .error e => .error (.err e)

variable (msg : WaylandMsg)

/-! The parsers of the program differ from message to message only in the types of the arguments;
a file descriptor is not part of the bytes. -/

def parseOneObj : Res Nat := parseArgs parseObj msg

def parseTwoObjs : Res (Nat × Nat) := parseArgs (do return (← parseObj, ← parseObj)) msg

def parseOneU32 : Res Nat := parseArgs parseU32 msg

def parseTwoU32s : Res (Nat × Nat) := parseArgs (do return (← parseU32, ← parseU32)) msg

def parseThreeU32s : Res (Nat × Nat × Nat) :=
  parseArgs (do return (← parseU32, ← parseU32, ← parseU32)) msg

def parseOneI32 : Res Int := parseArgs parseI32 msg

def parseFourI32s : Res (Int × Int × Int × Int) :=
  parseArgs (do return (← parseI32, ← parseI32, ← parseI32, ← parseI32)) msg

def parseOneArray : Res (List UInt8) := parseArgs parseArray msg

def parseSyncPoint : Res (Nat × Nat × Nat) :=
  parseArgs (do return (← parseObj, ← parseU32, ← parseU32)) msg

def parseEvtWlDisplayDeleteId := parseOneU32 msg

def parseReqWlDisplayGetRegistry := parseOneObj msg

def parseReqWlShmCreatePool : Res (Nat × Int) :=
  parseArgs (do return (← parseObj, ← parseI32)) msg

def parseReqWlShmPoolCreateBuffer : Res (Nat × Int × Int × Int × Int × Nat) :=
  parseArgs (do return (← parseObj, ← parseI32, ← parseI32, ← parseI32, ← parseI32, ← parseU32)) msg

def parseReqWlShmPoolResize := parseOneI32 msg

def parseReqWlCompositorCreateSurface := parseOneObj msg

def parseReqWlSurfaceAttach : Res (Nat × Int × Int) :=
  parseArgs (do return (← parseObj, ← parseI32, ← parseI32)) msg

def parseReqWlSurfaceSetBufferScale := parseOneI32 msg

def parseReqWlSurfaceSetBufferTransform := parseOneI32 msg

def parseReqWlSurfaceDamage := parseFourI32s msg

def parseReqWlSurfaceDamageBuffer := parseFourI32s msg

def parseReqWlSurfaceCommit : Res Unit :=
  if msg.length ≠ 8 then .error (.err PARSE_ERROR) else .ok ()

def parseReqWpViewporterGetViewport := parseTwoObjs msg

def parseReqWpViewportSetDestination : Res (Int × Int) :=
  parseArgs (do return (← parseI32, ← parseI32)) msg

def parseReqWpViewportSetSource := parseFourI32s msg

def parseReqWpLinuxDrmSyncobjManagerV1GetSurface := parseTwoObjs msg

def parseReqWpLinuxDrmSyncobjManagerV1ImportTimeline := parseOneObj msg

def parseReqWpLinuxDrmSyncobjSurfaceV1SetAcquirePoint := parseSyncPoint msg

def parseReqWpLinuxDrmSyncobjSurfaceV1SetReleasePoint := parseSyncPoint msg

def parseEvtZwpLinuxDmabufV1Format := parseOneU32 msg

def parseEvtZwpLinuxDmabufV1Modifier := parseThreeU32s msg

def parseReqZwpLinuxDmabufV1CreateParams := parseOneObj msg

def parseReqZwpLinuxBufferParamsV1Add : Res (Nat × Nat × Nat × Nat × Nat) :=
  parseArgs (do return (← parseU32, ← parseU32, ← parseU32, ← parseU32, ← parseU32)) msg

def parseReqZwpLinuxBufferParamsV1CreateImmed : Res (Nat × Int × Int × Nat × Nat) :=
  parseArgs (do return (← parseObj, ← parseI32, ← parseI32, ← parseU32, ← parseU32)) msg

def parseReqZwpLinuxBufferParamsV1Create : Res (Int × Int × Nat × Nat) :=
  parseArgs (do return (← parseI32, ← parseI32, ← parseU32, ← parseU32)) msg

def parseEvtZwpLinuxBufferParamsV1Created := parseOneObj msg

def parseReqZwpLinuxDmabufV1GetDefaultFeedback := parseOneObj msg

def parseReqZwpLinuxDmabufV1GetSurfaceFeedback := parseTwoObjs msg

def parseEvtZwpLinuxDmabufFeedbackV1FormatTable := parseOneU32 msg

def parseEvtZwpLinuxDmabufFeedbackV1MainDevice := parseOneArray msg

def parseEvtZwpLinuxDmabufFeedbackV1TrancheFlags := parseOneU32 msg

def parseEvtZwpLinuxDmabufFeedbackV1TrancheTargetDevice := parseOneArray msg

def parseEvtZwpLinuxDmabufFeedbackV1TrancheFormats := parseOneArray msg

def parseEvtWlKeyboardKeymap := parseTwoU32s msg

def parseEvtWpImageDescriptionInfoV1IccFile := parseOneU32 msg

def parseReqWpImageDescriptionCreatorIccV1SetIccFile := parseTwoU32s msg

def parseReqZwlrGammaControlManagerV1GetGammaControl := parseTwoObjs msg

def parseEvtZwlrGammaControlV1GammaSize := parseOneU32 msg

def parseReqZwlrScreencopyManagerV1CaptureOutputRegion :
    Res (Nat × Int × Nat × Int × Int × Int × Int) :=
  parseArgs (do return (← parseObj, ← parseI32, ← parseObj, ← parseI32, ← parseI32, ← parseI32,
    ← parseI32)) msg

def parseReqZwlrScreencopyManagerV1CaptureOutput : Res (Nat × Int × Nat) :=
  parseArgs (do return (← parseObj, ← parseI32, ← parseObj)) msg

def parseReqExtImageCopyCaptureManagerV1CreateSession : Res (Nat × Nat × Nat) :=
  parseArgs (do return (← parseObj, ← parseObj, ← parseU32)) msg

def parseReqExtImageCopyCaptureCursorSessionV1GetCaptureSession := parseOneObj msg

def parseEvtExtImageCopyCaptureSessionV1DmabufDevice := parseOneArray msg

def parseEvtExtImageCopyCaptureSessionV1DmabufFormat : Res (Nat × List UInt8) :=
  parseArgs (do return (← parseU32, ← parseArray)) msg

def parseReqExtImageCopyCaptureSessionV1CreateFrame := parseOneObj msg

def parseReqZwlrScreencopyFrameV1Copy := parseOneObj msg

def parseReqZwlrScreencopyFrameV1CopyWithDamage := parseOneObj msg

def parseReqExtImageCopyCaptureFrameV1AttachBuffer := parseOneObj msg

def parseEvtZwlrScreencopyFrameV1Ready := parseThreeU32s msg

def parseEvtExtImageCopyCaptureFrameV1PresentationTime := parseThreeU32s msg

def parseReqXdgToplevelSetTitle : Res (List UInt8) :=
  parseArgs parseSomeString msg

def parseReqXdgToplevelIconV1AddBuffer : Res (Nat × Int) :=
  parseArgs (do return (← parseObj, ← parseI32)) msg

def parseEvtWpPresentationFeedbackPresented : Res (Nat × Nat × Nat × Nat × Nat × Nat × Nat) :=
  parseArgs (do return (← parseU32, ← parseU32, ← parseU32, ← parseU32, ← parseU32, ← parseU32,
    ← parseU32)) msg

def parseEvtWpPresentationClockId := parseOneU32 msg

def parseReqWpCommitTimerV1SetTimestamp := parseThreeU32s msg

def parseEvtWlRegistryGlobal : Res (Nat × List UInt8 × Nat) :=
  parseArgs (do return (← parseU32, ← parseSomeString, ← parseU32)) msg

def parseReqWlRegistryBind : Res (Nat × List UInt8 × Nat × Nat) :=
  parseArgs (do return (← parseU32, ← parseSomeString, ← parseU32, ← parseObj)) msg

end Waypipe.Wayland
