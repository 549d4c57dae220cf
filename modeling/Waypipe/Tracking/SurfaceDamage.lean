import Waypipe.Damage
import Waypipe.Formats
import Waypipe.Tracking.Objects
import Waypipe.Wayland.Codec

/-!
# Damage of surfaces and buffers

How the damage requests of a surface become damaged bytes of the buffer that is attached to it: the
coordinate transforms between surface and buffer, the damage accumulated since a buffer was last
committed, and the memory that a buffer takes up.
-/

namespace Waypipe

/-! ## Fixed width integers -/

def I32_MAX : Int := 2 ^ 31 - 1

/-- `i32::saturating_add` -/
def satAddI32 (a b : Int) : Int := max (-2 ^ 31) (min (a + b) I32_MAX)

/-- `Ord::clamp`, which panics on an empty range. -/
def clamp (v lo hi : Int) : Res Int := do
  assert (lo ≤ hi) "min <= max"
  return max lo (min v hi)

/-- Conversion of a signed number to `u32`. -/
def asU32 (n : Int) : Nat := (n % 2 ^ 32).toNat

/-- Conversion of a signed number to `u64`. -/
def asU64 (n : Int) : Nat := (n % 2 ^ 64).toNat

/-- `u32::checked_mul(..).unwrap()` -/
def mulU32 (a b : Nat) : Res Nat :=
  if a * b < 2 ^ 32 then .ok (a * b) else .error (.panic "called unwrap() on a None value")

/-! ## Rectangles in surface and buffer coordinates -/

def clipWlrectToBuffer (a : WlRect) (w h : Int) : Res (Option Rect) := do
  let nx1 ← clamp a.x 0 w
  let nx2 ← clamp (satAddI32 a.x a.width) 0 w
  let ny1 ← clamp a.y 0 h
  let ny2 ← clamp (satAddI32 a.y a.height) 0 h
  return if nx1 < nx2 ∧ ny1 < ny2 then
    some { x1 := asU32 nx1, x2 := asU32 nx2, y1 := asU32 ny1, y2 := asU32 ny2 }
  else none

/-- `floor(v * src_sz / dst + src_offset)`, where the last two are in fixed point. -/
def sourceFloor (v dst srcSzFixed srcOffsetFixed : Int) : Nat :=
  (asU64 v * asU64 srcSzFixed / asU64 dst + asU64 srcOffsetFixed) / 256 % 2 ^ 32

def sourceCeil (v dst srcSzFixed srcOffsetFixed : Int) : Nat :=
  ceildiv (ceildiv (asU64 v * asU64 srcSzFixed) (asU64 dst) + asU64 srcOffsetFixed) 256 % 2 ^ 32

/-- Size of the surface: the viewport destination, or the size of what it is cropped to. -/
def viewportSize (bufferSize : Int × Int) (viewSrc : Option (Int × Int × Int × Int))
    (viewDst : Option (Int × Int)) : Int × Int :=
  match viewDst, viewSrc with
  | some x, _ => x
  | none, some (_, _, w, h) =>
    (Wayland.toI32 (ceildiv (asU32 w) 256), Wayland.toI32 (ceildiv (asU32 h) 256))
  | none, none => bufferSize

def applyViewportTransform (a : WlRect) (bufferSize : Int × Int)
    (viewSrc : Option (Int × Int × Int × Int)) (viewDst : Option (Int × Int)) :
    Res (Option Rect) := do
  assert (0 ≤ a.width && 0 ≤ a.height) "a.width >= 0 && a.height >= 0"
  let dst := viewportSize bufferSize viewSrc viewDst
  let x1 ← clamp a.x 0 dst.1
  let x2 ← clamp (satAddI32 a.x a.width) 0 dst.1
  let y1 ← clamp a.y 0 dst.2
  let y2 ← clamp (satAddI32 a.y a.height) 0 dst.2
  if x2 ≤ x1 ∨ y2 ≤ y1 then return none
  match viewSrc with
  | some (vx, vy, vw, vh) =>
    assert (0 ≤ vx && 0 ≤ vy && 0 < vw && 0 < vh) "v.0 >= 0 && v.1 >= 0 && v.2 > 0 && v.3 > 0"
    let sx1 := min (sourceFloor x1 dst.1 vw vx) (asU32 bufferSize.1)
    let sx2 := min (sourceCeil x2 dst.1 vw vx) (asU32 bufferSize.1)
    let sy1 := min (sourceFloor y1 dst.2 vh vy) (asU32 bufferSize.2)
    let sy2 := min (sourceCeil y2 dst.2 vh vy) (asU32 bufferSize.2)
    return if sx2 ≤ sx1 ∨ sy2 ≤ sy1 then none else some { x1 := sx1, x2 := sx2, y1 := sy1, y2 := sy2 }
  | none =>
    return some {
      x1 := asU64 x1 * asU64 bufferSize.1 / asU64 dst.1 % 2 ^ 32
      x2 := ceildiv (asU64 x2 * asU64 bufferSize.1) (asU64 dst.1) % 2 ^ 32
      y1 := asU64 y1 * asU64 bufferSize.2 / asU64 dst.2 % 2 ^ 32
      y2 := ceildiv (asU64 y2 * asU64 bufferSize.2) (asU64 dst.2) % 2 ^ 32 }

/-- Each transform is a set of reflections. -/
structure Reflections where
  swapXy : Bool
  flipX : Bool
  flipY : Bool
  deriving DecidableEq, Repr

def WlOutputTransform.reflections : WlOutputTransform → Reflections
  | normal => ⟨false, false, false⟩
  | item90 => ⟨true, true, false⟩
  | item180 => ⟨false, true, true⟩
  | item270 => ⟨true, false, true⟩
  | flipped => ⟨false, true, false⟩
  | flipped90 => ⟨true, false, false⟩
  | flipped180 => ⟨false, false, true⟩
  | flipped270 => ⟨true, true, true⟩

/-- Mirror the interval `[lo, hi)` in `[0, size)`. -/
def flip (size lo hi : Nat) : Res (Nat × Nat) := do
  return (← checkedSub size hi, ← checkedSub size lo)

/-- Surface coordinates to coordinates of the buffer with the given attachment. -/
def applyDamageRectTransform (a : WlRect) (att : BufferAttachment) (width height : Int) :
    Res (Option Rect) := do
  let r := att.transform.reflections
  let scaled := (width.tdiv att.scale, height.tdiv att.scale)
  let preVpSize := if r.swapXy then scaled.swap else scaled
  match ← applyViewportTransform a preVpSize att.viewportSrc att.viewportDst with
  | none => return none
  | some b =>
    let x := (← mulU32 b.x1 att.scale, ← mulU32 b.x2 att.scale)
    let y := (← mulU32 b.y1 att.scale, ← mulU32 b.y2 att.scale)
    let endW := asU32 (if r.swapXy then height else width)
    let endH := asU32 (if r.swapXy then width else height)
    let x ← if r.flipX then flip endW x.1 x.2 else pure x
    let y ← if r.flipY then flip endH y.1 y.2 else pure y
    let (x, y) := if r.swapXy then (y, x) else (x, y)
    return some { x1 := x.1, x2 := x.2, y1 := y.1, y2 := y.2 }

/-- `u64::clamp` to the source range, relative to its start. -/
def clampFrom (v lo len : Nat) : Nat := max lo (min v (lo + len)) - lo

def inverseViewportTransform (a : Rect) (bufferSize : Int × Int)
    (viewSrc : Option (Int × Int × Int × Int)) (viewDst : Option (Int × Int)) :
    Res (Option WlRect) := do
  assert (0 < bufferSize.1 && 0 < bufferSize.2) "buffer_size.0 > 0 && buffer_size.1 > 0"
  assert (a.x1 < a.x2 && a.y1 < a.y2 && a.x2 ≤ asU32 bufferSize.1 && a.y2 ≤ asU32 bufferSize.2)
    "a.x1 < a.x2 && a.y1 < a.y2 && a.x2 <= buffer_size.0 as u32 && a.y2 <= buffer_size.1 as u32"
  let src := match viewSrc with
    | some (sx, sy, sw, sh) => (asU64 sx, asU64 sy, asU64 sw, asU64 sh)
    | none => (0, 0, asU64 bufferSize.1 * 256, asU64 bufferSize.2 * 256)
  assert (viewSrc.all fun (sx, sy, sw, sh) => 0 ≤ sx && 0 ≤ sy && 0 < sw && 0 < sh)
    "sx >= 0 && sy >= 0 && sw > 0 && sh > 0"
  -- in fixed point, clipped to the source
  let x1 := clampFrom (a.x1 * 256) src.1 src.2.2.1
  let x2 := clampFrom (a.x2 * 256) src.1 src.2.2.1
  let y1 := clampFrom (a.y1 * 256) src.2.1 src.2.2.2
  let y2 := clampFrom (a.y2 * 256) src.2.1 src.2.2.2
  if viewSrc.isSome ∧ (x2 ≤ x1 ∨ y2 ≤ y1) then return none
  assert (viewDst.all fun (dw, dh) => 0 < dw && 0 < dh) "dw > 0 && dh > 0"
  let dst := viewportSize bufferSize viewSrc viewDst
  let xl := x1 * asU32 dst.1 / src.2.2.1
  let xh := ceildiv (x2 * asU32 dst.1) src.2.2.1
  let yl := y1 * asU32 dst.2 / src.2.2.2
  let yh := ceildiv (y2 * asU32 dst.2) src.2.2.2
  assert (xl < xh && yl < yh) "xh > xl && yh > yl"
  assert (xh < 2 ^ 31 && yh < 2 ^ 31) "xh <= i32::MAX as _ && yh <= i32::MAX as _"
  return some { x := xl, y := yl, width := xh - xl, height := yh - yl }

/-- Buffer coordinates to surface coordinates. -/
def inverseDamageRectTransform (a : WlRect) (att : BufferAttachment) : Res (Option WlRect) := do
  let (bufWidth, bufHeight) := att.bufferSize
  assert (0 < bufWidth && 0 < bufHeight && 0 < att.scale)
    "buf_width > 0 && buf_height > 0 && scale > 0"
  assert (0 < a.width && 0 < a.height) "a.width > 0 && a.height > 0"
  let r := att.transform.reflections
  let x := (asU32 (← clamp a.x 0 bufWidth), asU32 (← clamp (satAddI32 a.x a.width) 0 bufWidth))
  let y := (asU32 (← clamp a.y 0 bufHeight), asU32 (← clamp (satAddI32 a.y a.height) 0 bufHeight))
  if x.2 ≤ x.1 ∨ y.2 ≤ y.1 then return none
  let (endW, endH) := if r.swapXy then (asU32 bufHeight, asU32 bufWidth)
    else (asU32 bufWidth, asU32 bufHeight)
  let (x, y) := if r.swapXy then (y, x) else (x, y)
  let y ← if r.flipY then flip endH y.1 y.2 else pure y
  let x ← if r.flipX then flip endW x.1 x.2 else pure x
  let postVpSize := (Wayland.toI32 (ceildiv endW att.scale), Wayland.toI32 (ceildiv endH att.scale))
  inverseViewportTransform
    { x1 := x.1 / att.scale, x2 := ceildiv x.2 att.scale,
      y1 := y.1 / att.scale, y2 := ceildiv y.2 att.scale }
    postVpSize att.viewportSrc att.viewportDst

/-! ## Memory of a buffer -/

/-- A `usize` sum or product, `none` on overflow. -/
def usizeOpt (n : Nat) : Option Nat := if n ≤ USIZE_MAX then some n else none

/-- One step of the loop over the planes: end of the planes so far, and longest row. -/
def extendByPlane (buffer : ObjWlBufferShm) (first : PlaneLayout) (extStride : Nat)
    (acc : Nat × Nat) (plane : PlaneLayout) : Option (Nat × Nat) := do
  let planeStride := ceildiv (← usizeOpt (extStride * plane.bpt)) (first.bpt * plane.hsub)
  let planeHeight := ceildiv (asU64 buffer.height) plane.vsub
  let rowLen := ceildiv (← usizeOpt (asU64 buffer.width * plane.bpt)) plane.hsub
  let stop ← usizeOpt (acc.1 + (← usizeOpt (planeHeight * planeStride)))
  return (stop, max acc.2 rowLen)

/-- First byte and end of a buffer in its pool; `none` on overflow. -/
def extentForLinearBuffer (buffer : ObjWlBufferShm) (layout : FormatLayout) :
    Res (Option (Nat × Nat)) := do
  assert (0 ≤ buffer.offset) "offset nonnegative"
  assert (0 ≤ buffer.stride && 0 < buffer.width && 0 < buffer.height)
    "buffer.stride >= 0 && buffer.width > 0 && buffer.height > 0"
  let start := buffer.offset.toNat
  return do
    let extStride ← usizeOpt (buffer.stride.toNat * layout.first.hsub)
    let (stop, maxRowLen) ←
      layout.planes.foldlM (extendByPlane buffer layout.first extStride) (start, 0)
    return (start, max stop (← usizeOpt (start + maxRowLen)))

def damageForEntireBuffer (buffer : ObjWlBufferShm) : Res (Nat × Nat) := do
  let maxEndpoint := 64 * (USIZE_MAX / 64)
  let unknown := (64 * (asU64 buffer.offset / 64), maxEndpoint)
  match getShmFormatLayout buffer.format with
  | none => return unknown
  | some layout => match ← extentForLinearBuffer buffer layout with
    | none => return unknown
    | some (start, stop) => return (64 * (start / 64), align (min stop maxEndpoint) 64)

/-! ## Damage since the last commit of a buffer -/

/-- The damage of one batch, in coordinates of the buffer that is now attached.  Rectangles given
in coordinates of an earlier buffer go through surface coordinates. -/
def batchRects (attachment : BufferAttachment) (batch : DamageBatch) (current : Bool) :
    Res (List Rect) := do
  let (width, height) := attachment.bufferSize
  let fromBuffer ← batch.damageBuffer.filterMapM fun w =>
    if current then clipWlrectToBuffer w width height
    else do match ← inverseDamageRectTransform w batch.attachment with
      | none => return none
      | some s => applyDamageRectTransform s attachment width height
  let fromSurface ← batch.damage.filterMapM fun w =>
    applyDamageRectTransform w attachment width height
  return fromBuffer ++ fromSurface

/-- The areas damaged since the buffer was last committed; everything if it was not, or not with
the same attachment. -/
def getDamageRects (surface : ObjWlSurface) (attachment : BufferAttachment) : Res (List Rect) := do
  let (width, height) := attachment.bufferSize
  assert (0 < width && 0 < height) "width > 0 && height > 0"
  let fullDamage : Rect := { x1 := 0, x2 := asU32 width, y1 := 0, y2 := asU32 height }
  let batches := surface.damageHistory.toList
  let firstIdx := 1 + (batches.drop 1).findIdx fun x => x.attachment.bufferUid = attachment.bufferUid
  match batches[firstIdx]? with
  | none => return [fullDamage]
  | some last =>
    if last.attachment ≠ attachment then return [fullDamage]
    return (← (batches.take firstIdx).zipIdx.mapM fun (batch, i) =>
      batchRects attachment batch (i == 0)).flatten

/-- Whether damage can be computed per pixel: one plane of single pixels. -/
def FormatLayout.simpleBpp (layout : FormatLayout) : Option Nat :=
  let p0 := layout.first
  if layout.others = [] ∧ p0.hsub = 1 ∧ p0.vsub = 1 ∧ p0.htex = 1 ∧ p0.vtex = 1 then some p0.bpt
  else none

def getDamageForShm (buffer : ObjWlBuffer) (surface : ObjWlSurface)
    (attachment : BufferAttachment) : Res (List (Nat × Nat)) :=
  match buffer.shmInfo with
  | none => .error (.panic "explicit panic")
  | some shmInfo => match (getShmFormatLayout shmInfo.format).bind FormatLayout.simpleBpp with
    | none => do return [← damageForEntireBuffer shmInfo]
    | some bpp => do
      let rects ← getDamageRects surface attachment
      assert (0 ≤ shmInfo.offset && 0 ≤ shmInfo.stride) "called unwrap() on an Err value"
      computeDamagedSegments rects
        { offset := shmInfo.offset.toNat, stride := shmInfo.stride.toNat, bpp, alignBits := 6 } 128

def getDamageForDmabuf (sfdd : ShadowFdDmabuf) (surface : ObjWlSurface)
    (attachment : BufferAttachment) : Res (List (Nat × Nat)) := do
  let nomLen := sfdd.buf.nominalSize sfdd.viewRowStride
  assert (sfdd.drmFormat ≠ WlShmFormat.code .xrgb8888 && sfdd.drmFormat ≠ WlShmFormat.code .argb8888)
    "drm format"
  match (getShmFormatLayout (drmToWayland sfdd.drmFormat)).bind FormatLayout.simpleBpp with
  | none => return [(0, align nomLen 64)]
  | some bpp =>
    let rects ← getDamageRects surface attachment
    let stride := sfdd.viewRowStride.getD (sfdd.buf.width * bpp)
    computeDamagedSegments rects { offset := 0, stride, bpp, alignBits := 6 } 128

/-- Add intervals to the recorded damage; they are only computed when not everything is damaged
already. -/
def Damage.add (damage : Damage) (dmg : Res (List (Nat × Nat))) : Res Damage :=
  match damage with
  | .everything => .ok .everything
  | .intervals old => do return .intervals (← unionDamage old (← dmg) 128)

end Waypipe
