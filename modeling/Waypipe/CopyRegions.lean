import Mathlib.Data.List.Perm.Basic
import Mathlib.Data.List.ProdSigma
import Mathlib.Data.List.Nodup
import Waypipe.Lib.Loops
import Waypipe.Util

/-!
# Copy regions

The GPU copies rectangles of an image to or from a buffer.  `makeCopyRegions` turns segments of the
linear view of an image, in which a row takes `rowLength` bytes, into such rectangles: what is left of
the first row, the rows in the middle, and the start of the last row.  Each texel of the image that is
in a segment is copied once, to or from its place in the buffer (`makeCopyRegions_exact`).
-/

namespace Waypipe

open List

/-! ## Segments and regions -/

/-- A part `start..stop` of the linear view, and where its contents are in the buffer. -/
structure CopySegment where
  sourceOffset : Nat
  start : Nat
  stop : Nat
  deriving DecidableEq, Repr

/-- `vk::BufferImageCopy`, for a single layer; `bufferRowLength` is in texels.  The source casts `x`
and `y` to `i32`. -/
structure CopyRegion where
  bufferOffset : Nat
  bufferRowLength : Nat
  x : Nat
  y : Nat
  width : Nat
  height : Nat
  deriving DecidableEq, Repr

def addU32 (a b : Nat) : Nat := (a + b) % 2 ^ 32

/-- The regions from a texel `startPos` of one row up to the texel `endPos` of another; the first is
at `sourceOffset` in the buffer. -/
def spanRegions (bpp rowLength w sourceOffset startPos startRow endPos endRow : Nat) :
    Res (List CopyRegion) := do
  let region (bufferOffset x y width height : Nat) : CopyRegion :=
    { bufferOffset, bufferRowLength := rowLength / bpp, x, y, width, height }
  if endRow < startRow ∨ startRow = endRow ∧ endPos ≤ startPos then return []
  else if startRow = endRow then
    return [region sourceOffset startPos startRow (endPos - startPos) 1]
  else
    let midStart := if startPos = 0 then startRow else startRow + 1
    let midRowStart :=
      if startPos = 0 then sourceOffset else addU32 sourceOffset (rowLength - startPos * bpp)
    let midEnd := if w ≤ endPos then endRow else endRow - 1
    assert (midStart ≤ midEnd + 1)
      s!"{startPos} {startRow} {endPos} {endRow} => {midEnd} {midStart}"
    return (if 0 < startPos then [region sourceOffset startPos startRow (w - startPos) 1] else []) ++
      ((if midStart ≤ midEnd then [region midRowStart 0 midStart w (midEnd + 1 - midStart)] else []) ++
      if endPos < w then
        [region (addU32 midRowStart (rowLength * (midEnd + 1 - midStart))) 0 endRow endPos 1] else [])

/-- One round of the loop of `make_copy_regions`. -/
def segmentRegions (bpp rowLength w : Nat) (s : CopySegment) : Res (List CopyRegion) := do
  let start := s.start
  let stop := s.stop
  assert (rowLength != 0) "attempt to divide by zero"
  let last ← checkedSub stop 1
  assert (start % rowLength % bpp == 0)
    s!"non-{bpp}-aligned interval [{start},{stop}) with row length {rowLength}"
  assert (stop % rowLength % bpp == 0)
    s!"non-{bpp}-aligned interval [{start},{stop}) with row length {rowLength}"
  let startPos := start % rowLength / bpp
  let endPos := min (1 + last % rowLength / bpp) w
  -- a start in the padding is advanced to the next row
  if w ≤ startPos then
    spanRegions bpp rowLength w (addU32 s.sourceOffset (rowLength - startPos * bpp)) 0
      (start / rowLength + 1) endPos (last / rowLength)
  else
    spanRegions bpp rowLength w s.sourceOffset startPos (start / rowLength) endPos (last / rowLength)

/-- The copies for segments of an image that is `w` texels wide, with `bpp` bytes for each. -/
def makeCopyRegions (segments : List CopySegment) (bpp : Nat) (viewRowLength : Option Nat)
    (w : Nat) : Res (List CopyRegion) := do
  let rowLength := viewRowLength.getD (w * bpp % 2 ^ 32)
  assert (w * bpp % 2 ^ 32 ≤ rowLength) "row_length >= img.width * format_info.bpp"
  assert (bpp != 0) "attempt to calculate the remainder with a divisor of zero"
  assert (rowLength % bpp == 0) "row_length % format_info.bpp == 0"
  return (← segments.mapM (segmentRegions bpp rowLength w)).flatten

/-! ## What is copied -/

/-- A texel of the image and an address in the buffer. -/
structure Texel where
  x : Nat
  y : Nat
  address : Nat
  deriving DecidableEq, Repr

/-- The texels of a region, with their addresses in the buffer. -/
def CopyRegion.texels (bpp : Nat) (r : CopyRegion) : List Texel :=
  (range r.height ×ˢ range r.width).map fun p =>
    ⟨r.x + p.2, r.y + p.1, r.bufferOffset + (p.1 * r.bufferRowLength + p.2) * bpp⟩

/-- The texels of an image of `w` times `height` that a segment of its linear view has. -/
def CopySegment.texels (bpp rowLength w height : Nat) (s : CopySegment) : List Texel :=
  ((range height ×ˢ range w).filter fun p =>
    s.start ≤ p.1 * rowLength + p.2 * bpp ∧ p.1 * rowLength + p.2 * bpp < s.stop).map fun p =>
      ⟨p.2, p.1, s.sourceOffset + (p.1 * rowLength + p.2 * bpp - s.start)⟩

def CopyRegion.Covers (r : CopyRegion) (x y : Nat) : Prop :=
  (r.x ≤ x ∧ x < r.x + r.width) ∧ r.y ≤ y ∧ y < r.y + r.height

/-- The region starts at the right place in the buffer. -/
structure CopyRegion.Anchored (bpp rowLength : Nat) (s : CopySegment) (r : CopyRegion) : Prop where
  row : r.bufferRowLength * bpp = rowLength
  offset : r.bufferOffset + s.start = s.sourceOffset + (r.y * rowLength + r.x * bpp)
  start_le : s.start ≤ r.y * rowLength + r.x * bpp
  lt_stop : r.y * rowLength + r.x * bpp < s.stop

/-- Regions, from the first row to the last, that have the texels of a segment. -/
structure Decomposes (bpp rowLength w : Nat) (s : CopySegment) (rs : List CopyRegion) : Prop where
  rows : rs.Pairwise fun r r' => r.y + r.height ≤ r'.y
  anchored : ∀ r ∈ rs, r.Anchored bpp rowLength s
  covers : ∀ x y, (∃ r ∈ rs, r.Covers x y) ↔
    x < w ∧ s.start ≤ y * rowLength + x * bpp ∧ y * rowLength + x * bpp < s.stop

section texels

variable {bpp rowLength w height : Nat} {s : CopySegment} {r : CopyRegion} {rs : List CopyRegion}
  {t : Texel}

theorem CopyRegion.mem_texels (h : r.Anchored bpp rowLength s) :
    t ∈ r.texels bpp ↔ r.Covers t.x t.y ∧
      t.address = s.sourceOffset + (t.y * rowLength + t.x * bpp - s.start) := by
  have hoffset := h.offset
  have hstart := h.start_le
  have haddress : ∀ dy dx, r.bufferOffset + (dy * r.bufferRowLength + dx) * bpp =
      s.sourceOffset + ((r.y + dy) * rowLength + (r.x + dx) * bpp - s.start) := by
    intro dy dx
    have hrow : (dy * r.bufferRowLength + dx) * bpp = dy * rowLength + dx * bpp := by
      rw [Nat.add_mul, Nat.mul_assoc, h.row]
    rw [hrow, Nat.add_mul, Nat.add_mul]
    omega
  constructor
  · intro ht
    obtain ⟨⟨dy, dx⟩, hp, rfl⟩ := mem_map.mp ht
    obtain ⟨hdy, hdx⟩ := mem_product.mp hp
    rw [mem_range] at hdy hdx
    refine ⟨⟨⟨by dsimp only; omega, by dsimp only; omega⟩, by dsimp only; omega,
      by dsimp only; omega⟩, ?_⟩
    exact haddress dy dx
  · rintro ⟨⟨⟨hx₁, hx₂⟩, hy₁, hy₂⟩, ha⟩
    refine mem_map.mpr ⟨(t.y - r.y, t.x - r.x), mem_product.mpr ⟨?_, ?_⟩, ?_⟩
    · rw [mem_range]
      omega
    · rw [mem_range]
      omega
    · have hy : r.y + (t.y - r.y) = t.y := by omega
      have hx : r.x + (t.x - r.x) = t.x := by omega
      dsimp only
      rw [haddress, hx, hy, ← ha]

theorem CopyRegion.texels_nodup : (r.texels bpp).Nodup := by
  refine List.Nodup.map ?_ (nodup_range.product nodup_range)
  rintro ⟨dy, dx⟩ ⟨dy', dx'⟩ h
  obtain ⟨hx, hy, -⟩ := Texel.mk.inj h
  exact Prod.ext (by dsimp only; omega) (by dsimp only; omega)

theorem CopySegment.mem_texels :
    t ∈ s.texels bpp rowLength w height ↔ t.y < height ∧ t.x < w ∧
      (s.start ≤ t.y * rowLength + t.x * bpp ∧ t.y * rowLength + t.x * bpp < s.stop) ∧
      t.address = s.sourceOffset + (t.y * rowLength + t.x * bpp - s.start) := by
  simp only [texels, mem_map, mem_filter, decide_eq_true_eq]
  constructor
  · rintro ⟨⟨y, x⟩, ⟨hp, hin⟩, rfl⟩
    obtain ⟨hy, hx⟩ := mem_product.mp hp
    exact ⟨mem_range.mp hy, mem_range.mp hx, hin, rfl⟩
  · rintro ⟨hy, hx, hin, ha⟩
    refine ⟨(t.y, t.x), ⟨mem_product.mpr ⟨mem_range.mpr hy, mem_range.mpr hx⟩, hin⟩, ?_⟩
    rw [← ha]

theorem CopySegment.texels_nodup : (s.texels bpp rowLength w height).Nodup := by
  refine List.Nodup.map ?_ ((nodup_range.product nodup_range).filter _)
  rintro ⟨y, x⟩ ⟨y', x'⟩ h
  obtain ⟨hx, hy, -⟩ := Texel.mk.inj h
  exact Prod.ext hy hx

theorem Decomposes.texels_nodup (h : Decomposes bpp rowLength w s rs) :
    (rs.flatMap fun r => r.texels bpp).Nodup := by
  refine nodup_flatMap.mpr ⟨fun r _ => r.texels_nodup, ?_⟩
  refine List.Pairwise.imp_of_mem ?_ h.rows
  intro r r' hr hr' hrows t ht ht'
  -- regions of different rows have no texel in common
  obtain ⟨⟨-, -, hy⟩, -⟩ := (CopyRegion.mem_texels (h.anchored r hr)).mp ht
  obtain ⟨⟨-, hy', -⟩, -⟩ := (CopyRegion.mem_texels (h.anchored r' hr')).mp ht'
  omega

/-- Each texel of the segment is copied once, and nothing else. -/
theorem Decomposes.perm (h : Decomposes bpp rowLength w s rs) (hstop : s.stop ≤ height * rowLength) :
    (rs.flatMap fun r => r.texels bpp).Perm (s.texels bpp rowLength w height) := by
  refine (perm_ext_iff_of_nodup h.texels_nodup CopySegment.texels_nodup).mpr fun t => ?_
  rw [CopySegment.mem_texels, mem_flatMap]
  constructor
  · rintro ⟨r, hr, ht⟩
    obtain ⟨hcovers, ha⟩ := (CopyRegion.mem_texels (h.anchored r hr)).mp ht
    obtain ⟨hx, hin⟩ := (h.covers t.x t.y).mp ⟨r, hr, hcovers⟩
    refine ⟨?_, hx, hin, ha⟩
    have hlt : t.y * rowLength < height * rowLength := by omega
    exact Nat.lt_of_mul_lt_mul_right hlt
  · rintro ⟨-, hx, hin, ha⟩
    obtain ⟨r, hr, hcovers⟩ := (h.covers t.x t.y).mpr ⟨hx, hin⟩
    exact ⟨r, hr, (CopyRegion.mem_texels (h.anchored r hr)).mpr ⟨hcovers, ha⟩⟩

end texels

/-! ## One segment -/

/-- Offsets are ordered by row, and in a row by column. -/
theorem row_offset_le {n a b c d : Nat} (hb : b < n) (hd : d < n) :
    a * n + b ≤ c * n + d ↔ a < c ∨ a = c ∧ b ≤ d := by
  rcases Nat.lt_trichotomy a c with h | rfl | h
  · have hmul : (a + 1) * n ≤ c * n := Nat.mul_le_mul_right n h
    rw [Nat.succ_mul] at hmul
    exact iff_of_true (by omega) (.inl h)
  · omega
  · have hmul : (c + 1) * n ≤ a * n := Nat.mul_le_mul_right n h
    rw [Nat.succ_mul] at hmul
    exact iff_of_false (by omega) (by omega)

/-- The first texel of a segment, after the padding, and the end of its last row. -/
structure Spans (bpp rowLength w : Nat) (s : CopySegment) (startPos startRow endPos endRow : Nat) :
    Prop where
  startPos_lt : startPos < w ∨ startPos = 0
  endPos_le : endPos ≤ w
  covers : ∀ x y, x < w → ((s.start ≤ y * rowLength + x * bpp ∧ y * rowLength + x * bpp < s.stop) ↔
    (startRow < y ∨ startRow = y ∧ startPos ≤ x) ∧ (y < endRow ∨ y = endRow ∧ x < endPos))
  start_le : s.start ≤ startRow * rowLength + startPos * bpp
  row_lt : endRow * rowLength < s.stop

section segment

variable {bpp rowLength w height : Nat} {s : CopySegment}
  {sourceOffset startPos startRow endPos endRow : Nat}

/-- A single row. -/
theorem Spans.decomposes_one {row : Nat}
    (h : Spans bpp rowLength w s startPos row endPos row) (hdvd : bpp ∣ rowLength)
    (hlt : startPos < endPos)
    (hoffset : sourceOffset + s.start = s.sourceOffset + (row * rowLength + startPos * bpp)) :
    Decomposes bpp rowLength w s
      [{ bufferOffset := sourceOffset, bufferRowLength := rowLength / bpp, x := startPos, y := row,
         width := endPos - startPos, height := 1 }] where
  rows := pairwise_singleton _ _
  anchored := by
    intro r hr
    cases mem_singleton.mp hr
    have hin := (h.covers startPos row (hlt.trans_le h.endPos_le)).mpr (by omega)
    exact ⟨Nat.div_mul_cancel hdvd, hoffset, h.start_le, hin.2⟩
  covers := by
    intro x y
    have hend := h.endPos_le
    simp only [mem_singleton, exists_eq_left, CopyRegion.Covers]
    constructor
    · rintro ⟨⟨hx₁, hx₂⟩, hy₁, hy₂⟩
      have hx : x < w := by omega
      exact ⟨hx, (h.covers x y hx).mpr (by omega)⟩
    · rintro ⟨hx, hin⟩
      have := (h.covers x y hx).mp hin
      omega

theorem pairwise_ite_singleton {α : Type} {R : α → α → Prop} {c : Prop} [Decidable c] (a : α) :
    (if c then [a] else []).Pairwise R := by
  split
  · exact pairwise_singleton _ _
  · exact .nil

/-- What is left of the first row, the rows in the middle, and the start of the last row. -/
theorem Spans.decomposes_rows
    (h : Spans bpp rowLength w s startPos startRow endPos endRow) (hdvd : bpp ∣ rowLength)
    (hlt : startRow < endRow) {midStart midRowStart midEnd lastOffset : Nat}
    (hoffset : sourceOffset + s.start = s.sourceOffset + (startRow * rowLength + startPos * bpp))
    (hmidStart : midStart = if startPos = 0 then startRow else startRow + 1)
    (hmidOffset : midRowStart + s.start = s.sourceOffset + midStart * rowLength)
    (hmid_le : s.start ≤ midStart * rowLength)
    (hmidEnd : midEnd = if w ≤ endPos then endRow else endRow - 1)
    (hlast : endPos < w → lastOffset + s.start = s.sourceOffset + endRow * rowLength) :
    Decomposes bpp rowLength w s
      ((if 0 < startPos then [{
          bufferOffset := sourceOffset, bufferRowLength := rowLength / bpp, x := startPos,
          y := startRow, width := w - startPos, height := 1 }] else []) ++
        ((if midStart ≤ midEnd then [{
          bufferOffset := midRowStart, bufferRowLength := rowLength / bpp, x := 0, y := midStart,
          width := w, height := midEnd + 1 - midStart }] else []) ++
        if endPos < w then [{
          bufferOffset := lastOffset, bufferRowLength := rowLength / bpp, x := 0, y := endRow,
          width := endPos, height := 1 }] else [])) where
  rows := by
    refine pairwise_append.mpr ⟨pairwise_ite_singleton _, pairwise_append.mpr
      ⟨pairwise_ite_singleton _, pairwise_ite_singleton _, ?_⟩, ?_⟩
    · intro r hr r' hr'
      simp only [mem_ite_nil_right, mem_singleton] at hr hr'
      obtain ⟨hle, rfl⟩ := hr
      obtain ⟨hend, rfl⟩ := hr'
      rw [if_neg (by omega)] at hmidEnd
      dsimp only
      omega
    · intro r hr r' hr'
      simp only [mem_append, mem_ite_nil_right, mem_singleton] at hr hr'
      obtain ⟨hpos, rfl⟩ := hr
      rw [if_neg (by omega)] at hmidStart
      obtain ⟨-, rfl⟩ | ⟨-, rfl⟩ := hr'
      · dsimp only
        omega
      · dsimp only
        omega
  anchored := by
    have hrows : midStart * rowLength ≤ endRow * rowLength :=
      Nat.mul_le_mul_right _ (by split at hmidStart <;> omega)
    intro r hr
    simp only [mem_append, mem_ite_nil_right, mem_singleton] at hr
    have hstop := h.row_lt
    obtain ⟨hpos, rfl⟩ | ⟨-, rfl⟩ | ⟨hend, rfl⟩ := hr
    · have hstart := h.startPos_lt
      have hin := (h.covers startPos startRow (by omega)).mpr (by omega)
      exact ⟨Nat.div_mul_cancel hdvd, hoffset, h.start_le, hin.2⟩
    · refine ⟨Nat.div_mul_cancel hdvd, ?_, ?_, ?_⟩ <;> dsimp only <;> omega
    · have hoffset' := hlast hend
      refine ⟨Nat.div_mul_cancel hdvd, ?_, ?_, ?_⟩ <;> dsimp only <;> omega
  covers := by
    intro x y
    have hstart := h.startPos_lt
    have hend := h.endPos_le
    simp only [mem_append, mem_ite_nil_right, mem_singleton, or_and_right, exists_or,
      and_assoc, exists_and_left, exists_eq_left, CopyRegion.Covers]
    constructor
    · intro hcovered
      have hx : x < w := by omega
      refine ⟨hx, (h.covers x y hx).mpr ?_⟩
      split at hmidStart <;> split at hmidEnd <;> omega
    · rintro ⟨hx, hin⟩
      have := (h.covers x y hx).mp hin
      split at hmidStart <;> split at hmidEnd <;> omega

section rows

variable (hbpp : 0 < bpp) (hrow : w * bpp ≤ rowLength)

include hbpp hrow

theorem texel_lt_row {x : Nat} (hx : x < w) : x * bpp < rowLength := by
  have hmul : (x + 1) * bpp ≤ w * bpp := Nat.mul_le_mul_right bpp hx
  rw [Nat.succ_mul] at hmul
  omega

/-- Comparing the start of a segment with a texel. -/
theorem start_le_iff (hal : s.start % rowLength % bpp = 0) (hpos : 0 < rowLength) {x y : Nat}
    (hx : x < w) :
    s.start ≤ y * rowLength + x * bpp ↔
      s.start / rowLength < y ∨ s.start / rowLength = y ∧ s.start % rowLength / bpp ≤ x := by
  have hsplit := (Nat.div_add_mod' s.start rowLength).symm
  have hcol := (Nat.div_mul_cancel (Nat.dvd_of_mod_eq_zero hal)).symm
  have hlex := @row_offset_le rowLength (s.start / rowLength) (s.start % rowLength) y (x * bpp)
    (Nat.mod_lt _ hpos) (texel_lt_row hbpp hrow hx)
  rw [← hsplit] at hlex
  rw [hlex]
  have hle : s.start % rowLength ≤ x * bpp ↔ s.start % rowLength / bpp ≤ x := by
    conv_lhs => rw [hcol]
    exact Nat.mul_le_mul_right_iff hbpp
  rw [hle]

/-- Comparing a texel with the last byte of a segment. -/
theorem lt_stop_iff (hpos : 0 < rowLength) (hstop : 0 < s.stop) {x y : Nat} (hx : x < w) :
    y * rowLength + x * bpp < s.stop ↔
      y < (s.stop - 1) / rowLength ∨
        y = (s.stop - 1) / rowLength ∧ x < 1 + (s.stop - 1) % rowLength / bpp := by
  have hsplit := (Nat.div_add_mod' (s.stop - 1) rowLength).symm
  have hlex := @row_offset_le rowLength y (x * bpp) ((s.stop - 1) / rowLength)
    ((s.stop - 1) % rowLength) (texel_lt_row hbpp hrow hx) (Nat.mod_lt _ hpos)
  rw [← hsplit, ← Nat.le_div_iff_mul_le hbpp] at hlex
  constructor
  · intro h
    have := hlex.mp (by omega)
    omega
  · intro h
    have := hlex.mpr (by omega)
    omega

variable (hdvd : bpp ∣ rowLength)

include hdvd

theorem spanRegions_spec (h : Spans bpp rowLength w s startPos startRow endPos endRow)
    (hfits : s.sourceOffset + (s.stop - s.start) ≤ 2 ^ 32)
    (hoffset : startRow < endRow ∨ startRow = endRow ∧ startPos < endPos →
      sourceOffset + s.start = s.sourceOffset + (startRow * rowLength + startPos * bpp)) :
    ∃ rs, spanRegions bpp rowLength w sourceOffset startPos startRow endPos endRow = .ok rs ∧
      Decomposes bpp rowLength w s rs := by
  unfold spanRegions
  by_cases hempty : endRow < startRow ∨ startRow = endRow ∧ endPos ≤ startPos
  · -- everything is in the padding
    rw [if_pos hempty]
    refine ⟨[], rfl, .nil, fun _ h => (nomatch h), fun x y => ?_⟩
    refine iff_of_false (fun ⟨_, h, _⟩ => nomatch h) ?_
    rintro ⟨hx, hin⟩
    have := (h.covers x y hx).mp hin
    omega
  rw [if_neg hempty]
  by_cases hone : startRow = endRow
  · subst hone
    rw [if_pos rfl]
    have hlt : startPos < endPos := by omega
    exact ⟨_, rfl, h.decomposes_one hdvd hlt (hoffset (.inr ⟨rfl, hlt⟩))⟩
  rw [if_neg hone]
  have hlt : startRow < endRow := by omega
  have hoffset := hoffset (.inl hlt)
  have hcols : startPos * bpp ≤ rowLength := by
    rcases h.startPos_lt with hpos | hpos
    · exact (texel_lt_row hbpp hrow hpos).le
    · simp [hpos]
  have hstart := h.start_le
  have hstop := h.row_lt
  have hnext : (startRow + 1) * rowLength ≤ endRow * rowLength := Nat.mul_le_mul_right _ hlt
  rw [Nat.succ_mul] at hnext
  dsimp only
  generalize hmidStart : (if startPos = 0 then startRow else startRow + 1) = midStart
  generalize hmidRowStart : (if startPos = 0 then sourceOffset
    else addU32 sourceOffset (rowLength - startPos * bpp)) = midRowStart
  generalize hmidEnd : (if w ≤ endPos then endRow else endRow - 1) = midEnd
  have hmid_le : midStart ≤ endRow := by split at hmidStart <;> omega
  have hmid : midRowStart + s.start = s.sourceOffset + midStart * rowLength ∧
      s.start ≤ midStart * rowLength := by
    by_cases hpos : startPos = 0
    · rw [if_pos hpos] at hmidStart hmidRowStart
      rw [hpos, Nat.zero_mul, Nat.add_zero] at hoffset hstart
      rw [← hmidStart, ← hmidRowStart]
      exact ⟨hoffset, hstart⟩
    · rw [if_neg hpos] at hmidStart hmidRowStart
      rw [← hmidStart, ← hmidRowStart, addU32, Nat.mod_eq_of_lt (by omega), Nat.succ_mul]
      omega
  rw [assert_of (decide_eq_true (by split at hmidEnd <;> omega))]
  refine ⟨_, rfl, h.decomposes_rows hdvd hlt hoffset hmidStart.symm hmid.1 hmid.2 hmidEnd.symm ?_⟩
  intro hend
  rw [if_neg (by omega)] at hmidEnd
  have hrows : rowLength * (midEnd + 1 - midStart) = endRow * rowLength - midStart * rowLength := by
    rw [← hmidEnd, show endRow - 1 + 1 - midStart = endRow - midStart by omega, Nat.mul_comm,
      Nat.sub_mul]
  have hmul : midStart * rowLength ≤ endRow * rowLength := Nat.mul_le_mul_right _ hmid_le
  rw [hrows, addU32, Nat.mod_eq_of_lt (by omega)]
  omega

/-- A segment whose ends are texel boundaries, and whose contents are in the first 4 GiB of the
buffer. -/
structure CopySegment.Valid (bpp limit : Nat) (s : CopySegment) : Prop where
  lt : s.start < s.stop
  le : s.stop ≤ limit
  start_aligned : bpp ∣ s.start
  stop_aligned : bpp ∣ s.stop
  fits : s.sourceOffset + (s.stop - s.start) ≤ 2 ^ 32

theorem segmentRegions_spec (hs : s.Valid bpp (height * rowLength)) :
    ∃ rs, segmentRegions bpp rowLength w s = .ok rs ∧ Decomposes bpp rowLength w s rs := by
  have hlt := hs.lt
  have hle := hs.le
  have hpos : 0 < rowLength := by
    rcases Nat.eq_zero_or_pos rowLength with h | h
    · rw [h, Nat.mul_zero] at hle
      omega
    · exact h
  have hal : s.start % rowLength % bpp = 0 := by
    rw [Nat.mod_mod_of_dvd _ hdvd]
    exact Nat.mod_eq_zero_of_dvd hs.start_aligned
  have hal' : s.stop % rowLength % bpp = 0 := by
    rw [Nat.mod_mod_of_dvd _ hdvd]
    exact Nat.mod_eq_zero_of_dvd hs.stop_aligned
  unfold segmentRegions
  dsimp only
  rw [assert_of (by simpa using hpos.ne'), Res.ok_bind, checkedSub_of_le (by omega), Res.ok_bind,
    assert_of (by simpa using hal), Res.ok_bind, assert_of (by simpa using hal'), Res.ok_bind]
  have hsplit := (Nat.div_add_mod' s.start rowLength).symm
  have hcol : s.start % rowLength / bpp * bpp = s.start % rowLength :=
    Nat.div_mul_cancel (Nat.dvd_of_mod_eq_zero hal)
  have hmod := Nat.mod_lt s.start hpos
  have hend : (s.stop - 1) / rowLength * rowLength ≤ s.stop - 1 := Nat.div_mul_le_self _ _
  by_cases hpad : w ≤ s.start % rowLength / bpp
  · rw [if_pos hpad]
    refine spanRegions_spec hbpp hrow hdvd ⟨.inr rfl, min_le_right _ _, fun x y hx => ?_, ?_, by omega⟩
      hs.fits fun hne => ?_
    · rw [start_le_iff hbpp hrow hal hpos hx, lt_stop_iff hbpp hrow hpos (by omega) hx]
      omega
    · rw [Nat.succ_mul]
      omega
    · -- some texel of the next row is in the segment, so that its offset is in range
      have hrows : (s.start / rowLength + 1) * rowLength ≤ (s.stop - 1) / rowLength * rowLength :=
        Nat.mul_le_mul_right _ (by omega)
      have hfits := hs.fits
      rw [Nat.succ_mul] at hrows
      rw [hcol, addU32, Nat.mod_eq_of_lt (by omega), Nat.succ_mul]
      omega
  · rw [if_neg hpad]
    refine spanRegions_spec hbpp hrow hdvd ⟨.inl (by omega), min_le_right _ _, fun x y hx => ?_, ?_,
      by omega⟩
      hs.fits fun _ => ?_
    · rw [start_le_iff hbpp hrow hal hpos hx, lt_stop_iff hbpp hrow hpos (by omega) hx]
      omega
    · omega
    · omega

/-! ## All segments -/

variable {segments : List CopySegment} (hs : ∀ s ∈ segments, s.Valid bpp (height * rowLength))

include hs

theorem segmentsRegions_spec :
    ∃ rss, segments.mapM (segmentRegions bpp rowLength w) = .ok rss ∧
      (∀ r ∈ rss.flatten, ∃ s ∈ segments, r.Anchored bpp rowLength s) ∧
      (rss.flatten.flatMap fun r => r.texels bpp).Perm
        (segments.flatMap fun s => s.texels bpp rowLength w height) := by
  induction segments with
  | nil => exact ⟨[], rfl, fun _ h => (nomatch h), .nil⟩
  | cons s segments ih =>
    obtain ⟨hs₀, hs⟩ := forall_mem_cons.mp hs
    obtain ⟨rs, hrs, hdec⟩ := segmentRegions_spec hbpp hrow hdvd hs₀
    obtain ⟨rss, hrss, hanchored, hperm⟩ := ih hs
    refine ⟨rs :: rss, ?_, ?_, ?_⟩
    · rw [mapM_cons, hrs, Res.ok_bind, hrss]
      rfl
    · rw [flatten_cons]
      refine forall_mem_append.mpr ⟨fun r hr => ⟨s, mem_cons_self, hdec.anchored r hr⟩, ?_⟩
      intro r hr
      obtain ⟨s', hs', hr'⟩ := hanchored r hr
      exact ⟨s', mem_cons_of_mem _ hs', hr'⟩
    · rw [flatten_cons, flatMap_append, flatMap_cons]
      exact (hdec.perm hs₀.le).append hperm

/-- The regions of valid segments. -/
theorem makeCopyRegions_spec {viewRowLength : Option Nat}
    (hview : viewRowLength.getD (w * bpp) = rowLength) (hu32 : rowLength < 2 ^ 32) :
    ∃ regions, makeCopyRegions segments bpp viewRowLength w = .ok regions ∧
      (∀ r ∈ regions, ∃ s ∈ segments, r.Anchored bpp rowLength s) ∧
      (regions.flatMap fun r => r.texels bpp).Perm
        (segments.flatMap fun s => s.texels bpp rowLength w height) := by
  obtain ⟨rss, hrss, hanchored, hperm⟩ := segmentsRegions_spec hbpp hrow hdvd hs
  refine ⟨rss.flatten, ?_, hanchored, hperm⟩
  have hwidth : w * bpp % 2 ^ 32 = w * bpp := Nat.mod_eq_of_lt (by omega)
  unfold makeCopyRegions
  dsimp only
  rw [hwidth, hview, assert_of (decide_eq_true hrow), Res.ok_bind, assert_of (by simpa using hbpp.ne'),
    Res.ok_bind, assert_of (by simpa using Nat.mod_eq_zero_of_dvd hdvd), Res.ok_bind, hrss]
  rfl

end rows

end segment

section regions

variable {bpp rowLength w height : Nat} {segments : List CopySegment}

/-- The regions have the texels of the segments, each once for every segment that it is in, at its
place in the buffer. -/
theorem makeCopyRegions_exact {viewRowLength : Option Nat} (hbpp : 0 < bpp)
    (hview : viewRowLength.getD (w * bpp) = rowLength) (hu32 : rowLength < 2 ^ 32)
    (hdvd : bpp ∣ rowLength) (hrow : w * bpp ≤ rowLength) (hsize : height * rowLength < 2 ^ 31)
    (hs : ∀ s ∈ segments, s.Valid bpp (height * rowLength)) :
    ∃ regions, makeCopyRegions segments bpp viewRowLength w = .ok regions ∧
      (∀ r ∈ regions, r.x < 2 ^ 31 ∧ r.y < 2 ^ 31) ∧
      (regions.flatMap fun r => r.texels bpp).Perm
        (segments.flatMap fun s => s.texels bpp rowLength w height) := by
  obtain ⟨regions, hok, hanchored, hperm⟩ := makeCopyRegions_spec hbpp hrow hdvd hs hview hu32
  refine ⟨regions, hok, fun r hr => ?_, hperm⟩
  obtain ⟨s, hs', hr'⟩ := hanchored r hr
  have hstop := hr'.lt_stop
  have hle := (hs s hs').le
  have hpos : 0 < rowLength := Nat.pos_of_ne_zero fun h => by
    rw [h, Nat.mul_zero] at hle
    omega
  have hx := Nat.le_mul_of_pos_right r.x hbpp
  have hy := Nat.le_mul_of_pos_right r.y hpos
  omega

/-- Two segments of an image of three texels by three, with a row length of four texels: one begins in
the padding of the first row, one has a whole row. -/
theorem makeCopyRegions_exact_padded :
    ∃ regions, makeCopyRegions [⟨0, 12, 24⟩, ⟨12, 16, 40⟩] 4 (some 16) 3 = .ok regions ∧
      (∀ r ∈ regions, r.x < 2 ^ 31 ∧ r.y < 2 ^ 31) ∧
      (regions.flatMap fun r => r.texels 4).Perm
        (([⟨0, 12, 24⟩, ⟨12, 16, 40⟩] : List CopySegment).flatMap fun s => s.texels 4 16 3 3) :=
  makeCopyRegions_exact (by decide) rfl (by decide) (by decide) (by decide) (by decide) (by
    intro s hs
    simp only [mem_cons, not_mem_nil, or_false] at hs
    rcases hs with rfl | rfl
    · exact ⟨by decide, by decide, by decide, by decide, by decide⟩
    · exact ⟨by decide, by decide, by decide, by decide, by decide⟩)

end regions

end Waypipe
