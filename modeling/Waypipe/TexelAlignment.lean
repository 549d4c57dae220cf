import Waypipe.CopyRegions
import Waypipe.FillShards

/-!
# Texel alignment

`makeCopyRegions` asserts that segments start and end on texels of their row.  The segments come from
elsewhere: shards and damage are multiples of 64 bytes, and the receiver of a diff checks the spans of
the diff, but not the bytes that trail.  So the asserts hold for formats whose texel size divides 64,
and only for these (`segments_texel_aligned_iff`).
-/

namespace Waypipe

open Intervals LeBytes List

/-! ## Formats -/

/-- The formats of Vulkan that `get_vulkan_info` knows. -/
inductive VkFormat where
  | r4g4b4a4UnormPack16 | b4g4r4a4UnormPack16 | r5g6b5UnormPack16 | b5g6r5UnormPack16
  | a1r5g5b5UnormPack16 | b5g5r5a1UnormPack16 | r5g5b5a1UnormPack16 | r8Unorm | r8g8Unorm
  | r8g8b8Unorm | b8g8r8Unorm | r8g8b8a8Unorm | b8g8r8a8Unorm | a2r10g10b10UnormPack32
  | a2b10g10r10UnormPack32 | r16Unorm | r16g16Unorm | r16g16b16a16Unorm | r16g16b16a16Sfloat
  | g8b8g8r8x422Unorm | g8b8r8x3Plane420Unorm | g8b8r8x3Plane422Unorm | g8b8r8x3Plane444Unorm
  | g8b8r8x2Plane420Unorm | g8b8r8x2Plane422Unorm | g16b16r16x2Plane420Unorm
  | g16b16r16x3Plane444Unorm
  deriving DecidableEq, Repr

structure FormatLayoutInfo where
  /-- Bytes per texel. -/
  bpp : Nat
  planes : Nat
  deriving DecidableEq, Repr

/-- `get_vulkan_info` -/
def getVulkanInfo : VkFormat → FormatLayoutInfo
  | .r4g4b4a4UnormPack16 | .b4g4r4a4UnormPack16 | .r5g6b5UnormPack16 | .b5g6r5UnormPack16
  | .a1r5g5b5UnormPack16 | .b5g5r5a1UnormPack16 | .r5g5b5a1UnormPack16 => ⟨2, 1⟩
  | .r8Unorm => ⟨1, 1⟩
  | .r8g8Unorm => ⟨2, 1⟩
  | .r8g8b8Unorm | .b8g8r8Unorm => ⟨3, 1⟩
  | .r8g8b8a8Unorm | .b8g8r8a8Unorm => ⟨4, 1⟩
  | .a2r10g10b10UnormPack32 | .a2b10g10r10UnormPack32 => ⟨4, 1⟩
  | .r16Unorm => ⟨2, 1⟩
  | .r16g16Unorm => ⟨4, 1⟩
  | .r16g16b16a16Unorm => ⟨8, 1⟩
  | .r16g16b16a16Sfloat => ⟨8, 1⟩
  | .g8b8g8r8x422Unorm => ⟨2, 1⟩
  | .g8b8r8x3Plane420Unorm => ⟨2, 3⟩
  | .g8b8r8x3Plane422Unorm => ⟨2, 3⟩
  | .g8b8r8x3Plane444Unorm => ⟨2, 3⟩
  | .g8b8r8x2Plane420Unorm => ⟨2, 2⟩
  | .g8b8r8x2Plane422Unorm => ⟨2, 2⟩
  | .g16b16r16x2Plane420Unorm => ⟨2, 2⟩
  | .g16b16r16x3Plane444Unorm => ⟨2, 3⟩

def SUPPORTED_FORMAT_LIST : List VkFormat :=
  [.r4g4b4a4UnormPack16, .b4g4r4a4UnormPack16, .r5g6b5UnormPack16, .b5g6r5UnormPack16,
    .a1r5g5b5UnormPack16, .b5g5r5a1UnormPack16, .r5g5b5a1UnormPack16, .r8Unorm, .r8g8Unorm,
    .r8g8b8Unorm, .b8g8r8Unorm, .r8g8b8a8Unorm, .b8g8r8a8Unorm, .a2r10g10b10UnormPack32,
    .a2b10g10r10UnormPack32, .r16Unorm, .r16g16Unorm, .r16g16b16a16Unorm, .r16g16b16a16Sfloat,
    .g8b8r8x3Plane444Unorm]

/-- The formats whose texels do not divide a chunk are those with 24 bits. -/
theorem bpp_dvd_iff (f : VkFormat) :
    (getVulkanInfo f).bpp ∣ 64 ↔ f ≠ .r8g8b8Unorm ∧ f ≠ .b8g8r8Unorm := by
  cases f <;> decide

/-! ## Where segments come from -/

/-- The segment that `run_fill_dmabuf_task` copies. -/
def fillSegments (task : FillDmabufTask) : List CopySegment :=
  [⟨0, task.regionStart, task.regionEnd⟩]

/-- The segments that `run_diff_dmabuf_task` copies, one after the other into a buffer; `start` is the
end of what is there. -/
def diffSegments (nomLen trailing : Nat) : Nat → List (Nat × Nat) → List CopySegment
  | start, [] => if 0 < trailing then [⟨start, nomLen - trailing, nomLen⟩] else []
  | start, intv :: rest =>
    ⟨start, intv.1, intv.2⟩ :: diffSegments nomLen trailing (start + (intv.2 - intv.1)) rest

/-- The loop of `run_decomp_task` over the spans of a diff for a DMABUF: the segments, whether one of
them is not aligned, and the position at the end.  Each round moves by eight bytes or more. -/
def spanSegments (data : List UInt8) (diffSize bpp : Nat) :
    Nat → Nat → Res (List CopySegment × Bool × Nat)
  | 0, pos => .ok ([], false, pos)
  | rounds + 1, pos =>
    if pos + 8 ≤ diffSize then do
      let spanStart ← readU32 data pos
      let spanEnd ← readU32 data (pos + 4)
      let start := 4 * spanStart % 2 ^ 32
      let stop := 4 * spanEnd % 2 ^ 32
      let (segments, misaligned, last) ←
        spanSegments data diffSize bpp rounds (pos + 8 + (spanEnd + 2 ^ 32 - spanStart) % 2 ^ 32 * 4)
      return (⟨pos + 8, start, stop⟩ :: segments,
        start % bpp != 0 || stop % bpp != 0 || misaligned, last)
    else .ok ([], false, pos)

/-- The segments of a diff for a DMABUF, and whether the slow path has to be taken. -/
def diffCopySegments (data : List UInt8) (diffSize ntrailing fileSize bpp : Nat) :
    Res (List CopySegment × Bool) := do
  let (segments, misaligned, pos) ← spanSegments data diffSize bpp data.length 0
  assert (pos == diffSize) "pos == diff_size as usize"
  return (segments ++ (if 0 < ntrailing then [⟨diffSize, fileSize - ntrailing, fileSize⟩] else []),
    misaligned)

/-- `is_segment_texel_aligned` -/
def isSegmentTexelAligned (start stop bpp : Nat) : Bool := start % bpp == 0 && stop % bpp == 0

/-- The segment of a fill for a DMABUF, unless the slow path has to be taken. -/
def fillCopySegments (regionStart regionEnd bpp : Nat) : Option (List CopySegment) :=
  if isSegmentTexelAligned regionStart regionEnd bpp then some [⟨0, regionStart, regionEnd⟩] else none

/-! ## Alignment -/

/-- An image and the row length of its linear view. -/
structure LinearView where
  bpp : Nat
  width : Nat
  height : Nat
  viewRowLength : Option Nat

namespace LinearView

variable (v : LinearView)

def rowLength : Nat := v.viewRowLength.getD (v.width * v.bpp)

def nominalSize : Nat := v.height * v.rowLength

/-- A row length that is accepted for an image. -/
structure Accepted : Prop where
  bpp_pos : 0 < v.bpp
  width_le : v.width * v.bpp ≤ v.rowLength
  dvd : v.bpp ∣ v.rowLength
  row_lt : v.rowLength < 2 ^ 32
  size_pos : 0 < v.nominalSize
  size_lt : v.nominalSize < 2 ^ 31

/-- The segments start and end on a texel of their row, and so they can be copied. -/
def Copies (segments : List CopySegment) : Prop :=
  (∀ s ∈ segments, s.start % v.rowLength % v.bpp = 0 ∧ s.stop % v.rowLength % v.bpp = 0) ∧
    ∃ regions, makeCopyRegions segments v.bpp v.viewRowLength v.width = .ok regions

variable {v}

theorem Accepted.copies (h : v.Accepted) {segments : List CopySegment}
    (hs : ∀ s ∈ segments, s.Valid v.bpp v.nominalSize) : v.Copies segments := by
  obtain ⟨regions, hok, -⟩ := makeCopyRegions_spec h.bpp_pos h.width_le h.dvd hs rfl h.row_lt
  refine ⟨fun s hs' => ?_, regions, hok⟩
  rw [Nat.mod_mod_of_dvd _ h.dvd, Nat.mod_mod_of_dvd _ h.dvd]
  exact ⟨Nat.mod_eq_zero_of_dvd (hs s hs').start_aligned,
    Nat.mod_eq_zero_of_dvd (hs s hs').stop_aligned⟩

theorem Accepted.dvd_size (h : v.Accepted) : v.bpp ∣ v.nominalSize := h.dvd.mul_left _

/-- The chunks that are in the image start on a texel. -/
def ChunksAligned (v : LinearView) : Prop := v.bpp ∣ 64 ∨ v.nominalSize < 64

instance : Decidable v.ChunksAligned :=
  inferInstanceAs (Decidable (v.bpp ∣ 64 ∨ v.nominalSize < 64))

theorem ChunksAligned.dvd (h : v.ChunksAligned) {a : Nat} (ha : 2 ^ 6 ∣ a) (hle : a ≤ v.nominalSize) :
    v.bpp ∣ a := by
  rcases h with h | h
  · exact h.trans ha
  · have hzero : a = 0 := by omega
    rw [hzero]
    exact Nat.dvd_zero _

end LinearView

/-! ## The sender -/

section sender

variable {v : LinearView} {n bpp : Nat}

/-- Shards begin and end with a chunk, or at the end of the buffer. -/
theorem fillRange_ends {nshards i : Nat} (hi : i < nshards) :
    2 ^ 6 ∣ (fillRange n nshards i).1 ∧
      (2 ^ 6 ∣ (fillRange n nshards i).2 ∨ (fillRange n nshards i).2 = n) := by
  unfold fillRange
  refine ⟨Nat.dvd_mul_right 64 _, ?_⟩
  dsimp only
  by_cases hlast : i = nshards - 1
  · right
    rw [if_pos hlast, show i + 1 = nshards by omega, Nat.mul_div_cancel_left _ (by omega),
      Nat.div_add_mod]
  · left
    rw [if_neg hlast, Nat.add_zero]
    exact Nat.dvd_mul_right 64 _

theorem fillSegments_copies (h : v.Accepted) (hchunks : v.ChunksAligned) (env : CollectEnv)
    (rid : Rid) (acquires : List (Nat × SfdRef)) {r : Nat × Nat}
    (hr : r ∈ fillRanges v.nominalSize (shardCount (v.nominalSize / 64))) :
    v.Copies (fillSegments (fillTaskOf env rid acquires r)) := by
  have hsize := h.size_lt
  have hwhole : 64 ≤ v.nominalSize := by
    by_contra hsmall
    rw [show v.nominalSize / 64 = 0 by omega] at hr
    cases hr
  obtain ⟨hlt, hle⟩ := (fillRanges_consecutive hwhole).mem r hr
  obtain ⟨i, hi, rfl⟩ := mem_map.mp hr
  obtain ⟨hstart, hend⟩ := @fillRange_ends v.nominalSize _ i (mem_range.mp hi)
  refine h.copies fun s hs => ?_
  cases mem_singleton.mp hs
  refine ⟨hlt, hle, hchunks.dvd hstart (hlt.le.trans hle), ?_, ?_⟩
  · rcases hend with hend | hend
    · exact hchunks.dvd hend hle
    · show v.bpp ∣ (fillRange _ _ i).2
      rw [hend]
      exact h.dvd_size
  · show 0 + ((fillRange _ _ i).2 - (fillRange _ _ i).1) ≤ 2 ^ 32
    omega

/-- The segments of intervals, and of the bytes that trail. -/
theorem diffSegments_valid {trailing start : Nat} {l : List (Nat × Nat)}
    (hl : ∀ i ∈ l, i.1 < i.2 ∧ i.2 ≤ n ∧ bpp ∣ i.1 ∧ bpp ∣ i.2)
    (htrail : trailing ≤ n ∧ bpp ∣ n - trailing ∧ bpp ∣ n)
    (hfits : start + totalLength l + trailing ≤ 2 ^ 32) :
    ∀ s ∈ diffSegments n trailing start l, s.Valid bpp n := by
  induction l generalizing start with
  | nil =>
    intro s hs
    unfold diffSegments at hs
    simp only [mem_ite_nil_right, mem_singleton] at hs
    obtain ⟨hpos, rfl⟩ := hs
    rw [totalLength_nil] at hfits
    exact ⟨by dsimp only; omega, le_rfl, htrail.2.1, htrail.2.2, by dsimp only; omega⟩
  | cons i l ih =>
    obtain ⟨hi, hl⟩ := forall_mem_cons.mp hl
    rw [totalLength_cons] at hfits
    refine forall_mem_cons.mpr ⟨⟨hi.1, hi.2.1, hi.2.2.1, hi.2.2.2, ?_⟩, ih hl (by omega)⟩
    dsimp only
    omega

theorem checkShard_trailing {nparts trailLen i trailing : Nat} {output : List (Nat × Nat)}
    (h : checkShard nparts trailLen i output = .ok trailing) : trailing = 0 ∨ trailing = trailLen := by
  unfold checkShard at h
  dsimp only at h
  by_cases hlast : i = nparts - 1
  · rw [if_pos hlast] at h
    obtain ⟨-, -, h⟩ := Res.bind_eq_ok.mp h
    rw [← Except.ok.inj h]
    split
    · exact .inr rfl
    · exact .inl rfl
  · rw [if_neg hlast] at h
    obtain ⟨-, -, h⟩ := Res.bind_eq_ok.mp h
    rw [← Except.ok.inj h]
    simp [hlast]

theorem diffSegments_copies (h : v.Accepted) (hchunks : v.ChunksAligned)
    {intervals : List (Nat × Nat)} (hsorted : Spaced 0 intervals) (hal : EndsAligned 6 intervals)
    {trailLen trailing : Nat} {parts : List (List (Nat × Nat))}
    (hsplit : splitDamage intervals v.nominalSize = .ok (trailLen, parts))
    {part : List (Nat × Nat) × Nat} (hpart : part ∈ parts.zipIdx)
    (hcheck : checkShard parts.length trailLen part.2 part.1 = .ok trailing) :
    v.Copies (diffSegments v.nominalSize trailing 0 part.1) := by
  have hsize := h.size_lt
  obtain ⟨hpoints, hspaced, haligned, htrailLen⟩ := splitDamage_flatten hsorted hal hsize hsplit
  have hmem : part.1 ∈ parts := fst_mem_of_mem_zipIdx hpart
  have hsub : part.1.Sublist parts.flatten := sublist_flatten_of_mem hmem
  have hin : ∀ i ∈ part.1, i.1 < i.2 ∧ i.2 ≤ 64 * (v.nominalSize / 64) := by
    intro i hi
    have hlt := hspaced.nonempty i (hsub.subset hi)
    have hlast : i.2 - 1 ∈ points parts.flatten := ⟨i, hsub.subset hi, by omega, by omega⟩
    rw [hpoints] at hlast
    have hbound : i.2 - 1 < 64 * (v.nominalSize / 64) := hlast.2
    omega
  have htotal : totalLength part.1 ≤ 64 * (v.nominalSize / 64) - 0 :=
    totalLength_le (hspaced.sublist hsub) (fun i hi => ⟨Nat.zero_le _, (hin i hi).2⟩) (Nat.zero_le _)
  have htrail : trailing = 0 ∨ trailing = v.nominalSize % 64 := by
    rcases checkShard_trailing hcheck with rfl | rfl
    · exact .inl rfl
    · rw [htrailLen]
      split
      · exact .inr rfl
      · exact .inl rfl
  refine h.copies (diffSegments_valid (fun i hi => ?_) ⟨by omega, ?_, h.dvd_size⟩ (by omega))
  · obtain ⟨hlt, hle⟩ := hin i hi
    obtain ⟨h₁, h₂⟩ := haligned i (hsub.subset hi)
    exact ⟨hlt, by omega, hchunks.dvd h₁ (by omega), hchunks.dvd h₂ (by omega)⟩
  · rcases htrail with rfl | rfl
    · exact h.dvd_size
    · refine hchunks.dvd ?_ (Nat.sub_le _ _)
      rw [show v.nominalSize - v.nominalSize % 64 = 64 * (v.nominalSize / 64) by omega]
      exact Nat.dvd_mul_right 64 _

end sender

/-! ## The receiver -/

/-- A diff for a buffer of `size` bytes as a sender makes it: spans in the buffer, and then nothing or
the bytes after the last whole chunk. -/
structure WellFormedDiff (size : Nat) where
  spans : List Span
  tail : List UInt8
  inside : ∀ s ∈ spans, 4 * s.stop ≤ size
  tail_length : tail.length = 0 ∨ tail.length = size % 64
  fits : (spans.flatMap Span.bytes).length + tail.length < 2 ^ 32

namespace WellFormedDiff

variable {size : Nat} (d : WellFormedDiff size)

def data : List UInt8 := d.spans.flatMap Span.bytes ++ d.tail

def diffSize : Nat := (d.spans.flatMap Span.bytes).length

end WellFormedDiff

section receiver

variable {v : LinearView} {bpp : Nat}

/-- The segment is that of one of the spans, and it is aligned if `misaligned` is false. -/
def FromSpan (bpp diffSize : Nat) (spans : List Span) (misaligned : Bool) (seg : CopySegment) : Prop :=
  ∃ s ∈ spans, seg.start = 4 * s.start ∧ seg.stop = 4 * s.stop ∧
    seg.sourceOffset + (seg.stop - seg.start) ≤ diffSize ∧
    (misaligned = false → bpp ∣ seg.start ∧ bpp ∣ seg.stop)

theorem spanSegments_spec {data tail : List UInt8} {diffSize : Nat} (spans : List Span)
    (pre : List UInt8) (rounds : Nat) (hdata : data = pre ++ (spans.flatMap Span.bytes ++ tail))
    (hsize : diffSize = pre.length + (spans.flatMap Span.bytes).length)
    (hrounds : spans.length ≤ rounds) (hsmall : ∀ s ∈ spans, 4 * s.stop < 2 ^ 32) :
    ∃ segments misaligned,
      spanSegments data diffSize bpp rounds pre.length = .ok (segments, misaligned, diffSize) ∧
      ∀ seg ∈ segments, FromSpan bpp diffSize spans misaligned seg := by
  induction spans generalizing pre rounds with
  | nil =>
    rw [flatMap_nil, length_nil, Nat.add_zero] at hsize
    refine ⟨[], false, ?_, fun _ h => (nomatch h)⟩
    cases rounds with
    | zero => rw [hsize]; rfl
    | succ rounds =>
      unfold spanSegments
      rw [if_neg (by omega), hsize]
  | cons s spans ih =>
    obtain ⟨rounds, rfl⟩ : ∃ k, rounds = k + 1 :=
      ⟨rounds - 1, by rw [length_cons] at hrounds; omega⟩
    obtain ⟨hs, hsmall⟩ := forall_mem_cons.mp hsmall
    have hstop := s.four_mul_stop
    have hlen := s.length_bytes
    have hpos := s.nonempty
    have hlt : s.stop < 2 ^ 32 := s.small
    rw [flatMap_cons, append_assoc] at hdata
    rw [flatMap_cons, length_append] at hsize
    obtain ⟨hstart, hend⟩ := hdata ▸ s.readU32_ends pre (spans.flatMap Span.bytes ++ tail)
    obtain ⟨segments, misaligned, hrest, hfrom⟩ := ih (pre ++ s.bytes) rounds
      (by rw [hdata, append_assoc]) (by rw [length_append]; omega)
      (by rw [length_cons] at hrounds; omega) hsmall
    have hnext : pre.length + 8 + (s.stop + 2 ^ 32 - s.start) % 2 ^ 32 * 4 =
        (pre ++ s.bytes).length := by
      rw [length_append]
      omega
    unfold spanSegments
    rw [if_pos (by omega), hstart, Res.ok_bind, hend, Res.ok_bind]
    dsimp only
    rw [hnext, hrest, Res.ok_bind, Nat.mod_eq_of_lt (show 4 * s.start < 2 ^ 32 by omega),
      Nat.mod_eq_of_lt hs]
    refine ⟨_, _, rfl, forall_mem_cons.mpr ⟨⟨s, mem_cons_self, rfl, rfl, ?_, ?_⟩, ?_⟩⟩
    · dsimp only
      omega
    · intro hfalse
      simp only [Bool.or_eq_false_iff, bne_eq_false_iff_eq] at hfalse
      exact ⟨Nat.dvd_of_mod_eq_zero hfalse.1.1, Nat.dvd_of_mod_eq_zero hfalse.1.2⟩
    · intro seg hseg
      obtain ⟨s', hs', h₁, h₂, h₃, h₄⟩ := hfrom seg hseg
      refine ⟨s', mem_cons_of_mem _ hs', h₁, h₂, h₃, fun hfalse => h₄ ?_⟩
      rw [Bool.or_eq_false_iff] at hfalse
      exact hfalse.2

theorem diffCopySegments_copies (h : v.Accepted) (hchunks : v.ChunksAligned)
    (d : WellFormedDiff v.nominalSize) :
    ∃ segments misaligned,
      diffCopySegments d.data d.diffSize d.tail.length v.nominalSize v.bpp =
        .ok (segments, misaligned) ∧ (misaligned = false → v.Copies segments) := by
  have hsize := h.size_lt
  have hfits := d.fits
  have hrounds : d.spans.length ≤ d.data.length := by
    have := length_le_flatMap_bytes d.spans
    unfold WellFormedDiff.data
    rw [length_append]
    omega
  obtain ⟨segments, misaligned, hspans, hfrom⟩ := @spanSegments_spec v.bpp d.data d.tail d.diffSize
    d.spans [] d.data.length rfl (Nat.zero_add _).symm hrounds
    fun s hs => by
      have := d.inside s hs
      omega
  refine ⟨segments ++ (if 0 < d.tail.length then
    [⟨d.diffSize, v.nominalSize - d.tail.length, v.nominalSize⟩] else []), misaligned, ?_,
    fun hfast => h.copies (forall_mem_append.mpr ⟨?_, ?_⟩)⟩
  · unfold diffCopySegments
    rw [show spanSegments d.data d.diffSize v.bpp d.data.length 0 = _ from hspans, Res.ok_bind]
    dsimp only
    rw [assert_of (beq_self_eq_true _), Res.ok_bind]
    rfl
  · intro seg hseg
    obtain ⟨s, hs, hstart, hstop, hoffset, haligned⟩ := hfrom seg hseg
    have hin := d.inside s hs
    have hlen := s.four_mul_stop
    have hpos := s.nonempty
    obtain ⟨h₁, h₂⟩ := haligned hfast
    unfold WellFormedDiff.diffSize at hoffset
    exact ⟨by omega, by omega, h₁, h₂, by omega⟩
  · intro seg hseg
    simp only [mem_ite_nil_right, mem_singleton] at hseg
    obtain ⟨hpos, rfl⟩ := hseg
    -- what trails starts with a chunk
    have hlen : d.tail.length = v.nominalSize % 64 := by
      rcases d.tail_length with hzero | hlen
      · omega
      · exact hlen
    have hchunk : 2 ^ 6 ∣ v.nominalSize - d.tail.length := by
      rw [hlen, show v.nominalSize - v.nominalSize % 64 = 64 * (v.nominalSize / 64) by omega]
      exact Nat.dvd_mul_right 64 _
    refine ⟨by dsimp only; omega, le_rfl, hchunks.dvd hchunk (Nat.sub_le _ _), h.dvd_size, ?_⟩
    unfold WellFormedDiff.diffSize
    dsimp only
    omega

theorem fillCopySegments_copies (h : v.Accepted) {start stop : Nat} (hlt : start < stop)
    (hle : stop ≤ v.nominalSize) {segments : List CopySegment}
    (hsegs : fillCopySegments start stop v.bpp = some segments) : v.Copies segments := by
  have hsize := h.size_lt
  unfold fillCopySegments isSegmentTexelAligned at hsegs
  split at hsegs
  · next hal =>
    cases hsegs
    simp only [Bool.and_eq_true, beq_iff_eq] at hal
    refine h.copies fun s hs => ?_
    cases mem_singleton.mp hs
    exact ⟨hlt, hle, Nat.dvd_of_mod_eq_zero hal.1, Nat.dvd_of_mod_eq_zero hal.2, by dsimp only; omega⟩
  · cases hsegs

end receiver

/-! ## Which formats can be copied -/

/-- Every segment of an image is texel aligned: those of the fill and diff tasks of the sender, for any
damage, and those that the receiver copies at once. -/
structure LinearView.TexelAligned (v : LinearView) : Prop where
  fill : ∀ (env : CollectEnv) (rid : Rid) (acquires : List (Nat × SfdRef)),
    ∀ r ∈ fillRanges v.nominalSize (shardCount (v.nominalSize / 64)),
      v.Copies (fillSegments (fillTaskOf env rid acquires r))
  diff : ∀ intervals : List (Nat × Nat), Spaced 0 intervals → EndsAligned 6 intervals →
    ∀ trailLen parts, splitDamage intervals v.nominalSize = .ok (trailLen, parts) →
      ∀ part ∈ parts.zipIdx, ∀ trailing,
        checkShard parts.length trailLen part.2 part.1 = .ok trailing →
          v.Copies (diffSegments v.nominalSize trailing 0 part.1)
  receivedDiff : ∀ d : WellFormedDiff v.nominalSize, ∃ segments misaligned,
    diffCopySegments d.data d.diffSize d.tail.length v.nominalSize v.bpp =
      .ok (segments, misaligned) ∧ (misaligned = false → v.Copies segments)
  receivedFill : ∀ start stop, start < stop → stop ≤ v.nominalSize → ∀ segments,
    fillCopySegments start stop v.bpp = some segments → v.Copies segments

/-- The first chunk of an image is one interval of some part. -/
theorem first_chunk_split {n : Nat} (hn : 64 ≤ n) (hmax : n < 2 ^ 31) :
    ∃ trailLen parts, splitDamage [(0, 64)] n = .ok (trailLen, parts) ∧
      ∃ part ∈ parts.zipIdx, (0, 64) ∈ part.1 := by
  have hsorted : Spaced 0 [(0, 64)] := .singleton (by decide)
  have hal : EndsAligned 6 [(0, 64)] := by simp [EndsAligned]
  obtain ⟨parts, hok, -⟩ := splitDamage_cases hsorted hal hmax
  obtain ⟨hpoints, hspaced, haligned, -⟩ := splitDamage_flatten hsorted hal hmax hok
  have hzero : 0 ∈ points parts.flatten := by
    rw [hpoints]
    exact ⟨⟨(0, 64), mem_singleton_self _, le_rfl, by decide⟩, by
      show 0 < 64 * (n / 64)
      omega⟩
  obtain ⟨i, hi, hstart, hstop⟩ := hzero
  -- the interval has chunks only, and no byte after the first chunk
  have hlast : i.2 - 1 ∈ points parts.flatten := ⟨i, hi, by omega, by omega⟩
  rw [hpoints] at hlast
  obtain ⟨⟨j, hj, -, hj₂⟩, -⟩ := hlast
  cases mem_singleton.mp hj
  have hends := (haligned i hi).2
  have hi' : i = (0, 64) := Prod.ext (by omega) (by dsimp only at hj₂ ⊢; omega)
  obtain ⟨part, hpart, hin⟩ := mem_flatten.mp hi
  obtain ⟨k, hk, hget⟩ := List.mem_iff_getElem.mp hpart
  refine ⟨_, parts, hok, (part, k), ?_, hi' ▸ hin⟩
  rw [List.mem_zipIdx_iff_getElem?]
  exact List.getElem?_eq_some_iff.mpr ⟨hk, hget⟩

theorem checkShard_nonempty {nparts trailLen i : Nat} {output : List (Nat × Nat)} (h : output ≠ []) :
    ∃ trailing, checkShard nparts trailLen i output = .ok trailing := by
  have hpos := length_pos_iff.mpr h
  unfold checkShard
  dsimp only
  by_cases hlast : i = nparts - 1
  · rw [if_pos hlast, assert_of (by rw [decide_eq_true_eq]; omega)]
    exact ⟨_, rfl⟩
  · rw [if_neg hlast, assert_of (by simpa using h)]
    exact ⟨_, rfl⟩

theorem mem_diffSegments {n trailing start : Nat} {l : List (Nat × Nat)} {i : Nat × Nat} (hi : i ∈ l) :
    ∃ offset, ⟨offset, i.1, i.2⟩ ∈ diffSegments n trailing start l := by
  induction l generalizing start with
  | nil => cases hi
  | cons j l ih =>
    rcases mem_cons.mp hi with rfl | hi
    · exact ⟨start, mem_cons_self⟩
    · obtain ⟨offset, hmem⟩ := @ih (start + (j.2 - j.1)) hi
      exact ⟨offset, mem_cons_of_mem _ hmem⟩

/-- Damage of the first chunk alone is enough to have chunks aligned. -/
theorem LinearView.TexelAligned.chunksAligned {v : LinearView} (h : v.TexelAligned) (hv : v.Accepted) :
    v.ChunksAligned := by
  by_cases hsmall : v.nominalSize < 64
  · exact .inr hsmall
  left
  obtain ⟨trailLen, parts, hok, part, hpart, hin⟩ := first_chunk_split (by omega) hv.size_lt
  obtain ⟨trailing, hcheck⟩ := @checkShard_nonempty parts.length trailLen part.2 part.1
    (ne_nil_of_mem hin)
  obtain ⟨offset, hmem⟩ := @mem_diffSegments v.nominalSize trailing 0 _ _ hin
  have hcopies := h.diff [(0, 64)] (.singleton (by decide)) (by simp [EndsAligned]) trailLen parts hok
    part hpart trailing hcheck
  have hend := (hcopies.1 _ hmem).2
  rw [Nat.mod_mod_of_dvd _ hv.dvd] at hend
  exact Nat.dvd_of_mod_eq_zero hend

/-- All segments of an image are texel aligned if and only if its chunks are, that is unless the format
has 24 bits and the image has a whole chunk. -/
theorem segments_texel_aligned_iff :
    ∀ f ∈ SUPPORTED_FORMAT_LIST, ∀ v : LinearView, v.Accepted → v.bpp = (getVulkanInfo f).bpp →
      (v.TexelAligned ↔ (f ≠ .r8g8b8Unorm ∧ f ≠ .b8g8r8Unorm) ∨ v.nominalSize < 64) := by
  intro f _ v hv hbpp
  rw [← bpp_dvd_iff, ← hbpp]
  constructor
  · intro h
    exact h.chunksAligned hv
  · intro hchunks
    exact ⟨fun env rid acquires r hr => fillSegments_copies hv hchunks env rid acquires hr,
      fun intervals hsorted hal trailLen parts hsplit part hpart trailing hcheck =>
        diffSegments_copies hv hchunks hsorted hal hsplit hpart hcheck,
      diffCopySegments_copies hv hchunks,
      fun start stop hlt hle segments => fillCopySegments_copies hv hlt hle⟩

/-- Padded rows of 32-bit texels. -/
def paddedView : LinearView := ⟨4, 5, 8, some 32⟩

theorem segments_texel_aligned_padded :
    .b8g8r8a8Unorm ∈ SUPPORTED_FORMAT_LIST ∧ paddedView.Accepted ∧ paddedView.TexelAligned := by
  have haccepted : paddedView.Accepted := by constructor <;> decide
  exact ⟨by decide, haccepted,
    (segments_texel_aligned_iff .b8g8r8a8Unorm (by decide) paddedView haccepted rfl).mpr
      (.inl (by decide))⟩

/-- Eight rows of ten texels with 24 bits. -/
def packedView : LinearView := ⟨3, 10, 8, none⟩

/-- If the first chunk of the image is damaged, the diff task asks for a segment that ends in the middle
of a texel. -/
theorem packed_segment_misaligned :
    .r8g8b8Unorm ∈ SUPPORTED_FORMAT_LIST ∧ packedView.Accepted ∧
      packedView.bpp = (getVulkanInfo .r8g8b8Unorm).bpp ∧
      splitDamage [(0, 64)] packedView.nominalSize = .ok (0, [[(0, 64)]]) ∧
      checkShard 1 0 0 [(0, 64)] = .ok 0 ∧
      makeCopyRegions (diffSegments packedView.nominalSize 0 0 [(0, 64)]) packedView.bpp
        packedView.viewRowLength packedView.width =
          .error (.panic "non-3-aligned interval [0,64) with row length 30") := by
  refine ⟨by decide, by constructor <;> decide, rfl, ?_⟩
  decide +kernel

end Waypipe
