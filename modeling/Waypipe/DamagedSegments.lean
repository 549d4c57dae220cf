import Mathlib.Algebra.BigOperators.Group.List.Basic
import Waypipe.Lib.Loops
import Waypipe.UnionDamage

/-!
# Damaged segments

`computeDamagedSegments` goes through the rows of all rectangles in the order of where they start, and
joins them like `unionDamage` does.  When it gives up, it joins one more segment up to the end of the
region.  So what it returns for a group of rectangles is `closeGaps` of segments that cover them
(`processRows_spec`), and groups are apart (`groupRects_spec`).
-/

namespace Waypipe

open Intervals LeBytes RowEntry List

/-! ## Positions -/

/-- Where the pixel `x` of row `y` is. -/
def Placement.pos (p : Placement) (y x : Nat) : Nat := p.offset + y * p.stride + x * p.bpp

/-- The bytes of the pixels of a rectangle in the rows from `lo` to `hi`. -/
def Rect.rows (p : Placement) (r : Rect) (lo hi : Nat) : Set Nat :=
  {b | ∃ x y, r.x1 ≤ x ∧ x < r.x2 ∧ lo ≤ y ∧ y < hi ∧ p.pos y x ≤ b ∧ b < p.pos y x + p.bpp}

/-- The bytes of all pixels of a rectangle. -/
def Rect.bytes (p : Placement) (r : Rect) : Set Nat := r.rows p r.y1 r.y2

structure Rect.Nondegenerate (r : Rect) : Prop where
  x : r.x1 < r.x2
  y : r.y1 < r.y2

/-- The end of the region that a rectangle covers is a `usize`. -/
def Rect.Fits (p : Placement) (r : Rect) : Prop :=
  align (p.pos r.y2 r.x2) (2 ^ p.alignBits) ≤ USIZE_MAX

instance instDecidableRectFits (p : Placement) (r : Rect) : Decidable (r.Fits p) :=
  inferInstanceAs (Decidable (_ ≤ _))

section Positions

variable {p : Placement} {r : Rect}

theorem Placement.pos_mono {y y' x x' : Nat} (hy : y ≤ y') (hx : x ≤ x') :
    p.pos y x ≤ p.pos y' x' := by
  have h₁ := Nat.mul_le_mul_right p.stride hy
  have h₂ := Nat.mul_le_mul_right p.bpp hx
  unfold pos
  omega

theorem Placement.pos_add_bpp (y x : Nat) : p.pos y x + p.bpp = p.pos y (x + 1) := by
  unfold pos
  rw [Nat.succ_mul]
  omega

theorem Placement.pos_lt {y y' x x' : Nat} (hbpp : 0 < p.bpp) (hy : y ≤ y') (hx : x < x') :
    p.pos y x < p.pos y' x' := by
  have h₁ : p.pos y (x + 1) ≤ p.pos y' x' := p.pos_mono hy hx
  have h₂ := p.pos_add_bpp y x
  omega

theorem alignDown_le (x bits : Nat) : alignDown x bits ≤ x := Nat.div_mul_le_self x _

theorem alignDown_mono {x y : Nat} (bits : Nat) (h : x ≤ y) : alignDown x bits ≤ alignDown y bits :=
  Nat.mul_le_mul_right _ (Nat.div_le_div_right h)

theorem dvd_alignDown (x bits : Nat) : 2 ^ bits ∣ alignDown x bits := Nat.dvd_mul_left _ _

theorem le_align_pow (x bits : Nat) : x ≤ align x (2 ^ bits) := le_roundUp x (Nat.two_pow_pos bits)

theorem dvd_align_pow (x bits : Nat) : 2 ^ bits ∣ align x (2 ^ bits) := dvd_roundUp x _

theorem align_mono {x y : Nat} (n : Nat) (h : x ≤ y) : align x n ≤ align y n :=
  Nat.mul_le_mul_left _ (Nat.div_le_div_right (Nat.add_le_add_right h _))

theorem checkedUsize_of_le {n : Nat} (h : n ≤ USIZE_MAX) : checkedUsize n = .ok n := if_pos h

/-- Everything up to the end of the region is a `usize`. -/
theorem Rect.Fits.pos_le (h : r.Fits p) {y x : Nat} (hy : y ≤ r.y2) (hx : x ≤ r.x2) :
    align (p.pos y x) (2 ^ p.alignBits) ≤ USIZE_MAX :=
  (align_mono _ (p.pos_mono hy hx)).trans h

theorem Rect.Fits.checked (h : r.Fits p) {y x : Nat} (hy : y ≤ r.y2) (hx : x ≤ r.x2) :
    checkedUsize (p.pos y x) = .ok (p.pos y x) :=
  checkedUsize_of_le ((le_align_pow _ _).trans (h.pos_le hy hx))

theorem Rect.Fits.alignUp (h : r.Fits p) {y x : Nat} (hy : y ≤ r.y2) (hx : x ≤ r.x2) :
    alignUp (p.pos y x) p.alignBits = .ok (align (p.pos y x) (2 ^ p.alignBits)) :=
  checkedUsize_of_le (h.pos_le hy hx)

theorem saturating_pos {y x : Nat} (h : p.pos y x ≤ USIZE_MAX) :
    saturatingAdd (saturatingAdd p.offset (saturatingMul y p.stride)) (saturatingMul x p.bpp) =
      p.pos y x := by
  unfold Placement.pos at *
  unfold saturatingAdd saturatingMul
  omega

theorem boundingInterval_eq (hr : r.Nondegenerate) (h : r.Fits p) :
    boundingInterval p r = (p.pos r.y1 r.x1, p.pos r.y2 r.x2) := by
  have hend := (le_align_pow _ _).trans h
  have hstart := (p.pos_mono hr.y.le hr.x.le).trans hend
  unfold boundingInterval
  rw [saturating_pos hstart, saturating_pos hend]

theorem alignedBoundingInterval_eq (hr : r.Nondegenerate) (h : r.Fits p) :
    alignedBoundingInterval p r = .ok (alignDown (p.pos r.y1 r.x1) p.alignBits,
      align (p.pos r.y2 r.x2) (2 ^ p.alignBits)) := by
  unfold alignedBoundingInterval
  rw [boundingInterval_eq hr h]
  simp only [h.alignUp le_rfl le_rfl]
  rfl

/-- Rows are between the start of the first and the end of the last. -/
theorem Rect.rows_subset {lo hi last : Nat} (hlast : hi ≤ last + 1) :
    r.rows p lo hi ⊆ Set.Ico (alignDown (p.pos lo r.x1) p.alignBits)
      (align (p.pos last r.x2) (2 ^ p.alignBits)) := by
  rintro b ⟨x, y, hx₁, hx₂, hy₁, hy₂, hb₁, hb₂⟩
  have hstart := p.pos_mono hy₁ hx₁
  have hdown := alignDown_le (p.pos lo r.x1) p.alignBits
  have hend : p.pos y (x + 1) ≤ p.pos last r.x2 := p.pos_mono (by omega) hx₂
  have hup := le_align_pow (p.pos last r.x2) p.alignBits
  rw [p.pos_add_bpp] at hb₂
  exact ⟨by omega, by omega⟩

theorem Rect.rows_split {lo hi : Nat} (mid : Nat) :
    r.rows p lo hi ⊆ r.rows p lo mid ∪ r.rows p mid hi := by
  rintro b ⟨x, y, hx₁, hx₂, hy₁, hy₂, hb⟩
  by_cases hy : y < mid
  · exact .inl ⟨x, y, hx₁, hx₂, hy₁, hy, hb⟩
  · exact .inr ⟨x, y, hx₁, hx₂, Nat.le_of_not_lt hy, hy₂, hb⟩

end Positions

/-! ## The heap -/

section Heap

variable {heap rest : List RowEntry} {e : RowEntry}

theorem popFirst_eq_none : popFirst heap = none ↔ heap = [] := by
  cases heap with
  | nil => simp [popFirst]
  | cons f heap =>
    unfold popFirst
    split
    · simp
    · split <;> simp

/-- The first entry is one that starts first. -/
theorem popFirst_spec (h : popFirst heap = some (e, rest)) :
    (e :: rest).Perm heap ∧ ∀ f ∈ rest, e.start ≤ f.start := by
  induction heap generalizing e rest with
  | nil => cases h
  | cons f heap ih =>
    unfold popFirst at h
    cases hpop : popFirst heap with
    | none =>
      rw [hpop] at h
      cases h
      rw [popFirst_eq_none.mp hpop]
      exact ⟨.refl _, fun _ hf => (nomatch hf)⟩
    | some x =>
      obtain ⟨first, others⟩ := x
      obtain ⟨hperm, hfirst⟩ := ih hpop
      rw [hpop] at h
      dsimp only at h
      by_cases hbefore : first.before f = true
      · rw [if_pos hbefore] at h
        cases h
        refine ⟨(List.Perm.swap f e others).trans (hperm.cons f), fun d hd => ?_⟩
        obtain rfl | hd := mem_cons.mp hd
        · simp only [before, Bool.or_eq_true, Bool.and_eq_true, decide_eq_true_eq,
            beq_iff_eq] at hbefore
          omega
        · exact hfirst d hd
      · rw [if_neg hbefore] at h
        cases h
        refine ⟨hperm.cons f, fun d hd => ?_⟩
        have hle : f.start ≤ first.start := by
          simp only [before, Bool.or_eq_true, Bool.and_eq_true, decide_eq_true_eq,
            beq_iff_eq, not_or] at hbefore
          omega
        obtain rfl | hd := mem_cons.mp hd
        · exact hle
        · exact hle.trans (hfirst d hd)

end Heap

/-! ## Rows of a group -/

namespace RowEntry

/-- The row that an entry continues with. -/
def nextRow (e : RowEntry) : Nat := e.rect.y1 + e.row.getD 0

/-- What an entry and the later ones of its rectangle cover. -/
def todo (p : Placement) (e : RowEntry) : Set Nat := e.rect.rows p e.nextRow e.rect.y2

/-- Number of segments that an entry and the later ones of its rectangle give. -/
def remaining (e : RowEntry) : Nat :=
  match e.row with
  | none => 1
  | some row => e.rect.y2 - e.rect.y1 - row

/-- An entry for a row of a rectangle that ends before `stop`. -/
structure Good (p : Placement) (stop : Nat) (e : RowEntry) : Prop where
  rect : e.rect.Nondegenerate
  fits : e.rect.Fits p
  bound : align (p.pos e.rect.y2 e.rect.x2) (2 ^ p.alignBits) ≤ stop
  row : e.nextRow < e.rect.y2
  start : e.start = alignDown (p.pos e.nextRow e.rect.x1) p.alignBits

variable {p : Placement} {bound : Nat} {e : RowEntry}

/-- Last row of the segment that an entry stands for. -/
def lastRow (e : RowEntry) : Nat :=
  match e.row with
  | none => e.rect.y2 - 1
  | some row => e.rect.y1 + row

/-- End of the segment that an entry stands for. -/
def stopAt (p : Placement) (e : RowEntry) : Nat := align (p.pos e.lastRow e.rect.x2) (2 ^ p.alignBits)

theorem Good.lastRow_bounds (h : e.Good p bound) : e.nextRow ≤ e.lastRow ∧ e.lastRow < e.rect.y2 := by
  have hrow := h.row
  unfold nextRow lastRow at *
  cases hr : e.row with
  | none =>
    rw [hr] at hrow
    simp only [Option.getD_none] at hrow ⊢
    omega
  | some row =>
    rw [hr] at hrow
    simp only [Option.getD_some] at hrow ⊢
    omega

theorem Good.stop_eq (h : e.Good p bound) : e.stop p = .ok (e.stopAt p) := by
  have hy := h.rect.y
  have hlt := h.lastRow_bounds.2
  have hend {last : Nat} (hle : last ≤ e.rect.y2) :
      (checkedUsize (p.pos last e.rect.x2) >>= fun x => alignUp x p.alignBits) =
        .ok (align (p.pos last e.rect.x2) (2 ^ p.alignBits)) := by
    rw [h.fits.checked hle le_rfl, Res.ok_bind, h.fits.alignUp hle le_rfl]
  unfold stop stopAt
  unfold lastRow at *
  cases hr : e.row with
  | none =>
    dsimp only
    rw [checkedSub_of_le (by omega)]
    exact hend (Nat.sub_le _ _)
  | some row =>
    rw [hr] at hlt
    exact hend hlt.le

/-- The segment of an entry is not empty, and ends in the region. -/
theorem Good.segment (hbpp : 0 < p.bpp) (h : e.Good p bound) :
    e.start < e.stopAt p ∧ e.stopAt p ≤ bound := by
  obtain ⟨hle, hlt⟩ := h.lastRow_bounds
  have hpos := p.pos_lt hbpp hle h.rect.x
  have hdown := alignDown_le (p.pos e.nextRow e.rect.x1) p.alignBits
  have hup := le_align_pow (p.pos e.lastRow e.rect.x2) p.alignBits
  have hstart := h.start
  unfold stopAt
  refine ⟨by omega, (align_mono _ (p.pos_mono hlt.le le_rfl)).trans h.bound⟩

/-- Everything that an entry has to cover is after its start and in the region. -/
theorem Good.todo_subset (h : e.Good p bound) : e.todo p ⊆ Set.Ico e.start bound := by
  intro b hb
  obtain ⟨hlo, hhi⟩ := Rect.rows_subset (Nat.le_succ _) hb
  rw [h.start]
  exact ⟨hlo, hhi.trans_le h.bound⟩

end RowEntry

section Rows

variable {p : Placement} {minGap bound : Nat} {e : RowEntry} {heap : List RowEntry}

theorem rowEntry_eq {index : Nat} {rect : Rect} {row : Option Nat} (hrect : rect.Nondegenerate)
    (hfits : rect.Fits p) (hrow : rect.y1 + row.getD 0 < rect.y2) :
    rowEntry p index rect row = .ok {
      start := alignDown (p.pos (rect.y1 + row.getD 0) rect.x1) p.alignBits, index, rect, row } := by
  unfold rowEntry
  show checkedUsize (p.pos (rect.y1 + row.getD 0) rect.x1) >>= _ = _
  rw [hfits.checked hrow.le hrect.x.le]
  rfl

/-- What goes back on the heap does the rest of the rectangle. -/
theorem pushNextRow_spec (h : e.Good p bound) :
    ∃ next : List RowEntry, pushNextRow p e heap = .ok (next ++ heap) ∧
      (∀ n ∈ next, n.Good p bound ∧ e.start ≤ n.start) ∧
      (next.map remaining).sum + 1 = e.remaining ∧
      e.todo p ⊆ Set.Ico e.start (e.stopAt p) ∪
        {b | ∃ n ∈ next, b ∈ n.todo p} := by
  have hfirst {hi : Nat} (hhi : hi ≤ e.lastRow + 1) : e.rect.rows p e.nextRow hi ⊆
      Set.Ico e.start (e.stopAt p) := by
    rw [h.start]
    exact Rect.rows_subset hhi
  have hlast := h.lastRow_bounds
  have hrow := h.row
  unfold pushNextRow
  cases hr : e.row with
  | none =>
    refine ⟨[], rfl, fun _ hn => (nomatch hn), by simp [remaining, hr], ?_⟩
    refine Set.subset_union_of_subset_left (hfirst ?_) _
    simp only [lastRow, hr]
    omega
  | some row =>
    have hnext : e.nextRow = e.rect.y1 + row := by simp [nextRow, hr]
    have hlastRow : e.lastRow = e.rect.y1 + row := by simp [lastRow, hr]
    dsimp only
    by_cases hmore : row + 1 < e.rect.y2 - e.rect.y1
    · have hlt : e.rect.y1 + (some (row + 1)).getD 0 < e.rect.y2 := by
        simp only [Option.getD_some]
        omega
      rw [if_pos hmore, rowEntry_eq h.rect h.fits hlt]
      refine ⟨[_], rfl, ?_, ?_, ?_⟩
      · intro n hn
        cases mem_singleton.mp hn
        refine ⟨⟨h.rect, h.fits, h.bound, hlt, rfl⟩, ?_⟩
        rw [h.start, hnext]
        refine alignDown_mono _ (p.pos_mono ?_ le_rfl)
        simp only [Option.getD_some]
        omega
      · simp only [map_cons, map_nil, sum_cons, sum_nil, remaining, hr]
        omega
      · refine (Rect.rows_split (e.rect.y1 + (row + 1))).trans ?_
        refine Set.union_subset_union (hfirst (by omega)) fun b hb => ?_
        exact ⟨_, mem_singleton_self _, hb⟩
    · rw [if_neg hmore]
      refine ⟨[], rfl, fun _ hn => (nomatch hn), ?_, ?_⟩
      · simp only [map_nil, sum_nil, remaining, hr]
        omega
      · refine Set.subset_union_of_subset_left (hfirst ?_) _
        omega

/-- The interval that is being built after a segment has been joined to it. -/
theorem joinSegment_current {cur : Option (Nat × Nat)} {seg : Nat × Nat} (hseg : seg.1 < seg.2)
    (hbound : seg.2 ≤ bound) (hcur : ∀ c ∈ cur, c.1 ≤ seg.1 ∧ c.2 ≤ bound) :
    ∃ y, (joinSegment minGap cur seg).1 = some y ∧ y.1 ≤ seg.1 ∧ seg.1 < y.2 ∧ y.2 ≤ bound := by
  cases cur with
  | none => exact ⟨seg, rfl, le_rfl, hseg, hbound⟩
  | some c =>
    obtain ⟨hc₁, hc₂⟩ := hcur c rfl
    unfold joinSegment
    dsimp only
    split
    · exact ⟨_, rfl, hc₁, lt_max_of_lt_right hseg, max_le hc₂ hbound⟩
    · exact ⟨seg, rfl, le_rfl, hseg, hbound⟩

theorem closeGaps_cons {x : Nat × Nat} {l : List (Nat × Nat)} {cur : Option (Nat × Nat)} :
    closeGaps minGap (x :: l) cur =
      (joinSegment minGap cur x).2 ++ closeGaps minGap l (joinSegment minGap cur x).1 := rfl

/-- The segments that were joined in the loop. -/
structure Covering (p : Placement) (bound : Nat) (heap : List RowEntry) (segs : List (Nat × Nat)) :
    Prop where
  sorted : StartsSorted segs
  aligned : EndsAligned p.alignBits segs
  within : ∀ x ∈ segs, x.2 ≤ bound ∧ ∃ e ∈ heap, e.start ≤ x.1
  covers : ∀ e ∈ heap, e.todo p ⊆ points segs

theorem Covering.nil : Covering p bound [] [] :=
  ⟨⟨fun _ h => (nomatch h), List.Pairwise.nil⟩, fun _ h => (nomatch h), fun _ h => (nomatch h),
    fun _ h => (nomatch h)⟩

/-- Every iteration joins one segment; the last one may go up to the end of the region. -/
theorem processRows_spec {start fuel work : Nat} {cur : Option (Nat × Nat)} (hbpp : 0 < p.bpp)
    (hbound : 2 ^ p.alignBits ∣ bound) (hfuel : (heap.map remaining).sum < fuel)
    (hheap : ∀ e ∈ heap, e.Good p bound)
    (hcur : ∀ c ∈ cur, c.2 ≤ bound ∧ ∀ e ∈ heap, c.1 ≤ e.start) :
    ∃ segs, processRows p minGap (start, bound) fuel heap cur work =
      .ok (closeGaps minGap segs cur) ∧ Covering p bound heap segs := by
  induction fuel generalizing heap cur work with
  | zero => omega
  | succ fuel ih =>
    unfold processRows
    cases hpop : popFirst heap with
    | none =>
      cases popFirst_eq_none.mp hpop
      exact ⟨[], rfl, .nil⟩
    | some x =>
      obtain ⟨e, rest⟩ := x
      obtain ⟨hperm, hfirst⟩ := popFirst_spec hpop
      have he : e ∈ heap := hperm.mem_iff.mp mem_cons_self
      have hgood := hheap e he
      obtain ⟨hseg, hstop⟩ := hgood.segment hbpp
      obtain ⟨next, hpush, hnext, hcount, htodo⟩ := @pushNextRow_spec p bound e rest hgood
      have hsum : e.remaining + (rest.map remaining).sum =
          (heap.map remaining).sum := by
        rw [← (hperm.map remaining).sum_eq, map_cons, sum_cons]
      have hlater : ∀ f ∈ next ++ rest, f.Good p bound ∧ e.start ≤ f.start := by
        intro f hf
        obtain hf | hf := mem_append.mp hf
        · exact hnext f hf
        · exact ⟨hheap f (hperm.mem_iff.mp (mem_cons_of_mem _ hf)), hfirst f hf⟩
      have hremains : ∀ f ∈ heap, f = e ∨ f ∈ next ++ rest := by
        intro f hf
        obtain rfl | hf := mem_cons.mp (hperm.mem_iff.mpr hf)
        · exact .inl rfl
        · exact .inr (mem_append_right _ hf)
      obtain ⟨y, hy, hy₁, hy₂, hy₃⟩ := @joinSegment_current minGap bound cur (e.start, e.stopAt p) hseg
        hstop
        fun c hc => ⟨(hcur c hc).2 e he, (hcur c hc).1⟩
      have hdvd : 2 ^ p.alignBits ∣ e.start ∧
          2 ^ p.alignBits ∣ e.stopAt p :=
        ⟨hgood.start ▸ dvd_alignDown _ _, dvd_align_pow _ _⟩
      simp only [hgood.stop_eq, Res.ok_bind, hpush]
      split
      · -- giving up: everything that is left is before the end of the region
        refine ⟨[(e.start, e.stopAt p), (e.start, bound)],
          ?_, ⟨?_, ?_⟩, ?_, ?_, ?_⟩
        · have hjoin : (e.start, bound).1 ≤ y.2 ∨ (e.start, bound).1 - y.2 < minGap := .inl hy₂.le
          rw [closeGaps_cons, hy, closeGaps_join hjoin, max_eq_right hy₃]
          rfl
        · intro x hx
          simp only [mem_cons, not_mem_nil, or_false] at hx
          obtain rfl | rfl := hx
          · exact hseg
          · exact hseg.trans_le hstop
        · simp
        · intro x hx
          simp only [mem_cons, not_mem_nil, or_false] at hx
          obtain rfl | rfl := hx
          · exact hdvd
          · exact ⟨hdvd.1, hbound⟩
        · intro x hx
          simp only [mem_cons, not_mem_nil, or_false] at hx
          obtain rfl | rfl := hx
          · exact ⟨hstop, e, he, le_rfl⟩
          · exact ⟨le_rfl, e, he, le_rfl⟩
        · intro f hf b hb
          obtain ⟨hlo, hhi⟩ := (hheap f hf).todo_subset hb
          have hstart : e.start ≤ f.start := by
            obtain rfl | hf := hremains f hf
            · exact le_rfl
            · exact (hlater f hf).2
          exact ⟨(e.start, bound), by simp, hstart.trans hlo, hhi⟩
      · have hfuel' : ((next ++ rest).map remaining).sum < fuel := by
          rw [map_append, sum_append]
          omega
        obtain ⟨segs, hok, hcover⟩ := @ih (next ++ rest)
          (work + Nat.log2 (max 16 (next ++ rest).length)) (joinSegment minGap cur (e.start,
            e.stopAt p)).1 hfuel'
          (fun f hf => (hlater f hf).1) (by
            rw [hy]
            rintro c ⟨⟩
            exact ⟨hy₃, fun f hf => hy₁.trans (hlater f hf).2⟩)
        rw [hok, Res.ok_bind]
        have hstarts : ∀ x ∈ segs, e.start ≤ x.1 := by
          intro x hx
          obtain ⟨-, f, hf, hfx⟩ := hcover.within x hx
          exact (hlater f hf).2.trans hfx
        refine ⟨(e.start, e.stopAt p) :: segs, rfl,
          ⟨?_, pairwise_cons.mpr ⟨hstarts, hcover.sorted.sorted⟩⟩, ?_, ?_, ?_⟩
        · exact forall_mem_cons.mpr ⟨hseg, hcover.sorted.nonempty⟩
        · exact forall_mem_cons.mpr ⟨hdvd, hcover.aligned⟩
        · refine forall_mem_cons.mpr ⟨⟨hstop, e, he, le_rfl⟩, fun x hx => ?_⟩
          exact ⟨(hcover.within x hx).1, e, he, hstarts x hx⟩
        · intro f hf b hb
          rw [points_cons]
          obtain rfl | hf := hremains f hf
          · obtain hb | ⟨n, hn, hb⟩ := htodo hb
            · exact .inl hb
            · exact .inr (hcover.covers n (mem_append_left _ hn) hb)
          · exact .inr (hcover.covers f hf hb)

end Rows

/-! ## Groups -/

/-- The rectangle is in the region of its group. -/
structure Rect.InRegion (p : Placement) (region : Nat × Nat) (r : Rect) : Prop where
  rect : r.Nondegenerate
  fits : r.Fits p
  start : region.1 ≤ alignDown (p.pos r.y1 r.x1) p.alignBits
  stop : align (p.pos r.y2 r.x2) (2 ^ p.alignBits) ≤ region.2

theorem Rect.InRegion.mono {p : Placement} {region region' : Nat × Nat} {r : Rect}
    (h : r.InRegion p region) (hstart : region'.1 ≤ region.1) (hstop : region.2 ≤ region'.2) :
    r.InRegion p region' :=
  ⟨h.rect, h.fits, hstart.trans h.start, h.stop.trans hstop⟩

/-- Valid segments in a region that cover some rectangles. -/
structure Covered (p : Placement) (minGap : Nat) (region : Nat × Nat) (rects : List Rect)
    (out : List (Nat × Nat)) : Prop where
  spaced : Spaced minGap out
  aligned : EndsAligned p.alignBits out
  within : ∀ x ∈ out, region.1 ≤ x.1 ∧ x.2 ≤ region.2
  covers : ∀ r ∈ rects, r.bytes p ⊆ points out

section Groups

variable {p : Placement} {minGap : Nat} {rects : List Rect} {region : Nat × Nat}

theorem groupHeap_spec (hrects : ∀ r ∈ rects, r.InRegion p region) :
    ∃ heap, (rects.zipIdx.mapM fun (r, i) => do
        let width ← checkedUsize ((r.x2 - r.x1) * p.bpp)
        rowEntry p i r (if p.stride - minGap < width then none else some 0)) = .ok heap ∧
      List.Forall₂ (fun x (e : RowEntry) => x.1 ∈ rects ∧ e.Good p region.2 ∧
        region.1 ≤ e.start ∧ e.todo p = x.1.bytes p ∧ e.remaining = e.segments) rects.zipIdx heap := by
  apply Except.mapM_eq_ok
  rintro ⟨r, i⟩ hmem
  have hr : r ∈ rects := mem_of_getElem? (mem_zipIdx_iff_getElem?.mp hmem)
  obtain ⟨hrect, hfits, hstart, hstop⟩ := hrects r hr
  have hwidth : (r.x2 - r.x1) * p.bpp ≤ USIZE_MAX := by
    have hend := (le_align_pow (p.pos r.y2 r.x2) p.alignBits).trans hfits
    have hle := Nat.mul_le_mul_right p.bpp (Nat.sub_le r.x2 r.x1)
    unfold Placement.pos at hend
    omega
  have hentry (row : Option Nat) (hrow : row = none ∨ row = some 0) : ∃ e,
      rowEntry p i r row = .ok e ∧ r ∈ rects ∧ e.Good p region.2 ∧ region.1 ≤ e.start ∧
        e.todo p = r.bytes p ∧ e.remaining = e.segments := by
    have hzero : row.getD 0 = 0 := by
      obtain rfl | rfl := hrow <;> rfl
    have hy := hrect.y
    have hlt : r.y1 + row.getD 0 < r.y2 := by omega
    refine ⟨_, rowEntry_eq hrect hfits hlt, hr, ⟨hrect, hfits, hstop, hlt, rfl⟩, ?_, ?_, ?_⟩
    · rw [hzero]
      exact hstart
    · simp [todo, nextRow, hzero, Rect.bytes]
    · obtain rfl | rfl := hrow
      · rfl
      · simp only [remaining, segments]
        omega
  simp only [checkedUsize_of_le hwidth, Res.ok_bind]
  exact hentry _ (by split <;> simp)

theorem processGroup_spec (hbpp : 0 < p.bpp) (hstop : 2 ^ p.alignBits ∣ region.2)
    (hrects : ∀ r ∈ rects, r.InRegion p region) :
    ∃ out, processGroup p minGap rects region = .ok out ∧ Covered p minGap region rects out := by
  obtain ⟨heap, hheap, hall⟩ := @groupHeap_spec p minGap rects region hrects
  have hgood : ∀ e ∈ heap, e.Good p region.2 ∧ region.1 ≤ e.start ∧ e.remaining = e.segments := by
    intro e he
    obtain ⟨x, -, -, hgood, hstart, -, hcount⟩ := hall.exists_left he
    exact ⟨hgood, hstart, hcount⟩
  have hfuel : (heap.map remaining).sum < (heap.map segments).sum + 1 := by
    rw [map_congr_left fun e he => (hgood e he).2.2]
    exact Nat.lt_succ_self _
  obtain ⟨segs, hok, hcover⟩ := @processRows_spec p minGap region.2 heap region.1 _ 0 none hbpp hstop
    hfuel (fun e he => (hgood e he).1) (fun _ h => (nomatch h))
  obtain ⟨hspaced, hpoints⟩ := @closeGaps_spec minGap segs none hcover.sorted
  refine ⟨closeGaps minGap segs none, ?_, hspaced, fun y hy => ?_, fun y hy => ?_, fun r hr => ?_⟩
  · unfold processGroup
    rw [hheap, Res.ok_bind]
    exact hok
  · obtain ⟨⟨u, hu, hyu⟩, v, hv, hyv⟩ := mem_closeGaps hy
    rw [hyu, hyv]
    exact ⟨(hcover.aligned u hu).1, (hcover.aligned v hv).2⟩
  · obtain ⟨⟨u, hu, hyu⟩, v, hv, hyv⟩ := mem_closeGaps hy
    obtain ⟨-, e, he, heu⟩ := hcover.within u hu
    rw [hyu, hyv]
    exact ⟨(hgood e he).2.1.trans heu, (hcover.within v hv).1⟩
  · obtain ⟨i, hi⟩ : ∃ i, (r, i) ∈ rects.zipIdx := by
      obtain ⟨i, hlt, rfl⟩ := getElem_of_mem hr
      exact ⟨i, by simp [mem_zipIdx_iff_getElem?]⟩
    obtain ⟨e, he, -, -, -, htodo, -⟩ := hall.exists_right hi
    rw [hpoints, ← htodo]
    exact (hcover.covers e he).trans ((gapClosure minGap).le_closure _)

/-- Groups with their regions: each rectangle is in one, and the regions are apart. -/
structure Grouped (p : Placement) (minGap start : Nat) (rects : List Rect)
    (spans : List (List Rect × (Nat × Nat))) : Prop where
  regions : ∀ s ∈ spans, (∀ r ∈ s.1, r.InRegion p s.2) ∧ start ≤ s.2.1 ∧ 2 ^ p.alignBits ∣ s.2.2
  apart : spans.Pairwise fun s t => s.2.2 + minGap ≤ t.2.1
  complete : ∀ r ∈ rects, ∃ s ∈ spans, r ∈ s.1

/-- Rectangles in the order of where they start. -/
structure Sorted (p : Placement) (rects : List Rect) : Prop where
  rect : ∀ r ∈ rects, r.Nondegenerate ∧ r.Fits p
  order : rects.Pairwise fun a b => p.pos a.y1 a.x1 ≤ p.pos b.y1 b.x1

theorem groupRects_spec {rest group : List Rect} (hrest : Sorted p rest)
    (hgroup : ∀ r ∈ group, r.InRegion p region) (hstop : 2 ^ p.alignBits ∣ region.2)
    (hlater : ∀ r ∈ rest, region.1 ≤ alignDown (p.pos r.y1 r.x1) p.alignBits) :
    ∃ spans, groupRects p minGap rest group region = .ok spans ∧
      Grouped p minGap region.1 (group ++ rest) spans := by
  induction rest generalizing group region with
  | nil =>
    refine ⟨[(group, region)], rfl, ?_, pairwise_singleton _ _, fun r hr => ?_⟩
    · intro s hs
      cases mem_singleton.mp hs
      exact ⟨hgroup, le_rfl, hstop⟩
    · rw [append_nil] at hr
      exact ⟨_, mem_singleton_self _, hr⟩
  | cons r rest ih =>
    obtain ⟨hrect, hfits⟩ := hrest.rect r mem_cons_self
    obtain ⟨hnext, horder⟩ := pairwise_cons.mp hrest.order
    have hsorted : Sorted p rest :=
      ⟨fun s hs => hrest.rect s (mem_cons_of_mem _ hs), horder⟩
    have hdvd := dvd_align_pow (p.pos r.y2 r.x2) p.alignBits
    unfold groupRects
    rw [alignedBoundingInterval_eq hrect hfits, Res.ok_bind]
    dsimp only
    split
    · -- the rectangle joins the group
      have hmax : 2 ^ p.alignBits ∣ max region.2 (align (p.pos r.y2 r.x2) (2 ^ p.alignBits)) := by
        obtain h | h := max_choice region.2 (align (p.pos r.y2 r.x2) (2 ^ p.alignBits))
        · rwa [h]
        · rwa [h]
      obtain ⟨spans, hok, hgrouped⟩ := @ih (region.1, max region.2 _) (group ++ [r]) hsorted
        (fun s hs => by
          obtain hs | hs := mem_append.mp hs
          · exact (hgroup s hs).mono le_rfl (le_max_left _ _)
          · cases mem_singleton.mp hs
            exact ⟨hrect, hfits, hlater r mem_cons_self, le_max_right _ _⟩)
        hmax (fun s hs => hlater s (mem_cons_of_mem _ hs))
      refine ⟨spans, hok, ?_⟩
      rw [append_assoc, singleton_append] at hgrouped
      exact hgrouped
    · rename_i happart
      obtain ⟨spans, hok, hgrouped⟩ := @ih (alignDown (p.pos r.y1 r.x1) p.alignBits,
        align (p.pos r.y2 r.x2) (2 ^ p.alignBits)) [r] hsorted
        (fun s hs => by
          cases mem_singleton.mp hs
          exact ⟨hrect, hfits, le_rfl, le_rfl⟩)
        hdvd (fun s hs => alignDown_mono _ (hnext s hs))
      have hstart := hlater r mem_cons_self
      rw [hok]
      refine ⟨(group, region) :: spans, rfl, ?_, ?_, ?_⟩
      · refine forall_mem_cons.mpr ⟨⟨hgroup, le_rfl, hstop⟩, fun s hs => ?_⟩
        obtain ⟨hin, hlo, hhi⟩ := hgrouped.regions s hs
        exact ⟨hin, hstart.trans hlo, hhi⟩
      · refine pairwise_cons.mpr ⟨fun s hs => ?_, hgrouped.apart⟩
        have hlo := (hgrouped.regions s hs).2.1
        dsimp only at hlo ⊢
        omega
      · intro s hs
        obtain hs | hs := mem_append.mp hs
        · exact ⟨_, mem_cons_self, hs⟩
        · obtain ⟨t, ht, hst⟩ := hgrouped.complete s hs
          exact ⟨t, mem_cons_of_mem _ ht, hst⟩

/-- What the groups cover, one after the other, is valid. -/
theorem covered_flatten {spans : List (List Rect × (Nat × Nat))} {outs : List (List (Nat × Nat))}
    (hcovered : List.Forall₂ (fun s out => Covered p minGap s.2 s.1 out) spans outs)
    (happart : spans.Pairwise fun s t => s.2.2 + minGap ≤ t.2.1) :
    Spaced minGap outs.flatten ∧ EndsAligned p.alignBits outs.flatten := by
  induction hcovered with
  | nil => exact ⟨.nil, fun _ h => (nomatch h)⟩
  | @cons s out spans outs hfirst hrest ih =>
    obtain ⟨hs, happart⟩ := pairwise_cons.mp happart
    obtain ⟨hspaced, haligned⟩ := ih happart
    rw [flatten_cons]
    refine ⟨Spaced.append_iff.mpr ⟨hfirst.spaced, hspaced, fun x hx y hy => ?_⟩, fun x hx => ?_⟩
    · obtain ⟨out', hout', hy⟩ := mem_flatten.mp hy
      obtain ⟨t, ht, hcov⟩ := hrest.exists_left hout'
      have h₁ := (hfirst.within x hx).2
      have h₂ := hs t ht
      have h₃ := (hcov.within y hy).1
      omega
    · obtain hx | hx := mem_append.mp hx
      · exact hfirst.aligned x hx
      · exact haligned x hx

end Groups

/-! ## All rectangles -/

/-- `compute_damaged_segments` after sorting. -/
def sortedSegments (p : Placement) (minGap : Nat) : List Rect → Res (List (Nat × Nat))
  | [] => .ok []
  | r :: rest => do
    let spans ← groupRects p minGap rest [r] (← alignedBoundingInterval p r)
    return (← spans.mapM fun (group, region) => processGroup p minGap group region).flatten

section Segments

variable {p : Placement} {minGap : Nat} {rects : List Rect}

theorem sortedSegments_spec (hbpp : 0 < p.bpp) (hrects : Sorted p rects) :
    ∃ out, sortedSegments p minGap rects = .ok out ∧
      validateOutput out p.alignBits minGap = true ∧ ∀ r ∈ rects, r.bytes p ⊆ points out := by
  cases rects with
  | nil => exact ⟨[], rfl, validateOutput_iff.mpr ⟨.nil, fun _ h => (nomatch h)⟩,
      fun _ h => (nomatch h)⟩
  | cons r rest =>
    obtain ⟨hrect, hfits⟩ := hrects.rect r mem_cons_self
    obtain ⟨hnext, horder⟩ := pairwise_cons.mp hrects.order
    obtain ⟨spans, hok, hgrouped⟩ := @groupRects_spec p minGap (alignDown (p.pos r.y1 r.x1) p.alignBits,
      align (p.pos r.y2 r.x2) (2 ^ p.alignBits)) rest [r]
      ⟨fun s hs => hrects.rect s (mem_cons_of_mem _ hs), horder⟩
      (fun s hs => by
        cases mem_singleton.mp hs
        exact ⟨hrect, hfits, le_rfl, le_rfl⟩)
      (dvd_align_pow _ _) (fun s hs => alignDown_mono _ (hnext s hs))
    obtain ⟨outs, houts, hcovered⟩ := Except.mapM_eq_ok (l := spans)
      (f := fun x => processGroup p minGap x.1 x.2)
      (P := fun s out => Covered p minGap s.2 s.1 out) fun s hs =>
        processGroup_spec hbpp (hgrouped.regions s hs).2.2 (hgrouped.regions s hs).1
    obtain ⟨hspaced, haligned⟩ := covered_flatten hcovered hgrouped.apart
    refine ⟨outs.flatten, ?_, validateOutput_iff.mpr ⟨hspaced, haligned⟩, fun s hs b hb => ?_⟩
    · unfold sortedSegments
      dsimp only
      rw [alignedBoundingInterval_eq hrect hfits, Res.ok_bind, hok, Res.ok_bind]
      exact Res.bind_eq_ok.mpr ⟨outs, houts, rfl⟩
    · obtain ⟨t, ht, hst⟩ := hgrouped.complete s hs
      obtain ⟨out, hout, hcov⟩ := hcovered.exists_right ht
      obtain ⟨x, hx, hbx⟩ := hcov.covers s hst hb
      exact ⟨x, mem_flatten.mpr ⟨out, hout, hx⟩, hbx⟩

theorem computeDamagedSegments_eq (hbpp : 0 < p.bpp) (hrects : ∀ r ∈ rects, r.Nondegenerate) :
    computeDamagedSegments rects p minGap = sortedSegments p minGap
      (rects.mergeSort fun a b => (boundingInterval p a).1 ≤ (boundingInterval p b).1) := by
  have hasserts : (rects.forM fun r =>
      assert (r.x1 < r.x2 && r.y1 < r.y2) "r.x1 < r.x2 && r.y1 < r.y2") = (.ok () : Res Unit) := by
    refine Except.forM_eq_ok fun r hr => assert_of ?_ _
    simp [(hrects r hr).x, (hrects r hr).y]
  unfold computeDamagedSegments
  cases rects.mergeSort fun a b => (boundingInterval p a).1 ≤ (boundingInterval p b).1 with
  | nil => rfl
  | cons r rest =>
    dsimp only
    rw [assert_of (by simpa using hbpp), Res.ok_bind, hasserts]
    rfl

/-- Sorting by the saturated starts is sorting by the starts. -/
theorem Sorted.of_perm {sorted : List Rect} (hperm : sorted.Perm rects)
    (hrects : ∀ r ∈ rects, r.Nondegenerate ∧ r.Fits p)
    (horder : sorted.Pairwise fun a b => (boundingInterval p a).1 ≤ (boundingInterval p b).1) :
    Sorted p sorted := by
  have hall : ∀ r ∈ sorted, r.Nondegenerate ∧ r.Fits p := fun r hr => hrects r (hperm.mem_iff.mp hr)
  refine ⟨hall, horder.imp_of_mem fun {a b} ha hb hab => ?_⟩
  rwa [boundingInterval_eq (hall a ha).1 (hall a ha).2,
    boundingInterval_eq (hall b hb).1 (hall b hb).2] at hab

end Segments

/-- The segments cover every byte of every pixel of every rectangle, and are valid; in whichever
order rectangles that start at the same byte are sorted. -/
theorem computeDamagedSegments_sound (p : Placement) (minGap : Nat) (rects : List Rect)
    (hbpp : 0 < p.bpp) (hrects : ∀ r ∈ rects, r.x1 < r.x2 ∧ r.y1 < r.y2)
    (hfits : ∀ r ∈ rects, r.Fits p) :
    (∃ out, computeDamagedSegments rects p minGap = .ok out ∧
      validateOutput out p.alignBits minGap = true ∧ ∀ r ∈ rects, r.bytes p ⊆ points out) ∧
    ∀ sorted : List Rect, sorted.Perm rects →
      (sorted.Pairwise fun a b => (boundingInterval p a).1 ≤ (boundingInterval p b).1) →
      ∃ out, sortedSegments p minGap sorted = .ok out ∧
        validateOutput out p.alignBits minGap = true ∧ ∀ r ∈ rects, r.bytes p ⊆ points out := by
  have hall : ∀ r ∈ rects, r.Nondegenerate ∧ r.Fits p := fun r hr =>
    ⟨⟨(hrects r hr).1, (hrects r hr).2⟩, hfits r hr⟩
  have hsorted : ∀ sorted : List Rect, sorted.Perm rects →
      (sorted.Pairwise fun a b => (boundingInterval p a).1 ≤ (boundingInterval p b).1) →
      ∃ out, sortedSegments p minGap sorted = .ok out ∧
        validateOutput out p.alignBits minGap = true ∧ ∀ r ∈ rects, r.bytes p ⊆ points out := by
    intro sorted hperm horder
    obtain ⟨out, hok, hvalid, hcovers⟩ :=
      @sortedSegments_spec p minGap sorted hbpp (.of_perm hperm hall horder)
    exact ⟨out, hok, hvalid, fun r hr => hcovers r (hperm.mem_iff.mpr hr)⟩
  refine ⟨?_, hsorted⟩
  rw [computeDamagedSegments_eq hbpp fun r hr => (hall r hr).1]
  refine hsorted _ (mergeSort_perm _ _) ?_
  have hmerge : (rects.mergeSort fun a b => (boundingInterval p a).1 ≤ (boundingInterval p b).1).Pairwise
      fun a b => decide ((boundingInterval p a).1 ≤ (boundingInterval p b).1) = true := by
    refine pairwise_mergeSort ?_ ?_ rects
    · intro a b c
      simp only [decide_eq_true_eq]
      exact Nat.le_trans
    · intro a b
      simp only [Bool.or_eq_true, decide_eq_true_eq]
      exact Nat.le_total _ _
  exact hmerge.imp of_decide_eq_true

/-- Two rectangles that are far apart, in a buffer with rows of 16 bytes. -/
theorem computeDamagedSegments_sound_apart :
    ∃ out, computeDamagedSegments [⟨0, 1, 0, 2⟩, ⟨2, 3, 40, 41⟩] ⟨0, 16, 4, 2⟩ 4 = .ok out ∧
      validateOutput out 2 4 = true ∧ 19 ∈ points out := by
  obtain ⟨⟨out, hok, hvalid, hcovers⟩, -⟩ := computeDamagedSegments_sound ⟨0, 16, 4, 2⟩ 4
    [⟨0, 1, 0, 2⟩, ⟨2, 3, 40, 41⟩] (by decide) (by decide) (by decide)
  refine ⟨out, hok, hvalid, hcovers ⟨0, 1, 0, 2⟩ mem_cons_self ?_⟩
  exact ⟨0, 1, by decide⟩

end Waypipe
