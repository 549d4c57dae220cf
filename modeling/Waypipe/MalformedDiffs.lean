import Waypipe.DiffAppliers
import Waypipe.MirrorRanges

/-!
# Diffs from the peer

`compute_diff_span`, the acquisition of the range that it reports and `apply_diff`, for any bytes, in a
build without overflow checks: differences and positions wrap around at `2 ^ 64`, so that the loop of
`compute_diff_span` may go back and never end.  `Walk` lists the spans that this loop reads, if it ends;
`diff_handled_iff` says for which diffs an update is applied or rejected, with no panic and in finitely
many steps.
-/

namespace Waypipe

open LeBytes Writes Eff List

/-! ## The release build -/

/-- Subtraction of `usize` values. -/
@[irreducible] def wrapSub (a b : Nat) : Nat := (a + 2 ^ 64 - b) % 2 ^ 64

/-- The loop of `compute_diff_span`; `none` if it has not ended after that many rounds.  Positions near
`2 ^ 64` do not need to be treated on their own, as no slice can start there. -/
def spanLoop (diff : List UInt8) (limit : Nat) : Nat → Nat → Nat → Nat → Option (Res (Nat × Nat))
  | 0, _, _, _ => none
  | rounds + 1, pos, start, stop =>
    if pos < limit then
      match readU32 diff pos, readU32 diff (pos + 4) with
      | .ok spanStart, .ok spanEnd =>
        spanLoop diff limit rounds ((pos + 8 + wrapSub spanEnd spanStart * 4) % 2 ^ 64)
          (min start spanStart) (max stop spanEnd)
      | .error e, _ => some (.error e)
      | _, .error e => some (.error e)
    else some (.ok (start, stop))

/-- `compute_diff_span` -/
def computeDiffSpanRelease (rounds : Nat) (diff : List UInt8) (ntrailing bufLen : Nat) :
    Option (Res (Nat × Nat)) :=
  let body := wrapSub diff.length ntrailing
  let nblocks := body / 4
  if body % 4 ≠ 0 then some (.error (.panic "(diff.len() - ntrailing) % 4 == 0"))
  else if nblocks = 0 then
    if ntrailing = 0 then some (fail "computed diff span on empty diff")
    else some (.ok (wrapSub bufLen ntrailing, bufLen))
  else (spanLoop diff (4 * nblocks) rounds 0 bufLen 0).map fun ends => do
    let (start, stop) ← ends
    assert (decide (start < stop)) "start < end"
    return if 0 < ntrailing then (start * 4 % 2 ^ 64, bufLen)
      else (start * 4 % 2 ^ 64, stop * 4 % 2 ^ 64)

/-- Copy to a part of the mirror that is given by offsets from the start of the buffer. -/
def MirrorRange.copyRelease (m : MirrorRange) (start : Nat) (bytes : List UInt8) : Writer Unit := do
  let first := wrapSub start m.start
  let last := wrapSub (start + bytes.length) m.start
  Eff.ofExcept (assert (decide (first ≤ last)) "slice index starts after its end")
  Eff.ofExcept (assert (decide (last ≤ m.len)) "range end index out of range for slice")
  store m.sfd true start bytes

/-- What `apply_diff` does with the bytes of a span. -/
def fileWriteRelease (m : MirrorRange) (start : Nat) (bytes : List UInt8) : Writer Unit := do
  m.copyRelease start bytes
  store m.sfd false start bytes

variable (diff : List UInt8)

variable (ntrailing size : Nat)

/-- One of the bytes that trail. -/
def tailByteRelease (m : MirrorRange) (i : Nat) :
    Writer Unit := do
  let index := (wrapSub size ntrailing + i) % 2 ^ 64
  Eff.ofExcept (assert (decide (index < size)) "index out of bounds")
  let b ← Eff.ofExcept (orPanic (diff[(wrapSub diff.length ntrailing / 4 * 4 + i) % 2 ^ 64]?)
    "index out of bounds")
  store m.sfd false index [b]
  Eff.ofExcept (assert (decide (wrapSub index m.start < m.len)) "index out of bounds")
  store m.sfd true (m.start + wrapSub index m.start) [b]

/-- `apply_diff`.  The check of a span bounds the numbers that are computed from it, so it is as in
`applyDiff`. -/
def applyDiffRelease (m : MirrorRange) : Writer Unit := do
  let body := wrapSub diff.length ntrailing
  Eff.ofExcept (assert (body % 4 == 0) "(diff.len() - ntrailing) % 4 == 0")
  let limit := 4 * (body / 4)
  applySpans diff limit (fileCheck size limit) (fileWriteRelease m) diff.length 0
  if 0 < ntrailing then
    (range ntrailing).forM (tailByteRelease diff ntrailing size m)

/-- A diff is applied to the region that has been computed for it, if this can be acquired. -/
def acquireAndApply (sfd : SfdRef) (mir : Mirror)
    (start stop : Nat) : Res Unit × List (Loc × UInt8) :=
  match (mir.getMutRange sfd start stop).1 with
  | none => (fail s!"Failed to acquire mirror range {start}..{stop} when applying", [])
  | some m => (applyDiffRelease diff ntrailing size m).exec []

/-- What is done with the diff of a file: the outcome and the writes, or `none` as long as it runs. -/
def receiveDiff (rounds : Nat) (diff : List UInt8) (ntrailing size : Nat) (sfd : SfdRef)
    (mir : Mirror) : Option (Res Unit × List (Loc × UInt8)) :=
  (computeDiffSpanRelease rounds diff ntrailing size).map fun
    | .error e => (.error e, [])
    | .ok (start, stop) => acquireAndApply diff ntrailing size sfd mir start stop

/-! ## The spans that are read -/

/-- The spans that the loop reads from a position on, if it ends. -/
inductive Walk (diff : List UInt8) (limit : Nat) : Nat → List (Nat × Nat) → Prop
  | done {pos : Nat} : limit ≤ pos → Walk diff limit pos []
  | span {pos start stop : Nat} {spans : List (Nat × Nat)} : pos < limit →
      Header diff pos start stop →
      Walk diff limit ((pos + 8 + wrapSub stop start * 4) % 2 ^ 64) spans →
      Walk diff limit pos ((start, stop) :: spans)

/-- The smallest start of a span, if it is less than `start`. -/
def firstStart (start : Nat) (spans : List (Nat × Nat)) : Nat :=
  spans.foldl (fun acc s => min acc s.1) start

/-- The largest end of a span, if it is more than `stop`. -/
def lastStop (stop : Nat) (spans : List (Nat × Nat)) : Nat :=
  spans.foldl (fun acc s => max acc s.2) stop

theorem wrapSub_of_le {a b : Nat} (h : b ≤ a) (ha : a < 2 ^ 64) : wrapSub a b = a - b := by
  unfold wrapSub
  omega

theorem wrapSub_of_lt {a b : Nat} (h : a < b) : wrapSub a b = a + 2 ^ 64 - b := by
  unfold wrapSub
  omega

section Loop

variable {diff : List UInt8} {limit pos start stop : Nat} {spans : List (Nat × Nat)}

theorem spanLoop_done (h : limit ≤ pos) (rounds : Nat) :
    spanLoop diff limit (rounds + 1) pos start stop = some (.ok (start, stop)) := by
  rw [spanLoop, if_neg (by omega)]

theorem spanLoop_span {spanStart spanEnd : Nat} (hpos : pos < limit)
    (h : Header diff pos spanStart spanEnd) (rounds : Nat) :
    spanLoop diff limit (rounds + 1) pos start stop =
      spanLoop diff limit rounds ((pos + 8 + wrapSub spanEnd spanStart * 4) % 2 ^ 64)
        (min start spanStart) (max stop spanEnd) := by
  rw [spanLoop, if_pos hpos, h.1, h.2]

theorem spanLoop_short (hpos : pos < limit) (h : diff.length < pos + 8) (rounds : Nat) :
    ∃ msg, spanLoop diff limit (rounds + 1) pos start stop = some (.error (.panic msg)) := by
  rw [spanLoop, if_pos hpos, readU32_panics (show diff.length < pos + 4 + 4 by omega)]
  by_cases hfirst : pos + 4 ≤ diff.length
  · obtain ⟨n, -, hn⟩ := readU32_ok hfirst
    rw [hn]
    exact ⟨_, rfl⟩
  · rw [readU32_panics (by omega)]
    exact ⟨_, rfl⟩

/-- The loop ends if there is a list of spans for it. -/
theorem Walk.spanLoop_eq (h : Walk diff limit pos spans) : ∀ start stop,
    ∃ rounds, spanLoop diff limit rounds pos start stop =
      some (.ok (firstStart start spans, lastStop stop spans)) := by
  induction h with
  | done hle => exact fun start stop => ⟨1, spanLoop_done hle 0⟩
  | span hpos hheader _ ih =>
    intro start stop
    obtain ⟨rounds, hrounds⟩ := ih (min start _) (max stop _)
    exact ⟨rounds + 1, (spanLoop_span hpos hheader rounds).trans hrounds⟩

/-- If the loop ends, it has read a list of spans, or it panics. -/
theorem spanLoop_cases {rounds : Nat} {x : Res (Nat × Nat)}
    (h : spanLoop diff limit rounds pos start stop = some x) :
    (∃ spans, Walk diff limit pos spans ∧ x = .ok (firstStart start spans, lastStop stop spans)) ∨
      ∃ msg, x = .error (.panic msg) := by
  induction rounds generalizing pos start stop with
  | zero => cases h
  | succ rounds ih =>
    by_cases hpos : pos < limit
    · by_cases hfits : pos + 8 ≤ diff.length
      · obtain ⟨spanStart, spanEnd, hheader⟩ := exists_header hfits
        rw [spanLoop_span hpos hheader] at h
        rcases ih h with ⟨spans, hwalk, rfl⟩ | hpanic
        · exact .inl ⟨_, .span hpos hheader hwalk, rfl⟩
        · exact .inr hpanic
      · obtain ⟨msg, hmsg⟩ := @spanLoop_short diff limit pos start stop hpos (by omega) rounds
        rw [hmsg] at h
        exact .inr ⟨msg, (Option.some.inj h).symm⟩
    · rw [spanLoop_done (by omega)] at h
      exact .inl ⟨[], .done (by omega), (Option.some.inj h).symm⟩

/-- More rounds do not change how the loop ends. -/
theorem spanLoop_mono {rounds : Nat} {x : Res (Nat × Nat)}
    (h : spanLoop diff limit rounds pos start stop = some x) (more : Nat) :
    spanLoop diff limit (rounds + more) pos start stop = some x := by
  induction rounds generalizing pos start stop with
  | zero => cases h
  | succ rounds ih =>
    rw [Nat.add_right_comm]
    by_cases hpos : pos < limit
    · by_cases hfits : pos + 8 ≤ diff.length
      · obtain ⟨spanStart, spanEnd, hheader⟩ := exists_header hfits
        rw [spanLoop_span hpos hheader] at h ⊢
        exact ih h
      · rw [spanLoop, if_pos hpos] at h ⊢
        rw [readU32_panics (show diff.length < pos + 4 + 4 by omega)] at h ⊢
        split at h <;> simp_all
    · rw [spanLoop_done (by omega)] at h ⊢
      exact h

/-- A span that leads back to itself. -/
theorem spanLoop_endless {spanStart spanEnd : Nat} (hpos : pos < limit)
    (h : Header diff pos spanStart spanEnd)
    (hback : (pos + 8 + wrapSub spanEnd spanStart * 4) % 2 ^ 64 = pos) (rounds : Nat) :
    spanLoop diff limit rounds pos start stop = none := by
  induction rounds generalizing start stop with
  | zero => rfl
  | succ rounds ih =>
    rw [spanLoop_span hpos h, hback]
    exact ih

end Loop

/-! ## Applying -/

/-- The spans are valid for a file of `size` bytes, and with their headers they fill the diff from `pos`
up to `limit`. -/
def Fills (size limit pos : Nat) (spans : List (Nat × Nat)) : Prop :=
  (∀ s ∈ spans, s.1 < s.2 ∧ 4 * s.2 ≤ size) ∧
    pos + (spans.map fun s => 8 + 4 * (s.2 - s.1)).sum = limit

theorem fills_cons {size limit pos : Nat} {s : Nat × Nat} {spans : List (Nat × Nat)} :
    Fills size limit pos (s :: spans) ↔
      (s.1 < s.2 ∧ 4 * s.2 ≤ size) ∧ Fills size limit (pos + 8 + 4 * (s.2 - s.1)) spans := by
  unfold Fills
  rw [forall_mem_cons, map_cons, sum_cons, and_assoc, ← Nat.add_assoc, ← Nat.add_assoc]

section Apply

variable {diff : List UInt8} {limit size ntrailing : Nat} {spans : List (Nat × Nat)} {m : MirrorRange}

/-- A position that the loop reaches is in the diff. -/
theorem Walk.pos_le {pos : Nat} (h : Walk diff limit pos spans) (hle : pos ≤ limit) (hpos : pos < 2 ^ 63)
    (hlimit : limit ≤ diff.length ∨ 2 ^ 63 ≤ limit) : pos ≤ diff.length := by
  cases h with
  | done hge => omega
  | span _ hheader _ =>
    have := hheader.fits
    omega

variable (log : List (Loc × UInt8))

theorem addsIn_writesAt {lo hi start : Nat} {bytes : List UInt8} (sfd : SfdRef) (inMirror : Bool)
    (hlo : lo ≤ start) (hhi : start + bytes.length ≤ hi) :
    AddsIn lo hi log (log ++ writesAt sfd inMirror start bytes) :=
  WritesIn.store sfd inMirror hlo hhi log

section Range

variable (hm : m.start + m.len < 2 ^ 63)

include hm

theorem exec_copyRelease {start : Nat} {bytes : List UInt8} (hlo : m.start ≤ start)
    (hhi : start + bytes.length ≤ m.start + m.len) :
    (m.copyRelease start bytes).exec log = (.ok (), log ++ writesAt m.sfd true start bytes) := by
  unfold MirrorRange.copyRelease
  rw [wrapSub_of_le hlo (by omega), wrapSub_of_le (by omega) (by omega)]
  dsimp only
  rw [assert_of (decide_eq_true (by omega)), ofExcept_ok_bind,
    assert_of (decide_eq_true (by omega)), ofExcept_ok_bind]
  rfl

theorem exec_fileWriteRelease {start : Nat} {bytes : List UInt8} (hlo : m.start ≤ start)
    (hhi : start + bytes.length ≤ m.start + m.len) :
    ∃ log', (fileWriteRelease m start bytes).exec log = (.ok (), log') ∧
      AddsIn m.start (m.start + m.len) log log' := by
  refine ⟨log ++ writesAt m.sfd true start bytes ++ writesAt m.sfd false start bytes, ?_,
    AddsIn.trans _ _ _ (addsIn_writesAt log m.sfd true hlo hhi)
      (addsIn_writesAt _ m.sfd false hlo hhi)⟩
  exact exec_bind_ok.mpr ⟨(), _, exec_copyRelease log hm hlo hhi, rfl⟩

variable (hdiff : diff.length < 2 ^ 32)

include hdiff

/-- The loop of `apply_diff` over the spans of a diff: it ends, or it returns an error because they are
not valid. -/
theorem applySpans_walk {pos : Nat} (h : Walk diff limit pos spans) (hle : pos ≤ limit)
    (hpos : pos < 2 ^ 63) (hlimit : limit ≤ diff.length ∨ 2 ^ 63 ≤ limit)
    (hin : ∀ s ∈ spans, m.start ≤ s.1 * 4 ∧ (4 * s.2 ≤ size → 4 * s.2 ≤ m.start + m.len))
    {rounds : Nat} (hrounds : diff.length ≤ pos + rounds) :
    Fills size limit pos spans ∧ limit ≤ diff.length ∧ (∃ log', (applySpans diff limit
        (fileCheck size limit) (fileWriteRelease m) rounds pos).exec log = (.ok (), log') ∧
        AddsIn m.start (m.start + m.len) log log') ∨
      ¬ Fills size limit pos spans ∧ Res.IsErr ((applySpans diff limit
        (fileCheck size limit) (fileWriteRelease m) rounds pos).exec log).1 := by
  induction spans generalizing pos rounds log with
  | nil =>
    cases h with
    | done hge =>
      refine .inl ⟨⟨fun _ hs => (nomatch hs), ?_⟩, by omega, log, applySpans_done hge, AddsIn.rfl log⟩
      simp only [map_nil, sum_nil]
      omega
  | cons s spans ih =>
    cases h with
    | span hlt hheader hwalk =>
      rename_i start stop
      have hfits := hheader.fits
      have hsmall := hheader.small
      obtain ⟨hs, hin⟩ := forall_mem_cons.mp hin
      obtain ⟨rounds, rfl⟩ : ∃ k, rounds = k + 1 := ⟨rounds - 1, by omega⟩
      rw [fills_cons]
      by_cases hrej : stop ≤ start ∨ size / 4 < stop ∨ limit < pos + 8 + 4 * (stop - start)
      · right
        refine ⟨fun ⟨hvalid, hfills⟩ => ?_, applySpans_rejected hlt hheader ?_⟩
        · have hend := hfills.2
          dsimp only at hvalid hend
          omega
        · unfold fileCheck
          rw [if_pos hrej]
          exact Res.isErr_fail _
      · have hnext : (pos + 8 + wrapSub stop start * 4) % 2 ^ 64 = pos + 8 + 4 * (stop - start) := by
          rw [wrapSub_of_le (by omega) (by omega)]
          omega
        rw [hnext] at hwalk
        have hslice := hwalk.pos_le (by omega) (by omega) hlimit
        have hlen : ((diff.drop (pos + 8)).take (4 * (stop - start))).length = 4 * (stop - start) := by
          rw [length_take, length_drop]
          omega
        have hbound := hs.2 (by dsimp only; omega)
        dsimp only at hs hbound
        obtain ⟨log₁, hwrite, hadds⟩ := @exec_fileWriteRelease m log hm (start * 4)
          ((diff.drop (pos + 8)).take (4 * (stop - start))) hs.1 (by rw [hlen]; omega)
        rw [applySpans_span hlt hheader (if_neg hrej) hslice hwrite]
        rcases @ih log₁ _ hwalk (by omega) (by omega) hin rounds (by omega) with
          ⟨hfills, hlim, log', hrun, hlog'⟩ | ⟨hnot, herr⟩
        · exact .inl ⟨⟨⟨by dsimp only; omega, by dsimp only; omega⟩, hfills⟩, hlim, log', hrun,
            AddsIn.trans _ _ _ hadds hlog'⟩
        · exact .inr ⟨fun h => hnot h.2, herr⟩

variable (hle : ntrailing ≤ diff.length) (hmod : (diff.length - ntrailing) % 4 = 0)
  (hstart : m.start + ntrailing ≤ size) (hend : size ≤ m.start + m.len)

include hle hmod hstart hend

theorem exec_tailByte {i : Nat} (hi : i < ntrailing) :
    ∃ log', (tailByteRelease diff ntrailing size m i).exec log = (.ok (), log') ∧
      AddsIn m.start (m.start + m.len) log log' := by
  have hbyte : diff.length - ntrailing + i < diff.length := by omega
  have hindex : (wrapSub size ntrailing + i) % 2 ^ 64 = size - ntrailing + i := by
    rw [wrapSub_of_le (by omega) (by omega)]
    omega
  have hfrom : (wrapSub diff.length ntrailing / 4 * 4 + i) % 2 ^ 64 = diff.length - ntrailing + i := by
    rw [wrapSub_of_le hle (by omega)]
    omega
  unfold tailByteRelease
  dsimp only
  rw [hindex, hfrom, wrapSub_of_le (by omega) (by omega), getElem?_eq_getElem hbyte,
    assert_of (decide_eq_true (by omega)), ofExcept_ok_bind,
    assert_of (decide_eq_true (by omega))]
  refine ⟨_, rfl, AddsIn.trans _ _ _ (addsIn_writesAt log m.sfd false (by omega) ?_)
    (addsIn_writesAt _ m.sfd true (by omega) ?_)⟩
  · rw [length_singleton]
    omega
  · rw [length_singleton]
    omega

theorem exec_tail :
    ∃ log', ((range ntrailing).forM (tailByteRelease diff ntrailing size m)).exec log =
        (.ok (), log') ∧ AddsIn m.start (m.start + m.len) log log' :=
  exec_forM_of_rel AddsIn.rfl AddsIn.trans _ (fun _ hi log =>
    exec_tailByte log hm hdiff hle hmod hstart hend (mem_range.mp hi)) log

end Range

/-- The first byte that trails, when the range does not have it. -/
theorem tail_panics (hpos : 0 < ntrailing) (hnt : ntrailing < 2 ^ 32)
    (hstart : size < m.start + ntrailing) (hend : m.start + m.len = size) (hsize : size < 2 ^ 63) :
    ¬ Res.Clean (((range ntrailing).forM (tailByteRelease diff ntrailing size m)).exec log).1 := by
  have hpanic : ∃ msg, ((tailByteRelease diff ntrailing size m 0).exec log).1 =
      .error (.panic msg) := by
    unfold tailByteRelease
    dsimp only
    by_cases hover : size < ntrailing
    · -- the offset of the tail has wrapped
      rw [wrapSub_of_lt hover, show assert _ _ = _ from if_neg (by rw [decide_eq_true_eq]; omega)]
      exact ⟨_, exec_bind_error rfl _⟩
    · rw [wrapSub_of_le (show ntrailing ≤ size by omega) (by omega),
        assert_of (decide_eq_true (by omega)), ofExcept_ok_bind]
      cases diff[(wrapSub diff.length ntrailing / 4 * 4 + 0) % 2 ^ 64]? with
      | none => exact ⟨_, exec_bind_error rfl _⟩
      | some b =>
        -- the byte of the file has been written, that of the mirror is before the range
        have hstore : (store m.sfd false ((size - ntrailing + 0) % 2 ^ 64) [b]).exec log =
          (.ok (), log ++ writesAt m.sfd false ((size - ntrailing + 0) % 2 ^ 64) [b]) := rfl
        rw [show orPanic (some b) _ = .ok b from rfl, ofExcept_ok_bind,
          exec_bind_of_ok hstore, wrapSub_of_lt (by omega),
          show assert _ _ = _ from if_neg (by rw [decide_eq_true_eq]; omega)]
        exact ⟨_, exec_bind_error rfl _⟩
  obtain ⟨msg, hmsg⟩ := hpanic
  intro hclean
  refine hclean (.panic msg) ?_ trivial
  rw [show ntrailing = ntrailing - 1 + 1 by omega, range_succ_eq_map,
    show ntrailing - 1 + 1 = ntrailing by omega]
  exact exec_forM_cons_error hmsg _

/-- `apply_diff` on a range that starts before all spans, and ends after all that are in the file: it
returns an error if the spans are not valid, it panics if the range does not have the bytes that trail,
and else it returns. -/
theorem applyDiffRelease_cases (hwalk : Walk diff (wrapSub diff.length ntrailing) 0 spans)
    (hmod : wrapSub diff.length ntrailing % 4 = 0) (hdiff : diff.length < 2 ^ 32)
    (hnt : ntrailing < 2 ^ 32) (hsize : size < 2 ^ 63) (hend : m.start + m.len ≤ size)
    (htail : 0 < ntrailing → m.start + m.len = size)
    (hin : ∀ s ∈ spans, m.start ≤ s.1 * 4 ∧ (4 * s.2 ≤ size → 4 * s.2 ≤ m.start + m.len)) :
    ¬ Fills size (wrapSub diff.length ntrailing) 0 spans ∧
        Res.IsErr ((applyDiffRelease diff ntrailing size m).exec []).1 ∨
      Fills size (wrapSub diff.length ntrailing) 0 spans ∧
        ((0 < ntrailing → m.start + ntrailing ≤ size) ∧
            (∃ log, (applyDiffRelease diff ntrailing size m).exec [] = (.ok (), log) ∧
              AddsIn m.start (m.start + m.len) [] log) ∨
          (0 < ntrailing ∧ size < m.start + ntrailing) ∧
            ¬ Res.Clean ((applyDiffRelease diff ntrailing size m).exec []).1) := by
  have hlimit : wrapSub diff.length ntrailing ≤ diff.length ∨
      2 ^ 63 ≤ wrapSub diff.length ntrailing := by
    unfold wrapSub
    omega
  have hbody : 4 * (wrapSub diff.length ntrailing / 4) = wrapSub diff.length ntrailing := by omega
  unfold applyDiffRelease
  dsimp only
  rw [assert_of (beq_iff_eq.mpr hmod), ofExcept_ok_bind, hbody]
  rcases applySpans_walk [] (by omega) hdiff hwalk (Nat.zero_le _) (by decide) hlimit hin
    (Nat.le_add_left diff.length 0) with ⟨hfills, hle, log, hrun, hadds⟩ | ⟨hnot, msg, hmsg⟩
  · refine .inr ⟨hfills, ?_⟩
    have hnt' : ntrailing ≤ diff.length := by
      by_contra hover
      rw [wrapSub_of_lt (by omega)] at hle
      omega
    rw [wrapSub_of_le hnt' (by omega)] at hmod
    rw [exec_bind, hrun]
    dsimp only
    by_cases hpos : 0 < ntrailing
    · rw [if_pos hpos]
      by_cases hstart : m.start + ntrailing ≤ size
      · obtain ⟨log', hrun', hadds'⟩ := exec_tail log (by omega) hdiff hnt' hmod hstart (htail hpos).ge
        exact .inl ⟨fun _ => hstart, log', hrun', AddsIn.trans _ _ _ hadds hadds'⟩
      · exact .inr ⟨⟨hpos, by omega⟩, tail_panics log hpos hnt (by omega) (htail hpos) hsize⟩
    · rw [if_neg hpos]
      exact .inl ⟨fun h => absurd h hpos, log, rfl, hadds⟩
  · exact .inl ⟨hnot, msg, exec_bind_error hmsg _⟩

end Apply

/-! ## The region -/

section Region

variable {diff : List UInt8} {limit pos : Nat} {spans : List (Nat × Nat)}

theorem firstStart_le (start : Nat) : firstStart start spans ≤ start ∧
    ∀ s ∈ spans, firstStart start spans ≤ s.1 := by
  induction spans generalizing start with
  | nil => exact ⟨le_rfl, fun _ hs => (nomatch hs)⟩
  | cons t spans ih =>
    obtain ⟨hstart, hspans⟩ := ih (min start t.1)
    refine ⟨hstart.trans (min_le_left _ _), forall_mem_cons.mpr ⟨?_, hspans⟩⟩
    exact hstart.trans (min_le_right _ _)

theorem le_lastStop (stop : Nat) : stop ≤ lastStop stop spans ∧
    ∀ s ∈ spans, s.2 ≤ lastStop stop spans := by
  induction spans generalizing stop with
  | nil => exact ⟨le_rfl, fun _ hs => (nomatch hs)⟩
  | cons t spans ih =>
    obtain ⟨hstop, hspans⟩ := ih (max stop t.2)
    refine ⟨(le_max_left _ _).trans hstop, forall_mem_cons.mpr ⟨?_, hspans⟩⟩
    exact (le_max_right _ _).trans hstop

theorem Walk.lastStop_lt (h : Walk diff limit pos spans) : ∀ stop < 2 ^ 32,
    lastStop stop spans < 2 ^ 32 := by
  induction h with
  | done _ => exact fun stop hstop => hstop
  | span _ hheader _ ih => exact fun stop hstop => ih _ (Nat.max_lt.mpr ⟨hstop, hheader.small.2⟩)

end Region

/-! ## Which diffs are handled -/

/-- The diff is applied or rejected in finitely many steps, and if it is applied, only bytes of the file
in the region that was computed are written. -/
def DiffHandled (sfd : SfdRef) (mir : Mirror) : Prop :=
  ∃ rounds out, (∀ more, receiveDiff (rounds + more) diff ntrailing size sfd mir = some out) ∧
    Res.Clean out.1 ∧
    (out.1 = .ok () → ∃ start stop,
      computeDiffSpanRelease rounds diff ntrailing size = some (.ok (start, stop)) ∧
      ∀ w ∈ out.2, w.1.offset < size ∧ start ≤ w.1.offset ∧ w.1.offset < stop)

/-- What it takes for a diff to be handled.  The bytes before those that trail are whole words; if there
are any, following the spans through the diff comes to an end with complete headers, and some span ends
after some span, or the file, starts; and if the spans are valid, then the bytes that trail do not start
before all of them. -/
def Harmless (mir : Mirror) : Prop :=
  wrapSub diff.length ntrailing % 4 = 0 ∧ (wrapSub diff.length ntrailing = 0 ∨
    ∃ spans, Walk diff (wrapSub diff.length ntrailing) 0 spans ∧
      firstStart size spans < lastStop 0 spans ∧
      (0 < ntrailing → Fills size (wrapSub diff.length ntrailing) 0 spans →
        mir.Grants (firstStart size spans * 4) size → firstStart size spans * 4 + ntrailing ≤ size))

/-- The diff is applied or rejected, and if it is applied, only bytes of the file in the region are
written. -/
def AppliedIn (size start stop : Nat) (out : Res Unit × List (Loc × UInt8)) : Prop :=
  Res.Clean out.1 ∧ (out.1 = .ok () →
    ∀ w ∈ out.2, w.1.offset < size ∧ start ≤ w.1.offset ∧ w.1.offset < stop)

section Handled

variable {diff : List UInt8} {ntrailing size rounds : Nat} {sfd : SfdRef} {mir : Mirror}
  {spans : List (Nat × Nat)} {start stop : Nat}

/-- A diff with spans, when the loop over them has ended. -/
theorem computeDiffSpanRelease_spans (hmod : wrapSub diff.length ntrailing % 4 = 0)
    (hbody : wrapSub diff.length ntrailing ≠ 0)
    (hwalk : Walk diff (wrapSub diff.length ntrailing) 0 spans)
    (hloop : spanLoop diff (wrapSub diff.length ntrailing) rounds 0 size 0 =
      some (.ok (firstStart size spans, lastStop 0 spans)))
    (hlt : firstStart size spans < lastStop 0 spans) :
    computeDiffSpanRelease rounds diff ntrailing size =
      some (.ok (firstStart size spans * 4,
        if 0 < ntrailing then size else lastStop 0 spans * 4)) := by
  have hlast := hwalk.lastStop_lt 0 (by decide)
  unfold computeDiffSpanRelease
  dsimp only
  rw [if_neg (by omega), if_neg (by omega),
    show 4 * (wrapSub diff.length ntrailing / 4) = wrapSub diff.length ntrailing by omega, hloop,
    Option.map_some, Res.ok_bind]
  dsimp only
  rw [assert_of (decide_eq_true hlt), Res.ok_bind, Nat.mod_eq_of_lt (by omega),
    Nat.mod_eq_of_lt (by omega)]
  by_cases hpos : 0 < ntrailing
  · rw [if_pos hpos, if_pos hpos]
    rfl
  · rw [if_neg hpos, if_neg hpos]
    rfl

theorem receiveDiff_of_span
    (h : computeDiffSpanRelease rounds diff ntrailing size = some (.ok (start, stop))) :
    receiveDiff rounds diff ntrailing size sfd mir =
      some (acquireAndApply diff ntrailing size sfd mir start stop) := by
  unfold receiveDiff
  rw [h]
  rfl

/-- If the region is computed, the rest of the work decides. -/
theorem diffHandled_of_span
    (h : ∀ more, computeDiffSpanRelease (rounds + more) diff ntrailing size = some (.ok (start, stop)))
    (happly : AppliedIn size start stop (acquireAndApply diff ntrailing size sfd mir start stop)) :
    DiffHandled diff ntrailing size sfd mir :=
  ⟨rounds, _, fun more => receiveDiff_of_span (h more), happly.1,
    fun hok => ⟨start, stop, h 0, happly.2 hok⟩⟩

/-- The range of a diff with spans, which has the valid ones. -/
theorem spans_in_range (spans : List (Nat × Nat)) : ∀ s ∈ spans, firstStart size spans * 4 ≤ s.1 * 4 ∧
    (4 * s.2 ≤ size → 4 * s.2 ≤ if 0 < ntrailing then size else lastStop 0 spans * 4) := by
  intro s hs
  have hfirst := (@firstStart_le spans size).2 s hs
  have hlast := (@le_lastStop spans 0).2 s hs
  refine ⟨by omega, fun hle => ?_⟩
  by_cases hpos : 0 < ntrailing
  · rwa [if_pos hpos]
  · rw [if_neg hpos]
    omega

variable (hdiff : diff.length < 2 ^ 32) (hnt : ntrailing < 2 ^ 32) (hsize : size < 2 ^ 63)
  (hmir : mir.regionSize = size)

include hdiff hnt hsize hmir

/-- The region is acquired and the diff applied, or one of the two fails, unless the region does not
have the bytes that trail. -/
theorem acquireAndApply_iff (hwalk : Walk diff (wrapSub diff.length ntrailing) 0 spans)
    (hmod : wrapSub diff.length ntrailing % 4 = 0)
    (htail : 0 < ntrailing → stop = size)
    (hin : ∀ s ∈ spans, start ≤ s.1 * 4 ∧ (4 * s.2 ≤ size → 4 * s.2 ≤ stop)) :
    AppliedIn size start stop (acquireAndApply diff ntrailing size sfd mir start stop) ↔
      (0 < ntrailing → Fills size (wrapSub diff.length ntrailing) 0 spans → mir.Grants start stop →
        start + ntrailing ≤ size) := by
  unfold acquireAndApply
  rcases mir.getMutRange_cases sfd start stop with ⟨hgrants, hsome⟩ | ⟨hnot, hnone⟩
  · rw [hsome]
    dsimp only
    have hlt := hgrants.1
    have hle := hgrants.2.1
    have hstop : start + (stop - start) = stop := by omega
    rcases @applyDiffRelease_cases diff size ntrailing spans ⟨sfd, start, stop - start⟩ hwalk hmod hdiff
      hnt hsize (by dsimp only; omega) (fun hpos => hstop.trans (htail hpos))
      (by dsimp only; rw [hstop]; exact hin) with
      ⟨hfills, herr⟩ | ⟨hfills, ⟨hstart, log, hrun, hadds⟩ | ⟨hpos, hpanic⟩⟩
    · refine iff_of_true ⟨herr.clean, fun hok => ?_⟩ fun _ h => absurd h hfills
      rw [hok] at herr
      exact absurd herr (Res.not_isErr_ok _)
    · rw [hrun]
      refine iff_of_true ⟨.ok _, fun _ w hw => ?_⟩ fun hpos _ _ => hstart hpos
      rcases hadds w hw with hw | ⟨h₁, h₂⟩
      · cases hw
      · dsimp only at h₁ h₂
        omega
    · refine iff_of_false (fun h => hpanic h.1) fun h => ?_
      have hbound := h hpos.1 hfills hgrants
      have hover := hpos.2
      dsimp only at hover
      omega
  · rw [hnone]
    refine iff_of_true ⟨.fail _, fun h => ?_⟩ fun _ _ h => absurd h hnot
    cases h

theorem diffHandled_of_no_spans (hbody : wrapSub diff.length ntrailing = 0) :
    DiffHandled diff ntrailing size sfd mir := by
  have hcompute : ∀ more, computeDiffSpanRelease (0 + more) diff ntrailing size =
      some (if ntrailing = 0 then fail "computed diff span on empty diff"
        else .ok (wrapSub size ntrailing, size)) := by
    intro more
    unfold computeDiffSpanRelease
    dsimp only
    rw [hbody, if_neg (by decide), if_pos (by decide), apply_ite some]
  by_cases hzero : ntrailing = 0
  · refine ⟨0, (fail "computed diff span on empty diff", []), fun more => ?_, .fail _, nofun⟩
    unfold receiveDiff
    rw [hcompute more, if_pos hzero]
    rfl
  · simp only [if_neg hzero] at hcompute
    have hwalk : Walk diff (wrapSub diff.length ntrailing) 0 [] := .done (by omega)
    refine diffHandled_of_span hcompute ((acquireAndApply_iff hdiff hnt hsize hmir hwalk (by rw [hbody])
      (fun _ => rfl) (fun _ hs => (nomatch hs))).mpr fun _ _ hgrants => ?_)
    -- an offset that has wrapped is after the end of the file
    have hlt := hgrants.1
    by_cases hle : ntrailing ≤ size
    · rw [wrapSub_of_le hle (by omega)]
      omega
    · rw [wrapSub_of_lt (by omega)] at hlt
      omega

theorem Harmless.diffHandled (h : Harmless diff ntrailing size mir) :
    DiffHandled diff ntrailing size sfd mir := by
  obtain ⟨hmod, hzero | ⟨spans, hwalk, hlt, htail⟩⟩ := h
  · exact diffHandled_of_no_spans hdiff hnt hsize hmir hzero
  by_cases hzero : wrapSub diff.length ntrailing = 0
  · exact diffHandled_of_no_spans hdiff hnt hsize hmir hzero
  obtain ⟨rounds, hloop⟩ := hwalk.spanLoop_eq size 0
  refine diffHandled_of_span
    (fun more => computeDiffSpanRelease_spans hmod hzero hwalk (spanLoop_mono hloop more) hlt)
    ((acquireAndApply_iff hdiff hnt hsize hmir hwalk hmod (fun hpos => if_pos hpos)
      (spans_in_range spans)).mpr fun hpos hfills hgrants => ?_)
  rw [if_pos hpos] at hgrants
  exact htail hpos hfills hgrants

theorem DiffHandled.harmless (h : DiffHandled diff ntrailing size sfd mir) :
    Harmless diff ntrailing size mir := by
  obtain ⟨rounds, out, hrun, hclean, hwrites⟩ := h
  have hrun := hrun 0
  rw [Nat.add_zero] at hrun
  -- a panic of `compute_diff_span` would be the outcome
  have hnopanic : ∀ msg, computeDiffSpanRelease rounds diff ntrailing size ≠
      some (.error (.panic msg)) := by
    intro msg hpanic
    unfold receiveDiff at hrun
    rw [hpanic] at hrun
    cases hrun
    exact Res.not_clean_panic msg hclean
  by_cases hmod : wrapSub diff.length ntrailing % 4 = 0
  swap
  · exact absurd (if_pos hmod) (hnopanic _)
  refine ⟨hmod, ?_⟩
  by_cases hzero : wrapSub diff.length ntrailing = 0
  · exact .inl hzero
  right
  have hbody : 4 * (wrapSub diff.length ntrailing / 4) = wrapSub diff.length ntrailing := by omega
  cases hloop : spanLoop diff (wrapSub diff.length ntrailing) rounds 0 size 0 with
  | none =>
    unfold receiveDiff computeDiffSpanRelease at hrun
    dsimp only at hrun
    rw [if_neg (by omega), if_neg (by omega), hbody, hloop] at hrun
    cases hrun
  | some x =>
    rcases spanLoop_cases hloop with ⟨spans, hwalk, rfl⟩ | ⟨msg, rfl⟩
    · by_cases hlt : firstStart size spans < lastStop 0 spans
      · have hspan := computeDiffSpanRelease_spans hmod hzero hwalk hloop hlt
        rw [receiveDiff_of_span hspan] at hrun
        cases hrun
        refine ⟨spans, hwalk, hlt, fun hpos hfills hgrants => ?_⟩
        refine (acquireAndApply_iff hdiff hnt hsize hmir hwalk hmod (fun hpos => if_pos hpos)
          (spans_in_range spans)).mp ⟨hclean, fun hok w hw => ?_⟩ hpos hfills ?_
        · obtain ⟨start, stop, hspan', hin⟩ := hwrites hok
          rw [hspan] at hspan'
          cases hspan'
          exact hin w hw
        · rwa [if_pos hpos]
      · refine absurd ?_ (hnopanic "start < end")
        unfold computeDiffSpanRelease
        dsimp only
        rw [if_neg (by omega), if_neg (by omega), hbody, hloop, Option.map_some, Res.ok_bind]
        dsimp only
        rw [show assert _ _ = _ from if_neg (by rw [decide_eq_true_eq]; exact hlt)]
        rfl
    · refine absurd ?_ (hnopanic msg)
      unfold computeDiffSpanRelease
      dsimp only
      rw [if_neg (by omega), if_neg (by omega), hbody, hloop]
      rfl

end Handled

/-- For any bytes and any number of trailing bytes that the peer may send, a diff of a file that is
mirrored is handled if and only if it is harmless. -/
theorem diff_handled_iff (diff : List UInt8) (ntrailing size : Nat) (sfd : SfdRef) (mir : Mirror)
    (hdiff : diff.length < 2 ^ 32) (hnt : ntrailing < 2 ^ 32) (hsize : size < 2 ^ 63)
    (hmir : mir.regionSize = size) :
    DiffHandled diff ntrailing size sfd mir ↔ Harmless diff ntrailing size mir :=
  ⟨fun h => h.harmless hdiff hnt hsize hmir, fun h => h.diffHandled hdiff hnt hsize hmir⟩

theorem diff_handled_wordAndByte :
    wordAndByte.length < 2 ^ 32 ∧ DiffHandled wordAndByte 1 5 0 ⟨5, []⟩ := by
  have hbody : wrapSub wordAndByte.length 1 = 12 := wrapSub_of_le (by decide) (by decide)
  have hnext : (0 + 8 + wrapSub 1 0 * 4) % 2 ^ 64 = 12 := by
    rw [wrapSub_of_le (by decide) (by decide)]
    omega
  refine ⟨by decide, (diff_handled_iff wordAndByte 1 5 0 ⟨5, []⟩ (by decide) (by decide) (by decide)
    rfl).mpr ⟨by rw [hbody], .inr ⟨[(0, 1)], ?_, by decide, fun _ _ _ => by decide⟩⟩⟩
  rw [hbody]
  refine .span (by decide) ⟨rfl, rfl⟩ ?_
  rw [hnext]
  exact .done le_rfl

/-- A header that is cut off and an empty span panic, a span that is reversed by two words is read again
and again, and spans that start after the bytes that trail panic once they have been written. -/
theorem malformed_diffs_fatal :
    (receiveDiff 1 [0, 0, 0, 0] 0 8 0 ⟨8, []⟩).map Prod.fst =
        some (.error (.panic "range end index out of range for slice")) ∧
      (receiveDiff 2 [0, 0, 0, 0, 0, 0, 0, 0] 0 8 0 ⟨8, []⟩).map Prod.fst =
        some (.error (.panic "start < end")) ∧
      (∀ rounds, receiveDiff rounds [2, 0, 0, 0, 0, 0, 0, 0] 0 8 0 ⟨8, []⟩ = none) ∧
      (receiveDiff 2 [1, 0, 0, 0, 2, 0, 0, 0, 1, 2, 3, 4, 5, 6, 7, 8, 9] 5 8 0 ⟨8, []⟩).map Prod.fst =
        some (.error (.panic "index out of bounds")) := by
  refine ⟨by decide +kernel, by decide +kernel, fun rounds => ?_, by decide +kernel⟩
  have hback : (0 + 8 + wrapSub 0 2 * 4) % 2 ^ 64 = 0 := by
    rw [wrapSub_of_lt (by decide)]
    omega
  have hloop := @spanLoop_endless [2, 0, 0, 0, 0, 0, 0, 0] 8 0 8 0 2 0 (by decide) ⟨rfl, rfl⟩ hback
    rounds
  unfold receiveDiff computeDiffSpanRelease
  dsimp only
  rw [wrapSub_of_le (Nat.zero_le _) (by decide), if_neg (by decide), if_neg (by decide),
    show 4 * (([2, 0, 0, 0, 0, 0, 0, (0 : UInt8)].length - 0) / 4) = 8 from rfl, hloop]
  rfl

end Waypipe
