import Waypipe.DiffRoundTrip
import Waypipe.Lib.Simd

/-!
# The diff kernel with vector instructions

`construct_diff_segment_two_avx2` compares and copies a line with two registers.  In the scan for the
first changed line it merges the two results of the comparison into one register and rearranges the
bits of its mask; as two bits of every four of the new mask are always zero, neither leading nor
trailing words are ever found unchanged there.  In the scan for the end of a span the mask is exact,
and a span can end within a line.

A store of the kernel is not checked; here it fails when it is outside of the diff buffer, so that a
run that returns has made no such store.
-/

namespace Waypipe

open LeBytes Patch Writes M256 List

variable (line : Line)

namespace Line

/-- The two registers with a line of the target. -/
def t1 : M256 := load line.values 0

def t2 : M256 := load line.values 32

/-- The words that are the same in the first halves and in the second halves of the line and of the
reference.  Of each word lane, the lower half is of the latter. -/
def merged : M256 :=
  let d1 := cmpeqEpi32 line.t1 (load line.refvals 0)
  let d2 := cmpeqEpi32 line.t2 (load line.refvals 32)
  blendEpi16 0b01010101 d1 d2

end Line

/-- `_mm256_maskstore_epi32`. -/
def maskstoreEpi32 (buf : List UInt8) (pos : Int) (mask v : M256) : Res (List UInt8) :=
  (finRange 8).foldlM (fun buf k =>
    if wordSelected mask k then
      if 0 ≤ pos + 4 * k then writeAt buf (pos + 4 * k).toNat (word v k)
      else .error (.panic "store before the start of the buffer")
    else .ok buf) buf

/-- The mask of the first loop. -/
def newMask : BitVec 64 :=
  let mergedMask := movemaskEpi8 line.merged
  let part1 : BitVec 32 := 0b00110011001100110011001100110011
  let part2 := ~~~part1
  ((mergedMask &&& part1).setWidth 64 <<< 32) ||| (mergedMask &&& part2).setWidth 64

namespace Encoder

/-- The stores of a line of which the first `ncom` words have not changed. -/
def storeFirst (e : Encoder) (line : Line) (ncom : Nat) : Res (List UInt8) := do
  let blockShift := ncom % 8
  let esmask : BitVec 64 := 0xffffffff#64 <<< (blockShift * 4)
  let estoremask := cvtepi8Epi64 esmask
  let buf ← maskstoreEpi32 e.buf (e.base - blockShift * 4) estoremask
    (if ncom < 8 then line.t1 else line.t2)
  if ncom < 8 then writeAt buf (e.base + 4 * (8 - blockShift)) line.t2.bytes else .ok buf

/-- The first changed line of a span. -/
def firstLineAvx2 (e : Encoder) (refbaseBlock : Nat) (line : Line) : Res (Encoder × Scan) := do
  let ncom := (~~~(newMask line)).ctz.toNat / 4
  let trailingUnchanged := (~~~(newMask line)).clz.toNat / 4
  let buf ← e.storeFirst line ncom
  let start ← checkedU32 (16 * e.lineNo + ncom + refbaseBlock)
  return ({ e with
    buf
    dc := e.dc + (16 - ncom)
    lineNo := e.lineNo + 1
    reference := e.reference ++ (line.t1.bytes ++ line.t2.bytes) },
    .changed trailingUnchanged start)

/-- A later line of a span; it is stored to the reference only if the span does not end with it. -/
def nextLineAvx2 (e : Encoder) (line : Line) (stored : Bool) : Res Encoder := do
  let written ← checkedSub e.dc e.idc
  let buf ← writeAt e.buf (e.base + 4 * written) line.t1.bytes
  let buf ← writeAt buf (e.base + 4 * written + 32) line.t2.bytes
  return { e with
    buf
    dc := e.dc + 16
    lineNo := e.lineNo + 1
    reference := e.reference ++ if stored then line.t1.bytes ++ line.t2.bytes else line.refvals }

/-- The end of the outer loop's body. -/
def endSpan (e : Encoder) (refbaseBlock start trailing : Nat) : Res Encoder := do
  let (e, stop) ← e.closeSpan refbaseBlock start trailing
  e.advance start stop

/-- The same, when there are no more lines. -/
def endInput (e : Encoder) (refbaseBlock start trailing : Nat) : Res Encoder :=
  if e.dc = e.idc then do return { e with dc := ← checkedSub e.dc 2 }
  else e.endSpan refbaseBlock start trailing

end Encoder

/-- The loops of `construct_diff_segment_two_avx2`. -/
def encodeAvx2 (skipGapLen refbaseBlock : Nat) : List Line → Scan → Encoder → Res Encoder
  | [], .unchanged, e => e.endInput refbaseBlock 0 0
  | [], .changed trailing start, e => e.endInput refbaseBlock start trailing
  | line :: lines, .unchanged, e =>
    if testcSi256 line.merged ones then
      encodeAvx2 skipGapLen refbaseBlock lines .unchanged (e.skipLine line)
    else do
      let (e, scan) ← e.firstLineAvx2 refbaseBlock line
      encodeAvx2 skipGapLen refbaseBlock lines scan e
  | line :: lines, .changed trailing start, e => do
    let mask := compareMask line.values line.refvals
    let clear := (decide (~~~mask = 0)).toNat
    let trailCount := (~~~mask).clz.toNat / 4
    let trailing := trailing * clear + trailCount
    let e ← e.nextLineAvx2 line (decide (trailing ≤ skipGapLen))
    if skipGapLen < trailing then
      if lines.isEmpty then e.endInput refbaseBlock start trailing
      else
        let e ← e.endSpan refbaseBlock start trailing
        let e ← e.openSpan
        encodeAvx2 skipGapLen refbaseBlock lines .unchanged e
    else encodeAvx2 skipGapLen refbaseBlock lines (.changed trailing start) e

/-- The outer loop, which is not entered without lines. -/
def scanAvx2 (skipGapLen refbaseBlock : Nat) (lines : List Line) (e : Encoder) : Res Encoder :=
  if lines.isEmpty then .ok e
  else do encodeAvx2 skipGapLen refbaseBlock lines .unchanged (← e.openSpan)

/-- Returns the length of the diff, the diff buffer and the reference. -/
def constructDiffSegmentTwoAvx2 (diff target reference : List UInt8)
    (referenceBase skipGapLen : Nat) : Res (Nat × List UInt8 × List UInt8) := do
  let lines ← newIterator target reference
  assert (decide (target.length + 8 ≤ diff.length)) "diff.len() >= target.len() + 8"
  assert (decide (diff.length < 2 ^ 32 - 1)) "diff.len() < (u32::MAX as usize)"
  assert (decide (16 ≤ skipGapLen)) "skip_gap_len >= 16"
  let e ← scanAvx2 skipGapLen (referenceBase / 4) lines {
    buf := diff
    base := 0
    dc := 0
    idc := 0
    lineNo := 0
    reference := [] }
  return (e.dc * 4 % 2 ^ 32, e.buf, e.reference)

/-- `construct_diff_segment_two`; `avx2` says whether the processor has the vector instructions. -/
def constructDiffSegmentTwo (avx2 : Bool) (diff target reference : List UInt8)
    (referenceBase skipGapLen : Nat) : Res (Nat × List UInt8 × List UInt8) :=
  if avx2 then constructDiffSegmentTwoAvx2 diff target reference referenceBase skipGapLen
  else do
    assert (decide (target.length + 8 ≤ diff.length)) "diff.len() >= target.len() + 8"
    constructDiffSegmentTwoIter diff (← newIterator target reference) referenceBase skipGapLen

/-! ## The masks -/

theorem bytes_append_bytes : line.t1.bytes ++ line.t2.bytes = line.values := by
  have hv := line.length_values
  unfold Line.t1 Line.t2
  rw [bytes_load (by omega), bytes_load (by omega), drop_zero]
  have hrest : (line.values.drop 32).take 32 = line.values.drop 32 :=
    take_of_length_le (by rw [length_drop]; omega)
  rw [hrest, take_append_drop]

theorem testcSi256_ones (a : M256) : testcSi256 a ones = true ↔ ∀ i, a i = 0xff := by
  have hbyte : ∀ x : UInt8, ~~~x &&& 0xff = 0 ↔ x = 0xff := by
    intro x
    constructor
    · intro h
      have hnot : ~~~x = 0 := by rw [← h]; exact UInt8.and_neg_one.symm
      rw [← UInt8.not_not (a := x), hnot]
      rfl
    · rintro rfl
      rfl
  unfold testcSi256 ones
  rw [decide_eq_true_iff]
  exact forall_congr' fun i => hbyte (a i)

theorem cmpeqEpi32_load_ones (l r : List UInt8) (i : Fin 32) {pos : Nat} (hpos : pos % 4 = 0) :
    cmpeqEpi32 (load l pos) (load r pos) i = 0xff ↔ SameWord l r ((pos + i) / 4) := by
  rw [cmpeqEpi32_load l r i hpos]
  by_cases h : SameWord l r ((pos + i) / 4)
  · simp only [h, if_true]
  · simp only [h, if_false, iff_false]
    decide

/-- The merged register has ones only if no word has changed. -/
theorem merged_ones :
    testcSi256 line.merged ones = true ↔ line.values = line.refvals := by
  have hodd : ∀ m < 4, (0b01010101 : BitVec 8).getLsbD (2 * m + 1) = false := by decide
  have heven : ∀ m < 4, (0b01010101 : BitVec 8).getLsbD (2 * m) = true := by decide
  rw [testcSi256_ones]
  constructor
  · intro h
    have hsame : ∀ k, 0 ≤ k → k < 16 → SameWord line.values line.refvals k := by
      intro k _ hk
      -- The first byte of a word lane is of the second register, the third one of the first.
      by_cases hlow : k < 8
      · have hbyte := h ⟨4 * k + 2, by omega⟩
        have himm : (0b01010101 : BitVec 8).getLsbD ((4 * k + 2) / 2 % 8) = false := by
          rw [show (4 * k + 2) / 2 % 8 = 2 * (k % 4) + 1 by omega]
          exact hodd (k % 4) (Nat.mod_lt _ (by decide))
        simp only [Line.merged, blendEpi16, himm] at hbyte
        have hword := (cmpeqEpi32_load_ones _ _ _ rfl).mp hbyte
        rwa [show (0 + (4 * k + 2)) / 4 = k by omega] at hword
      · have hbyte := h ⟨4 * (k - 8), by omega⟩
        have himm : (0b01010101 : BitVec 8).getLsbD ((4 * (k - 8)) / 2 % 8) = true := by
          rw [show (4 * (k - 8)) / 2 % 8 = 2 * ((k - 8) % 4) by omega]
          exact heven ((k - 8) % 4) (Nat.mod_lt _ (by decide))
        simp only [Line.merged, blendEpi16, himm] at hbyte
        have hword := (cmpeqEpi32_load_ones _ _ _ rfl).mp hbyte
        rwa [show (32 + 4 * (k - 8)) / 4 = k by omega] at hword
    exact eq_of_sameWord line.length_values line.length_refvals hsame
  · intro h i
    have hself : ∀ k, SameWord line.values line.refvals k := by
      intro k j _
      rw [h]
    unfold Line.merged blendEpi16
    split
    · exact (cmpeqEpi32_load_ones _ _ _ rfl).mpr (hself _)
    · exact (cmpeqEpi32_load_ones _ _ _ rfl).mpr (hself _)

/-- No word of a changed line counts as unchanged in the first loop. -/
theorem newMask_counts :
    (~~~(newMask line)).ctz.toNat = 0 ∧ (~~~(newMask line)).clz.toNat = 0 := by
  constructor
  · apply ctz_eq_zero
    simp only [newMask, BitVec.getLsbD_not, BitVec.getLsbD_or, BitVec.getLsbD_shiftLeft,
      BitVec.getLsbD_setWidth, BitVec.getLsbD_and]
    simp
  · apply clz_eq_zero
    simp only [newMask, BitVec.getLsbD_not, BitVec.getLsbD_or, BitVec.getLsbD_shiftLeft,
      BitVec.getLsbD_setWidth, BitVec.getLsbD_and]
    simp

/-- The bits of the words that have changed, in the second loop. -/
abbrev Line.changes : BitVec 64 := ~~~(compareMask line.values line.refvals)

/-- In the second loop, the words after the last changed one are counted; all of them are only for
a line without changes. -/
theorem trailing_words :
    (line.values = line.refvals ∧ line.changes = 0 ∧
      line.changes.clz.toNat / 4 = 16) ∨
    (line.values ≠ line.refvals ∧ line.changes ≠ 0 ∧
      ∃ k < 16, line.changes.clz.toNat / 4 = k ∧
        ¬ SameWord line.values line.refvals (15 - k) ∧
        line.values.drop (64 - 4 * k) = line.refvals.drop (64 - 4 * k)) := by
  have hbit : ∀ j < 64, line.changes.getLsbD j = false ↔
      SameWord line.values line.refvals (j / 4) := by
    intro j hj
    rw [BitVec.getLsbD_not, getLsbD_compareMask _ _ hj]
    simp [hj]
  by_cases heq : line.values = line.refvals
  · left
    have hzero : line.changes = 0 := by
      apply BitVec.eq_of_getLsbD_eq
      intro j hj
      rw [(hbit j hj).mpr fun _ _ => by rw [heq]]
      simp
    refine ⟨heq, hzero, ?_⟩
    rw [hzero]
    decide
  · right
    have hdrop : ∀ n, n ≤ 16 → 64 ≤ 4 * n + line.changes.clz.toNat →
        line.values.drop (4 * n) = line.refvals.drop (4 * n) := by
      intro n hn hclz
      apply eq_of_sameWord line.length_values line.length_refvals
      intro k hnk hk
      have := (hbit (4 * k) (by omega)).mp (getLsbD_of_clz (by omega))
      rwa [Nat.mul_div_cancel_left k (by decide)] at this
    have hlt : line.changes.clz.toNat < 64 := by
      by_contra hge
      exact heq (hdrop 0 (by omega) (by omega))
    have hne : line.changes ≠ 0 := by
      intro hzero
      rw [hzero] at hlt
      exact absurd hlt (by decide)
    refine ⟨heq, hne, _, by omega, rfl, ?_, ?_⟩
    · intro hsame
      have hset := BitVec.getLsbD_true_clz_of_ne_zero (by decide) hne
      rw [(hbit _ (by omega)).mpr] at hset
      · cases hset
      · rwa [show (64 - 1 - line.changes.clz.toNat) / 4 =
          15 - line.changes.clz.toNat / 4 by omega]
    · rw [show 64 - 4 * (line.changes.clz.toNat / 4) =
        4 * (16 - line.changes.clz.toNat / 4) by omega]
      exact hdrop _ (by omega) (by omega)

/-! ## The stores -/

/-- The words of a register are stored one after the other. -/
theorem foldlM_words (v : M256) {p q r : List UInt8} (hq : q.length = 32) (n : Nat) (hn : n ≤ 8) :
    ((finRange 8).take n).foldlM
        (fun buf (k : Fin 8) => writeAt buf (p.length + 4 * k) (word v k)) (p ++ q ++ r) =
      .ok (p ++ ((finRange 8).take n).flatMap (word v) ++ (q.drop (4 * n) ++ r)) := by
  have hlen : ∀ n ≤ 8, (((finRange 8).take n).flatMap (word v)).length = 4 * n := by
    intro n hn
    simp only [length_flatMap, word, length_ofFn, map_const', sum_replicate_nat,
      length_take, length_finRange]
    omega
  induction n with
  | zero =>
    rw [take_zero, flatMap_nil, append_nil, append_assoc]
    rfl
  | succ n ih =>
    have hword : (word v ⟨n, by omega⟩).length = 4 := length_ofFn
    have hsplit : q.drop (4 * n) = (q.drop (4 * n)).take 4 ++ q.drop (4 * (n + 1)) := by
      rw [show 4 * (n + 1) = 4 * n + 4 by omega, ← drop_drop, take_append_drop]
    have htake : (finRange 8).take (n + 1) = (finRange 8).take n ++ [⟨n, by omega⟩] := by
      rw [take_add_one, getElem?_eq_getElem (by rw [length_finRange]; omega), getElem_finRange]
      rfl
    have hwrite : writeAt (p ++ ((finRange 8).take n).flatMap (word v) ++
          (q.drop (4 * n) ++ r)) (p.length + 4 * n) (word v ⟨n, by omega⟩) =
        .ok (p ++ ((finRange 8).take n).flatMap (word v) ++ word v ⟨n, by omega⟩ ++
          (q.drop (4 * (n + 1)) ++ r)) := by
      rw [hsplit, append_assoc _ _ r, ← append_assoc _ _ (q.drop (4 * (n + 1)) ++ r)]
      apply writeAt_append
      · rw [length_append, hlen n (by omega)]
      · rw [hword, length_take, length_drop]
        omega
    rw [htake, foldlM_append, ih (by omega), Res.ok_bind, foldlM_cons, hwrite,
      Res.ok_bind, flatMap_append, flatMap_singleton, ← append_assoc p]
    rfl

theorem maskstoreEpi32_all {v mask : M256} {p q r : List UInt8} (hq : q.length = 32)
    (hmask : ∀ k, wordSelected mask k = true) :
    maskstoreEpi32 (p ++ q ++ r) p.length mask v = .ok (p ++ v.bytes ++ r) := by
  have hstep : (fun buf (k : Fin 8) =>
      if wordSelected mask k then
        if 0 ≤ (p.length : Int) + 4 * k then writeAt buf ((p.length : Int) + 4 * k).toNat (word v k)
        else .error (.panic "store before the start of the buffer")
      else .ok buf) =
      fun buf (k : Fin 8) => writeAt buf (p.length + 4 * k) (word v k) := by
    funext buf k
    rw [if_pos (hmask k), if_pos (by omega)]
    rfl
  have hfold := foldlM_words v (p := p) (r := r) hq 8 (Nat.le_refl 8)
  rw [take_of_length_le (Nat.le_refl 8), drop_eq_nil_of_le (by omega)] at hfold
  unfold maskstoreEpi32
  rw [hstep, hfold]
  rfl

/-- A register is stored where the free part of the buffer starts. -/
theorem writeAt_register (v : M256) {p free : List UInt8} {start : Nat} (hstart : start = p.length)
    (hfree : 32 ≤ free.length) :
    writeAt (p ++ free) start v.bytes = .ok (p ++ v.bytes ++ free.drop 32) := by
  have hsplit : p ++ free = p ++ free.take 32 ++ free.drop 32 := by
    rw [append_assoc, take_append_drop]
  rw [hsplit]
  apply writeAt_append hstart
  rw [length_bytes, length_take]
  omega

namespace Encoder

variable {e : Encoder} {done ctrl cur free : List UInt8}

theorem Layout.firstLineAvx2_spec {refbaseBlock : Nat} (h : e.Layout done ctrl [] free)
    (line : Line) (hfree : 64 ≤ free.length)
    (hsmall : 16 * (e.lineNo + 1) + refbaseBlock < 2 ^ 32) :
    ∃ e', e.firstLineAvx2 refbaseBlock line =
        .ok (e', .changed 0 (16 * e.lineNo + refbaseBlock)) ∧
      e'.Layout done ctrl line.values (free.drop 64) ∧ e'.lineNo = e.lineNo + 1 ∧
      e'.reference = e.reference ++ line.values := by
  obtain ⟨hctz, hclz⟩ := newMask_counts line
  have hbase : e.base = (done ++ ctrl).length := by
    rw [h.base_eq, length_append, h.ctrl_length]
  have hbuf : e.buf = done ++ ctrl ++ free.take 32 ++ free.drop 32 := by
    rw [h.buf_eq, append_nil, append_assoc _ (free.take _), take_append_drop]
  have hstore : e.storeFirst line 0 = .ok (done ++ ctrl ++ line.values ++ free.drop 64) := by
    have hmask : ∀ k, wordSelected (cvtepi8Epi64 (0xffffffff#64 <<< 0)) k = true := by decide
    have hfirst : maskstoreEpi32 e.buf (e.base : Int) (cvtepi8Epi64 (0xffffffff#64 <<< 0)) line.t1 =
        .ok (done ++ ctrl ++ line.t1.bytes ++ free.drop 32) := by
      rw [hbuf, hbase]
      exact maskstoreEpi32_all (by rw [length_take]; omega) hmask
    show (maskstoreEpi32 e.buf (e.base - 0) _ line.t1 >>= fun buf =>
      writeAt buf (e.base + 32) line.t2.bytes) = _
    rw [Int.sub_zero, hfirst, Res.ok_bind, writeAt_register line.t2 _ (by rw [length_drop]; omega),
      append_assoc _ line.t1.bytes, bytes_append_bytes, drop_drop]
    simp only [hbase, length_append, length_bytes]
  refine ⟨{ e with
    buf := done ++ ctrl ++ line.values ++ free.drop 64
    dc := e.dc + 16
    lineNo := e.lineNo + 1
    reference := e.reference ++ line.values }, ?_, ?_, rfl, rfl⟩
  · unfold firstLineAvx2
    rw [hctz, hclz]
    show (e.storeFirst line 0 >>= fun buf => checkedU32 (16 * e.lineNo + 0 + refbaseBlock) >>=
      fun start => _) = _
    rw [hstore, Res.ok_bind, checkedU32_of_lt (by omega), bytes_append_bytes]
    rfl
  · have hdc := h.dc_eq
    have hv := line.length_values
    rw [length_nil] at hdc
    refine ⟨rfl, h.ctrl_length, h.base_eq, h.idc_eq, ?_⟩
    show 4 * (e.dc + 16) = e.base + _
    omega

/-- Two stores of half a line are the store of the line. -/
theorem Layout.nextLineAvx2_spec (h : e.Layout done ctrl cur free) (line : Line)
    (hfree : 64 ≤ free.length) (stored : Bool) (hstored : stored = false → line.values = line.refvals) :
    ∃ e', e.nextLineAvx2 line stored = .ok e' ∧
      e'.Layout done ctrl (cur ++ line.values) (free.drop 64) ∧
      e'.lineNo = e.lineNo + 1 ∧ e'.reference = e.reference ++ line.values := by
  have hdc := h.dc_eq
  have hidc := h.idc_eq
  have hv := line.length_values
  have hpos : e.base + 4 * (e.dc - e.idc) = (done ++ ctrl ++ cur).length := by
    rw [length_append, length_append, h.ctrl_length, ← h.base_eq]
    omega
  have hfirst := writeAt_register line.t1 hpos (show 32 ≤ free.length by omega)
  rw [← h.buf_eq] at hfirst
  have hsecond : writeAt (done ++ ctrl ++ cur ++ line.t1.bytes ++ free.drop 32)
      (e.base + 4 * (e.dc - e.idc) + 32) line.t2.bytes =
      .ok (done ++ ctrl ++ (cur ++ line.values) ++ free.drop 64) := by
    rw [writeAt_register line.t2 _ (by rw [length_drop]; omega), append_assoc _ line.t1.bytes,
      bytes_append_bytes, append_assoc _ cur, drop_drop]
    simp only [hpos, length_append, length_bytes]
  have hreference : (if stored then line.t1.bytes ++ line.t2.bytes else line.refvals) = line.values := by
    cases stored with
    | true => exact bytes_append_bytes line
    | false => exact (hstored rfl).symm
  refine ⟨{ e with
    buf := done ++ ctrl ++ (cur ++ line.values) ++ free.drop 64
    dc := e.dc + 16
    lineNo := e.lineNo + 1
    reference := e.reference ++ line.values }, ?_, ?_, rfl, rfl⟩
  · unfold nextLineAvx2
    rw [checkedSub_of_le (by omega), Res.ok_bind, hfirst, Res.ok_bind, hsecond, Res.ok_bind,
      hreference]
    rfl
  · refine ⟨rfl, h.ctrl_length, h.base_eq, hidc, ?_⟩
    show 4 * (e.dc + 16) = e.base + _
    rw [length_append, hv]
    omega

end Encoder

/-! ## The scan -/

/-- The words of a span after a line of which the last `k` words have not changed. -/
theorem OpenWords.upTo {trailing k : Nat} {cur old : List UInt8} (h : OpenWords trailing cur old)
    {line : Line} (hk : k < 16)
    (hsame : line.values.drop (64 - 4 * k) = line.refvals.drop (64 - 4 * k)) :
    OpenWords k (cur ++ line.values) (old ++ line.refvals) := by
  have hwhole := h.whole
  have hlen := h.length_eq
  have hv := line.length_values
  have hcut : (cur ++ line.values).length - 4 * k = cur.length + (64 - 4 * k) := by
    rw [length_append, hv]
    omega
  constructor
  · rw [length_append, hv]
    omega
  · rw [length_append, length_append, hv, line.length_refvals, hlen]
  · rw [length_append, hv]
    omega
  · rw [hcut, drop_length_add_append, ← hlen, drop_length_add_append, hsame]
  · exact h.ne_append _ _

namespace Encoder

variable {e : Encoder} {done ctrl cur free old : List UInt8} {refbaseBlock trailing start : Nat}

/-- The last lines had no changes. -/
theorem Layout.endInput_spec (h : e.Layout done ctrl [] free) (start trailing : Nat)
    {a : Nat} {l : List UInt8} :
    ∃ e', e.endInput refbaseBlock start trailing = .ok e' ∧ e'.Finished e.buf.length done a l l ∧
      e'.reference = e.reference := by
  have hdc := h.dc_eq
  have hidc := h.idc_eq
  have hbase := h.base_eq
  rw [length_nil] at hdc
  refine ⟨{ e with dc := e.dc - 2 }, ?_, h.giveUp, rfl⟩
  unfold endInput
  rw [if_pos (by omega), checkedSub_of_le (by omega)]
  rfl

variable (h : e.InSpan refbaseBlock done ctrl cur free old trailing start)

include h

/-- A later line of a span; one with changes is too short a gap to end it. -/
theorem InSpan.nextLineAvx2_spec {skipGapLen : Nat}
    (hfree : 64 ≤ free.length) (hskip : 16 ≤ skipGapLen) :
    ∃ trailing' e₁, trailing * (decide (line.changes = 0)).toNat +
        line.changes.clz.toNat / 4 = trailing' ∧
      e.nextLineAvx2 line (decide (trailing' ≤ skipGapLen)) = .ok e₁ ∧
      e₁.InSpan refbaseBlock done ctrl (cur ++ line.values) (free.drop 64) (old ++ line.refvals)
        trailing' start ∧
      e₁.buf.length = e.buf.length ∧ e₁.lineNo = e.lineNo + 1 ∧
      e₁.reference = e.reference ++ line.values ∧
      (line.values = line.refvals ∧ trailing' = trailing + 16 ∨
        line.values ≠ line.refvals ∧ trailing' < 16 ∧
          trailing' = line.changes.clz.toNat / 4) := by
  have hle := h.trailing_le
  obtain ⟨trailing', htrailing', hwords, hle', hcases⟩ : ∃ trailing',
      trailing * (decide (line.changes = 0)).toNat +
        line.changes.clz.toNat / 4 = trailing' ∧
      OpenWords trailing' (cur ++ line.values) (old ++ line.refvals) ∧
      trailing' ≤ 16 * (e.lineNo + 1) ∧
      (line.values = line.refvals ∧ trailing' = trailing + 16 ∨
        line.values ≠ line.refvals ∧ trailing' < 16 ∧
          trailing' = line.changes.clz.toNat / 4) := by
    rcases trailing_words line with ⟨heq, hzero, hcount⟩ | ⟨hchange, hne, k, hk, hcount, -, hsame⟩
    · refine ⟨trailing + 16, ?_, h.words.clear heq, by omega, .inl ⟨heq, rfl⟩⟩
      rw [decide_eq_true hzero, hcount]
      simp
    · refine ⟨k, ?_, h.words.upTo hk hsame, by omega, .inr ⟨hchange, hk, hcount.symm⟩⟩
      rw [decide_eq_false hne, hcount]
      simp
  obtain ⟨e₁, hnext, hlayout, hno, href₁⟩ := h.layout.nextLineAvx2_spec line hfree
    (decide (trailing' ≤ skipGapLen)) (by
      intro hf
      have hlt := of_decide_eq_false hf
      obtain ⟨heq, -⟩ | ⟨-, hk, -⟩ := hcases
      · exact heq
      · omega)
  exact ⟨trailing', e₁, htrailing', hnext, h.nextLine hlayout hwords (by omega) hno,
    h.layout.length_nextLine hlayout hfree, hno, href₁, hcases⟩

/-- An open span has words. -/
theorem InSpan.endInput_eq {stop : Nat} {e₁ e₂ : Encoder}
    (hclose : e.closeSpan refbaseBlock start trailing = .ok (e₁, stop))
    (hadvance : e₁.advance start stop = .ok e₂) :
    e.endInput refbaseBlock start trailing = .ok e₂ := by
  have hdc := h.layout.dc_eq
  have hidc := h.layout.idc_eq
  have hlt := h.words.trailing_lt
  unfold endInput endSpan
  rw [if_neg (by omega), hclose]
  exact hadvance

/-- The last line ends the open span. -/
theorem InSpan.endInput_spec (hsmall : 16 * e.lineNo + refbaseBlock < 2 ^ 32) :
    ∃ e', e.endInput refbaseBlock start trailing = .ok e' ∧
      e'.Finished e.buf.length done (4 * start) old cur ∧ e'.reference = e.reference := by
  obtain ⟨e₁, e₂, free', span, hclose, hadvance, -, hdiff, hbetween, hfree, hout, -, href⟩ :=
    h.advance hsmall
  refine ⟨e₂, h.endInput_eq hclose hadvance, ⟨?_, span.bytes, free', hbetween.buf_eq,
    hbetween.dc_eq, by omega, hdiff, fun heq => absurd heq h.words.ne⟩, href⟩
  · rw [hbetween.buf_eq, h.layout.length_buf, length_append, length_append]
    omega

end Encoder

section Scan

variable {skipGapLen refbaseBlock : Nat} {lines : List Line} {line : Line}

theorem encodesUnchanged_avx2_nil :
    EncodesUnchanged refbaseBlock [] (encodeAvx2 skipGapLen refbaseBlock []) := by
  intro e done ctrl free h _ _
  obtain ⟨e', hend, hfinished, href⟩ := h.endInput_spec 0 0
  refine ⟨e', hend, hfinished, ?_⟩
  rw [href, newOf_nil, append_nil]

theorem encodesChanged_avx2_nil :
    EncodesChanged refbaseBlock [] (encodeAvx2 skipGapLen refbaseBlock []) := by
  intro e done ctrl cur free old trailing start h _ hsmall
  obtain ⟨e', hend, hfinished, href⟩ := h.endInput_spec hsmall
  refine ⟨e', hend, ?_, ?_⟩
  · rw [oldOf_nil, newOf_nil, append_nil, append_nil]
    exact hfinished
  · rw [href, newOf_nil, append_nil]

theorem encodesUnchanged_avx2_cons
    (ih : EncodesUnchanged refbaseBlock lines (encodeAvx2 skipGapLen refbaseBlock lines))
    (ih' : EncodesChanged refbaseBlock lines (encodeAvx2 skipGapLen refbaseBlock lines)) :
    EncodesUnchanged refbaseBlock (line :: lines)
      (encodeAvx2 skipGapLen refbaseBlock (line :: lines)) := by
  intro e done ctrl free h hfree hsmall
  rw [length_cons] at hfree hsmall
  unfold encodeAvx2
  by_cases heq : line.values = line.refvals
  · rw [if_pos ((merged_ones line).mpr heq)]
    exact ih.skipLine h hfree hsmall heq
  · rw [if_neg (mt (merged_ones line).mp heq)]
    obtain ⟨e₁, hfirst, h₁, hno, href₁⟩ := h.firstLineAvx2_spec line (by omega)
      (show 16 * (e.lineNo + 1) + refbaseBlock < 2 ^ 32 by omega)
    rw [hfirst]
    exact ih'.firstLine h hfree hsmall heq (Nat.zero_le 8) rfl h₁ hno href₁

theorem encodesChanged_avx2_cons (hskip : 16 ≤ skipGapLen)
    (ih : EncodesUnchanged refbaseBlock lines (encodeAvx2 skipGapLen refbaseBlock lines))
    (ih' : EncodesChanged refbaseBlock lines (encodeAvx2 skipGapLen refbaseBlock lines)) :
    EncodesChanged refbaseBlock (line :: lines)
      (encodeAvx2 skipGapLen refbaseBlock (line :: lines)) := by
  intro e done ctrl cur free old trailing start h hfree hsmall
  rw [length_cons] at hfree hsmall
  obtain ⟨trailing', e₁, htrailing', hnext, hspan, hsize, hno, href₁, -⟩ :=
    h.nextLineAvx2_spec line (by omega) hskip
  unfold encodeAvx2
  simp only [htrailing', hnext, Res.ok_bind]
  by_cases hgap : skipGapLen < trailing'
  · rw [if_pos hgap]
    cases lines with
    | nil =>
      rw [if_pos isEmpty_nil]
      obtain ⟨e', hend, hfinished, href⟩ := hspan.endInput_spec (by omega)
      refine ⟨e', hend, ?_, ?_⟩
      · rw [oldOf_cons, newOf_cons, oldOf_nil, newOf_nil, append_nil, append_nil, ← hsize]
        exact hfinished
      · rw [href, href₁, newOf_cons, newOf_nil, append_nil]
    | cons line' lines =>
      obtain ⟨e₂, e₃, e₄, ctrl', free', span, hclose, hadvance, hopen, -, hdiff, h₄, hfree', hout,
        hsize₄, hno₄, href₄⟩ := hspan.reopen (by omega) (by omega)
      rw [length_drop] at hfree'
      have hend : e₁.endSpan refbaseBlock start trailing' = .ok e₃ := by
        unfold Encoder.endSpan
        rw [hclose]
        exact hadvance
      rw [if_neg (by simp), hend, Res.ok_bind, hopen]
      exact ih.endLine hspan hdiff (by omega) h₄ (by omega) (by omega) (hsize₄.trans hsize) hno₄
        (href₄.trans href₁)
  · rw [if_neg hgap]
    exact ih'.nextLine hspan hfree (by omega) hsize href₁

theorem encodeAvx2_spec (hskip : 16 ≤ skipGapLen) (lines : List Line) :
    EncodesUnchanged refbaseBlock lines (encodeAvx2 skipGapLen refbaseBlock lines) ∧
      EncodesChanged refbaseBlock lines (encodeAvx2 skipGapLen refbaseBlock lines) := by
  induction lines with
  | nil => exact ⟨encodesUnchanged_avx2_nil, encodesChanged_avx2_nil⟩
  | cons line lines ih =>
    exact ⟨encodesUnchanged_avx2_cons ih.1 ih.2, encodesChanged_avx2_cons hskip ih.1 ih.2⟩

end Scan

/-- The vector kernel leaves what the portable one is required to. -/
theorem constructDiffSegmentTwoAvx2_spec {skipGapLen referenceBase : Nat}
    {diff target reference : List UInt8} (hskip : 16 ≤ skipGapLen)
    (hblock : referenceBase < 2 ^ 32) (hlen : target.length = reference.length)
    (h64 : target.length % 64 = 0) (hdiff : target.length + 8 ≤ diff.length)
    (hsmall : diff.length < 2 ^ 32 - 1) :
    ∃ r, constructDiffSegmentTwoAvx2 diff target reference referenceBase skipGapLen = .ok r ∧
      Encoded diff (4 * (referenceBase / 4)) reference target r := by
  obtain ⟨lines, hnew, hnewOf, holdOf⟩ := newIterator_ok hlen h64
  have hlines := length_newOf lines
  rw [hnewOf] at hlines
  obtain ⟨e', hrun, hfinished, href⟩ : ∃ e',
      scanAvx2 skipGapLen (referenceBase / 4) lines ⟨diff, 0, 0, 0, 0, []⟩ = .ok e' ∧
      e'.Finished diff.length [] (4 * (referenceBase / 4)) (oldOf lines) (newOf lines) ∧
      e'.reference = newOf lines := by
    cases lines with
    | nil =>
      refine ⟨_, if_pos isEmpty_nil, ⟨rfl, [], diff, rfl, rfl, Nat.zero_le _, DiffOf.nil _ _,
        fun _ => rfl⟩, rfl⟩
    | cons line lines =>
      obtain ⟨e₁, hopen, hlayout, hno, href₁, hsize⟩ :=
        @Encoder.openSpan_start diff (by omega)
      obtain ⟨e', henc, hfinished, href⟩ :=
        (encodeAvx2_spec hskip (line :: lines)).1 e₁ [] _ _ hlayout
          (by rw [length_drop]; omega)
          (show 16 * (e₁.lineNo + (line :: lines).length) + referenceBase / 4 < 2 ^ 32 by omega)
      rw [hsize, show 16 * e₁.lineNo + referenceBase / 4 = referenceBase / 4 by omega] at hfinished
      refine ⟨e', ?_, hfinished, ?_⟩
      · unfold scanAvx2
        rw [if_neg (by simp), hopen]
        exact henc
      · rw [href, href₁, nil_append]
  have hdc := hfinished.dc_le
  rw [hnewOf, holdOf] at hfinished
  rw [hnewOf] at href hdc
  refine ⟨(e'.dc * 4 % 2 ^ 32, e'.buf, e'.reference), ?_, hfinished.encoded href (by omega)⟩
  unfold constructDiffSegmentTwoAvx2
  rw [hnew, Res.ok_bind, assert_of (decide_eq_true hdiff), Res.ok_bind,
    assert_of (decide_eq_true hsmall), Res.ok_bind, assert_of (decide_eq_true hskip), Res.ok_bind,
    hrun]
  rfl

/-! ## The two kernels -/

/-- Applied to what has the old reference, two outputs have the same effect. -/
def SameEffect (a : Nat) (reference out out' : List UInt8) : Prop :=
  (∀ (sfd : SfdRef) (size : Nat) (mem : Loc → UInt8), a + reference.length ≤ size →
    (∀ inMirror, Holds (contents mem sfd inMirror) a reference) →
    ∃ ws ws', (applyDiff out 0 size ⟨sfd, a, reference.length⟩).exec [] = (.ok (), ws) ∧
      (applyDiff out' 0 size ⟨sfd, a, reference.length⟩).exec [] = (.ok (), ws') ∧
      writeAll mem ws = writeAll mem ws') ∧
  ∀ (sfd : SfdRef) (mem : Loc → UInt8), Holds (contents mem sfd true) a reference →
    ∃ ws ws', (applyDiffOne out 0 ⟨sfd, a, reference.length⟩).exec [] = (.ok (), ws) ∧
      (applyDiffOne out' 0 ⟨sfd, a, reference.length⟩).exec [] = (.ok (), ws') ∧
      writeAll mem ws = writeAll mem ws'

theorem DiffOf.sameEffect {out out' old new : List UInt8} {a : Nat} (h : DiffOf out a old new)
    (h' : DiffOf out' a old new) : SameEffect a old out out' := by
  constructor
  · intro sfd size mem hsize hmem
    obtain ⟨ws, hexec, hws⟩ := h.exec_applyDiff hsize hmem
    obtain ⟨ws', hexec', hws'⟩ := h'.exec_applyDiff hsize hmem
    refine ⟨ws, ws', hexec, hexec', ?_⟩
    funext l
    rw [hws, hws']
  · intro sfd mem hmem
    obtain ⟨ws, hexec, hws⟩ := h.exec_applyDiffOne hmem
    obtain ⟨ws', hexec', hws'⟩ := h'.exec_applyDiffOne hmem
    refine ⟨ws, ws', hexec, hexec', ?_⟩
    funext l
    rw [hws, hws']

theorem Encoded.diffOf {diff old new : List UInt8} {a : Nat} {r : Nat × List UInt8 × List UInt8}
    (h : Encoded diff a old new r) : DiffOf (r.2.1.take r.1) a old new := by
  obtain ⟨out, free, hbuf, hlen, hdiff⟩ := h.diff
  rw [hbuf, hlen, take_left]
  exact hdiff

/-- The vector kernel stays in a buffer with eight bytes more than the target, makes the reference
equal to the target, and its output has the effect of that of the portable kernel, which asserts that
the base is a multiple of four. -/
theorem constructDiffSegmentTwoAvx2_refines (skipGapLen : Nat) (hskip : 16 ≤ skipGapLen)
    (target reference : List UInt8) (hlen : target.length = reference.length)
    (h64 : target.length % 64 = 0) (hsmall : target.length < 2 ^ 32) (referenceBase : Nat)
    (hblock : referenceBase < 2 ^ 32) (diff : List UInt8)
    (hdiff : diff.length = target.length + 8) :
    ∃ r, constructDiffSegmentTwo true diff target reference referenceBase skipGapLen = .ok r ∧
      r.2.2 = target ∧ r.2.1.length = diff.length ∧ r.1 ≤ diff.length ∧
      (referenceBase % 4 = 0 → ∃ r',
        constructDiffSegmentTwo false diff target reference referenceBase skipGapLen = .ok r' ∧
        SameEffect referenceBase reference (r.2.1.take r.1) (r'.2.1.take r'.1)) := by
  obtain ⟨r, hrun, henc⟩ := constructDiffSegmentTwoAvx2_spec hskip hblock hlen h64
    (Nat.le_of_eq hdiff.symm) (by omega)
  refine ⟨r, hrun, henc.reference, henc.length_buf, by have := henc.length_le; omega, ?_⟩
  intro hbase
  obtain ⟨lines, hnew, hnewOf, holdOf⟩ := newIterator_ok hlen h64
  have hlines := length_newOf lines
  rw [hnewOf] at hlines
  obtain ⟨r', hrun', henc'⟩ := constructDiffSegmentTwoIter_spec hskip hbase hblock (by omega)
    (show 64 * lines.length + 8 ≤ diff.length by omega)
  rw [hnewOf, holdOf] at henc'
  rw [show 4 * (referenceBase / 4) = referenceBase by omega] at henc
  refine ⟨r', ?_, henc.diffOf.sameEffect henc'.diffOf⟩
  show (assert _ _ >>= fun _ => newIterator target reference >>= fun lines =>
    constructDiffSegmentTwoIter diff lines referenceBase skipGapLen) = _
  rw [assert_of (decide_eq_true (Nat.le_of_eq hdiff.symm)), Res.ok_bind, hnew]
  exact hrun'

/-- Two lines of which every word has changed, at an offset of one line. -/
theorem constructDiffSegmentTwoAvx2_refines_two :
    ∃ r, constructDiffSegmentTwo true (replicate 136 0) (replicate 128 1)
        (replicate 128 0) 64 16 = .ok r ∧
      r.2.2 = replicate 128 1 ∧ r.2.1.length = (replicate 136 (0 : UInt8)).length ∧
      r.1 ≤ (replicate 136 (0 : UInt8)).length ∧
      (64 % 4 = 0 → ∃ r',
        constructDiffSegmentTwo false (replicate 136 0) (replicate 128 1)
          (replicate 128 0) 64 16 = .ok r' ∧
        SameEffect 64 (replicate 128 0) (r.2.1.take r.1) (r'.2.1.take r'.1)) := by
  refine constructDiffSegmentTwoAvx2_refines 16 (by decide) _ _ ?_ ?_ ?_ 64 (by decide) _ ?_
  · rw [length_replicate, length_replicate]
  · rw [length_replicate]
  · rw [length_replicate]
    decide
  · rw [length_replicate, length_replicate]

end Waypipe
