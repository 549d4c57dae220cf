import Mathlib.Data.Nat.Find
import Waypipe.KernelAvx2

/-!
# Where the spans of the vector kernel begin and end

The first loop of `construct_diff_segment_two_avx2` is to leave out the words at the start of the
first changed line that have not changed, and, if no other line of the span changes, those at its
end.  As its mask has no zeros at either end (`newMask_counts`), it leaves out none.
`constructDiffSegmentTwoAvx2_trimmed_iff` says for which inputs this makes no difference:
`spanLines` finds the first and the last changed line of every span, and the first one has to start
with a changed word, and to end with one if it is also the last.
-/

namespace Waypipe

open LeBytes Patch M256 List

variable {target reference : List UInt8} {refbaseBlock : Nat} {s : Span}

/-- The first and the last word of the span have changed. -/
structure Span.Trimmed (target reference : List UInt8) (refbaseBlock : Nat) (s : Span) : Prop where
  first : ¬ SameWord target reference (s.start - refbaseBlock)
  last : ¬ SameWord target reference (s.stop - 1 - refbaseBlock)

/-- The number of words after the last changed one. -/
def Line.trailing (line : Line) : Nat :=
  15 - Nat.findGreatest (fun k => ¬ SameWord line.values line.refvals k) 15

/-- The first and the last changed line of every span, by their numbers.  The last argument has those
of the span that is open, and the number of words after its last change; the words of its first line
all count as changed. -/
def spanLines (skipGapLen : Nat) : List Line → Nat → Option (Nat × Nat × Nat) → List (Nat × Nat)
  | [], _, none => []
  | [], _, some (first, last, _) => [(first, last)]
  | line :: lines, n, none =>
    if line.values = line.refvals then spanLines skipGapLen lines (n + 1) none
    else spanLines skipGapLen lines (n + 1) (some (n, n, 0))
  | line :: lines, n, some (first, last, unchanged) =>
    if line.values = line.refvals then
      if skipGapLen < unchanged + 16 then
        (first, last) :: spanLines skipGapLen lines (n + 1) none
      else spanLines skipGapLen lines (n + 1) (some (first, last, unchanged + 16))
    else spanLines skipGapLen lines (n + 1) (some (first, n, line.trailing))

/-- The first line of a span starts with a changed word, and if no other line of the span has
changed, it ends with one. -/
def EdgesDiffer (target reference : List UInt8) (p : Nat × Nat) : Prop :=
  ¬ SameWord target reference (16 * p.1) ∧
    (p.2 = p.1 → ¬ SameWord target reference (16 * p.1 + 15))

/-! ## The words of the lines -/

/-- What the words of the lines from number `n` on are in the whole. -/
def WordsFrom (target reference : List UInt8) : Nat → List Line → Prop
  | _, [] => True
  | n, line :: lines =>
    (∀ j < 16, SameWord line.values line.refvals j ↔ SameWord target reference (16 * n + j)) ∧
      WordsFrom target reference (n + 1) lines

theorem sameWord_part (t r : List UInt8) (n : Nat) {j : Nat} (hj : j < 16) :
    SameWord ((t.drop (64 * n)).take 64) ((r.drop (64 * n)).take 64) j ↔
      SameWord t r (16 * n + j) := by
  have hget : ∀ (l : List UInt8), ∀ i < 4,
      ((l.drop (64 * n)).take 64).getD (4 * j + i) 0 = l.getD (4 * (16 * n + j) + i) 0 := by
    intro l i hi
    rw [getD_eq_getElem?_getD, getD_eq_getElem?_getD, getElem?_take_of_lt (by omega), getElem?_drop]
    congr 2
    omega
  constructor
  · intro h i hi
    rw [← hget t i hi, ← hget r i hi]
    exact h i hi
  · intro h i hi
    rw [hget t i hi, hget r i hi]
    exact h i hi

theorem wordsFrom_linesOf (t r : List UInt8) (n m : Nat)
    (ht : (t.drop (64 * m)).length = 64 * n) (hr : (r.drop (64 * m)).length = 64 * n) :
    WordsFrom t r m (linesOf n (t.drop (64 * m)) (r.drop (64 * m)) ht hr) := by
  induction n generalizing m with
  | zero => trivial
  | succ n ih =>
    have hdrop : ∀ l : List UInt8, (l.drop (64 * m)).drop 64 = l.drop (64 * (m + 1)) := by
      intro l
      rw [drop_drop, Nat.mul_succ]
    unfold linesOf
    refine ⟨fun j hj => sameWord_part t r m hj, ?_⟩
    simp only [hdrop]
    exact ih (m + 1) (by rw [← hdrop, length_drop]; omega)
      (by rw [← hdrop, length_drop]; omega)

theorem newIterator_words {lines : List Line} (h : newIterator target reference = .ok lines) :
    target.length = reference.length ∧ target.length % 64 = 0 ∧
      WordsFrom target reference 0 lines ∧ 64 * lines.length = target.length := by
  unfold newIterator at h
  split at h
  · next hlen =>
    split at h
    · next h64 =>
      cases h
      refine ⟨hlen, h64, ?_, ?_⟩
      · simpa using wordsFrom_linesOf target reference (target.length / 64) 0
          (by rw [Nat.mul_zero, drop_zero]; omega) (by rw [Nat.mul_zero, drop_zero]; omega)
      · rw [← length_newOf, newOf_linesOf]
    · cases h
  · cases h

/-- The kernel counts the words after the last changed one. -/
theorem Line.trailing_eq {line : Line} (hne : line.values ≠ line.refvals) :
    line.trailing = (~~~(compareMask line.values line.refvals)).clz.toNat / 4 ∧
      ¬ SameWord line.values line.refvals (15 - line.trailing) ∧ line.trailing < 16 := by
  rcases trailing_words line with ⟨heq, -⟩ | ⟨-, -, k, hk, hcount, hword, hsame⟩
  · exact absurd heq hne
  · have hfind : Nat.findGreatest (fun k => ¬ SameWord line.values line.refvals k) 15 = 15 - k := by
      refine Nat.findGreatest_eq_iff.mpr ⟨Nat.sub_le _ _, fun _ => hword, ?_⟩
      intro m hm hle hdiffers
      apply hdiffers
      -- The words after it are in the part that is the same.
      intro j hj
      have hget := congrArg (fun l => l[4 * m + j - (64 - 4 * k)]?) hsame
      simp only [getElem?_drop] at hget
      rw [show 64 - 4 * k + (4 * m + j - (64 - 4 * k)) = 4 * m + j by omega] at hget
      rw [getD_eq_getElem?_getD, getD_eq_getElem?_getD, hget]
    have htrailing : line.trailing = k := by
      unfold Line.trailing
      omega
    rw [htrailing]
    exact ⟨hcount.symm, hword, hk⟩

/-! ## The spans -/

/-- A span is that of a first and a last changed line. -/
structure SpanOf (target reference : List UInt8) (refbaseBlock : Nat) (s : Span)
    (p : Nat × Nat) : Prop where
  start_eq : s.start = 16 * p.1 + refbaseBlock
  alone : p.2 = p.1 → s.stop = 16 * p.1 + 16 + refbaseBlock
  trimmed : p.2 ≠ p.1 → ∃ k, s.stop = k + 1 + refbaseBlock ∧ ¬ SameWord target reference k

theorem SpanOf.trimmed_iff {p : Nat × Nat} (h : SpanOf target reference refbaseBlock s p) :
    s.Trimmed target reference refbaseBlock ↔ EdgesDiffer target reference p := by
  have hstart : s.start - refbaseBlock = 16 * p.1 := by
    have := h.start_eq
    omega
  constructor
  · rintro ⟨hfirst, hlast⟩
    rw [hstart] at hfirst
    refine ⟨hfirst, ?_⟩
    intro hp
    rwa [h.alone hp, show 16 * p.1 + 16 + refbaseBlock - 1 - refbaseBlock = 16 * p.1 + 15 by omega]
      at hlast
  · rintro ⟨hfirst, hlast⟩
    refine ⟨by rwa [hstart], ?_⟩
    by_cases hp : p.2 = p.1
    · rw [h.alone hp, show 16 * p.1 + 16 + refbaseBlock - 1 - refbaseBlock = 16 * p.1 + 15 by omega]
      exact hlast hp
    · obtain ⟨k, hstop, hk⟩ := h.trimmed hp
      rwa [hstop, show k + 1 + refbaseBlock - 1 - refbaseBlock = k by omega]

theorem forall_trimmed_iff {spans : List Span} {ps : List (Nat × Nat)}
    (h : List.Forall₂ (SpanOf target reference refbaseBlock) spans ps) :
    (∀ s ∈ spans, s.Trimmed target reference refbaseBlock) ↔
      ∀ p ∈ ps, EdgesDiffer target reference p := by
  induction h with
  | nil => simp
  | cons hs _ ih => simp only [forall_mem_cons, hs.trimmed_iff, ih]

/-- An open span whose first and last changed lines are known, before line `n`. -/
structure Group (target reference : List UInt8) (n first last unchanged : Nat) : Prop where
  lt : first < n
  alone : last = first → 16 * n = 16 * first + 16 + unchanged
  trimmed : last ≠ first → ∃ k, 16 * n = k + 1 + unchanged ∧ ¬ SameWord target reference k

namespace Group

variable {target reference : List UInt8} {n first last unchanged : Nat}
  (h : Group target reference n first last unchanged)
include h

theorem clear :
    Group target reference (n + 1) first last (unchanged + 16) := by
  refine ⟨Nat.lt_succ_of_lt h.lt, ?_, ?_⟩
  · intro hlast
    have := h.alone hlast
    omega
  · intro hlast
    obtain ⟨k, hk, hdiffers⟩ := h.trimmed hlast
    exact ⟨k, by omega, hdiffers⟩

theorem changed {line : Line} (hne : line.values ≠ line.refvals)
    (hwords : ∀ j < 16, SameWord line.values line.refvals j ↔ SameWord target reference (16 * n + j)) :
    Group target reference (n + 1) first n line.trailing := by
  obtain ⟨-, hdiffers, hlt⟩ := Line.trailing_eq hne
  refine ⟨Nat.lt_succ_of_lt h.lt, ?_, ?_⟩
  · intro hlast
    have := h.lt
    omega
  · intro _
    exact ⟨16 * n + (15 - line.trailing), by omega, mt (hwords _ (by omega)).mpr hdiffers⟩

/-- The span that is closed with it. -/
theorem spanOf (hstart : s.start = 16 * first + refbaseBlock)
    (hstop : s.stop + unchanged = 16 * n + refbaseBlock) :
    SpanOf target reference refbaseBlock s (first, last) := by
  refine ⟨hstart, ?_, ?_⟩
  · intro hlast
    have := h.alone hlast
    dsimp only
    omega
  · intro hlast
    obtain ⟨k, hk, hdiffers⟩ := h.trimmed hlast
    exact ⟨k, by omega, hdiffers⟩

end Group

/-! ## The scan -/

namespace Encoder

/-- The buffer has `done`, the spans of some lines, and nothing else is used. -/
def Emitted (e : Encoder) (target reference : List UInt8) (refbaseBlock : Nat) (done : List UInt8)
    (ps : List (Nat × Nat)) : Prop :=
  ∃ spans free, e.buf = done ++ spans.flatMap Span.bytes ++ free ∧
    4 * e.dc = (done ++ spans.flatMap Span.bytes).length ∧
    List.Forall₂ (SpanOf target reference refbaseBlock) spans ps

theorem Emitted.cons {e : Encoder} {done : List UInt8} {p : Nat × Nat} {ps : List (Nat × Nat)}
    (h : e.Emitted target reference refbaseBlock (done ++ s.bytes) ps)
    (hs : SpanOf target reference refbaseBlock s p) :
    e.Emitted target reference refbaseBlock done (p :: ps) := by
  obtain ⟨spans, free, hbuf, hdc, hall⟩ := h
  refine ⟨s :: spans, free, ?_, ?_, .cons hs hall⟩
  · rw [hbuf, flatMap_cons, append_assoc done]
  · rw [hdc, flatMap_cons, append_assoc done]

/-- The end of an open span, in words. -/
theorem InSpan.stop_add {e : Encoder} {trailing start : Nat} {done ctrl cur free old : List UInt8}
    (h : e.InSpan refbaseBlock done ctrl cur free old trailing start) (hstart : s.start = start)
    (hlen : s.bytes.length + 4 * trailing = cur.length + 8) :
    s.stop + trailing = 16 * e.lineNo + refbaseBlock := by
  have hstop := s.four_mul_stop
  have hcur := h.start_eq
  rw [s.length_bytes] at hlen
  omega

end Encoder

section Scan

variable (target reference : List UInt8) (skipGapLen refbaseBlock : Nat) (lines : List Line)

/-- From a state between two spans, the scan emits the spans of the lines. -/
def EmitsUnchanged : Prop :=
  ∀ (e : Encoder) (done ctrl free : List UInt8), e.Layout done ctrl [] free →
    64 * lines.length ≤ free.length →
    16 * (e.lineNo + lines.length) + refbaseBlock < 2 ^ 32 →
    WordsFrom target reference e.lineNo lines →
    ∃ e', encodeAvx2 skipGapLen refbaseBlock lines .unchanged e = .ok e' ∧
      e'.Emitted target reference refbaseBlock done (spanLines skipGapLen lines e.lineNo none)

/-- From a state with an open span, it emits that span first. -/
def EmitsChanged : Prop :=
  ∀ (e : Encoder) (done ctrl cur free old : List UInt8) (first last unchanged : Nat),
    e.InSpan refbaseBlock done ctrl cur free old unchanged (16 * first + refbaseBlock) →
    Group target reference e.lineNo first last unchanged →
    64 * lines.length ≤ free.length →
    16 * (e.lineNo + lines.length) + refbaseBlock < 2 ^ 32 →
    WordsFrom target reference e.lineNo lines →
    ∃ e', encodeAvx2 skipGapLen refbaseBlock lines (.changed unchanged (16 * first + refbaseBlock)) e =
        .ok e' ∧
      e'.Emitted target reference refbaseBlock done
        (spanLines skipGapLen lines e.lineNo (some (first, last, unchanged)))

variable {target reference skipGapLen refbaseBlock lines} {line : Line}

theorem emitsUnchanged_nil : EmitsUnchanged target reference skipGapLen refbaseBlock [] := by
  intro e done ctrl free h _ _ _
  have hdc := h.dc_eq
  have hidc := h.idc_eq
  have hbase := h.base_eq
  rw [length_nil] at hdc
  refine ⟨{ e with dc := e.dc - 2 }, ?_, [], ctrl ++ free, ?_, ?_, .nil⟩
  · unfold encodeAvx2 Encoder.endInput
    rw [if_pos (by omega), checkedSub_of_le (by omega)]
    rfl
  · show e.buf = _
    rw [h.buf_eq]
    simp
  · show 4 * (e.dc - 2) = _
    rw [flatMap_nil, append_nil]
    omega

theorem Encoder.InSpan.emits_end {e : Encoder} {done ctrl cur free old : List UInt8}
    {first last unchanged : Nat}
    (h : e.InSpan refbaseBlock done ctrl cur free old unchanged (16 * first + refbaseBlock))
    (hgroup : Group target reference e.lineNo first last unchanged)
    (hsmall : 16 * e.lineNo + refbaseBlock < 2 ^ 32) :
    ∃ e', e.endInput refbaseBlock (16 * first + refbaseBlock) unchanged = .ok e' ∧
      e'.Emitted target reference refbaseBlock done [(first, last)] := by
  obtain ⟨e₁, e₂, free', span, hclose, hadvance, hstart, -, hbetween, -, hout, -, -⟩ :=
    h.advance hsmall
  refine ⟨e₂, h.endInput_eq hclose hadvance, [span], free', ?_, ?_, .cons ?_ .nil⟩
  · rw [flatMap_singleton]
    exact hbetween.buf_eq
  · rw [flatMap_singleton]
    exact hbetween.dc_eq
  · exact hgroup.spanOf hstart (h.stop_add hstart hout)

theorem emitsUnchanged_cons
    (ih : EmitsUnchanged target reference skipGapLen refbaseBlock lines)
    (ih' : EmitsChanged target reference skipGapLen refbaseBlock lines) :
    EmitsUnchanged target reference skipGapLen refbaseBlock (line :: lines) := by
  intro e done ctrl free h hfree hsmall hwords
  rw [length_cons] at hfree hsmall
  unfold encodeAvx2 spanLines
  by_cases heq : line.values = line.refvals
  · rw [if_pos ((merged_ones line).mpr heq), if_pos heq]
    exact ih (e.skipLine line) done ctrl free ⟨h.buf_eq, h.ctrl_length, h.base_eq, h.idc_eq, h.dc_eq⟩
      (by omega) (by show 16 * (e.lineNo + 1 + lines.length) + _ < _; omega) hwords.2
  · rw [if_neg (mt (merged_ones line).mp heq), if_neg heq]
    obtain ⟨e₁, hfirst, h₁, hno, -⟩ := h.firstLineAvx2_spec line (by omega)
      (show 16 * (e.lineNo + 1) + refbaseBlock < 2 ^ 32 by omega)
    have hv := line.length_values
    have hspan : e₁.InSpan refbaseBlock done ctrl line.values (free.drop 64) line.refvals 0
        (16 * e.lineNo + refbaseBlock) := by
      refine ⟨h₁, ?_, by omega, Nat.zero_le _⟩
      exact OpenWords.first (Nat.zero_le 8) rfl heq
    have hgroup : Group target reference e₁.lineNo e.lineNo e.lineNo 0 :=
      ⟨by omega, fun _ => by omega, fun hne => absurd rfl hne⟩
    rw [hfirst, ← hno]
    exact ih' e₁ done ctrl _ _ _ e.lineNo e.lineNo 0 hspan hgroup
      (by rw [length_drop]; omega) (by omega) (hno ▸ hwords.2)

theorem emitsChanged_cons (hskip : 16 ≤ skipGapLen)
    (ih : EmitsUnchanged target reference skipGapLen refbaseBlock lines)
    (ih' : EmitsChanged target reference skipGapLen refbaseBlock lines) :
    EmitsChanged target reference skipGapLen refbaseBlock (line :: lines) := by
  intro e done ctrl cur free old first last unchanged h hgroup hfree hsmall hwords
  rw [length_cons] at hfree hsmall
  obtain ⟨unchanged', e₁, hcount, hnext, hspan, -, hno, -, hcases⟩ :=
    h.nextLineAvx2_spec line (by omega) hskip
  have hroom : 64 * lines.length ≤ (free.drop 64).length := by
    rw [length_drop]
    omega
  unfold encodeAvx2 spanLines
  simp only [hcount, hnext, Res.ok_bind]
  rcases hcases with ⟨heq, rfl⟩ | ⟨hne, hlt, htrailing⟩
  · have hgroup₁ : Group target reference e₁.lineNo first last (unchanged + 16) := hno ▸ hgroup.clear
    rw [if_pos heq]
    by_cases hgap : skipGapLen < unchanged + 16
    · rw [if_pos hgap, if_pos hgap]
      cases lines with
      | nil =>
        rw [if_pos isEmpty_nil]
        exact hspan.emits_end hgroup₁ (by omega)
      | cons line' lines =>
        obtain ⟨e₂, e₃, e₄, ctrl', free', span, hclose, hadvance, hopen, hstart, -, h₄, hfree', hout,
          -, hno₄, -⟩ := hspan.reopen (by omega) (by omega)
        have hend : e₁.endSpan refbaseBlock (16 * first + refbaseBlock) (unchanged + 16) = .ok e₃ := by
          unfold Encoder.endSpan
          rw [hclose]
          exact hadvance
        have hno₄ : e₄.lineNo = e.lineNo + 1 := hno₄.trans hno
        rw [if_neg (by simp), hend, Res.ok_bind, hopen, Res.ok_bind, ← hno₄]
        obtain ⟨e', hrun, hemitted⟩ := ih e₄ _ _ _ h₄ (by omega) (by omega) (hno₄ ▸ hwords.2)
        exact ⟨e', hrun, hemitted.cons (hgroup₁.spanOf hstart (hspan.stop_add hstart hout))⟩
    · rw [if_neg hgap, if_neg hgap, ← hno]
      exact ih' e₁ done ctrl _ _ _ first last _ hspan hgroup₁ hroom (by omega) (hno ▸ hwords.2)
  · -- A line with changes does not end the span.
    have hgroup₁ : Group target reference e₁.lineNo first e.lineNo unchanged' := by
      rw [hno, htrailing, ← (Line.trailing_eq hne).1]
      exact hgroup.changed hne hwords.1
    rw [if_neg hne, if_neg (by omega), (Line.trailing_eq hne).1, ← htrailing, ← hno]
    exact ih' e₁ done ctrl _ _ _ first e.lineNo _ hspan hgroup₁ hroom (by omega) (hno ▸ hwords.2)

/-- Both loops at once, by induction on the lines. -/
theorem encodeAvx2_emits (hskip : 16 ≤ skipGapLen) (lines : List Line) :
    EmitsUnchanged target reference skipGapLen refbaseBlock lines ∧
      EmitsChanged target reference skipGapLen refbaseBlock lines := by
  induction lines with
  | nil =>
    refine ⟨emitsUnchanged_nil, ?_⟩
    intro e done ctrl cur free old first last unchanged h hgroup _ hsmall _
    exact h.emits_end hgroup hsmall
  | cons line lines ih =>
    exact ⟨emitsUnchanged_cons ih.1 ih.2, emitsChanged_cons hskip ih.1 ih.2⟩

end Scan

/-! ## The kernel -/

/-- A diff is the encoding of one list of spans only. -/
theorem flatMap_bytes_injective {spans spans' : List Span}
    (h : spans.flatMap Span.bytes = spans'.flatMap Span.bytes) : spans = spans' := by
  have hends : ∀ (s : Span) (rest : List UInt8), (s.bytes ++ rest).take 4 = u32le s.start ∧
      (s.bytes ++ rest).drop 4 = u32le s.stop ++ (s.data ++ rest) := by
    intro s rest
    have hbytes : s.bytes ++ rest = u32le s.start ++ (u32le s.stop ++ (s.data ++ rest)) := by
      simp only [Span.bytes, append_assoc]
    have hfour : (u32le s.start).length = 4 := length_u32le _
    rw [hbytes, ← hfour]
    exact ⟨take_left, drop_left⟩
  induction spans generalizing spans' with
  | nil =>
    cases spans' with
    | nil => rfl
    | cons s' spans' =>
      have hlen := congrArg length h
      rw [flatMap_cons, length_append, s'.length_bytes, flatMap_nil, length_nil] at hlen
      omega
  | cons s spans ih =>
    cases spans' with
    | nil =>
      have hlen := congrArg length h
      rw [flatMap_cons, length_append, s.length_bytes, flatMap_nil, length_nil] at hlen
      omega
    | cons s' spans' =>
      have hread : ∀ {n m : Nat}, n < 2 ^ 32 → m < 2 ^ 32 → u32le n = u32le m → n = m := by
        intro n m hn hm heq
        have hnat := congrArg leNat heq
        unfold u32le at hnat
        rwa [leNat_leBytes_of_lt (by omega), leNat_leBytes_of_lt (by omega)] at hnat
      have hsmall : ∀ t : Span, t.start < 2 ^ 32 ∧ t.stop < 2 ^ 32 := fun t =>
        ⟨Nat.lt_of_le_of_lt (Nat.le_add_right _ _) t.small, t.small⟩
      rw [flatMap_cons, flatMap_cons] at h
      obtain ⟨hfirst, hrest⟩ := hends s (spans.flatMap Span.bytes)
      obtain ⟨hfirst', hrest'⟩ := hends s' (spans'.flatMap Span.bytes)
      rw [h] at hfirst hrest
      have hstart := hread (hsmall s).1 (hsmall s').1 (hfirst.symm.trans hfirst')
      obtain ⟨hstop, hdata⟩ := append_inj (hrest.symm.trans hrest') (by simp)
      have hstop := hread (hsmall s).2 (hsmall s').2 hstop
      have hlen : s.data.length = s'.data.length := by
        have h₁ := s.four_mul_stop
        have h₂ := s'.four_mul_stop
        omega
      obtain ⟨hdata, htail⟩ := append_inj hdata hlen
      have hspan : s = s' := by
        cases s
        cases s'
        cases (show _ = _ from hstart)
        cases (show _ = _ from hdata)
        rfl
      rw [hspan, ih htail]

/-- The spans of the vector kernel's output begin and end with changed words if, and only if, the
first line of every span begins with one, and ends with one where no later line of the span has
changed. -/
theorem constructDiffSegmentTwoAvx2_trimmed_iff (skipGapLen : Nat) (hskip : 16 ≤ skipGapLen)
    (target reference : List UInt8) (lines : List Line)
    (hnew : newIterator target reference = .ok lines) (referenceBase : Nat)
    (hblock : referenceBase < 2 ^ 32) (diff : List UInt8)
    (hdiff : target.length + 8 ≤ diff.length) (hsmall : diff.length < 2 ^ 32 - 1) :
    ∃ r, constructDiffSegmentTwoAvx2 diff target reference referenceBase skipGapLen = .ok r ∧
      (∃ spans : List Span, r.2.1.take r.1 = spans.flatMap Span.bytes) ∧
      ∀ spans : List Span, r.2.1.take r.1 = spans.flatMap Span.bytes →
        ((∀ s ∈ spans, s.Trimmed target reference (referenceBase / 4)) ↔
          ∀ p ∈ spanLines skipGapLen lines 0 none, EdgesDiffer target reference p) := by
  obtain ⟨hlen, h64, hwords, hlines⟩ := newIterator_words hnew
  obtain ⟨e', hrun, spans, free, hbuf, hdc, hall⟩ : ∃ e',
      scanAvx2 skipGapLen (referenceBase / 4) lines ⟨diff, 0, 0, 0, 0, []⟩ = .ok e' ∧
      e'.Emitted target reference (referenceBase / 4) [] (spanLines skipGapLen lines 0 none) := by
    cases lines with
    | nil => exact ⟨_, if_pos isEmpty_nil, [], diff, rfl, rfl, .nil⟩
    | cons line lines =>
      obtain ⟨e₁, hopen, hlayout, hno, -⟩ := @Encoder.openSpan_start diff (by omega)
      obtain ⟨e', hscan, hemitted⟩ := (encodeAvx2_emits hskip (line :: lines)).1 e₁ [] _ _ hlayout
        (by rw [length_drop]; omega)
        (show 16 * (e₁.lineNo + (line :: lines).length) + referenceBase / 4 < 2 ^ 32 by omega)
        (hno ▸ hwords)
      refine ⟨e', ?_, hno ▸ hemitted⟩
      unfold scanAvx2
      rw [if_neg (by simp), hopen]
      exact hscan
  rw [nil_append] at hbuf hdc
  have hfull : constructDiffSegmentTwoAvx2 diff target reference referenceBase skipGapLen =
      .ok (e'.dc * 4 % 2 ^ 32, e'.buf, e'.reference) := by
    unfold constructDiffSegmentTwoAvx2
    rw [hnew, Res.ok_bind, assert_of (decide_eq_true hdiff), Res.ok_bind,
      assert_of (decide_eq_true hsmall), Res.ok_bind, assert_of (decide_eq_true hskip), Res.ok_bind,
      hrun]
    rfl
  have hsize : e'.buf.length = diff.length := by
    obtain ⟨r, hspec, henc⟩ := constructDiffSegmentTwoAvx2_spec hskip hblock hlen h64 hdiff hsmall
    rw [hfull] at hspec
    cases hspec
    exact henc.length_buf
  have hle : 4 * e'.dc ≤ e'.buf.length := by
    rw [hdc, hbuf, length_append]
    omega
  have hout : e'.buf.take (e'.dc * 4 % 2 ^ 32) = spans.flatMap Span.bytes := by
    rw [Nat.mod_eq_of_lt (by omega), Nat.mul_comm, hdc, hbuf, take_left]
  refine ⟨_, hfull, ⟨spans, hout⟩, ?_⟩
  intro spans' hout'
  rw [← flatMap_bytes_injective (hout.symm.trans hout')]
  exact forall_trimmed_iff hall

/-- A line of which every word has changed makes one span, which begins and ends with changed words. -/
theorem constructDiffSegmentTwoAvx2_trimmed_iff_ones :
    ∃ s : Span, constructDiffSegmentTwoAvx2 (replicate 72 0) (replicate 64 1)
        (replicate 64 0) 0 16 = .ok (72, [s].flatMap Span.bytes, replicate 64 1) ∧
      s.Trimmed (replicate 64 1) (replicate 64 0) 0 := by
  obtain ⟨r, hr, -, htrimmed⟩ := constructDiffSegmentTwoAvx2_trimmed_iff 16 (by decide)
    (replicate 64 1) (replicate 64 0) _ rfl 0 (by decide) (replicate 72 0)
    (by decide) (by decide)
  have hrun : constructDiffSegmentTwoAvx2 (replicate 72 0) (replicate 64 1)
      (replicate 64 0) 0 16 = .ok (72, [(⟨0, replicate 64 1, rfl, by decide,
        by decide⟩ : Span)].flatMap Span.bytes, replicate 64 1) := by decide +kernel
  cases hr.symm.trans hrun
  refine ⟨_, hrun, (htrimmed [_] (take_of_length_le (by decide))).mpr ?_ _ mem_cons_self⟩
  unfold EdgesDiffer
  decide +kernel

/-- Only the second word of a line has changed, but the span starts with the first one and has the
whole line. -/
theorem constructDiffSegmentTwoAvx2_untrimmed :
    ∃ s : Span, constructDiffSegmentTwoAvx2 (replicate 72 0)
        (replicate 4 0 ++ replicate 4 1 ++ replicate 56 0) (replicate 64 0) 0 16 =
        .ok (72, [s].flatMap Span.bytes,
          replicate 4 0 ++ replicate 4 1 ++ replicate 56 0) ∧
      s.start = 0 ∧ s.stop = 16 ∧
      ∀ k < 16, ¬ SameWord (replicate 4 0 ++ replicate 4 1 ++ replicate 56 0)
        (replicate 64 0) k ↔ k = 1 := by
  refine ⟨⟨0, replicate 4 0 ++ replicate 4 1 ++ replicate 56 0, rfl, by decide,
    by decide⟩, ?_, rfl, rfl, by decide⟩
  decide +kernel

end Waypipe
