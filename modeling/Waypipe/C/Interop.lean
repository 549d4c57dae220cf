import Waypipe.C.Kernel
import Waypipe.DiffAppliers

/-!
# Diffs between waypipe-c and waypipe

Both programs write diffs that are a list of spans and, at the end, the last bytes of the buffer.
`TailedDiff` says this of a diff, and what it turns the buffer into; the decoders of both programs do
just that (`TailedDiff.appliedByBoth`), and the encoders of both write such diffs.
-/

namespace Waypipe.C

open LeBytes Patch Writes Waypipe.Span List

/-! ## Words that have changed -/

/-- An open segment from word `start` to word `i`: the last `nskip` words are the same as before. -/
structure OpenSegment (start i nskip : Nat) (kept oldKept skipped : List UInt8) : Prop where
  nonempty : 0 < kept.length
  length_old : oldKept.length = kept.length
  length_kept : 8 * start + kept.length + 8 * nskip = 8 * i
  length_skipped : skipped.length = 8 * nskip

theorem OpenSegment.closeSegment_spec {start i nskip : Nat} {kept oldKept skipped : List UInt8}
    (h : OpenSegment start i nskip kept oldKept skipped) (hi : 8 * i < 2 ^ 34) :
    DiffOf (closeSegment start (kept ++ skipped) nskip i) (8 * start) (oldKept ++ skipped)
      (kept ++ skipped) := by
  obtain ⟨hpos, hold, hlen, hskipped⟩ := h
  let span : Span := {
    start := start * 2
    data := kept
    whole := by omega
    nonempty := hpos
    small := by omega }
  have hstop : span.stop = (i - nskip) * 2 := by
    show start * 2 + kept.length / 4 = _
    omega
  have hbytes : closeSegment start (kept ++ skipped) nskip i = span.bytes := by
    unfold closeSegment bytes
    rw [hstop, length_append, hskipped, Nat.add_sub_cancel, take_left]
  have hspan := (DiffOf.single span hold).append (DiffOf.nil _ skipped)
  rw [append_nil, show 4 * span.start = 8 * start by show 4 * (start * 2) = _; omega] at hspan
  rw [hbytes]
  exact hspan

/-- One more word is skipped, or all words up to this one are kept. -/
theorem OpenSegment.next {start i nskip : Nat} {kept oldKept skipped w b : List UInt8}
    (h : OpenSegment start i nskip kept oldKept skipped) (hw : w.length = 8) (hb : b.length = 8) :
    ∃ kept' oldKept' skipped',
      OpenSegment start (i + 1) (if w = b then nskip + 1 else 0) kept' oldKept' skipped' ∧
      kept ++ skipped ++ w = kept' ++ skipped' ∧ oldKept ++ skipped ++ b = oldKept' ++ skipped' := by
  obtain ⟨hpos, hold, hlen, hskipped⟩ := h
  by_cases hsame : w = b
  · refine ⟨kept, oldKept, skipped ++ w, ⟨hpos, hold, ?_, ?_⟩, ?_, ?_⟩
    · rw [if_pos hsame]
      omega
    · rw [if_pos hsame, length_append]
      omega
    · rw [append_assoc]
    · rw [append_assoc, hsame]
  · refine ⟨kept ++ skipped ++ w, oldKept ++ skipped ++ b, [], ?_, by simp, by simp⟩
    constructor
    · simp only [length_append]
      omega
    · simp only [length_append]
      omega
    · rw [if_neg hsame]
      simp only [length_append]
      omega
    · rw [if_neg hsame]
      rfl

theorem exists_word {l : List UInt8} {n : Nat} (h : l.length = 8 * (n + 1)) :
    ∃ w rest, l = w ++ rest ∧ w.length = 8 ∧ rest.length = 8 * n := by
  refine ⟨l.take 8, l.drop 8, (take_append_drop 8 l).symm, ?_, ?_⟩
  · rw [length_take]
    omega
  · rw [length_drop]
    omega

/-- The loops write a diff, and leave the changed words in the base.  By induction on the words that
are left, for both loops at once. -/
theorem scanWords_spec (window n : Nat) {i : Nat} {mod base : List UInt8} (hmod : mod.length = 8 * n)
    (hbase : base.length = 8 * n) (hsmall : 8 * (i + n) < 2 ^ 34) :
    (∃ out, scanWords window n i mod base .equal = (out, mod) ∧ DiffOf out (8 * i) base mod) ∧
    ∀ {start nskip kept oldKept skipped}, OpenSegment start i nskip kept oldKept skipped →
      ∃ out, scanWords window n i mod base (.window start (kept ++ skipped) nskip) = (out, mod) ∧
        DiffOf out (8 * start) (oldKept ++ skipped ++ base) (kept ++ skipped ++ mod) := by
  induction n generalizing i mod base with
  | zero =>
    obtain rfl := eq_nil_of_length_eq_zero hmod
    obtain rfl := eq_nil_of_length_eq_zero hbase
    constructor
    · exact ⟨[], rfl, DiffOf.nil _ _⟩
    · intro start nskip kept oldKept skipped hopen
      refine ⟨_, rfl, ?_⟩
      rw [append_nil, append_nil]
      exact hopen.closeSegment_spec (by omega)
  | succ n ih =>
    obtain ⟨w, mod, rfl, hw, hmod⟩ := exists_word hmod
    obtain ⟨b, base, rfl, hb, hbase⟩ := exists_word hbase
    obtain ⟨⟨out, hrun, hout⟩, hwindow⟩ := @ih (i + 1) mod base hmod hbase (by omega)
    constructor
    · unfold scanWords
      simp only [take_left' hw, drop_left' hw, take_left' hb, drop_left' hb]
      by_cases hsame : w = b
      · subst hsame
        rw [if_pos rfl, hrun]
        refine ⟨out, rfl, ?_⟩
        apply (DiffOf.nil (8 * i) w).append
        rw [hw]
        exact hout
      · have hopen : OpenSegment i (i + 1) 0 w b [] := ⟨by omega, by omega, by omega, rfl⟩
        rw [if_neg hsame]
        by_cases hlast : n = 0
        · -- The exit block writes what the window would write if it were closed at once.
          have hclose := hopen.closeSegment_spec (by omega)
          obtain rfl := eq_nil_of_length_eq_zero (hmod.trans (by omega))
          obtain rfl := eq_nil_of_length_eq_zero (hbase.trans (by omega))
          rw [if_pos hlast]
          refine ⟨_, by rw [append_nil], ?_⟩
          simpa [closeSegment] using hclose
        · obtain ⟨out', hrun', hout'⟩ := hwindow hopen
          rw [append_nil] at hrun'
          rw [if_neg hlast, hrun']
          exact ⟨out', rfl, by simpa using hout'⟩
    · intro start nskip kept oldKept skipped hopen
      obtain ⟨kept', oldKept', skipped', hopen', hnew, hold⟩ := hopen.next hw hb
      unfold scanWords
      simp only [take_left' hw, drop_left' hw, take_left' hb, drop_left' hb]
      rw [← append_assoc _ b, ← append_assoc _ w, hnew, hold]
      generalize (if w = b then nskip + 1 else 0) = nskip' at hopen' ⊢
      by_cases hskip : nskip' ≤ window / 2
      · obtain ⟨out', hrun', hout'⟩ := hwindow hopen'
        rw [if_pos hskip, hrun']
        exact ⟨out', rfl, hout'⟩
      · rw [if_neg hskip, hrun]
        refine ⟨_, rfl, (hopen'.closeSegment_spec (by omega)).append ?_⟩
        have hend : 8 * start + (kept' ++ skipped').length = 8 * (i + 1) := by
          have := hopen'.length_kept
          rw [length_append, hopen'.length_skipped]
          omega
        rw [hend]
        exact hout

/-! ## Intervals -/

section Construct

variable {base changed : List UInt8}

theorem load_eq {src : List UInt8} {offset n : Nat} (h : offset + n ≤ src.length) :
    load src offset n = some ((src.drop offset).take n) := if_pos h

theorem memcpy_eq {dest src : List UInt8} {offset : Nat} (h : offset + src.length ≤ dest.length) :
    memcpy dest offset src =
      some (dest.take offset ++ src ++ dest.drop (offset + src.length)) := if_pos h

theorem updated_empty {i : Nat × Nat} (h : i.2 ≤ i.1) : Updated changed base 0 [i] base := by
  refine ⟨rfl, fun x => (if_neg ?_).symm⟩
  rintro ⟨j, hj, hlo, hhi⟩
  rw [mem_singleton.mp hj] at hlo hhi
  omega

/-- The kernel on the words of an interval. -/
theorem runIntervalDiffC_spec (window : Nat) {i iEnd : Nat} (hlen : changed.length = base.length)
    (hend : 8 * iEnd ≤ base.length) (hsmall : 8 * iEnd < 2 ^ 34) :
    ∃ out new, runIntervalDiffC window changed base i iEnd = some (out, new) ∧
      DiffOf out 0 base new ∧ Updated changed base 0 [(8 * i, 8 * iEnd)] new := by
  unfold runIntervalDiffC
  by_cases hlt : i < iEnd
  · have hn : 8 * (iEnd - i) = 8 * iEnd - 8 * i := by omega
    have hnew : (part changed (8 * i, 8 * iEnd)).length = 8 * iEnd - 8 * i :=
      length_part (by dsimp only; omega)
    have hold : ((base.drop (8 * i)).take (8 * iEnd - 8 * i)).length = 8 * iEnd - 8 * i := by
      rw [length_take, length_drop]
      omega
    obtain ⟨⟨out, hrun, hout⟩, -⟩ := scanWords_spec window (iEnd - i) (hnew.trans hn.symm)
      (hold.trans hn.symm) (show 8 * (i + (iEnd - i)) < 2 ^ 34 by omega)
    have hwords : load changed (8 * i) (8 * (iEnd - i)) = some (part changed (8 * i, 8 * iEnd)) := by
      rw [load_eq (by omega), hn]
      rfl
    have holds : load base (8 * i) (8 * (iEnd - i)) =
        some ((base.drop (8 * i)).take (8 * iEnd - 8 * i)) := by
      rw [load_eq (by omega), hn]
    have hcopy := memcpy_eq (show 8 * i + (part changed (8 * i, 8 * iEnd)).length ≤ base.length by omega)
    rw [show 8 * i + (part changed (8 * i, 8 * iEnd)).length = 8 * iEnd by omega] at hcopy
    refine ⟨out, _, ?_, DiffOf.splice (Nat.zero_le _) (by omega) (by omega) hout,
      updated_part (by dsimp only; omega) (Nat.zero_le _) (by dsimp only; omega)
        (by dsimp only; omega)⟩
    rw [if_pos hlt, hwords, holds]
    simp only [Option.bind_eq_bind, Option.bind_some, hrun, hcopy]
    rfl
  · rw [if_neg hlt]
    exact ⟨[], base, rfl, DiffOf.nil _ _, updated_empty (by dsimp only; omega)⟩

/-- The ends of an interval are block-aligned `int32_t` values, and lie in the buffer. -/
structure BlockIn (size : Nat) (e : Nat × Nat) : Prop where
  aligned_start : e.1 % 8 = 0
  aligned_stop : e.2 % 8 = 0
  le_size : e.2 ≤ size
  small : e.2 < 2 ^ 31

/-- The loop over the intervals. -/
theorem foldlM_diffOne_spec (intervals : List (Nat × Nat)) (diff : List UInt8)
    (hlen : changed.length = base.length) (hin : ∀ e ∈ intervals, BlockIn base.length e) :
    ∃ out new, intervals.foldlM (diffOne 3 changed) (diff, base) = some (diff ++ out, new) ∧
      DiffOf out 0 base new ∧ Updated changed base 0 intervals new := by
  induction intervals generalizing diff base with
  | nil =>
    refine ⟨[], base, by rw [append_nil]; rfl, DiffOf.nil _ _, rfl, fun x => ?_⟩
    rw [if_neg (not_inIntervals_nil _)]
  | cons e intervals ih =>
    obtain ⟨hstart, hstop, hle, hsmall⟩ := hin e mem_cons_self
    have hblock : ∀ x, x % 8 = 0 → 8 * (x >>> 3) = x := by
      intro x hx
      rw [Nat.shiftRight_eq_div_pow]
      omega
    obtain ⟨out, mid, hrun, hout, hmid⟩ := runIntervalDiffC_spec 24 (i := e.1 >>> 3) hlen
      (by rw [hblock _ hstop]; exact hle) (by rw [hblock _ hstop]; omega)
    rw [hblock _ hstart, hblock _ hstop] at hmid
    have hone : diffOne 3 changed (diff, base) e = some (diff ++ out, mid) := by
      unfold diffOne
      rw [hrun]
      rfl
    obtain ⟨out', new, hruns, hout', hnew⟩ := ih (diff ++ out) (hlen.trans hmid.length_eq.symm)
      fun e' he' => by
        rw [hmid.length_eq]
        exact hin e' (mem_cons_of_mem e he')
    refine ⟨out ++ out', new, ?_, hout.trans hout', hmid.append hnew⟩
    rw [foldlM_cons, hone, ← append_assoc]
    exact hruns

/-! ## The last bytes -/

/-- The bytes are a diff with a tail, which turn `old` into `new`. -/
def TailedDiff (out tail old new : List UInt8) : Prop :=
  ∃ mid, DiffOf out 0 old mid ∧ tail.length ≤ mid.length ∧
    new = mid.take (mid.length - tail.length) ++ tail

/-- The tail is only sent if it has changed. -/
theorem tailedDiff_of_tail {out old mid target : List UInt8} {offset : Nat} (h : DiffOf out 0 old mid)
    (hlen : target.length = mid.length) (hoffset : offset ≤ mid.length) :
    TailedDiff out (if mid.drop offset ≠ target.drop offset then target.drop offset else []) old
        (mid.take offset ++ target.drop offset) ∧
      Updated target mid 0 [(offset, mid.length)] (mid.take offset ++ target.drop offset) := by
  have htail : (target.drop offset).length = mid.length - offset := by
    rw [length_drop]
    omega
  constructor
  · refine ⟨mid, h, ?_⟩
    by_cases hsame : mid.drop offset = target.drop offset
    · rw [if_neg (not_not.mpr hsame), ← hsame, take_append_drop]
      exact ⟨Nat.zero_le _, by simp⟩
    · rw [if_pos hsame, htail]
      exact ⟨by omega, by rw [show mid.length - (mid.length - offset) = offset by omega]⟩
  · have hpart : part target (offset, mid.length) = target.drop offset :=
      take_of_length_le (by dsimp only; omega)
    have hupdated := @updated_part (offset, mid.length) target 0 mid hoffset (Nat.zero_le _)
      (by dsimp only; omega) (by dsimp only; omega)
    rw [hpart] at hupdated
    simpa using hupdated

/-- The intervals that a diff is for, with the last bytes. -/
def withEnd (intervals : List (Nat × Nat)) (size ntrailing : Nat) : List (Nat × Nat) :=
  intervals ++ [(size - ntrailing, size)]

theorem constructDiffTrailing_spec {out old : List UInt8} (h : DiffOf out 0 old base)
    (hlen : changed.length = base.length) :
    ∃ tail new, constructDiffTrailing base.length 3 base changed = some (tail, new) ∧
      TailedDiff out tail old new ∧
      Updated changed base 0 [(base.length - base.length % 8, base.length)] new := by
  obtain ⟨hdiff, hupdated⟩ := tailedDiff_of_tail h hlen (Nat.sub_le base.length (base.length % 8))
  refine ⟨_, _, ?_, hdiff, hupdated⟩
  have hload : ∀ l : List UInt8, l.length = base.length →
      load l (base.length - base.length % 8) (base.length % 8) =
        some (l.drop (base.length - base.length % 8)) := by
    intro l hl
    rw [load_eq (by omega), take_of_length_le (by rw [length_drop]; omega)]
  unfold constructDiffTrailing
  simp only [show base.length % (1 <<< 3) = base.length % 8 from rfl, hload base rfl,
    hload changed hlen, Option.bind_eq_bind, Option.bind_some]
  by_cases hsame : base.drop (base.length - base.length % 8) =
      changed.drop (base.length - base.length % 8)
  · rw [if_neg (not_not.mpr hsame), if_neg (not_not.mpr hsame), ← hsame, take_append_drop]
    rfl
  · have hend : base.length - base.length % 8 +
        (changed.drop (base.length - base.length % 8)).length = base.length := by
      rw [length_drop]
      omega
    rw [if_pos hsame, if_pos hsame, memcpy_eq hend.le, hend, drop_length, append_nil]
    rfl

/-- The diff of waypipe-c. -/
theorem constructDiff_spec (damagedEnd : Bool) {intervals : List (Nat × Nat)}
    (hlen : changed.length = base.length) (hin : ∀ e ∈ intervals, BlockIn base.length e) :
    ∃ diff tail new, constructDiff damagedEnd intervals base.length base changed =
        some (diff, tail, new) ∧ TailedDiff diff tail base new ∧
      Updated changed base 0
        (withEnd intervals base.length (if damagedEnd then base.length % 8 else 0)) new := by
  obtain ⟨diff, mid, hcore, hdiff, hmid⟩ := foldlM_diffOne_spec intervals [] hlen hin
  rw [nil_append] at hcore
  have hlenmid := hmid.length_eq
  unfold constructDiff constructDiffCore
  rw [hcore]
  simp only [Option.bind_eq_bind, Option.bind_some]
  cases damagedEnd with
  | true =>
    obtain ⟨tail, new, hrun, htailed, hnew⟩ :=
      constructDiffTrailing_spec hdiff (hlen.trans hlenmid.symm)
    rw [hlenmid] at hrun hnew
    refine ⟨diff, tail, new, ?_, htailed, hmid.append hnew⟩
    rw [if_pos rfl, hrun]
    rfl
  | false =>
    exact ⟨diff, [], mid, rfl, ⟨mid, hdiff, Nat.zero_le _, by simp⟩,
      hmid.append (updated_empty (Nat.le_refl _))⟩

end Construct

/-! ## Application -/

/-- The bytes of an array, as a store. -/
def storeOf (l : List UInt8) : Nat → UInt8 := fun x => (l[x]?).getD 0

theorem holds_storeOf (l : List UInt8) : Holds (storeOf l) 0 l := by
  intro i x hi
  rw [Nat.zero_add, storeOf, hi]
  rfl

theorem eq_of_holds {l l' : List UInt8} (h : Holds (storeOf l) 0 l') (hlen : l.length = l'.length) :
    l = l' := by
  apply ext_getElem hlen
  intro i hi hi'
  have hx := h i _ (getElem?_eq_getElem hi')
  rw [Nat.zero_add, storeOf, getElem?_eq_getElem hi] at hx
  exact hx

/-- Copying is writing a segment. -/
theorem memcpy_spec {dest src : List UInt8} {offset : Nat} (h : offset + src.length ≤ dest.length) :
    ∃ dest', memcpy dest offset src = some dest' ∧ dest'.length = dest.length ∧
      storeOf dest' = Segment.apply ⟨offset, src⟩ (storeOf dest) := by
  refine ⟨_, memcpy_eq h, ?_, ?_⟩
  · simp only [length_append, length_take, length_drop]
    omega
  · funext x
    unfold storeOf Segment.apply
    rw [getElem?_splice (Nat.le_add_right _ _) h (by omega)]
    dsimp only
    by_cases hlo : offset ≤ x
    · rw [if_pos hlo]
      by_cases hhi : x < offset + src.length
      · rw [if_pos ⟨hlo, hhi⟩, getElem?_eq_getElem (by omega)]
        rfl
      · rw [if_neg (by omega), getElem?_eq_none (l := src) (by omega)]
        rfl
    · rw [if_neg (by omega), if_neg hlo]

section Decode

variable {out tail old new : List UInt8}

/-- The spans of a diff, and its tail, as one patch. -/
theorem TailedDiff.turns (h : TailedDiff out tail old new) :
    ∃ spans : List Span, out = spans.flatMap bytes ∧ (∀ s ∈ spans, 4 * s.stop ≤ old.length) ∧
      tail.length ≤ old.length ∧
      Turns (spans.map segment ++ [⟨old.length - tail.length, tail⟩]) 0 old new := by
  obtain ⟨mid, ⟨spans, rfl, hspans, hturns⟩, hle, rfl⟩ := h
  have hlen := hturns.length_eq
  have hbefore : (mid.take (mid.length - tail.length)).length = mid.length - tail.length := by
    rw [length_take]
    omega
  have htail : Turns [⟨mid.length - tail.length, tail⟩]
      (0 + (mid.take (mid.length - tail.length)).length) (mid.drop (mid.length - tail.length))
      tail := by
    rw [hbefore, Nat.zero_add]
    apply Turns.single
    rw [length_drop]
    omega
  have hmid := (Turns.nil (mid.take (mid.length - tail.length))).append htail
  rw [nil_append, take_append_drop] at hmid
  rw [hlen]
  refine ⟨spans, rfl, fun s hs => ?_, hle, hturns.trans hmid⟩
  have := (hspans s hs).2
  omega

/-- The loop of `apply_diff` on the encoding of spans, which end in the target. -/
theorem copySegments_spec {nblocks ndiffblocks : Nat} (spans : List Span) (pre rest diff : List UInt8)
    (rounds : Nat) {i : Nat} {target : List UInt8}
    (hdiff : diff = pre ++ (spans.flatMap bytes ++ rest)) (hi : 4 * i = pre.length)
    (hblocks : 4 * ndiffblocks = pre.length + (spans.flatMap bytes).length)
    (hrounds : spans.length ≤ rounds) (hspans : ∀ s ∈ spans, s.stop ≤ nblocks)
    (htarget : 4 * nblocks ≤ target.length) :
    ∃ target', copySegments nblocks ndiffblocks diff rounds i target target =
        some ⟨target', target', none⟩ ∧ target'.length = target.length ∧
      storeOf target' = applyAll (spans.map segment) (storeOf target) := by
  induction spans generalizing pre rounds i target with
  | nil =>
    refine ⟨target, ?_, rfl, rfl⟩
    cases rounds with
    | zero => rfl
    | succ rounds => exact if_neg (by rw [flatMap_nil, length_nil] at hblocks; omega)
  | cons s spans ih =>
    obtain ⟨rounds, rfl⟩ : ∃ k, rounds = k + 1 :=
      ⟨rounds - 1, by rw [length_cons] at hrounds; omega⟩
    rw [flatMap_cons, append_assoc] at hdiff
    rw [flatMap_cons, length_append] at hblocks
    have hstop := s.four_mul_stop
    have hlen := s.length_bytes
    have hs := hspans s mem_cons_self
    have hsmall : s.stop < 2 ^ 32 := s.small
    have hpos := s.nonempty
    have hfits : 4 * ndiffblocks ≤ diff.length := by
      rw [hblocks, hdiff]
      simp only [length_append]
      omega
    have hspan : (s.stop + 2 ^ 64 - s.start) % 2 ^ 64 = s.stop - s.start := by omega
    have hdrop : diff.drop (4 * i) = u32le s.start ++ (u32le s.stop ++ (s.data ++
        (spans.flatMap bytes ++ rest))) := by
      rw [hi, hdiff, drop_left, bytes, append_assoc, append_assoc]
    have hfrom : load diff (4 * i) 4 = some (u32le s.start) := by
      rw [load_eq (by omega), hdrop, take_left' (length_u32le _)]
    have hto : load diff (4 * (i + 1)) 4 = some (u32le s.stop) := by
      rw [load_eq (by omega), show 4 * (i + 1) = 4 * i + 4 by omega, ← drop_drop, hdrop,
        drop_left' (length_u32le _), take_left' (length_u32le _)]
    have hdata : load diff (4 * (i + 2)) (4 * (s.stop - s.start)) = some s.data := by
      rw [load_eq (by omega), show 4 * (i + 2) = 4 * i + 4 + 4 by omega, ← drop_drop,
        ← drop_drop, hdrop, drop_left' (length_u32le _), drop_left' (length_u32le _),
        show 4 * (s.stop - s.start) = s.data.length by omega, take_left]
    obtain ⟨target₁, hcopy, hlen₁, hstore₁⟩ := @memcpy_spec target s.data (4 * s.start)
      (by omega)
    obtain ⟨target', hrest, hlen', hstore'⟩ := @ih (pre ++ s.bytes) rounds
      (i + (s.stop - s.start) + 2) target₁ (by rw [hdiff, append_assoc])
      (by rw [length_append]; omega) (by rw [length_append]; omega)
      (by rw [length_cons] at hrounds; omega)
      (fun t ht => hspans t (mem_cons_of_mem s ht)) (by omega)
    refine ⟨target', ?_, hlen'.trans hlen₁, ?_⟩
    · unfold copySegments
      rw [if_pos (by omega)]
      simp only [hfrom, hto, Option.bind_eq_bind, Option.bind_some, u32le,
        leNat_leBytes_of_lt (show s.start < 256 ^ 4 by omega),
        leNat_leBytes_of_lt (show s.stop < 256 ^ 4 by omega), hspan]
      rw [if_neg (by omega), hdata]
      simp only [Option.bind_some, hcopy]
      exact hrest
    · rw [hstore', hstore₁, map_cons, applyAll_cons]
      rfl

/-- `apply_diff` of waypipe-c. -/
theorem TailedDiff.applyDiff_eq (h : TailedDiff out tail old new) :
    applyDiff old.length old old out.length tail.length (out ++ tail) =
      some ⟨new, new, none⟩ := by
  obtain ⟨spans, rfl, hspans, htail, hturns⟩ := h.turns
  have hmod := length_flatMap_bytes_mod spans
  have hcount := length_le_flatMap_bytes spans
  obtain ⟨target, hrun, hlen, hstore⟩ := @copySegments_spec (old.length / 4)
    ((spans.flatMap bytes).length / 4) spans [] tail (spans.flatMap bytes ++ tail)
    ((spans.flatMap bytes).length / 4) 0 old rfl rfl (by rw [length_nil]; omega) (by omega)
    (fun s hs => by have := hspans s hs; omega) (by omega)
  obtain ⟨target', hcopy, hlen', hstore'⟩ := @memcpy_spec target tail (old.length - tail.length)
    (by omega)
  have hnew : target' = new := by
    apply eq_of_holds
    · have hinside := hturns.inside _ (holds_storeOf old)
      rw [applyAll_append, ← hstore] at hinside
      rw [hstore']
      exact hinside
    · rw [hlen', hlen, hturns.length_eq]
  subst hnew
  unfold applyDiff
  rw [hrun]
  simp only [Option.bind_eq_bind, Option.bind_some, Option.isSome_none, Bool.false_eq_true, false_or]
  by_cases hnone : tail.length = 0
  · obtain rfl := eq_nil_of_length_eq_zero hnone
    rw [if_pos length_nil]
    have hsame : target' = target := by
      rw [memcpy_eq (by simp [hlen]), append_nil] at hcopy
      simpa using hcopy.symm
    rw [hsame]
    rfl
  · have hload : load (spans.flatMap bytes ++ tail) (spans.flatMap bytes).length
        tail.length = some tail := by
      rw [load_eq (by rw [length_append]), drop_left, take_length]
    rw [if_neg hnone, if_neg (by omega), hload]
    simp only [Option.bind_some, hcopy]
    rfl

theorem synced_flatMap {sfd : SfdRef} (spans : List Span) {both one : List (Loc × UInt8)}
    (h : Synced sfd both one) : Synced sfd (both ++ spans.flatMap fun s =>
      writesAt sfd true (4 * s.start) s.data ++ writesAt sfd false (4 * s.start) s.data)
      (one ++ spans.flatMap fun s => writesAt sfd true (4 * s.start) s.data) := by
  induction spans generalizing both one with
  | nil => simpa using h
  | cons s spans ih =>
    rw [flatMap_cons, flatMap_cons, ← append_assoc both, ← append_assoc one]
    apply ih
    exact h.append fun mem inMirror => Synced.contents_writesAt_both mem true inMirror _ _

/-- `apply_diff` of waypipe, on a file and a mirror that have the old bytes. -/
theorem TailedDiff.exec_applyDiff (h : TailedDiff out tail old new) (sfd : SfdRef) :
    ∃ ws, (Waypipe.applyDiff (out ++ tail) tail.length old.length ⟨sfd, 0, old.length⟩).exec [] =
        (.ok (), ws) ∧
      ∀ mem : Loc → UInt8, (∀ inMirror, Holds (contents mem sfd inMirror) 0 old) →
        ∀ inMirror, Holds (contents (writeAll mem ws) sfd inMirror) 0 new := by
  obtain ⟨spans, rfl, hspans, htail, hturns⟩ := h.turns
  have hmod := length_flatMap_bytes_mod spans
  have hcount := length_le_flatMap_bytes spans
  have hbody : (spans.flatMap bytes ++ tail).length - tail.length =
      (spans.flatMap bytes).length := by
    rw [length_append, Nat.add_sub_cancel]
  have hloop : (fileLoop (spans.flatMap bytes ++ tail) (spans.flatMap bytes).length
      old.length sfd (spans.flatMap bytes ++ tail).length 0).exec [] =
      (.ok (), [] ++ spans.flatMap fun s =>
        writesAt sfd true (4 * s.start) s.data ++ writesAt sfd false (4 * s.start) s.data) := by
    apply applySpans_spec spans [] tail _ _ _ rfl
    · rw [length_nil, Nat.zero_add]
    · rw [length_append]
      omega
    · intro s hs pos hpos
      have := hspans s hs
      have := s.four_mul_stop
      have := s.nonempty
      exact if_neg (by omega)
    · intro s hs log
      have := hspans s hs
      have := s.four_mul_stop
      rw [Nat.mul_comm s.start 4]
      exact exec_fileWrite (by omega) log
  obtain ⟨ws, hrun, hws⟩ := @exec_fileTail sfd old.length _ _ (old.length - tail.length) tail 0
    (by omega) (synced_flatMap spans (Synced.nil sfd))
  refine ⟨ws, ?_, fun mem hmem => ?_⟩
  · rw [Waypipe.applyDiff_eq (by simp) htail (by rw [hbody]; exact hmod), hbody, drop_left,
      Eff.exec_bind, hloop]
    exact hrun
  · have hmirror : Holds (contents (writeAll mem ws) sfd true) 0 new := by
      have hinside := hturns.inside _ (hmem true)
      rw [applyAll_append] at hinside
      rw [hws.mirror, nil_append, writeAll_append, contents_writesAt,
        contents_flatMap mem fun mem s => contents_writesAt sfd true mem _ _]
      exact hinside
    intro inMirror
    cases inMirror with
    | true => exact hmirror
    | false =>
      intro i x hi
      have hlt : i < old.length := by
        rw [hturns.length_eq]
        exact (List.getElem?_eq_some_iff.mp hi).1
      have hold := getElem?_eq_getElem hlt
      rw [← hws.mapping mem (0 + i) ((hmem true i _ hold).trans (hmem false i _ hold).symm)]
      exact hmirror i x hi

end Decode

/-! ## Diffs of waypipe -/

/-- A task for a buffer, as it is made from the damage of the buffer. -/
structure TaskIn (size : Nat) (task : DiffTask) : Prop where
  region_none : task.region = none → task.intervals = []
  region_some : ∀ start stop, task.region = some (start, stop) →
    start % 64 = 0 ∧ stop % 64 = 0 ∧ start < stop ∧ stop ≤ size ∧ ∀ i ∈ task.intervals,
      i.1 < i.2 ∧ i.1 % 64 = 0 ∧ i.2 % 64 = 0 ∧ start ≤ i.1 ∧ i.2 ≤ stop ∧ i.2 < 2 ^ 32
  trailing_le : task.trailing ≤ size

section Rust

variable {task : DiffTask} {dst target mirror : List UInt8}

theorem updated_splice {reference : List UInt8} {start stop : Nat} {intervals : List (Nat × Nat)}
    (h : Updated target ((mirror.drop start).take (stop - start)) start intervals reference)
    (hle : start ≤ stop) (hstop : stop ≤ mirror.length)
    (hin : ∀ i ∈ intervals, start ≤ i.1 ∧ i.2 ≤ stop) :
    Updated target mirror 0 intervals (mirror.take start ++ reference ++ mirror.drop stop) := by
  have hlen : reference.length = stop - start := by
    rw [h.length_eq, length_take, length_drop]
    omega
  constructor
  · simp only [length_append, length_take, length_drop]
    omega
  · intro x
    rw [getElem?_splice hle hstop hlen, Nat.zero_add]
    by_cases hx : start ≤ x ∧ x < stop
    · rw [if_pos hx, h.getElem?, getElem?_take_of_lt (by omega), getElem?_drop,
        show start + (x - start) = x by omega]
    · rw [if_neg hx, if_neg]
      rintro ⟨i, hi, hlo, hhi⟩
      have := hin i hi
      omega

/-- The part of the diff for the intervals. -/
theorem diffRegion_spec (hlen : target.length = mirror.length) (htask : TaskIn mirror.length task)
    (hdst : diffSpace task.intervals + task.trailing ≤ dst.length) :
    ∃ out free new, diffRegion task dst target mirror = .ok (out.length, out ++ free, new) ∧
      task.trailing ≤ free.length ∧ DiffOf out 0 mirror new ∧
      Updated target mirror 0 task.intervals new := by
  unfold diffRegion
  cases hregion : task.region with
  | none =>
    rw [htask.region_none hregion]
    refine ⟨[], dst, mirror, rfl, by omega, DiffOf.nil _ _, rfl, fun x => ?_⟩
    rw [if_neg (not_inIntervals_nil _)]
  | some region =>
    obtain ⟨start, stop⟩ := region
    obtain ⟨hstart, hstop, hlt, hle, hin⟩ := htask.region_some start stop hregion
    have href : ((mirror.drop start).take (stop - start)).length = stop - start := by
      rw [length_take, length_drop]
      omega
    have hintervals : ∀ i ∈ task.intervals,
        IntervalIn target ((mirror.drop start).take (stop - start)) start i := by
      intro i hi
      obtain ⟨h1, h2, h3, h4, h5, h6⟩ := hin i hi
      exact ⟨h1, h2, h3, h4, by omega, by omega, h6⟩
    obtain ⟨p, out, free, hrun, hbuf, hout, hsize, hspace, hdiff, hupdated, -⟩ :=
      foldlM_diffInterval_spec (Nat.le_refl 16) hstart task.intervals (nil_append dst).symm
        (show DiffProgress.outputLen
          { outputLen := 0, diff := dst, reference := (mirror.drop start).take (stop - start) } = _
          from rfl) rfl hintervals (by omega)
    rw [nil_append] at hbuf hout
    refine ⟨out, free, mirror.take start ++ p.reference ++ mirror.drop stop, ?_, by omega,
      hdiff.splice (Nat.zero_le _) hlt.le (by omega),
      updated_splice hupdated hlt.le hle fun i hi => ⟨(hin i hi).2.2.2.1, (hin i hi).2.2.2.2.1⟩⟩
    have hconstruct : Waypipe.constructDiff dst target task.intervals
        ((mirror.drop start).take (stop - start)) start = .ok p := hrun
    dsimp only
    rw [assert_of (beq_iff_eq.mpr hstart), Res.ok_bind, assert_of (beq_iff_eq.mpr hstop), Res.ok_bind,
      if_neg (by omega)]
    simp only [hconstruct, Res.ok_bind, hout, hbuf]
    rfl

/-- The diff of waypipe. -/
theorem diffInner_spec (hlen : target.length = mirror.length) (htask : TaskIn mirror.length task)
    (hdst : diffSpace task.intervals + task.trailing ≤ dst.length) :
    ∃ n ntrailing dst' new, diffInner task dst target mirror = .ok (n, ntrailing, dst', new) ∧
      n + ntrailing ≤ dst'.length ∧
      TailedDiff (dst'.take n) ((dst'.drop n).take ntrailing) mirror new ∧
      Updated target mirror 0 (withEnd task.intervals mirror.length task.trailing) new := by
  obtain ⟨out, free, mid, hrun, hfree, hdiff, hmid⟩ := diffRegion_spec hlen htask hdst
  have hlenmid := hmid.length_eq
  have htrailing := htask.trailing_le
  unfold diffInner
  rw [hrun, Res.ok_bind]
  dsimp only
  by_cases hpos : 0 < task.trailing
  · obtain ⟨offset, hoffset⟩ : ∃ offset, offset + task.trailing = target.length :=
      ⟨target.length - task.trailing, by omega⟩
    have hsub : checkedSub target.length task.trailing = .ok offset := by
      rw [checkedSub_of_le (by omega), ← hoffset, Nat.add_sub_cancel]
    have hold : (mid.drop offset).length = task.trailing := by
      rw [length_drop]
      omega
    have htail : (target.drop offset).length = task.trailing := by
      rw [length_drop]
      omega
    have hcopy : copyTailIfDiff free target task.trailing (mid.drop offset) =
        .ok (decide (target.drop offset ≠ mid.drop offset),
          target.drop offset ++ free.drop task.trailing, target.drop offset) := by
      unfold copyTailIfDiff
      rw [assert_of (beq_iff_eq.mpr hold), Res.ok_bind, hsub, Res.ok_bind,
        assert_of (decide_eq_true hfree), Res.ok_bind]
      rfl
    obtain ⟨htailed, hupdated⟩ := tailedDiff_of_tail hdiff (hlen.trans hlenmid.symm)
      (show offset ≤ mid.length by omega)
    have hwhole := hmid.append hupdated
    rw [hlenmid, show offset = mirror.length - task.trailing by omega] at hwhole
    rw [if_pos hpos, hsub, Res.ok_bind, if_neg (by omega)]
    simp only [drop_left, take_left, take_of_length_le hold.le, hcopy, Res.ok_bind,
      drop_of_length_le (show mid.length ≤ target.length by omega), append_nil]
    refine ⟨_, _, _, _, rfl, ?_, ?_, ?_⟩
    · simp only [length_append, htail]
      split <;> omega
    · rw [take_left, drop_left]
      by_cases hsame : mid.drop offset = target.drop offset
      · rw [if_neg (not_not.mpr hsame)] at htailed
        simpa [hsame] using htailed
      · rw [if_pos hsame] at htailed
        rw [if_pos (decide_eq_true (Ne.symm hsame)), take_left' htail]
        exact htailed
    · rw [show offset = mirror.length - task.trailing by omega]
      exact hwhole
  · rw [if_neg hpos]
    have hzero : task.trailing = 0 := by omega
    refine ⟨_, _, _, _, rfl, by simp, ⟨mid, ?_, Nat.zero_le _, by simp⟩, ?_⟩
    · rw [take_left]
      exact hdiff
    · rw [hzero]
      exact hmid.append (updated_empty (Nat.le_refl _))

end Rust

/-! ## Interoperation -/

/-- Both programs apply the diff to copies of the old bytes, and without an error. -/
structure AppliedByBoth (diff tail old new : List UInt8) : Prop where
  c : applyDiff old.length old old diff.length tail.length (diff ++ tail) = some ⟨new, new, none⟩
  rust : ∀ sfd, ∃ ws,
    (Waypipe.applyDiff (diff ++ tail) tail.length old.length ⟨sfd, 0, old.length⟩).exec [] =
      (.ok (), ws) ∧
    ∀ mem : Loc → UInt8, (∀ inMirror, Holds (contents mem sfd inMirror) 0 old) →
      ∀ inMirror, Holds (contents (writeAll mem ws) sfd inMirror) 0 new

theorem TailedDiff.appliedByBoth {diff tail old new : List UInt8} (h : TailedDiff diff tail old new) :
    AppliedByBoth diff tail old new := ⟨h.applyDiff_eq, h.exec_applyDiff⟩

/-- Diffs of waypipe-c make the base the changed data on the intervals, and at the end if it is
damaged; so do those of waypipe with the mirror.  Applied by either program, both have the same
effect on a copy of the old data. -/
theorem diffs_interoperate :
    (∀ (damagedEnd : Bool) (intervals : List (Nat × Nat)) (base changed : List UInt8),
      changed.length = base.length → (∀ e ∈ intervals, BlockIn base.length e) →
      ∃ diff tail new,
        constructDiff damagedEnd intervals base.length base changed = some (diff, tail, new) ∧
        Updated changed base 0
          (withEnd intervals base.length (if damagedEnd then base.length % 8 else 0)) new ∧
        AppliedByBoth diff tail base new) ∧
    ∀ (task : DiffTask) (dst target mirror : List UInt8), target.length = mirror.length →
      TaskIn mirror.length task → diffSpace task.intervals + task.trailing ≤ dst.length →
      ∃ n ntrailing dst' new, diffInner task dst target mirror = .ok (n, ntrailing, dst', new) ∧
        n + ntrailing ≤ dst'.length ∧
        Updated target mirror 0 (withEnd task.intervals mirror.length task.trailing) new ∧
        AppliedByBoth (dst'.take n) ((dst'.drop n).take ntrailing) mirror new := by
  constructor
  · intro damagedEnd intervals base changed hlen hin
    obtain ⟨diff, tail, new, hrun, htailed, hupdated⟩ := constructDiff_spec damagedEnd hlen hin
    exact ⟨diff, tail, new, hrun, hupdated, htailed.appliedByBoth⟩
  · intro task dst target mirror hlen htask hdst
    obtain ⟨n, ntrailing, dst', new, hrun, hle, htailed, hupdated⟩ := diffInner_spec hlen htask hdst
    exact ⟨n, ntrailing, dst', new, hrun, hle, hupdated, htailed.appliedByBoth⟩

/-- One word and a byte that trails, and one line and such a byte. -/
theorem diffs_interoperate_byte :
    (∃ diff tail new, constructDiff true [(0, 8)] 9 (replicate 9 0) (replicate 9 1) =
        some (diff, tail, new) ∧
      Updated (replicate 9 1) (replicate 9 0) 0 (withEnd [(0, 8)] 9 1) new ∧
      AppliedByBoth diff tail (replicate 9 0) new) ∧
    ∃ n ntrailing dst' new,
      diffInner ⟨1, .none, some (0, 64), [(0, 64)], 1⟩ (replicate 73 0) (replicate 65 1)
        (replicate 65 0) = .ok (n, ntrailing, dst', new) ∧ n + ntrailing ≤ dst'.length ∧
      Updated (replicate 65 1) (replicate 65 0) 0 (withEnd [(0, 64)] 65 1) new ∧
      AppliedByBoth (dst'.take n) ((dst'.drop n).take ntrailing) (replicate 65 0) new := by
  constructor
  · refine diffs_interoperate.1 true [(0, 8)] (replicate 9 0) (replicate 9 1) rfl ?_
    intro e he
    rw [mem_singleton.mp he]
    exact ⟨rfl, rfl, by decide, by decide⟩
  · refine diffs_interoperate.2 ⟨1, .none, some (0, 64), [(0, 64)], 1⟩ (replicate 73 0)
      (replicate 65 1) (replicate 65 0) rfl ⟨?_, ?_, by decide⟩ (by decide)
    · intro h
      cases h
    · rintro start stop ⟨⟩
      refine ⟨rfl, rfl, by decide, by decide, ?_⟩
      intro i hi
      rw [mem_singleton.mp hi]
      decide

end Waypipe.C
