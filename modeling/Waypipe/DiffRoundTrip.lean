import Waypipe.DiffSpans
import Waypipe.ApplyOrder

/-!
# A diff and its application

What `construct_diff` finds is what `apply_diff` and `apply_diff_one` write.
`foldlM_diffInterval_spec` follows the kernel over the intervals; `applySpans_spec` runs the decoder
on the encoding of any list of spans; `constructDiff_roundTrip` puts the two together.
-/

namespace Waypipe

open LeBytes Patch Writes Waypipe.Span List

variable {i : Nat × Nat} {w : Span → List (Loc × UInt8)} {out free : List UInt8}

/-! ## Several intervals -/

/-- The interval lies in the target and in the reference, which starts at `referenceBase`. -/
structure IntervalIn (target reference : List UInt8) (referenceBase : Nat) (i : Nat × Nat) :
    Prop where
  lt : i.1 < i.2
  aligned_start : i.1 % 64 = 0
  aligned_stop : i.2 % 64 = 0
  base_le : referenceBase ≤ i.1
  le_reference : i.2 ≤ referenceBase + reference.length
  le_target : i.2 ≤ target.length
  -- The ends of an interval are `u32`.
  small : i.2 < 2 ^ 32

/-- The offset is in one of the intervals. -/
def InIntervals (intervals : List (Nat × Nat)) (x : Nat) : Prop :=
  ∃ i ∈ intervals, i.1 ≤ x ∧ x < i.2

instance (intervals : List (Nat × Nat)) (x : Nat) : Decidable (InIntervals intervals x) :=
  inferInstanceAs (Decidable (∃ i ∈ intervals, i.1 ≤ x ∧ x < i.2))

theorem inIntervals_cons {intervals : List (Nat × Nat)} {x : Nat} :
    InIntervals (i :: intervals) x ↔ (i.1 ≤ x ∧ x < i.2) ∨ InIntervals intervals x := by
  simp only [InIntervals, mem_cons, exists_eq_or_imp]

theorem inIntervals_append {l l' : List (Nat × Nat)} {x : Nat} :
    InIntervals (l ++ l') x ↔ InIntervals l x ∨ InIntervals l' x := by
  simp only [InIntervals, mem_append, or_and_right, exists_or]

theorem not_inIntervals_nil (x : Nat) : ¬ InIntervals [] x := by
  rintro ⟨i, hi, -⟩
  cases hi

/-- A diff buffer of this size is enough. -/
def diffSpace (intervals : List (Nat × Nat)) : Nat := (intervals.map fun i => i.2 - i.1 + 8).sum

/-- Some bytes of a list are replaced by as many others. -/
theorem getElem?_splice {l mid : List UInt8} {lo hi : Nat} (hlo : lo ≤ hi) (hhi : hi ≤ l.length)
    (hmid : mid.length = hi - lo) (x : Nat) :
    (l.take lo ++ mid ++ l.drop hi)[x]? = if lo ≤ x ∧ x < hi then mid[x - lo]? else l[x]? := by
  have htake : (l.take lo).length = lo := by
    rw [length_take]
    omega
  by_cases hx : x < lo
  · rw [if_neg (by omega), append_assoc, getElem?_append_left (by omega), getElem?_take_of_lt hx]
  · by_cases hx' : x < hi
    · rw [if_pos (by omega), getElem?_append_left (by rw [length_append]; omega),
        getElem?_append_right (by omega), htake]
    · rw [if_neg (by omega), getElem?_append_right (by rw [length_append]; omega),
        length_append, htake, hmid, getElem?_drop]
      congr 1
      omega

section Intervals

variable {target : List UInt8} {referenceBase skipGapLen : Nat}

/-- The part of the target that an interval covers. -/
def part (target : List UInt8) (i : Nat × Nat) : List UInt8 := (target.drop i.1).take (i.2 - i.1)

theorem part_getElem? (i : Nat × Nat) {x : Nat} (hx : x < i.2 - i.1) :
    (part target i)[x]? = target[i.1 + x]? := by
  unfold part
  rw [getElem?_take_of_lt hx, getElem?_drop]

theorem length_part (h : i.2 ≤ target.length) :
    (part target i).length = i.2 - i.1 := by
  unfold part
  rw [length_take, length_drop]
  omega

/-- A diff for a part of a reference is one for the whole reference. -/
theorem DiffOf.splice {out reference mid : List UInt8} {lo hi : Nat} (hbase : referenceBase ≤ lo)
    (hle : lo ≤ hi) (href : hi ≤ referenceBase + reference.length)
    (h : DiffOf out lo ((reference.drop (lo - referenceBase)).take (hi - lo)) mid) :
    DiffOf out referenceBase reference
      (reference.take (lo - referenceBase) ++ mid ++ reference.drop (hi - referenceBase)) := by
  have hmid : lo = referenceBase + (reference.take (lo - referenceBase)).length := by
    rw [length_take]
    omega
  rw [hmid] at h
  have hwhole := ((DiffOf.nil referenceBase (reference.take (lo - referenceBase))).append h).append
    (DiffOf.nil _ (reference.drop (hi - referenceBase)))
  rw [← hmid, nil_append, append_nil, ← take_add,
    show lo - referenceBase + (hi - lo) = hi - referenceBase by omega,
    take_append_drop] at hwhole
  exact hwhole

/-- One round of `construct_diff` runs the kernel on the parts of the target and of the reference that
the interval covers. -/
theorem diffInterval_run (hskip : 16 ≤ skipGapLen) (hbase : referenceBase % 64 = 0)
    {p : DiffProgress} (hdiff : p.diff = out ++ free)
    (hout : p.outputLen = out.length) (hwhole : out.length % 4 = 0)
    (hi : IntervalIn target p.reference referenceBase i) (hfree : i.2 - i.1 + 8 ≤ free.length) :
    ∃ r, Encoded free i.1 ((p.reference.drop (i.1 - referenceBase)).take (i.2 - i.1))
        (part target i) r ∧
      diffInterval target referenceBase skipGapLen p i = .ok {
        outputLen := out.length + r.1
        diff := out ++ r.2.1
        reference := p.reference.take (i.1 - referenceBase) ++ r.2.2 ++
          p.reference.drop (i.2 - referenceBase) } := by
  obtain ⟨hlt, ha, hb, hle, href, htarget, hsmall⟩ := hi
  have hvalues : slice (target.take (4 * (target.length / 4))) (4 * (i.1 / 4)) (4 * (i.2 / 4)) =
      .ok (part target i) := by
    rw [slice_of_le (by rw [length_take]; omega), show 4 * (i.1 / 4) = i.1 by omega,
      show 4 * (i.2 / 4) = i.2 by omega, drop_take, take_take, Nat.min_eq_left (by omega)]
    rfl
  have hrefvals : slice p.reference (i.1 - referenceBase) (i.2 - referenceBase) =
      .ok ((p.reference.drop (i.1 - referenceBase)).take (i.2 - i.1)) := by
    rw [slice_of_le (by omega), show i.2 - referenceBase - (i.1 - referenceBase) = i.2 - i.1 by omega]
  have hlen := length_part htarget
  have hlen' : ((p.reference.drop (i.1 - referenceBase)).take (i.2 - i.1)).length = i.2 - i.1 := by
    rw [length_take, length_drop]
    omega
  obtain ⟨lines, hnew, hnewOf, holdOf⟩ := newIterator_ok (hlen.trans hlen'.symm) (by omega)
  have hlines := length_newOf lines
  rw [hnewOf, hlen] at hlines
  obtain ⟨r, hrun, henc⟩ := constructDiffSegmentTwoIter_spec hskip
    (show i.1 % 4 = 0 by omega) (by omega) (by omega) (show 64 * lines.length + 8 ≤ free.length by omega)
  rw [hnewOf, holdOf] at henc
  refine ⟨r, henc, ?_⟩
  unfold diffInterval
  rw [assert_of (by simp [ha, hb]), Res.ok_bind, assert_of (by simp [hle, hlt]), Res.ok_bind,
    assert_of (by rw [hdiff, hout]; simp), Res.ok_bind]
  simp only [hvalues, hrefvals, Res.ok_bind]
  rw [assert_of (by simp only [beq_iff_eq]; omega), Res.ok_bind, hnew, Res.ok_bind,
    assert_of (by simp only [beq_iff_eq]; omega), Res.ok_bind, hdiff, hout, drop_left,
    take_left, hrun]
  rfl

/-- What one round of `construct_diff` adds to the diff, and what it does to the reference. -/
theorem diffInterval_spec (hskip : 16 ≤ skipGapLen) (hbase : referenceBase % 64 = 0)
    {p : DiffProgress} (hdiff : p.diff = out ++ free)
    (hout : p.outputLen = out.length) (hwhole : out.length % 4 = 0)
    (hi : IntervalIn target p.reference referenceBase i) (hfree : i.2 - i.1 + 8 ≤ free.length) :
    ∃ p' out' free', diffInterval target referenceBase skipGapLen p i = .ok p' ∧
      p'.diff = out ++ out' ++ free' ∧ p'.outputLen = (out ++ out').length ∧
      out'.length + free'.length = free.length ∧ out'.length ≤ i.2 - i.1 + 8 ∧
      DiffOf out' referenceBase p.reference p'.reference ∧
      p'.reference = p.reference.take (i.1 - referenceBase) ++ part target i ++
        p.reference.drop (i.2 - referenceBase) ∧
      ((p.reference.drop (i.1 - referenceBase)).take (i.2 - i.1) = part target i → out' = []) := by
  obtain ⟨⟨n, buf, refvals⟩, henc, hrun⟩ := diffInterval_run hskip hbase hdiff hout hwhole hi hfree
  obtain ⟨hbuf, hle, ⟨out', free', hbuf', hn, hdiffOf⟩, hrefvals, hnone⟩ := henc
  dsimp only at hbuf hle hbuf' hn hrefvals hnone
  have hlen := length_part hi.le_target
  refine ⟨_, out', free', hrun, ?_, ?_, ?_, by omega, ?_, ?_, ?_⟩
  · rw [hbuf', ← append_assoc]
  · rw [length_append, hn]
  · rw [← hbuf, hbuf', length_append]
  · rw [hrefvals]
    exact hdiffOf.splice hi.base_le hi.lt.le hi.le_reference
  · rw [hrefvals]
  · intro heq
    exact eq_nil_of_length_eq_zero (by rw [← hn, hnone heq])

/-- The reference after some intervals have been compared. -/
structure Updated (target reference : List UInt8) (referenceBase : Nat)
    (intervals : List (Nat × Nat)) (reference' : List UInt8) : Prop where
  length_eq : reference'.length = reference.length
  getElem? : ∀ x, reference'[x]? =
    if InIntervals intervals (referenceBase + x) then target[referenceBase + x]? else reference[x]?

theorem updated_part {reference : List UInt8} (hlt : i.1 ≤ i.2)
    (hle : referenceBase ≤ i.1) (href : i.2 ≤ referenceBase + reference.length)
    (htarget : i.2 ≤ target.length) :
    Updated target reference referenceBase [i] (reference.take (i.1 - referenceBase) ++
      part target i ++ reference.drop (i.2 - referenceBase)) := by
  have hlen := length_part htarget
  constructor
  · simp only [length_append, length_take, length_drop]
    omega
  · intro x
    rw [getElem?_splice (by omega) (by omega) (by omega)]
    by_cases hx : i.1 ≤ referenceBase + x ∧ referenceBase + x < i.2
    · rw [if_pos (by omega), if_pos ⟨i, mem_singleton_self i, hx⟩, part_getElem? i (by omega)]
      congr 1
      omega
    · rw [if_neg (by omega), if_neg]
      rw [inIntervals_cons]
      exact fun h => h.elim hx (not_inIntervals_nil _)

namespace Updated

variable {reference mid new : List UInt8} {intervals intervals' : List (Nat × Nat)}

theorem append (h : Updated target reference referenceBase intervals mid)
    (h' : Updated target mid referenceBase intervals' new) :
    Updated target reference referenceBase (intervals ++ intervals') new := by
  refine ⟨h'.length_eq.trans h.length_eq, ?_⟩
  intro x
  rw [h'.getElem?, h.getElem?]
  by_cases hx : InIntervals intervals' (referenceBase + x)
  · rw [if_pos hx, if_pos (inIntervals_append.mpr (.inr hx))]
  · rw [if_neg hx]
    by_cases hi : InIntervals intervals (referenceBase + x)
    · rw [if_pos hi, if_pos (inIntervals_append.mpr (.inl hi))]
    · rw [if_neg hi, if_neg fun h => (inIntervals_append.mp h).elim hi hx]

/-- If the target is what the reference was, the reference has not changed. -/
theorem eq_self (h : Updated target reference referenceBase intervals new)
    (hsame : ∀ x, InIntervals intervals (referenceBase + x) →
      reference[x]? = target[referenceBase + x]?) : new = reference := by
  apply ext_getElem?
  intro x
  rw [h.getElem?]
  split
  · next hx => exact (hsame x hx).symm
  · rfl

end Updated

/-- The part of the reference that an interval covers is that of the target, if it is byte by
byte. -/
theorem take_drop_eq_part {reference : List UInt8} (hle : referenceBase ≤ i.1)
    (hsame : ∀ x, i.1 ≤ referenceBase + x ∧ referenceBase + x < i.2 →
      reference[x]? = target[referenceBase + x]?) :
    (reference.drop (i.1 - referenceBase)).take (i.2 - i.1) = part target i := by
  apply ext_getElem?
  intro x
  unfold part
  by_cases hx : x < i.2 - i.1
  · rw [getElem?_take_of_lt hx, getElem?_take_of_lt hx, getElem?_drop,
      getElem?_drop, hsame _ (by omega)]
    congr 1
    omega
  · rw [getElem?_take_eq_none (by omega), getElem?_take_eq_none (by omega)]

/-- The loop of `construct_diff`, by induction on the intervals. -/
theorem foldlM_diffInterval_spec (hskip : 16 ≤ skipGapLen) (hbase : referenceBase % 64 = 0)
    (intervals : List (Nat × Nat)) {p : DiffProgress}
    (hdiff : p.diff = out ++ free) (hout : p.outputLen = out.length) (hwhole : out.length % 4 = 0)
    (hin : ∀ i ∈ intervals, IntervalIn target p.reference referenceBase i)
    (hfree : diffSpace intervals ≤ free.length) :
    ∃ p' out' free', intervals.foldlM (diffInterval target referenceBase skipGapLen) p = .ok p' ∧
      p'.diff = out ++ out' ++ free' ∧ p'.outputLen = (out ++ out').length ∧
      out'.length + free'.length = free.length ∧ out'.length ≤ diffSpace intervals ∧
      DiffOf out' referenceBase p.reference p'.reference ∧
      Updated target p.reference referenceBase intervals p'.reference ∧
      ((∀ x, InIntervals intervals (referenceBase + x) →
        p.reference[x]? = target[referenceBase + x]?) → out' = []) := by
  induction intervals generalizing p out free with
  | nil =>
    refine ⟨p, [], free, rfl, ?_, ?_, by simp, Nat.zero_le _, DiffOf.nil _ _, ⟨rfl, ?_⟩,
      fun _ => rfl⟩
    · rw [hdiff, append_nil]
    · rw [hout, append_nil]
    · intro x
      rw [if_neg (not_inIntervals_nil _)]
  | cons i intervals ih =>
    have hspace : diffSpace (i :: intervals) = i.2 - i.1 + 8 + diffSpace intervals := rfl
    have hi := hin i mem_cons_self
    obtain ⟨p₁, out₁, free₁, hrun, hdiff₁, hout₁, hlen₁, hle₁, hdiffOf₁, href₁, hnone₁⟩ :=
      diffInterval_spec hskip hbase hdiff hout hwhole hi (by omega)
    have hupdated₁ : Updated target p.reference referenceBase [i] p₁.reference := by
      rw [href₁]
      exact updated_part hi.lt.le hi.base_le hi.le_reference hi.le_target
    have hin₁ : ∀ j ∈ intervals, IntervalIn target p₁.reference referenceBase j := by
      intro j hj
      obtain ⟨h1, h2, h3, h4, h5, h6, h7⟩ := hin j (mem_cons_of_mem i hj)
      exact ⟨h1, h2, h3, h4, by rw [hupdated₁.length_eq]; exact h5, h6, h7⟩
    have hwhole₁ : (out ++ out₁).length % 4 = 0 := by
      have := hdiffOf₁.length_mod
      rw [length_append]
      omega
    obtain ⟨p', out', free', hruns, hdiff', hout', hlen', hle', hdiffOf', hupdated', hnone'⟩ :=
      ih hdiff₁ hout₁ hwhole₁ hin₁ (by omega)
    refine ⟨p', out₁ ++ out', free', ?_, ?_, ?_, ?_, ?_, hdiffOf₁.trans hdiffOf',
      hupdated₁.append hupdated', ?_⟩
    · rw [foldlM_cons, hrun]
      exact hruns
    · rw [hdiff', ← append_assoc out]
    · rw [hout', ← append_assoc out]
    · rw [length_append]
      omega
    · rw [length_append]
      omega
    · intro hsame
      have hsame₁ : ∀ x, InIntervals [i] (referenceBase + x) →
          p.reference[x]? = target[referenceBase + x]? := by
        intro x hx
        apply hsame x
        rcases inIntervals_cons.mp hx with hx | hx
        · exact inIntervals_cons.mpr (.inl hx)
        · exact absurd hx (not_inIntervals_nil _)
      have hpart := take_drop_eq_part hi.base_le fun x hx => hsame x (inIntervals_cons.mpr (.inl hx))
      have hself : p₁.reference = p.reference := hupdated₁.eq_self hsame₁
      rw [hnone₁ hpart, hnone']
      · rfl
      · intro x hx
        rw [hself]
        exact hsame x (inIntervals_cons.mpr (.inr hx))

end Intervals

/-! ## Writes to a file or its mirror -/

/-- What a memory has for the file, or for its mirror. -/
def contents (mem : Loc → UInt8) (sfd : SfdRef) (inMirror : Bool) : Nat → UInt8 :=
  fun offset => mem { sfd, inMirror, offset }

theorem writesAt_cons (sfd : SfdRef) (inMirror : Bool) (start : Nat) (b : UInt8)
    (bytes : List UInt8) : writesAt sfd inMirror start (b :: bytes) =
      ({ sfd, inMirror, offset := start }, b) :: writesAt sfd inMirror (start + 1) bytes := by
  unfold writesAt
  rw [zipIdx_cons, map_cons, zipIdx_succ, map_map]
  congr 1
  apply map_congr_left
  intro e _
  simp only [Function.comp_apply, Prod.mk.injEq, Loc.mk.injEq, and_true, true_and]
  omega

section Contents

variable (sfd : SfdRef) (inMirror : Bool) (mem : Loc → UInt8)

/-- Writing bytes to a file is applying a segment to its contents. -/
theorem contents_writesAt (start : Nat) (bytes : List UInt8) :
    contents (writeAll mem (writesAt sfd inMirror start bytes)) sfd inMirror =
      Segment.apply ⟨start, bytes⟩ (contents mem sfd inMirror) := by
  induction bytes generalizing start mem with
  | nil => rw [Segment.apply_nil]; rfl
  | cons b bytes ih =>
    rw [writesAt_cons, Segment.apply_cons]
    refine (ih (write mem _) (start + 1)).trans ?_
    congr 1
    funext x
    by_cases hx : x = start
    · subst hx
      rw [Function.update_self]
      exact Function.update_self ..
    · rw [Function.update_of_ne hx]
      apply Function.update_of_ne
      intro heq
      exact hx (congrArg Loc.offset heq)

variable {sfd inMirror}

theorem contents_writesAt_other {sfd' : SfdRef} {inMirror' : Bool}
    (hne : (sfd', inMirror') ≠ (sfd, inMirror)) (start : Nat) (bytes : List UInt8) :
    contents (writeAll mem (writesAt sfd inMirror start bytes)) sfd' inMirror' =
      contents mem sfd' inMirror' := by
  induction bytes generalizing start mem with
  | nil => rfl
  | cons b bytes ih =>
    rw [writesAt_cons]
    refine (ih (write mem _) (start + 1)).trans ?_
    funext x
    apply Function.update_of_ne
    intro heq
    cases heq
    exact hne rfl

/-- The writes of several spans, when each is applied as a segment. -/
theorem contents_flatMap
    (hw : ∀ mem s, contents (writeAll mem (w s)) sfd inMirror =
      s.segment.apply (contents mem sfd inMirror)) (spans : List Span) :
    contents (writeAll mem (spans.flatMap w)) sfd inMirror =
      applyAll (spans.map segment) (contents mem sfd inMirror) := by
  induction spans generalizing mem with
  | nil => rfl
  | cons s spans ih =>
    rw [flatMap_cons, writeAll_append, ih, hw, map_cons, applyAll_cons]

theorem contents_flatMap_other
    (hw : ∀ mem s, contents (writeAll mem (w s)) sfd inMirror = contents mem sfd inMirror)
    (spans : List Span) :
    contents (writeAll mem (spans.flatMap w)) sfd inMirror = contents mem sfd inMirror := by
  induction spans generalizing mem with
  | nil => rfl
  | cons s spans ih => rw [flatMap_cons, writeAll_append, ih, hw]

end Contents

/-! ## The decoder -/

theorem readU32_append {l r : List UInt8} {n pos : Nat} (hpos : pos = l.length) (hn : n < 2 ^ 32) :
    readU32 (l ++ u32le n ++ r) pos = .ok n := by
  subst hpos
  unfold readU32
  rw [slice_of_le (by simp only [length_append, length_u32le]; omega), append_assoc,
    drop_left, Nat.add_sub_cancel_left, take_append_of_le_length (by simp),
    take_of_length_le (by simp)]
  exact congrArg Except.ok (leNat_leBytes_of_lt (by omega))

/-- The ends of a span, where it is in a diff. -/
theorem Span.readU32_ends (s : Span) (pre rest : List UInt8) :
    readU32 (pre ++ (s.bytes ++ rest)) pre.length = .ok s.start ∧
      readU32 (pre ++ (s.bytes ++ rest)) (pre.length + 4) = .ok s.stop := by
  have hs : s.stop < 2 ^ 32 := s.small
  have hle : s.start ≤ s.stop := Nat.le_add_right _ _
  constructor
  · rw [bytes, append_assoc, append_assoc, ← append_assoc pre]
    exact readU32_append rfl (by omega)
  · rw [bytes, append_assoc, append_assoc, ← append_assoc pre,
      ← append_assoc (pre ++ u32le s.start)]
    exact readU32_append (by simp) hs

/-- The decoder reads back a list of spans, if its check accepts them; `w` is what it writes for a
span. -/
theorem applySpans_spec {check : Nat → Nat → Nat → Res Unit}
    {write : Nat → List UInt8 → Writer Unit} {limit : Nat}
    (spans : List Span) (pre rest diff : List UInt8) (rounds : Nat) (log : List (Loc × UInt8))
    (hdiff : diff = pre ++ (spans.flatMap bytes ++ rest))
    (hlimit : limit = pre.length + (spans.flatMap bytes).length) (hrounds : spans.length ≤ rounds)
    (hcheck : ∀ s ∈ spans, ∀ pos, pos + 8 + 4 * (s.stop - s.start) ≤ limit →
      check pos s.start s.stop = .ok ())
    (hwrite : ∀ s ∈ spans, ∀ log, (write (s.start * 4) s.data).exec log = (.ok (), log ++ w s)) :
    (applySpans diff limit check write rounds pre.length).exec log =
      (.ok (), log ++ spans.flatMap w) := by
  induction spans generalizing pre rounds log with
  | nil =>
    have hend : ¬ pre.length < limit := by simp [hlimit]
    rw [flatMap_nil, append_nil]
    cases rounds with
    | zero => rfl
    | succ rounds =>
      unfold applySpans
      rw [if_neg hend]
      rfl
  | cons s spans ih =>
    obtain ⟨rounds, rfl⟩ : ∃ k, rounds = k + 1 := ⟨rounds - 1, by rw [length_cons] at hrounds; omega⟩
    have hstop := s.four_mul_stop
    have hlen := s.length_bytes
    have hs : s.stop < 2 ^ 32 := s.small
    have hpos := s.nonempty
    rw [flatMap_cons, append_assoc] at hdiff
    rw [flatMap_cons, length_append] at hlimit
    have hfits : limit ≤ diff.length := by
      rw [hlimit, hdiff]
      simp only [length_append]
      omega
    have hwords : 4 * (s.stop - s.start) = s.data.length := by omega
    obtain ⟨hstart, hend⟩ := hdiff ▸ s.readU32_ends pre (spans.flatMap bytes ++ rest)
    have hdata : slice diff (pre.length + 8) (pre.length + 8 + 4 * (s.stop - s.start)) =
        .ok s.data := by
      rw [slice_of_le (by omega), hwords, Nat.add_sub_cancel_left, hdiff, bytes,
        append_assoc _ s.data, ← append_assoc pre,
        show pre.length + 8 = (pre ++ (u32le s.start ++ u32le s.stop)).length by simp,
        drop_left, take_left]
    unfold applySpans
    rw [if_pos (by omega), hstart, Eff.ofExcept_ok_bind, hend, Eff.ofExcept_ok_bind,
      hcheck s mem_cons_self _ (by omega), Eff.ofExcept_ok_bind, hdata, Eff.ofExcept_ok_bind]
    have hnext : pre.length + 8 + 4 * (s.stop - s.start) = (pre ++ s.bytes).length := by
      rw [length_append]
      omega
    have hrest := ih (pre ++ s.bytes) rounds (log ++ w s) (by rw [hdiff, append_assoc])
      (by rw [hlimit, length_append]; omega) (by rw [length_cons] at hrounds; omega)
      (fun t ht => hcheck t (mem_cons_of_mem s ht))
      (fun t ht => hwrite t (mem_cons_of_mem s ht))
    rw [← hnext] at hrest
    rw [Eff.exec_bind, hwrite s mem_cons_self]
    dsimp only
    rw [hrest, flatMap_cons, append_assoc]

theorem length_le_flatMap_bytes (spans : List Span) :
    4 * spans.length ≤ (spans.flatMap bytes).length := by
  induction spans with
  | nil => exact Nat.le_refl 0
  | cons s spans ih =>
    rw [flatMap_cons, length_append, s.length_bytes, length_cons]
    omega

/-- The loop of the decoder as it is called. -/
theorem applySpans_all {check : Nat → Nat → Nat → Res Unit}
    {write : Nat → List UInt8 → Writer Unit} (w : Span → List (Loc × UInt8)) (spans : List Span)
    (log : List (Loc × UInt8))
    (hcheck : ∀ s ∈ spans, ∀ pos,
      pos + 8 + 4 * (s.stop - s.start) ≤ 4 * ((spans.flatMap bytes).length / 4) →
      check pos s.start s.stop = .ok ())
    (hwrite : ∀ s ∈ spans, ∀ log, (write (s.start * 4) s.data).exec log = (.ok (), log ++ w s)) :
    (applySpans (spans.flatMap bytes) (4 * ((spans.flatMap bytes).length / 4)) check write
      (spans.flatMap bytes).length 0).exec log = (.ok (), log ++ spans.flatMap w) := by
  have hmod := length_flatMap_bytes_mod spans
  have hcount := length_le_flatMap_bytes spans
  exact applySpans_spec spans [] [] _ _ log (by simp) (by rw [length_nil]; omega) (by omega)
    hcheck hwrite

section Decode

variable {m : MirrorRange} {spans : List Span}

theorem exec_copy {start : Nat} {bytes : List UInt8} (hlo : m.start ≤ start)
    (hhi : start + bytes.length ≤ m.start + m.len) (log : List (Loc × UInt8)) :
    (m.copy start bytes).exec log = (.ok (), log ++ writesAt m.sfd true start bytes) := by
  unfold MirrorRange.copy
  rw [checkedSub_of_le hlo, Eff.ofExcept_ok_bind, assert_of (decide_eq_true (by omega)),
    Eff.ofExcept_ok_bind]
  rfl

variable (hspans : ∀ s ∈ spans, m.start ≤ 4 * s.start ∧ 4 * s.stop ≤ m.start + m.len)
include hspans

/-- `apply_diff` on the encoding of spans that lie in the file and in the part of the mirror. -/
theorem applyDiff_spec {size : Nat} (hsize : m.start + m.len ≤ size) (log : List (Loc × UInt8)) :
    (applyDiff (spans.flatMap bytes) 0 size m).exec log =
      (.ok (), log ++ spans.flatMap fun s =>
        writesAt m.sfd true (4 * s.start) s.data ++ writesAt m.sfd false (4 * s.start) s.data) := by
  have hmod := length_flatMap_bytes_mod spans
  unfold applyDiff
  rw [checkedSub_of_le (Nat.zero_le _), Eff.ofExcept_ok_bind, Nat.sub_zero,
    assert_of (beq_iff_eq.mpr hmod), Eff.ofExcept_ok_bind, Eff.exec_bind,
    applySpans_all (fun s => writesAt m.sfd true (4 * s.start) s.data ++
      writesAt m.sfd false (4 * s.start) s.data) spans log]
  · rfl
  · intro s hs pos hpos
    have := hspans s hs
    have := s.four_mul_stop
    have := s.nonempty
    exact if_neg (by omega)
  · intro s hs log
    have hin := hspans s hs
    have := s.four_mul_stop
    rw [Nat.mul_comm s.start 4, Eff.exec_bind, exec_copy hin.1 (by omega)]
    show (Except.ok (), _) = _
    rw [← append_assoc]

/-- `apply_diff_one` on the encoding of spans that lie in the part of the mirror. -/
theorem applyDiffOne_spec (log : List (Loc × UInt8)) :
    (applyDiffOne (spans.flatMap bytes) 0 m).exec log =
      (.ok (), log ++ spans.flatMap fun s => writesAt m.sfd true (4 * s.start) s.data) := by
  have hmod := length_flatMap_bytes_mod spans
  unfold applyDiffOne
  rw [checkedSub_of_le (Nat.zero_le _), Eff.ofExcept_ok_bind, Nat.sub_zero,
    assert_of (beq_iff_eq.mpr hmod), Eff.ofExcept_ok_bind, Eff.exec_bind,
    applySpans_all (fun s => writesAt m.sfd true (4 * s.start) s.data) spans log]
  · rfl
  · intro s hs pos hpos
    have := hspans s hs
    have := s.four_mul_stop
    have := s.nonempty
    exact if_neg (by omega)
  · intro s hs log
    have hin := hspans s hs
    have := s.four_mul_stop
    rw [Nat.mul_comm s.start 4, exec_copy hin.1 (by omega)]

end Decode

section Apply

variable {out old new : List UInt8} {a : Nat} {sfd : SfdRef} {mem : Loc → UInt8}

/-- `apply_diff` on a file and a mirror that have the old values, location by location. -/
theorem DiffOf.exec_applyDiff (h : DiffOf out a old new) {size : Nat} (hsize : a + old.length ≤ size)
    (hmem : ∀ inMirror, Holds (contents mem sfd inMirror) a old) :
    ∃ ws, (applyDiff out 0 size ⟨sfd, a, old.length⟩).exec [] = (.ok (), ws) ∧
      ∀ l : Loc, writeAll mem ws l =
        if l.sfd = sfd then Segment.apply ⟨a, new⟩ (contents mem sfd l.inMirror) l.offset
        else mem l := by
  obtain ⟨spans, rfl, hspans, hturns⟩ := h
  rw [← hturns.length_eq] at hspans
  refine ⟨_, applyDiff_spec hspans hsize [], ?_⟩
  rintro ⟨sfd', inMirror, x⟩
  rw [nil_append]
  show contents (writeAll mem _) sfd' inMirror x = if sfd' = sfd then _ else _
  by_cases hsfd : sfd' = sfd
  · subst hsfd
    rw [if_pos rfl, contents_flatMap mem, hturns.applyAll_eq (hmem inMirror)]
    intro mem s
    rw [writeAll_append]
    cases inMirror with
    | true =>
      rw [contents_writesAt_other _ (by simp), contents_writesAt]
      rfl
    | false =>
      rw [contents_writesAt, contents_writesAt_other _ (by simp)]
      rfl
  · rw [if_neg hsfd, contents_flatMap_other mem]
    · rfl
    · intro mem s
      have hne : ∀ b, (sfd', inMirror) ≠ (sfd, b) := fun b heq => hsfd (congrArg Prod.fst heq)
      rw [writeAll_append, contents_writesAt_other _ (hne _), contents_writesAt_other _ (hne _)]

/-- `apply_diff_one` on a mirror that has the old values, location by location. -/
theorem DiffOf.exec_applyDiffOne (h : DiffOf out a old new)
    (hmem : Holds (contents mem sfd true) a old) :
    ∃ ws, (applyDiffOne out 0 ⟨sfd, a, old.length⟩).exec [] = (.ok (), ws) ∧
      ∀ l : Loc, writeAll mem ws l =
        if l.sfd = sfd ∧ l.inMirror = true then
          Segment.apply ⟨a, new⟩ (contents mem sfd true) l.offset
        else mem l := by
  obtain ⟨spans, rfl, hspans, hturns⟩ := h
  rw [← hturns.length_eq] at hspans
  refine ⟨_, applyDiffOne_spec hspans [], ?_⟩
  rintro ⟨sfd', inMirror, x⟩
  rw [nil_append]
  show contents (writeAll mem _) sfd' inMirror x = if sfd' = sfd ∧ inMirror = true then _ else _
  by_cases hsame : sfd' = sfd ∧ inMirror = true
  · obtain ⟨rfl, rfl⟩ := hsame
    rw [if_pos ⟨rfl, rfl⟩, contents_flatMap mem, hturns.applyAll_eq hmem]
    intro mem s
    exact contents_writesAt ..
  · rw [if_neg hsame, contents_flatMap_other mem]
    · rfl
    · intro mem s
      exact contents_writesAt_other _ (fun heq => hsame (Prod.mk.inj heq)) _ _

end Apply

/-! ## Round trip -/

/-- What is required of a diff: the buffer keeps its size, the reference becomes the target on the
intervals, and applying the diff to a file and a mirror that have the old reference makes the same
change to them and none elsewhere. -/
structure DiffCorrect (diff target reference : List UInt8) (referenceBase : Nat)
    (intervals : List (Nat × Nat)) (p : DiffProgress) : Prop where
  length_diff : p.diff.length = diff.length
  outputLen_le : p.outputLen ≤ diff.length
  updated : Updated target reference referenceBase intervals p.reference
  unchanged : (∀ x, InIntervals intervals (referenceBase + x) →
    reference[x]? = target[referenceBase + x]?) → p.outputLen = 0
  apply : ∀ (sfd : SfdRef) (size : Nat) (mem : Loc → UInt8),
    referenceBase + reference.length ≤ size →
    (∀ inMirror, Holds (contents mem sfd inMirror) referenceBase reference) →
    ∃ ws, (applyDiff (p.diff.take p.outputLen) 0 size
        ⟨sfd, referenceBase, reference.length⟩).exec [] = (.ok (), ws) ∧
      ∀ l : Loc, writeAll mem ws l = if l.sfd = sfd ∧ InIntervals intervals l.offset then
        (target[l.offset]?).getD 0 else mem l
  applyOne : ∀ (sfd : SfdRef) (mem : Loc → UInt8),
    Holds (contents mem sfd true) referenceBase reference →
    ∃ ws, (applyDiffOne (p.diff.take p.outputLen) 0
        ⟨sfd, referenceBase, reference.length⟩).exec [] = (.ok (), ws) ∧
      ∀ l : Loc, writeAll mem ws l =
        if l.sfd = sfd ∧ l.inMirror = true ∧ InIntervals intervals l.offset then
          (target[l.offset]?).getD 0 else mem l

/-- Writing the new reference over the old one changes what is in the intervals. -/
theorem Updated.apply_eq {target reference new : List UInt8} {referenceBase : Nat}
    {intervals : List (Nat × Nat)} (h : Updated target reference referenceBase intervals new)
    (hin : ∀ i ∈ intervals, IntervalIn target reference referenceBase i) {f : Nat → UInt8}
    (hf : Holds f referenceBase reference) (x : Nat) :
    Segment.apply ⟨referenceBase, new⟩ f x =
      if InIntervals intervals x then (target[x]?).getD 0 else f x := by
  have hlen := h.length_eq
  by_cases hx : referenceBase ≤ x ∧ x < referenceBase + new.length
  · obtain ⟨k, rfl⟩ : ∃ k, x = referenceBase + k := ⟨x - referenceBase, by omega⟩
    have hk : k < new.length := by omega
    have hget := h.getElem? k
    unfold Segment.apply
    rw [if_pos (Nat.le_add_right _ _), Nat.add_sub_cancel_left]
    rw [getElem?_eq_getElem hk] at hget ⊢
    split
    · next hk' =>
      rw [if_pos hk'] at hget
      rw [← hget]
      rfl
    · next hk' =>
      rw [if_neg hk'] at hget
      exact (hf k _ hget.symm).symm
  · have hout : ¬ InIntervals intervals x := by
      rintro ⟨i, hi, hlo, hhi⟩
      have hbase := (hin i hi).base_le
      have href := (hin i hi).le_reference
      omega
    rw [if_neg hout]
    by_cases hlt : x < referenceBase
    · exact Segment.apply_of_lt hlt
    · exact Segment.apply_of_ge (by show referenceBase + new.length ≤ x; omega)

/-- The diff of any intervals, for a diff buffer of `diffSpace` bytes or more. -/
theorem constructDiff_roundTrip (skipGapLen : Nat) (hskip : 16 ≤ skipGapLen)
    (diff target reference : List UInt8) (referenceBase : Nat) (hbase : referenceBase % 64 = 0)
    (intervals : List (Nat × Nat))
    (hin : ∀ i ∈ intervals, IntervalIn target reference referenceBase i)
    (hdiff : diffSpace intervals ≤ diff.length) :
    ∃ p, constructDiffWith skipGapLen diff target intervals reference referenceBase = .ok p ∧
      DiffCorrect diff target reference referenceBase intervals p := by
  obtain ⟨p, out, free, hrun, hbuf, hlen, hsize, -, hdiffOf, hupdated, hnone⟩ :=
    foldlM_diffInterval_spec hskip hbase intervals (nil_append diff).symm
      (show DiffProgress.outputLen { outputLen := 0, diff, reference } = _ from rfl) rfl hin hdiff
  rw [nil_append] at hbuf hlen
  have hout : p.diff.take p.outputLen = out := by
    rw [hbuf, hlen, take_left]
  refine ⟨p, hrun, ?_, by omega, hupdated, ?_, ?_, ?_⟩
  · rw [hbuf, length_append, hsize]
  · intro hsame
    rw [hlen, hnone hsame]
    rfl
  · intro sfd size mem hle hmem
    obtain ⟨ws, hexec, hws⟩ := hdiffOf.exec_applyDiff hle hmem
    refine ⟨ws, by rw [hout]; exact hexec, ?_⟩
    rintro ⟨sfd', inMirror, x⟩
    rw [hws]
    by_cases hsfd : sfd' = sfd
    · subst hsfd
      simp only [if_true, true_and]
      exact hupdated.apply_eq hin (hmem inMirror) x
    · rw [if_neg hsfd, if_neg fun h => hsfd h.1]
  · intro sfd mem hmem
    obtain ⟨ws, hexec, hws⟩ := hdiffOf.exec_applyDiffOne hmem
    refine ⟨ws, by rw [hout]; exact hexec, ?_⟩
    rintro ⟨sfd', inMirror, x⟩
    rw [hws]
    by_cases hsame : sfd' = sfd ∧ inMirror = true
    · obtain ⟨rfl, rfl⟩ := hsame
      simp only [and_self, if_true, true_and]
      exact hupdated.apply_eq hin hmem x
    · rw [if_neg hsame, if_neg fun h => hsame ⟨h.1, h.2.1⟩]

/-- Two intervals of a file of four lines, with a gap between them. -/
theorem constructDiff_roundTrip_two :
    ∃ p, constructDiffWith 16 (replicate 144 0) (replicate 256 1) [(0, 64), (128, 192)]
        (replicate 256 0) 0 = .ok p ∧
      DiffCorrect (replicate 144 0) (replicate 256 1) (replicate 256 0) 0
        [(0, 64), (128, 192)] p := by
  refine constructDiff_roundTrip 16 (by decide) _ _ _ 0 rfl _ ?_ (by simp [diffSpace])
  intro i hi
  simp only [mem_cons, not_mem_nil, or_false] at hi
  rcases hi with rfl | rfl <;>
    exact ⟨by decide, by decide, by decide, by decide, by rw [length_replicate]; decide,
      by rw [length_replicate]; decide, by decide⟩

end Waypipe
