import Mathlib.Algebra.BigOperators.Group.List.Basic
import Mathlib.Order.Interval.Set.LinearOrder
import Waypipe.Collect
import Waypipe.Lib.Loops
import Waypipe.UnionDamage

/-!
# Shards

Contents are sent in shards of at most `DIFF_CHUNKSIZE` bytes.  `splitDamage` cuts a list of damaged
intervals into shards that have nearly the same length (`splitDamage_partitions`), and whole buffers
are cut in the same way, with what is left after the last 64 bytes in the last shard.
-/

namespace Waypipe

open Intervals List

/-! ## Boundaries -/

/-- The boundaries are at equal distances, rounded down. -/
theorem splitInterval_eq {hi n i : Nat} (hn : 0 < n) (hn' : n < 2 ^ 15) (hhi : hi < 2 ^ 31) :
    splitInterval 0 hi n i = .ok (i * hi / n) := by
  unfold splitInterval
  rw [assert_of (by simp only [Nat.sub_zero, Bool.and_eq_true, decide_eq_true_eq]; omega)]
  have hsplit : i * hi = n * (i * (hi / n)) + i * (hi % n) := by
    calc i * hi = i * (n * (hi / n) + hi % n) := by rw [Nat.div_add_mod]
      _ = n * (i * (hi / n)) + i * (hi % n) := by rw [Nat.mul_add, Nat.mul_left_comm]
  show (.ok _ : Res Nat) = _
  rw [hsplit, Nat.mul_add_div hn]
  simp

/-- Number of shards for `len` blocks of 64 bytes. -/
def shardCount (len : Nat) : Nat := ceildiv len (DIFF_CHUNKSIZE / 64)

section shardCount

variable {len : Nat}

theorem shardCount_bounds : len ≤ 4096 * shardCount len ∧ 4096 * shardCount len < len + 4096 := by
  unfold shardCount ceildiv DIFF_CHUNKSIZE
  omega

theorem shardCount_pos (h : 0 < len) : 0 < shardCount len := by
  have := @shardCount_bounds len
  omega

/-- Each shard has at least one block, and at most 4096. -/
theorem shard_bounds (h : 0 < len) (i : Nat) :
    i * len / shardCount len < (i + 1) * len / shardCount len ∧
      (i + 1) * len / shardCount len ≤ i * len / shardCount len + 4096 := by
  have hpos := shardCount_pos h
  have hbounds := @shardCount_bounds len
  have hstep : (i + 1) * len = i * len + len := by rw [Nat.succ_mul]
  constructor
  · have hone : i * len / shardCount len + 1 = (i * len + shardCount len) / shardCount len := by
      rw [Nat.add_div_right _ hpos]
    rw [hstep, Nat.lt_iff_add_one_le, hone]
    exact Nat.div_le_div_right (by omega)
  · have hmany : i * len / shardCount len + 4096 =
        (i * len + shardCount len * 4096) / shardCount len := by
      rw [Nat.add_mul_div_left _ _ hpos]
    rw [hstep, hmany]
    exact Nat.div_le_div_right (by omega)

theorem last_boundary (h : 0 < len) : shardCount len * len / shardCount len = len :=
  Nat.mul_div_cancel_left len (shardCount_pos h)

end shardCount

/-! ## Intervals up to the last whole chunk -/

/-- What is in front of `limit` of an interval. -/
def clipInterval (limit : Nat) (x : Nat × Nat) : Option (Nat × Nat) :=
  if limit ≤ x.1 then none else some (x.1, min x.2 limit)

def clip (limit : Nat) (l : List (Nat × Nat)) : List (Nat × Nat) := l.filterMap (clipInterval limit)

def totalLength (l : List (Nat × Nat)) : Nat := (l.map fun x => x.2 - x.1).sum

section clip

variable {limit : Nat} {l l' : List (Nat × Nat)} {x : Nat × Nat}

theorem clip_cons_of_le (h : limit ≤ x.1) : clip limit (x :: l) = clip limit l := by
  simp [clip, clipInterval, h]

theorem clip_cons_of_lt (h : x.1 < limit) :
    clip limit (x :: l) = (x.1, min x.2 limit) :: clip limit l := by
  simp [clip, clipInterval, Nat.not_le.mpr h]

@[simp] theorem totalLength_cons : totalLength (x :: l) = (x.2 - x.1) + totalLength l := by
  simp [totalLength]

@[simp] theorem totalLength_nil : totalLength [] = 0 := rfl

theorem mem_clip {y : Nat × Nat} :
    y ∈ clip limit l ↔ ∃ x ∈ l, x.1 < limit ∧ y = (x.1, min x.2 limit) := by
  simp only [clip, clipInterval, mem_filterMap]
  constructor
  · rintro ⟨x, hx, h⟩
    split at h
    · cases h
    · next hlt =>
      cases h
      exact ⟨x, hx, Nat.lt_of_not_le hlt, rfl⟩
  · rintro ⟨x, hx, hlt, rfl⟩
    exact ⟨x, hx, by rw [if_neg (Nat.not_le.mpr hlt)]⟩

theorem points_clip : points (clip limit l) = points l ∩ {b | b < limit} := by
  ext b
  simp only [mem_points, Set.mem_inter_iff, Set.mem_ofPred_eq, mem_clip]
  constructor
  · rintro ⟨_, ⟨x, hx, hlt, rfl⟩, hb₁, hb₂⟩
    exact ⟨⟨x, hx, hb₁, by omega⟩, by omega⟩
  · rintro ⟨⟨x, hx, hb₁, hb₂⟩, hb⟩
    exact ⟨_, ⟨x, hx, by omega, rfl⟩, hb₁, by omega⟩

/-- Nothing that starts at the limit or later is left. -/
theorem clip_eq_nil (h : ∀ x ∈ l, limit ≤ x.1) : clip limit l = [] := by
  rw [eq_nil_iff_forall_not_mem]
  intro y hy
  obtain ⟨x, hx, hlt, -⟩ := mem_clip.mp hy
  exact absurd (h x hx) (Nat.not_le.mpr hlt)

theorem clip_spaced (h : Spaced 0 l) : Spaced 0 (clip limit l) := by
  induction l with
  | nil => exact .nil
  | cons x l ih =>
    obtain ⟨hx, hgap, hl⟩ := Spaced.cons_iff.mp h
    by_cases hlt : x.1 < limit
    · rw [clip_cons_of_lt hlt]
      refine Spaced.cons_iff.mpr ⟨lt_min hx hlt, fun y hy => ?_, ih hl⟩
      obtain ⟨z, hz, -, rfl⟩ := mem_clip.mp hy
      have hxz := hgap z hz
      dsimp only
      omega
    · rw [clip_cons_of_le (Nat.le_of_not_lt hlt)]
      exact ih hl

theorem totalLength_clip_cons :
    totalLength (clip limit (x :: l)) = (min x.2 limit - x.1) + totalLength (clip limit l) := by
  by_cases h : x.1 < limit
  · rw [clip_cons_of_lt h, totalLength_cons]
  · rw [clip_cons_of_le (Nat.le_of_not_lt h)]
    omega

theorem min_dvd {d a b : Nat} (ha : d ∣ a) (hb : d ∣ b) : d ∣ min a b := by
  obtain h | h := min_choice a b
  · rwa [h]
  · rwa [h]

theorem dvd_totalLength_clip (hal : EndsAligned 6 l) (hlimit : 2 ^ 6 ∣ limit) :
    2 ^ 6 ∣ totalLength (clip limit l) := by
  induction l with
  | nil => exact Nat.dvd_zero _
  | cons x l ih =>
    obtain ⟨⟨h₁, h₂⟩, hl⟩ := forall_mem_cons.mp hal
    rw [totalLength_clip_cons]
    exact Nat.dvd_add (Nat.dvd_sub (min_dvd h₂ hlimit) h₁) (ih hl)

/-- A list of disjoint intervals is not longer than the range that it is in. -/
theorem totalLength_le {start : Nat} (h : Spaced 0 l) (hrange : ∀ x ∈ l, start ≤ x.1 ∧ x.2 ≤ limit)
    (hle : start ≤ limit) : totalLength l ≤ limit - start := by
  induction l generalizing start with
  | nil => simp
  | cons x l ih =>
    obtain ⟨hx, hgap, hl⟩ := Spaced.cons_iff.mp h
    obtain ⟨h₁, h₂⟩ := hrange x mem_cons_self
    have hrest := ih hl (fun y hy => ⟨hgap y hy, (hrange y (mem_cons_of_mem _ hy)).2⟩) h₂
    rw [totalLength_cons]
    omega

theorem totalLength_clip_le (h : Spaced 0 l) : totalLength (clip limit l) ≤ limit := by
  have hrange : ∀ x ∈ clip limit l, 0 ≤ x.1 ∧ x.2 ≤ limit := by
    intro x hx
    obtain ⟨z, -, -, rfl⟩ := mem_clip.mp hx
    exact ⟨Nat.zero_le _, min_le_right _ _⟩
  exact totalLength_le (clip_spaced h) hrange (Nat.zero_le _)

theorem eq_nil_of_totalLength (h : Spaced 0 l) (hzero : totalLength l = 0) : l = [] := by
  cases l with
  | nil => rfl
  | cons x l =>
    have hx := h.nonempty x mem_cons_self
    rw [totalLength_cons] at hzero
    omega

theorem eq_nil_of_points (h : Spaced 0 l) (hempty : points l = ∅) : l = [] := by
  rw [eq_nil_iff_forall_not_mem]
  intro x hx
  exact (Set.eq_empty_iff_forall_notMem.mp hempty x.1) ⟨x, hx, le_rfl, h.nonempty x hx⟩

/-- Intervals do not start before the first point. -/
theorem le_start_of_points {b : Nat} (hl : Spaced 0 l) (hsub : points l ⊆ points l')
    (hb : ∀ y ∈ l', b ≤ y.1) : ∀ x ∈ l, b ≤ x.1 := by
  intro x hx
  obtain ⟨y, hy, hle, -⟩ := hsub ⟨x, hx, le_rfl, hl.nonempty x hx⟩
  exact (hb y hy).trans hle

end clip

/-! ## Cutting off a shard -/

section takeShard

variable {limit remaining : Nat} {l : List (Nat × Nat)}

/-- What one shard takes, and what it leaves. -/
structure Taken (limit remaining : Nat) (l out rest : List (Nat × Nat)) : Prop where
  left : Spaced 0 rest
  spaced : Spaced 0 (out ++ clip limit rest)
  points : points (out ++ clip limit rest) = points (clip limit l)
  length : totalLength out = min remaining (totalLength (clip limit l))
  total : totalLength out + totalLength (clip limit rest) = totalLength (clip limit l)
  aligned : EndsAligned 6 l → 2 ^ 6 ∣ limit → 2 ^ 6 ∣ remaining →
    EndsAligned 6 out ∧ EndsAligned 6 rest

theorem takeShard_spec (h : Spaced 0 l) :
    Taken limit remaining l (takeShard limit remaining l).1 (takeShard limit remaining l).2 := by
  induction l generalizing remaining with
  | nil =>
    exact ⟨.nil, .nil, rfl, by simp [takeShard, clip], by simp [takeShard, clip], fun _ _ _ =>
      ⟨fun _ h => (nomatch h), fun _ h => (nomatch h)⟩⟩
  | cons cur l ih =>
    obtain ⟨hcur, hgap, hl⟩ := Spaced.cons_iff.mp h
    unfold takeShard
    by_cases hzero : remaining = 0
    · rw [if_pos hzero]
      exact ⟨h, clip_spaced h, rfl, by simp [hzero], by simp,
        fun hal _ _ => ⟨fun _ h => (nomatch h), hal⟩⟩
    rw [if_neg hzero]
    by_cases hlast : limit < cur.2 ∧ limit ≤ cur.1
    · -- the interval and all later ones are behind the limit
      rw [if_pos hlast]
      have hnil : clip limit l = [] := clip_eq_nil fun y hy => by
        have := hgap y hy
        omega
      have hnil' : clip limit (cur :: l) = [] := by rw [clip_cons_of_le hlast.2, hnil]
      refine ⟨hl, ?_, ?_, ?_, ?_, fun hal _ _ => ⟨fun _ h => (nomatch h), fun y hy => ?_⟩⟩
      · rw [hnil]
        exact .nil
      · rw [hnil, hnil']
        rfl
      · simp [hnil']
      · simp [hnil, hnil']
      · exact hal y (mem_cons_of_mem _ hy)
    rw [if_neg hlast]
    have hstart : cur.1 < limit := by omega
    have htrim : (if limit < cur.2 then (cur.1, limit) else cur) = (cur.1, min cur.2 limit) := by
      split
      · rw [min_eq_right (by omega)]
      · rw [min_eq_left (by omega)]
    have hclip : clip limit (cur :: l) = _ := clip_cons_of_lt hstart
    rw [htrim]
    dsimp only
    by_cases hfits : min cur.2 limit - cur.1 ≤ remaining
    · rw [if_pos hfits]
      have hrec := @ih (remaining - (min cur.2 limit - cur.1)) hl
      have hbehind : ∀ y ∈ clip limit l, min cur.2 limit ≤ y.1 := by
        intro y hy
        obtain ⟨z, hz, -, rfl⟩ := mem_clip.mp hy
        have := hgap z hz
        dsimp only
        omega
      have hlater := le_start_of_points hrec.spaced hrec.points.le hbehind
      refine ⟨hrec.left, ?_, ?_, ?_, ?_, fun hal hlim hrem => ?_⟩
      · rw [cons_append]
        exact Spaced.cons_iff.mpr ⟨lt_min hcur hstart, hlater, hrec.spaced⟩
      · rw [cons_append, points_cons, hrec.points, hclip, points_cons]
      · have := hrec.length
        rw [totalLength_cons, hclip, totalLength_cons]
        omega
      · have := hrec.total
        rw [totalLength_cons, hclip, totalLength_cons]
        dsimp only
        omega
      · have hcut : 2 ^ 6 ∣ min cur.2 limit := min_dvd (hal cur mem_cons_self).2 hlim
        have hstart' := (hal cur mem_cons_self).1
        obtain ⟨hout, hrest⟩ := hrec.aligned (fun y hy => hal y (mem_cons_of_mem _ hy)) hlim
          (Nat.dvd_sub hrem (Nat.dvd_sub hcut hstart'))
        exact ⟨forall_mem_cons.mpr ⟨⟨hstart', hcut⟩, hout⟩, hrest⟩
    · -- the interval is cut in two
      rw [if_neg hfits]
      have hrest : Spaced 0 ((cur.1 + remaining, min cur.2 limit) :: l) := by
        refine Spaced.cons_iff.mpr ⟨by dsimp only; omega, fun y hy => ?_, hl⟩
        have := hgap y hy
        dsimp only
        omega
      have hclip' : clip limit ((cur.1 + remaining, min cur.2 limit) :: l) =
          (cur.1 + remaining, min cur.2 limit) :: clip limit l := by
        rw [clip_cons_of_lt (by dsimp only; omega)]
        simp only [min_assoc, min_self]
      refine ⟨hrest, ?_, ?_, ?_, ?_, fun hal hlim hrem => ?_⟩
      · rw [hclip', singleton_append]
        refine Spaced.cons_iff.mpr ⟨by dsimp only; omega, fun y hy => ?_, ?_⟩
        · obtain rfl | hy := mem_cons.mp hy
          · exact le_rfl
          · obtain ⟨z, hz, -, rfl⟩ := mem_clip.mp hy
            have := hgap z hz
            dsimp only
            omega
        · rw [← hclip']
          exact clip_spaced hrest
      · rw [hclip', hclip, singleton_append]
        simp only [points_cons, ← Set.union_assoc]
        congr 1
        exact Set.Ico_union_Ico_eq_Ico (by omega) (by omega)
      · rw [hclip]
        simp only [totalLength_cons, totalLength_nil]
        omega
      · rw [hclip', hclip]
        simp only [totalLength_cons, totalLength_nil]
        omega
      · have hcut : 2 ^ 6 ∣ min cur.2 limit := min_dvd (hal cur mem_cons_self).2 hlim
        have hmid : 2 ^ 6 ∣ cur.1 + remaining :=
          Nat.dvd_add (hal cur mem_cons_self).1 hrem
        refine ⟨fun y hy => ?_, forall_mem_cons.mpr ⟨⟨hmid, hcut⟩, fun y hy =>
          hal y (mem_cons_of_mem _ hy)⟩⟩
        cases mem_singleton.mp hy
        exact ⟨(hal cur mem_cons_self).1, hmid⟩

end takeShard

/-! ## All shards -/

section splitShards

variable {limit netLen k m : Nat} {l : List (Nat × Nat)}

/-- Part `i` has the bytes between two boundaries. -/
def shardLength (len i : Nat) : Nat :=
  64 * ((i + 1) * len / shardCount len) - 64 * (i * len / shardCount len)

/-- The parts that the shards `k`, `k + 1` and so on make of what is left. -/
structure Parted (limit len k : Nat) (l : List (Nat × Nat)) (parts : List (List (Nat × Nat))) :
    Prop where
  spaced : Spaced 0 parts.flatten
  points : points parts.flatten = points (clip limit l)
  aligned : EndsAligned 6 parts.flatten
  lengths : parts.map totalLength = (range' k parts.length).map (shardLength len)

theorem splitShards_spec (hlen : 0 < netLen / 64) (hmax : netLen / 64 < 2 ^ 25)
    (hlimit : 2 ^ 6 ∣ limit) (hl : Spaced 0 l) (hal : EndsAligned 6 l)
    (hkm : k + m = shardCount (netLen / 64))
    (htotal : totalLength (clip limit l) =
      64 * (netLen / 64) - 64 * (k * (netLen / 64) / shardCount (netLen / 64))) :
    ∃ parts, splitShards limit netLen (shardCount (netLen / 64)) (range' k m) l = .ok parts ∧
      parts.length = m ∧ Parted limit (netLen / 64) k l parts := by
  have hpos := shardCount_pos hlen
  have hcount : shardCount (netLen / 64) < 2 ^ 15 := by
    have := @shardCount_bounds (netLen / 64)
    omega
  induction m generalizing k l with
  | zero =>
    have hk : k = shardCount (netLen / 64) := by omega
    rw [hk, last_boundary hlen, Nat.sub_self] at htotal
    -- the last boundary is the end, so there is nothing left
    have hnil : clip limit l = [] := eq_nil_of_totalLength (clip_spaced hl) htotal
    exact ⟨[], rfl, rfl, .nil, by rw [hnil]; rfl, fun _ h => (nomatch h), rfl⟩
  | succ m ih =>
    obtain ⟨hlt, -⟩ := shard_bounds hlen k
    have hend : (k + 1) * (netLen / 64) / shardCount (netLen / 64) ≤ netLen / 64 := by
      calc (k + 1) * (netLen / 64) / shardCount (netLen / 64)
          ≤ shardCount (netLen / 64) * (netLen / 64) / shardCount (netLen / 64) :=
            Nat.div_le_div_right (Nat.mul_le_mul_right _ (by omega))
        _ = netLen / 64 := last_boundary hlen
    have htaken := @takeShard_spec limit (shardLength (netLen / 64) k) l hl
    have hrem : 2 ^ 6 ∣ shardLength (netLen / 64) k :=
      Nat.dvd_sub (Nat.dvd_mul_right 64 _) (Nat.dvd_mul_right 64 _)
    obtain ⟨hout, hrest⟩ := htaken.aligned hal hlimit hrem
    have hlength : totalLength (takeShard limit (shardLength (netLen / 64) k) l).1 =
        shardLength (netLen / 64) k := by
      have := htaken.length
      unfold shardLength at this ⊢
      omega
    have hleft := htaken.total
    obtain ⟨parts, hparts, hm, hp⟩ := ih htaken.left hrest (k := k + 1) (by omega) (by
      rw [hlength] at hleft
      unfold shardLength at hleft ⊢
      omega)
    refine ⟨(takeShard limit (shardLength (netLen / 64) k) l).1 :: parts, ?_,
      by rw [length_cons, hm], ?_⟩
    · rw [range'_succ]
      unfold splitShards
      rw [splitInterval_eq hpos hcount (by omega), Res.ok_bind,
        splitInterval_eq hpos hcount (by omega), Res.ok_bind]
      show (splitShards _ _ _ _ (takeShard limit (shardLength (netLen / 64) k) l).2 >>= _) = _
      rw [hparts, Res.ok_bind]
      rfl
    · obtain ⟨hspaced, -, hgap⟩ := Spaced.append_iff.mp htaken.spaced
      refine ⟨?_, ?_, ?_, ?_⟩
      · rw [flatten_cons]
        refine Spaced.append_iff.mpr ⟨hspaced, hp.spaced, fun x hx => ?_⟩
        exact le_start_of_points hp.spaced hp.points.le (hgap x hx)
      · rw [flatten_cons, points_append, hp.points, ← points_append, htaken.points]
      · rw [flatten_cons]
        exact forall_mem_append.mpr ⟨hout, hp.aligned⟩
      · rw [map_cons, hlength, hp.lengths, length_cons, range'_succ, map_cons]

end splitShards

/-! ## The partition of the damage -/

section splitDamage

variable {bufSize : Nat} {intervals : List (Nat × Nat)} {parts : List (List (Nat × Nat))}

/-- An interval reaches past the last whole chunk, into the bytes after it. -/
def ReachesTrailing (intervals : List (Nat × Nat)) (bufSize : Nat) : Prop :=
  ∃ x ∈ intervals, 64 * (bufSize / 64) < x.2 ∧ x.1 < bufSize

instance : Decidable (ReachesTrailing intervals bufSize) :=
  inferInstanceAs (Decidable (∃ x ∈ intervals, 64 * (bufSize / 64) < x.2 ∧ x.1 < bufSize))

theorem measureInterval_eq {acc : Nat × Bool} {r : Nat × Nat} (hr : r.1 < r.2)
    (hal : 2 ^ 6 ∣ r.1 ∧ 2 ^ 6 ∣ r.2) :
    measureInterval (64 * (bufSize / 64)) bufSize acc r =
      .ok (acc.1 + (min r.2 (64 * (bufSize / 64)) - r.1),
        acc.2 || decide (64 * (bufSize / 64) < r.2 ∧ r.1 < bufSize)) := by
  unfold measureInterval
  rw [assert_of (by simpa using hr), Res.ok_bind,
    assert_of (by simp only [Bool.and_eq_true, beq_iff_eq]; omega), Res.ok_bind]
  by_cases hpast : 64 * (bufSize / 64) < r.2
  · by_cases hin : r.1 < bufSize
    · rw [if_pos hpast, if_pos hin, assert_of (by simp only [decide_eq_true_eq]; omega), Res.ok_bind,
        min_eq_right hpast.le]
      simp [hpast, hin]
      rfl
    · rw [if_pos hpast, if_neg hin]
      have hzero : min r.2 (64 * (bufSize / 64)) - r.1 = 0 := by omega
      simp [hzero, hin]
      rfl
  · rw [if_neg hpast, min_eq_left (Nat.le_of_not_lt hpast)]
    simp [hpast]
    rfl

theorem measure_eq (hsorted : Spaced 0 intervals) (hal : EndsAligned 6 intervals)
    (acc : Nat × Bool) :
    intervals.foldlM (measureInterval (64 * (bufSize / 64)) bufSize) acc =
      .ok (acc.1 + totalLength (clip (64 * (bufSize / 64)) intervals),
        acc.2 || decide (ReachesTrailing intervals bufSize)) := by
  induction intervals generalizing acc with
  | nil => simp [clip, ReachesTrailing, pure, Except.pure]
  | cons r rest ih =>
    obtain ⟨hr, -, hrest⟩ := Spaced.cons_iff.mp hsorted
    obtain ⟨hr', hrest'⟩ := forall_mem_cons.mp hal
    have hreach : ReachesTrailing (r :: rest) bufSize ↔
        (64 * (bufSize / 64) < r.2 ∧ r.1 < bufSize) ∨ ReachesTrailing rest bufSize := by
      simp [ReachesTrailing]
    rw [foldlM_cons, measureInterval_eq hr hr']
    show rest.foldlM _ _ = _
    rw [ih hrest hrest', totalLength_clip_cons]
    simp only [hreach, Bool.decide_or, Bool.or_assoc, Nat.add_assoc]

/-- Shards of sorted intervals are disjoint as spans. -/
theorem shardRegions_disjoint (h : Spaced 0 parts.flatten) :
    (parts.filterMap shardRegion).Pairwise fun a b => a.2 ≤ b.1 := by
  have hregion : ∀ {part : List (Nat × Nat)} {a : Nat × Nat}, shardRegion part = some a →
      (∃ x ∈ part, x.1 = a.1) ∧ ∃ y ∈ part, y.2 = a.2 := by
    intro part a ha
    unfold shardRegion at ha
    split at ha
    · next x y hx hy =>
      cases ha
      exact ⟨⟨x, mem_of_mem_head? hx, rfl⟩, y, mem_of_getLast? hy, rfl⟩
    · cases ha
  rw [pairwise_filterMap]
  induction parts with
  | nil => exact .nil
  | cons part parts ih =>
    rw [flatten_cons] at h
    obtain ⟨-, hrest, hgap⟩ := Spaced.append_iff.mp h
    refine pairwise_cons.mpr ⟨fun part' hpart' a ha b hb => ?_, ih hrest⟩
    obtain ⟨-, y, hy, hya⟩ := hregion ha
    obtain ⟨⟨x, hx, hxb⟩, -⟩ := hregion hb
    have := hgap y hy x (mem_flatten_of_mem hpart' hx)
    omega

theorem Parted.lengths_bounded {limit len : Nat} (h : Parted limit len 0 intervals parts)
    (hlen : 0 < len) : ∀ part ∈ parts, 0 < totalLength part ∧ totalLength part ≤ DIFF_CHUNKSIZE := by
  intro part hpart
  have hmem : totalLength part ∈ (range' 0 parts.length).map (shardLength len) := by
    rw [← h.lengths]
    exact mem_map_of_mem hpart
  obtain ⟨i, -, hi⟩ := mem_map.mp hmem
  have := shard_bounds hlen i
  unfold shardLength at hi
  unfold DIFF_CHUNKSIZE
  omega

/-- What `splitDamage` returns: without a whole chunk, at most one empty part for the bytes that
trail; otherwise the parts of all shards. -/
theorem splitDamage_cases (hsorted : Spaced 0 intervals) (hal : EndsAligned 6 intervals)
    (hsize : bufSize < 2 ^ 31) :
    ∃ parts, splitDamage intervals bufSize =
        .ok (if ReachesTrailing intervals bufSize then bufSize % 64 else 0, parts) ∧
      (clip (64 * (bufSize / 64)) intervals = [] ∧
          parts = (if ReachesTrailing intervals bufSize then [[]] else []) ∨
        clip (64 * (bufSize / 64)) intervals ≠ [] ∧ ∃ len, 0 < len ∧
          Parted (64 * (bufSize / 64)) len 0 intervals parts) := by
  have hlimit : 2 ^ 6 ∣ 64 * (bufSize / 64) := Nat.dvd_mul_right 64 _
  have hle := @totalLength_clip_le (64 * (bufSize / 64)) intervals hsorted
  have hdvd := dvd_totalLength_clip hal hlimit
  have hclip := @clip_spaced (64 * (bufSize / 64)) intervals hsorted
  unfold splitDamage
  dsimp only
  rw [measure_eq hsorted hal, Res.ok_bind]
  simp only [Nat.zero_add, Bool.false_or, decide_eq_true_eq]
  generalize hnet : totalLength (clip (64 * (bufSize / 64)) intervals) = netLen at *
  rw [assert_of (by simp only [decide_eq_true_eq]; omega), Res.ok_bind,
    assert_of (by simp only [beq_iff_eq]; omega), Res.ok_bind]
  by_cases hzero : netLen = 0
  · -- no whole chunk is damaged
    have hnil := eq_nil_of_totalLength hclip (hnet.trans hzero)
    rw [if_pos (by simpa using hzero)]
    by_cases htrail : ReachesTrailing intervals bufSize
    · simp only [if_pos htrail]
      exact ⟨_, rfl, .inl ⟨hnil, rfl⟩⟩
    · simp only [if_neg htrail]
      exact ⟨_, rfl, .inl ⟨hnil, rfl⟩⟩
  · rw [if_neg (by simpa using hzero)]
    have hlen : 0 < netLen / 64 := by omega
    obtain ⟨parts, hparts, hcount, hp⟩ := splitShards_spec hlen (by omega) hlimit hsorted hal
      (Nat.zero_add _) (by simp only [Nat.zero_mul, Nat.zero_div, hnet]; omega)
    rw [← range_eq_range'] at hparts
    refine ⟨parts, ?_, .inr ⟨fun hnil => hzero ?_, _, hlen, hp⟩⟩
    · show (splitShards _ _ (shardCount (netLen / 64)) (range (shardCount (netLen / 64))) _
        >>= _) = _
      rw [hparts, Res.ok_bind]
      rfl
    · rw [← hnet, hnil]
      rfl

/-- The intervals of all parts, in order. -/
theorem splitDamage_flatten (hsorted : Spaced 0 intervals) (hal : EndsAligned 6 intervals)
    (hsize : bufSize < 2 ^ 31) {trailing : Nat}
    (h : splitDamage intervals bufSize = .ok (trailing, parts)) :
    points parts.flatten = points intervals ∩ {b | b < 64 * (bufSize / 64)} ∧
      Spaced 0 parts.flatten ∧ EndsAligned 6 parts.flatten ∧
      trailing = if ReachesTrailing intervals bufSize then bufSize % 64 else 0 := by
  obtain ⟨parts', hok, hcases⟩ := splitDamage_cases hsorted hal hsize
  obtain ⟨htrailing, rfl⟩ := Prod.mk.inj (Except.ok.inj (h.symm.trans hok))
  rw [← points_clip]
  rcases hcases with ⟨hnil, hparts⟩ | ⟨-, len, -, hp⟩
  · have hflat : parts.flatten = [] := by
      rw [hparts]
      split
      · rfl
      · rfl
    rw [hflat, hnil]
    exact ⟨rfl, .nil, fun _ h => (nomatch h), htrailing⟩
  · exact ⟨hp.points, hp.spaced, hp.aligned, htrailing⟩

/-- The parts have the bytes of the intervals, up to the last whole chunk, in order and in shards of
bounded length. -/
theorem splitDamage_partitions (hsorted : Spaced 0 intervals) (hal : EndsAligned 6 intervals)
    (hsize : bufSize < 2 ^ 31) :
    ∃ trailing parts, splitDamage intervals bufSize = .ok (trailing, parts) ∧
      points parts.flatten = points intervals ∩ {b | b < 64 * (bufSize / 64)} ∧
      Spaced 0 parts.flatten ∧ EndsAligned 6 parts.flatten ∧
      (parts.filterMap shardRegion).Pairwise (fun a b => a.2 ≤ b.1) ∧
      (∀ part ∈ parts, totalLength part ≤ DIFF_CHUNKSIZE) ∧
      ([] ∈ parts ↔ parts = [[]]) ∧
      (parts = [[]] ↔ points intervals ∩ {b | b < 64 * (bufSize / 64)} = ∅ ∧
        ReachesTrailing intervals bufSize) ∧
      trailing = if ReachesTrailing intervals bufSize then bufSize % 64 else 0 := by
  obtain ⟨parts, hok, hcases⟩ := splitDamage_cases hsorted hal hsize
  obtain ⟨hpoints, hspaced, haligned, -⟩ := splitDamage_flatten hsorted hal hsize hok
  refine ⟨_, parts, hok, hpoints, hspaced, haligned, shardRegions_disjoint hspaced, ?_⟩
  rw [← points_clip]
  rcases hcases with ⟨hnil, hparts⟩ | ⟨hne, len, hlen, hp⟩
  · rw [hnil]
    by_cases htrail : ReachesTrailing intervals bufSize
    · rw [hparts, if_pos htrail]
      simp [htrail]
    · rw [hparts, if_neg htrail]
      simp [htrail]
  · have hbounded := hp.lengths_bounded hlen
    have hfull : ¬ [] ∈ parts := fun hnil => absurd (hbounded [] hnil).1 (by simp)
    have hfull' : parts ≠ [[]] := fun hnil => hfull (by simp [hnil])
    refine ⟨fun part hpart => (hbounded part hpart).2, by simp [hfull, hfull'], ?_, rfl⟩
    refine iff_of_false hfull' fun hempty => hne ?_
    exact eq_nil_of_points (clip_spaced hsorted) hempty.1

/-- A buffer of 70 bytes has one whole chunk and six bytes after it. -/
theorem splitDamage_partitions_trailing :
    ∃ trailing parts, splitDamage [(0, 128)] 70 = .ok (trailing, parts) ∧
      points parts.flatten = points [(0, 128)] ∩ {b | b < 64 * (70 / 64)} ∧
      Spaced 0 parts.flatten ∧ EndsAligned 6 parts.flatten ∧
      (parts.filterMap shardRegion).Pairwise (fun a b => a.2 ≤ b.1) ∧
      (∀ part ∈ parts, totalLength part ≤ DIFF_CHUNKSIZE) ∧
      ([] ∈ parts ↔ parts = [[]]) ∧
      (parts = [[]] ↔ points [(0, 128)] ∩ {b | b < 64 * (70 / 64)} = ∅ ∧
        ReachesTrailing [(0, 128)] 70) ∧
      trailing = if ReachesTrailing [(0, 128)] 70 then 70 % 64 else 0 :=
  splitDamage_partitions (.singleton (by decide)) (by simp [EndsAligned]) (by decide)

end splitDamage

end Waypipe
