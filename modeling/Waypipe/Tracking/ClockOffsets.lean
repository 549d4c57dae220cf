import Waypipe.Tracking.Timestamps

/-!
# Exactness of translated timestamps

A timestamp is translated to another clock by adding the difference of the two clocks, which is read as
the midpoint of two readings of the one minus a reading of the other.  Times are seconds and nanoseconds;
`nanos` is the number that they stand for.  Both carries of the source are taken when the nanoseconds are
more than `10 ^ 9`, not when they are `10 ^ 9`, and the parity of seconds is compared by remainders with
the sign of the seconds.  `timestamps_exact_iff` says for which readings and timestamps this matters.
-/

namespace Waypipe

/-- A time in nanoseconds. -/
def nanos (t : Int × Int) : Int := t.1 * 1000000000 + t.2

/-- A reading of a clock: signed 64-bit seconds, and nanoseconds below a second. -/
structure Reading (t : Int × Int) : Prop where
  sec_ge : -2 ^ 63 ≤ t.1
  sec_lt : t.1 < 2 ^ 63
  nsec_nonneg : 0 ≤ t.2
  nsec_lt : t.2 < 1000000000

/-- The difference of two clocks, from two readings of the first and one of the second in between. -/
def clockOffset (s₁ s₂ s₃ : Int × Int) : Int := (nanos s₁ + nanos s₃) / 2 - nanos s₂

/-! ## The midpoint -/

/-- Odd numbers with different signs. -/
def OddOpposite (a b : Int) : Prop := a % 2 = 1 ∧ b % 2 = 1 ∧ (0 ≤ a ↔ b < 0)

instance (a b : Int) : Decidable (OddOpposite a b) :=
  inferInstanceAs (Decidable (a % 2 = 1 ∧ b % 2 = 1 ∧ (0 ≤ a ↔ b < 0)))

/-- The nanoseconds of the midpoint, before the carry. -/
def midNsec (s₁ s₃ : Int × Int) : Int :=
  (s₁.2 + s₃.2) / 2 + if (s₁.1 + s₃.1) % 2 = 0 then 0 else 500000000

/-- What the parity test finds. -/
theorem tmod_two_ne_iff (a b : Int) :
    b.tmod 2 ≠ a.tmod 2 ↔ (a + b) % 2 = 1 ∨ OddOpposite a b := by
  unfold OddOpposite
  rw [Int.tmod_eq_emod, Int.tmod_eq_emod]
  split <;> split <;> omega

theorem subI64_eq {a b : Int} (h : -2 ^ 63 ≤ a - b ∧ a - b < 2 ^ 63) : subI64 a b = .ok (a - b) :=
  if_pos (by simp only [inI64, Bool.and_eq_true, decide_eq_true_eq]; omega)

theorem subI64_panics {a b : Int} (h : ¬ (-2 ^ 63 ≤ a - b ∧ a - b < 2 ^ 63)) :
    subI64 a b = .error (.panic "attempt to subtract with overflow") :=
  if_neg (by simp only [inI64, Bool.and_eq_true, decide_eq_true_eq]; omega)

section Midpoint

variable {s₁ s₂ s₃ : Int × Int}

/-- The midpoint is rounded down, and half a second too late if the parity test is misled by signs.
Its nanoseconds may be a whole second. -/
theorem timespecMidpoint_spec (h₁ : Reading s₁) (h₃ : Reading s₃)
    (hnear : -2 ^ 63 < s₁.1 - s₃.1 ∧ s₁.1 - s₃.1 < 2 ^ 63) :
    ∃ mid, timespecMidpoint s₁ s₃ = .ok mid ∧
      nanos mid = (nanos s₁ + nanos s₃) / 2 + (if OddOpposite s₁.1 s₃.1 then 500000000 else 0) ∧
      0 ≤ mid.2 ∧ mid.2 ≤ 1000000000 ∧
      (¬ OddOpposite s₁.1 s₃.1 → (mid.2 = 1000000000 ↔ midNsec s₁ s₃ = 1000000000)) := by
  obtain ⟨-, -, hn₁, hlt₁⟩ := h₁
  obtain ⟨-, -, hn₃, hlt₃⟩ := h₃
  have hsec : midpointSec s₁.1 s₃.1 = .ok ((s₁.1 + s₃.1) / 2) := by
    unfold midpointSec
    by_cases hlt : s₁.1 < s₃.1
    · rw [if_pos hlt, subI64_eq (by omega)]
      exact congrArg Except.ok (by dsimp only; omega)
    · rw [if_neg hlt, subI64_eq (by omega)]
      exact congrArg Except.ok (by dsimp only; omega)
  have hnsec : (if s₁.2 < s₃.2 then s₁.2 + (s₃.2 - s₁.2) / 2 else s₃.2 + (s₁.2 - s₃.2) / 2) =
      (s₁.2 + s₃.2) / 2 := by
    split <;> omega
  unfold timespecMidpoint
  dsimp only
  rw [hsec, Res.ok_bind, hnsec]
  refine ⟨_, rfl, ?_⟩
  unfold nanos midNsec
  by_cases hodd : (s₁.1 + s₃.1) % 2 = 1
  · have hnot : ¬ OddOpposite s₁.1 s₃.1 := fun h => by
      have := h.1
      have := h.2.1
      omega
    rw [if_pos ((tmod_two_ne_iff _ _).mpr (.inl hodd)), if_neg hnot]
    split <;> refine ⟨?_, ?_, ?_, fun _ => ?_⟩ <;> dsimp only <;> omega
  · by_cases hopp : OddOpposite s₁.1 s₃.1
    · rw [if_pos ((tmod_two_ne_iff _ _).mpr (.inr hopp)), if_pos hopp]
      split <;> refine ⟨?_, ?_, ?_, fun h => absurd hopp h⟩ <;> dsimp only <;> omega
    · rw [if_neg fun h => ((tmod_two_ne_iff _ _).mp h).elim hodd hopp, if_neg hopp,
        if_neg (show ¬ 1000000000 < (s₁.2 + s₃.2) / 2 by omega)]
      refine ⟨?_, ?_, ?_, fun _ => ?_⟩ <;> dsimp only <;> omega

theorem timespecMidpoint_far (hfar : ¬ (-2 ^ 63 < s₁.1 - s₃.1 ∧ s₁.1 - s₃.1 < 2 ^ 63)) :
    timespecMidpoint s₁ s₃ = .error (.panic "attempt to subtract with overflow") := by
  unfold timespecMidpoint midpointSec
  dsimp only
  by_cases hlt : s₁.1 < s₃.1
  · rw [if_pos hlt, subI64_panics (by omega)]
    rfl
  · rw [if_neg hlt, subI64_panics (by omega)]
    rfl

end Midpoint

/-! ## The difference of two clocks -/

/-- The readings give the difference of the clocks. -/
structure Steady (s₁ s₂ s₃ : Int × Int) : Prop where
  /-- The seconds can be subtracted. -/
  near : -2 ^ 63 < s₁.1 - s₃.1 ∧ s₁.1 - s₃.1 < 2 ^ 63
  parity : ¬ OddOpposite s₁.1 s₃.1
  /-- The midpoint is not a second that has not been carried, when nothing is subtracted from it. -/
  carry : s₂.2 = 0 → midNsec s₁ s₃ ≠ 1000000000
  /-- The seconds of the difference are a 64-bit number. -/
  range : -2 ^ 63 * 1000000000 ≤ clockOffset s₁ s₂ s₃

/-- The outcome is the given number of nanoseconds, and it is normalised. -/
def ExactDiff (d : Int) (r : Res (Int × Nat)) : Prop :=
  ∃ sec nsec, r = .ok (sec, nsec) ∧ sec * 1000000000 + (nsec : Int) = d ∧ nsec < 1000000000

/-- The last part of `clock_sub`, for a midpoint. -/
def subReading (mid s₂ : Int × Int) : Res (Int × Nat) := do
  let (sec, nsec) ← borrowNsec (mid.1 - s₂.1) (mid.2 - s₂.2)
  assert (0 ≤ nsec && nsec < 1000000000) "(0..1_000_000_000).contains(&tv_nsec)"
  return (sec, nsec.toNat)

section Difference

variable {sys : System} {a b : Nat} {s₁ s₂ s₃ mid : Int × Int}

theorem inI64_iff {n : Int} : inI64 n = true ↔ -2 ^ 63 ≤ n ∧ n < 2 ^ 63 := by
  simp only [inI64, Bool.and_eq_true, decide_eq_true_eq]

theorem clockSub_eq (hclocks : a < 2 ^ 31 ∧ b < 2 ^ 31) (h₁ : sys.clockGettime a 0 = some s₁)
    (h₂ : sys.clockGettime b 0 = some s₂) (h₃ : sys.clockGettime a 1 = some s₃) :
    clockSub sys a b = (timespecMidpoint s₁ s₃ >>= fun avg =>
      if !inI64 (avg.1 - s₂.1) || !inI64 (avg.2 - s₂.2) then fail "overflow"
      else subReading avg s₂) := by
  unfold clockSub
  rw [assert_of (by simp only [Bool.and_eq_true, decide_eq_true_eq]; exact hclocks), Res.ok_bind, h₁,
    h₂, h₃]
  rfl

theorem not_exactDiff_panic (d : Int) (msg : String) : ¬ ExactDiff d (.error (.panic msg)) := by
  rintro ⟨sec, nsec, h, -⟩
  cases h

theorem exactDiff_ok {d sec : Int} {nsec : Nat} :
    ExactDiff d (.ok (sec, nsec)) ↔ d = sec * 1000000000 + nsec ∧ nsec < 1000000000 := by
  constructor
  · rintro ⟨sec', nsec', heq, hd, hlt⟩
    cases heq
    exact ⟨hd.symm, hlt⟩
  · rintro ⟨hd, hlt⟩
    exact ⟨sec, nsec, rfl, hd.symm, hlt⟩

/-- The difference from a midpoint is returned if it is in range, unless its nanoseconds are a whole
second. -/
theorem subReading_iff (h₂ : Reading s₂) (hlo : 0 ≤ mid.2) (hhi : mid.2 ≤ 1000000000)
    (hsec : -2 ^ 63 ≤ mid.1 - s₂.1 ∧ mid.1 - s₂.1 < 2 ^ 63) (d : Int) :
    ExactDiff d (subReading mid s₂) ↔ d = nanos mid - nanos s₂ ∧
      ¬ (mid.2 = 1000000000 ∧ s₂.2 = 0) ∧ -2 ^ 63 * 1000000000 ≤ nanos mid - nanos s₂ := by
  obtain ⟨-, -, hn₂, hlt₂⟩ := h₂
  unfold subReading borrowNsec nanos
  by_cases hneg : mid.2 - s₂.2 < 0
  · rw [if_pos hneg]
    by_cases hrange : -2 ^ 63 ≤ mid.1 - s₂.1 - 1
    · rw [subI64_eq ⟨hrange, by omega⟩]
      show ExactDiff d (assert _ _ >>= _) ↔ _
      rw [assert_of (by simp only [Bool.and_eq_true, decide_eq_true_eq]; omega), Res.ok_bind]
      refine exactDiff_ok.trans ⟨fun h => ⟨?_, ?_, ?_⟩, fun h => ⟨?_, ?_⟩⟩ <;> omega
    · rw [subI64_panics fun h => hrange h.1]
      refine iff_of_false (not_exactDiff_panic _ _) ?_
      omega
  · rw [if_neg hneg, Res.ok_bind]
    dsimp only
    by_cases hwhole : mid.2 = 1000000000 ∧ s₂.2 = 0
    · rw [show assert _ _ = _ from if_neg (by simp only [Bool.and_eq_true, decide_eq_true_eq]; omega)]
      exact iff_of_false (not_exactDiff_panic _ _) fun h => h.2.1 hwhole
    · rw [assert_of (by simp only [Bool.and_eq_true, decide_eq_true_eq]; omega), Res.ok_bind]
      refine exactDiff_ok.trans ⟨fun h => ⟨?_, hwhole, ?_⟩, fun h => ⟨?_, ?_⟩⟩ <;> omega

/-- Unless it reports an overflow, `clock_sub` is exact if and only if the readings are steady. -/
theorem clockSub_iff (hclocks : a < 2 ^ 31 ∧ b < 2 ^ 31) (h₁ : sys.clockGettime a 0 = some s₁)
    (h₂ : sys.clockGettime b 0 = some s₂) (h₃ : sys.clockGettime a 1 = some s₃) (hr₁ : Reading s₁)
    (hr₂ : Reading s₂) (hr₃ : Reading s₃) (hover : clockSub sys a b ≠ .error (.err "overflow")) :
    ExactDiff (clockOffset s₁ s₂ s₃) (clockSub sys a b) ↔ Steady s₁ s₂ s₃ := by
  rw [clockSub_eq hclocks h₁ h₂ h₃] at hover ⊢
  by_cases hnear : -2 ^ 63 < s₁.1 - s₃.1 ∧ s₁.1 - s₃.1 < 2 ^ 63
  swap
  · rw [timespecMidpoint_far hnear]
    exact iff_of_false (not_exactDiff_panic _ _) fun h => hnear h.near
  obtain ⟨mid, hmid, hnanos, hlo, hhi, hwhole⟩ := timespecMidpoint_spec hr₁ hr₃ hnear
  rw [hmid, Res.ok_bind] at hover ⊢
  have hfits : ¬ ((!inI64 (mid.1 - s₂.1) || !inI64 (mid.2 - s₂.2)) = true) := by
    intro h
    rw [if_pos h] at hover
    exact hover rfl
  rw [if_neg hfits]
  have hsec : -2 ^ 63 ≤ mid.1 - s₂.1 ∧ mid.1 - s₂.1 < 2 ^ 63 := by
    rw [← inI64_iff]
    simpa using (not_or.mp (mt Bool.or_eq_true_iff.mpr hfits)).1
  rw [subReading_iff hr₂ hlo hhi hsec]
  unfold clockOffset
  by_cases hopp : OddOpposite s₁.1 s₃.1
  · rw [if_pos hopp] at hnanos
    refine iff_of_false (fun h => ?_) fun h => h.parity hopp
    have hsum := h.1
    omega
  · rw [if_neg hopp] at hnanos
    have hwhole := hwhole hopp
    constructor
    · rintro ⟨-, hcarry, hrange⟩
      refine ⟨hnear, hopp, fun hzero hmidNsec => hcarry ⟨hwhole.mpr hmidNsec, hzero⟩, ?_⟩
      unfold clockOffset
      omega
    · rintro ⟨-, -, hcarry, hrange⟩
      unfold clockOffset at hrange
      exact ⟨by omega, fun h => hcarry h.2 (hwhole.mp h.1), by omega⟩

end Difference

/-! ## Timestamps -/

/-- The outcome is the timestamp of the given number of nanoseconds, and it is normalised. -/
def ExactStamp (d : Int) (r : Res (Nat × Nat × Nat)) : Prop :=
  ∃ hi lo nsec, r = .ok (hi, lo, nsec) ∧ (joinU64 hi lo : Int) * 1000000000 + nsec = d ∧
    hi < 2 ^ 32 ∧ lo < 2 ^ 32 ∧ nsec < 1000000000

section Stamps

variable {sys : System} {clockId hi lo nsec : Nat} {toChannel : Bool} {s₁ s₂ s₃ : Int × Int}

/-- The clock whose time is asked for, and the clock of the timestamp. -/
def clocks (clockId : Nat) (toChannel : Bool) : Nat × Nat :=
  if toChannel then (CLOCK_REALTIME, clockId) else (clockId, CLOCK_REALTIME)

theorem clocks_lt (hclock : clockId < 2 ^ 31) :
    (clocks clockId toChannel).1 < 2 ^ 31 ∧ (clocks clockId toChannel).2 < 2 ^ 31 := by
  have hreal : CLOCK_REALTIME < 2 ^ 31 := by decide
  cases toChannel with
  | true => exact ⟨hreal, hclock⟩
  | false => exact ⟨hclock, hreal⟩

theorem translateTimestamp_eq (hnsec : nsec < 1000000000) :
    translateTimestamp sys (hi, lo, nsec) clockId toChannel =
      (clockSub sys (clocks clockId toChannel).1 (clocks clockId toChannel).2 >>= fun diff => do
        let (newSec, newNsec) ← orErr (← timeAdd (joinU64 hi lo, nsec) diff) "overflow"
        return ((splitU64 newSec).1, (splitU64 newSec).2, newNsec)) := by
  unfold translateTimestamp clocks
  dsimp only
  rw [if_neg (by omega)]
  cases toChannel with
  | true => rfl
  | false => rfl

/-- A timestamp is added to a normalised difference: unless it overflows, the sum is exact, and it is
normalised unless its nanoseconds are a whole second. -/
theorem timeAdd_spec {sec : Nat} {diff : Int × Nat} (hnsec : nsec < 1000000000)
    (hdiff : diff.2 < 1000000000) :
    timeAdd (sec, nsec) diff = .ok none ∨
      ∃ sec' nsec', timeAdd (sec, nsec) diff = .ok (some (sec', nsec')) ∧
      (sec' : Int) * 1000000000 + nsec' = sec * 1000000000 + nsec + (diff.1 * 1000000000 + diff.2) ∧
      sec' < 2 ^ 64 ∧ (nsec' < 1000000000 ↔ nsec + diff.2 ≠ 1000000000) := by
  unfold timeAdd
  rw [assert_of (by simp only [Bool.and_eq_true, decide_eq_true_eq]; exact ⟨hnsec, hdiff⟩), Res.ok_bind]
  dsimp only
  by_cases hcarry : 1000000000 < nsec + diff.2
  · rw [if_pos hcarry]
    dsimp only
    split
    · next h =>
      right
      refine ⟨_, _, rfl, ?_, ?_, ?_⟩ <;> omega
    · exact .inl rfl
  · rw [if_neg hcarry]
    dsimp only
    split
    · next h =>
      right
      refine ⟨_, _, rfl, ?_, ?_, ?_⟩ <;> omega
    · exact .inl rfl

theorem subReading_lt {mid : Int × Int} {sec : Int} {n : Nat} (h : subReading mid s₂ = .ok (sec, n)) :
    n < 1000000000 := by
  unfold subReading at h
  obtain ⟨⟨sec', n'⟩, -, h⟩ := Res.bind_eq_ok.mp h
  obtain ⟨_, hassert, h⟩ := Res.bind_eq_ok.mp h
  have hrange := assert_eq_ok.mp hassert
  simp only [Bool.and_eq_true, decide_eq_true_eq] at hrange
  cases h
  omega

theorem clockSub_lt {a b : Nat} {sec : Int} {n : Nat} (h : clockSub sys a b = .ok (sec, n)) :
    n < 1000000000 := by
  unfold clockSub at h
  obtain ⟨_, -, h⟩ := Res.bind_eq_ok.mp h
  split at h
  · obtain ⟨avg, -, h⟩ := Res.bind_eq_ok.mp h
    split at h
    · cases h
    · exact subReading_lt h
  · cases h

/-- Unless it reports an overflow, `translate_timestamp` is exact if and only if the readings are steady
and the nanoseconds do not add up to a second. -/
theorem translateTimestamp_iff (hclock : clockId < 2 ^ 31)
    (h₁ : sys.clockGettime (clocks clockId toChannel).1 0 = some s₁)
    (h₂ : sys.clockGettime (clocks clockId toChannel).2 0 = some s₂)
    (h₃ : sys.clockGettime (clocks clockId toChannel).1 1 = some s₃) (hr₁ : Reading s₁)
    (hr₂ : Reading s₂) (hr₃ : Reading s₃) (hnsec : nsec < 1000000000)
    (hover : translateTimestamp sys (hi, lo, nsec) clockId toChannel ≠ .error (.err "overflow")) :
    ExactStamp ((joinU64 hi lo : Int) * 1000000000 + nsec + clockOffset s₁ s₂ s₃)
        (translateTimestamp sys (hi, lo, nsec) clockId toChannel) ↔
      Steady s₁ s₂ s₃ ∧ nsec + clockOffset s₁ s₂ s₃ % 1000000000 ≠ 1000000000 := by
  rw [translateTimestamp_eq hnsec] at hover ⊢
  have hsub : clockSub sys (clocks clockId toChannel).1 (clocks clockId toChannel).2 ≠
      .error (.err "overflow") := by
    intro h
    rw [h] at hover
    exact hover rfl
  rw [← clockSub_iff (clocks_lt hclock) h₁ h₂ h₃ hr₁ hr₂ hr₃ hsub]
  cases hdiff : clockSub sys (clocks clockId toChannel).1 (clocks clockId toChannel).2 with
  | error e =>
    refine iff_of_false ?_ ?_
    · rintro ⟨hi', lo', nsec', h, -⟩
      cases h
    · rintro ⟨⟨sec, n, h, -⟩, -⟩
      cases h
  | ok diff =>
    obtain ⟨sec, n⟩ := diff
    have hn := clockSub_lt hdiff
    rw [hdiff, Res.ok_bind] at hover
    rw [Res.ok_bind, exactDiff_ok]
    rcases @timeAdd_spec nsec (joinU64 hi lo) (sec, n) hnsec hn with
      hnone | ⟨sec', nsec', hadd, hsum, hlt, hnorm⟩
    · rw [hnone] at hover
      exact absurd rfl hover
    · rw [hadd, Res.ok_bind]
      show ExactStamp _ (.ok (sec' / 2 ^ 32, sec' % 2 ^ 32, nsec')) ↔ _
      have hjoin : joinU64 (sec' / 2 ^ 32) (sec' % 2 ^ 32) = sec' := by
        unfold joinU64
        omega
      dsimp only at hsum hnorm
      constructor
      · rintro ⟨hi', lo', n', heq, hd, -, -, hn'⟩
        cases heq
        rw [hjoin] at hd
        exact ⟨⟨by omega, hn⟩, by have := hnorm.mp hn'; omega⟩
      · rintro ⟨⟨hd, -⟩, hcarry⟩
        refine ⟨_, _, _, rfl, ?_, ?_, ?_, hnorm.mpr (by omega)⟩
        · rw [hjoin]
          omega
        · omega
        · omega

end Stamps

/-- For any readings of the clocks and any timestamp: what is added is the difference of the clocks, and
the sum is exact and normalised, if and only if the readings are steady and, for the sum, the nanoseconds
do not add up to exactly a second. -/
theorem timestamps_exact_iff (sys : System) (clockId : Nat) (toChannel : Bool) (s₁ s₂ s₃ : Int × Int)
    (hclock : clockId < 2 ^ 31) (h₁ : sys.clockGettime (clocks clockId toChannel).1 0 = some s₁)
    (h₂ : sys.clockGettime (clocks clockId toChannel).2 0 = some s₂)
    (h₃ : sys.clockGettime (clocks clockId toChannel).1 1 = some s₃) (hr₁ : Reading s₁)
    (hr₂ : Reading s₂) (hr₃ : Reading s₃) :
    (clockSub sys (clocks clockId toChannel).1 (clocks clockId toChannel).2 ≠
        .error (.err "overflow") →
      (ExactDiff (clockOffset s₁ s₂ s₃)
        (clockSub sys (clocks clockId toChannel).1 (clocks clockId toChannel).2) ↔ Steady s₁ s₂ s₃)) ∧
    ∀ hi lo nsec : Nat, nsec < 1000000000 →
      translateTimestamp sys (hi, lo, nsec) clockId toChannel ≠ .error (.err "overflow") →
      (ExactStamp ((joinU64 hi lo : Int) * 1000000000 + nsec + clockOffset s₁ s₂ s₃)
        (translateTimestamp sys (hi, lo, nsec) clockId toChannel) ↔
        Steady s₁ s₂ s₃ ∧ nsec + clockOffset s₁ s₂ s₃ % 1000000000 ≠ 1000000000) := by
  refine ⟨clockSub_iff (clocks_lt hclock) h₁ h₂ h₃ hr₁ hr₂ hr₃, ?_⟩
  intro hi lo nsec hnsec hover
  exact translateTimestamp_iff hclock h₁ h₂ h₃ hr₁ hr₂ hr₃ hnsec hover

/-- A system on which the realtime clock is read twice around one reading of every other clock. -/
def System.withClocks (first second other : Int × Int) : System :=
  { System.headless with
    clockGettime := fun clock n =>
      some (if clock = CLOCK_REALTIME then (if n = 0 then first else second) else other) }

theorem timestamps_exact_uptime :
    ExactDiff 50000000003 (clockSub (.withClocks (100, 5) (100, 7) (50, 3)) CLOCK_REALTIME 1) ∧
    ExactStamp 57000000012
      (translateTimestamp (.withClocks (100, 5) (100, 7) (50, 3)) (0, 7, 9) 1 true) := by
  have hsteady : Steady (100, 5) (50, 3) (100, 7) :=
    ⟨by decide +kernel, by decide +kernel, by decide +kernel, by decide +kernel⟩
  obtain ⟨hdiff, hstamp⟩ := timestamps_exact_iff (.withClocks (100, 5) (100, 7) (50, 3)) 1 true
    (100, 5) (50, 3) (100, 7) (by decide) rfl rfl rfl
    ⟨by decide, by decide, by decide, by decide⟩ ⟨by decide, by decide, by decide, by decide⟩
    ⟨by decide, by decide, by decide, by decide⟩
  exact ⟨(hdiff (by decide +kernel)).mpr hsteady,
    (hstamp 0 7 9 (by decide) (by decide +kernel)).mpr ⟨hsteady, by decide +kernel⟩⟩

/-- The midpoint of half a second and one and a half is a whole second without a carry, which the
assertion stops; half a second more than half a second is returned as a billion nanoseconds; between
minus one and one second the midpoint is half a second off; and seconds too far apart overflow. -/
theorem clock_offsets_wrong :
    clockSub (.withClocks (0, 500000000) (1, 500000000) (0, 0)) CLOCK_REALTIME 1 =
      .error (.panic "(0..1_000_000_000).contains(&tv_nsec)") ∧
    translateTimestamp (.withClocks (0, 500000000) (0, 500000000) (0, 0)) (0, 0, 500000000) 1 true =
      .ok (0, 0, 1000000000) ∧
    clockSub (.withClocks (-1, 0) (1, 0) (0, 0)) CLOCK_REALTIME 1 = .ok (0, 500000000) ∧
    clockSub (.withClocks (-2 ^ 63, 0) (2 ^ 63 - 1, 0) (0, 0)) CLOCK_REALTIME 1 =
      .error (.panic "attempt to subtract with overflow") := by
  decide +kernel

end Waypipe
