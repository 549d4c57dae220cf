import Waypipe.Tracking.PanicFree
import Waypipe.Updates

/-!
# Ranges of a mirror

Tasks take ranges of a mirror with `get_mut_range` and give them back when they drop them.  The mirror
records the ranges that are in use.  A range that goes over the end of the mirror is refused only after
it has been recorded, and then it stays recorded for ever: the record is exact in the runs without such
requests, and in no others (`mirror_record_exact_iff`).
-/

namespace Waypipe

open Transition List

/-- A mirror of a buffer, and the ranges of it that are in use. -/
structure Mirror where
  regionSize : Nat
  ranges : List (Nat × Nat)
  deriving DecidableEq, Repr

def nonemptyRangeOverlap (a b : Nat × Nat) : Bool := b.1 < a.2 && a.1 < b.2

variable (mir : Mirror)

/-- `get_mut_range`, and the mirror after it.  A range is in use once it overlaps no other, even if it
goes over the end and is not given out. -/
def Mirror.getMutRange (sfd : SfdRef) (start stop : Nat) :
    Option MirrorRange × Mirror :=
  if stop ≤ start then (none, mir)
  else if mir.ranges.any (nonemptyRangeOverlap · (start, stop)) then (none, mir)
  else
    let mir' := { mir with ranges := (start, stop) :: mir.ranges }
    if mir.regionSize < stop then (none, mir')
    else (some { sfd, start, len := stop - start }, mir')

def ISIZE_MAX : Nat := 2 ^ 63 - 1

/-- `extend`; `errno` is the error if the system does not give the memory. -/
def Mirror.extend (newSize : Nat) (errno : Option Nat) : Res Mirror := do
  let size := mir.regionSize
  if ISIZE_MAX < newSize then fail s!"Extending mirror too large: {newSize} >= {ISIZE_MAX}"
  else
    assert mir.ranges.isEmpty "guard.ranges.is_empty()"
    assert (decide (size ≤ newSize)) s!"region_size = {size} <= new_size = {newSize}"
    if newSize = size then return mir
    else
      match errno with
      | none => return { mir with regionSize := newSize }
      | some errno =>
        if size = 0 then fail s!"Failed to mmap size {newSize}: {errno}"
        else fail s!"Failed to remap from size {size} to size {newSize}: {errno}"

/-- What is done when a range is dropped. -/
def Mirror.release (span : Nat × Nat) : Mirror :=
  { mir with ranges := mir.ranges.erase span }

/-- The range is in the mirror and not in use. -/
def Mirror.Grants (start stop : Nat) : Prop :=
  start < stop ∧ stop ≤ mir.regionSize ∧
    ∀ r ∈ mir.ranges, nonemptyRangeOverlap r (start, stop) = false

/-- The range is nonempty and overlaps no range in use. -/
def Mirror.Free (start stop : Nat) : Prop :=
  start < stop ∧ ∀ r ∈ mir.ranges, nonemptyRangeOverlap r (start, stop) = false

/-- A range is given out and recorded, or refused and recorded, or refused. -/
theorem Mirror.getMutRange_eq (sfd : SfdRef) (start stop : Nat) :
    mir.Free start stop ∧ stop ≤ mir.regionSize ∧ mir.getMutRange sfd start stop =
        (some { sfd, start, len := stop - start }, { mir with ranges := (start, stop) :: mir.ranges }) ∨
      mir.Free start stop ∧ mir.regionSize < stop ∧ mir.getMutRange sfd start stop =
        (none, { mir with ranges := (start, stop) :: mir.ranges }) ∨
      ¬ mir.Free start stop ∧ mir.getMutRange sfd start stop = (none, mir) := by
  unfold Mirror.getMutRange
  by_cases hempty : stop ≤ start
  · right; right
    exact ⟨fun h => absurd h.1 (by omega), if_pos hempty⟩
  rw [if_neg hempty]
  by_cases hused : mir.ranges.any (nonemptyRangeOverlap · (start, stop)) = true
  · right; right
    refine ⟨fun h => ?_, if_pos hused⟩
    obtain ⟨r, hr, hover⟩ := any_eq_true.mp hused
    rw [h.2 r hr] at hover
    cases hover
  rw [if_neg hused]
  have hfree : mir.Free start stop := ⟨by omega, by simpa using hused⟩
  by_cases hover : mir.regionSize < stop
  · right; left
    exact ⟨hfree, hover, if_pos hover⟩
  · left
    exact ⟨hfree, by omega, if_neg hover⟩

theorem Mirror.getMutRange_cases (sfd : SfdRef) (start stop : Nat) :
    mir.Grants start stop ∧
        (mir.getMutRange sfd start stop).1 = some { sfd, start, len := stop - start } ∨
      ¬ mir.Grants start stop ∧ (mir.getMutRange sfd start stop).1 = none := by
  rcases mir.getMutRange_eq sfd start stop with ⟨hfree, hle, heq⟩ | ⟨-, hlt, heq⟩ | ⟨hnot, heq⟩
  · exact .inl ⟨⟨hfree.1, hle, hfree.2⟩, congrArg Prod.fst heq⟩
  · exact .inr ⟨fun h => absurd h.2.1 (by omega), congrArg Prod.fst heq⟩
  · exact .inr ⟨fun h => hnot ⟨h.1, h.2.2⟩, congrArg Prod.fst heq⟩

/-! ## Runs -/

/-- A mirror and the spans of the ranges that have been given out and not yet dropped. -/
structure MirrorUse where
  mirror : Mirror
  outstanding : List (Nat × Nat)
  deriving DecidableEq, Repr

inductive MirrorEvent where
  /-- A call of `get_mut_range`. -/
  | request (start stop : Nat)
  /-- A range is dropped. -/
  | drop (span : Nat × Nat)
  /-- A call of `extend`. -/
  | extend (newSize : Nat) (errno : Option Nat)
  deriving DecidableEq, Repr

namespace MirrorUse

def new (size : Nat) : MirrorUse := ⟨⟨size, []⟩, []⟩

/-- One call.  A mirror is extended only when no range of it is outstanding; a run ends with a panic. -/
def step (sfd : SfdRef) (s : MirrorUse) : MirrorEvent → Option MirrorUse
  | .request start stop =>
    let (range, mirror) := s.mirror.getMutRange sfd start stop
    some { mirror, outstanding := (range.map fun m => (m.start, m.start + m.len)).toList ++
      s.outstanding }
  | .drop span =>
    if span ∈ s.outstanding then
      some { mirror := s.mirror.release span, outstanding := s.outstanding.erase span }
    else none
  | .extend newSize errno =>
    if s.outstanding = [] then
      match s.mirror.extend newSize errno with
      | .ok mirror => some { s with mirror }
      | .error (.err _) => some s
      | .error (.panic _) => none
    else none

/-- What the mirror records is what is outstanding, and what follows from it. -/
structure Locked (sfd : SfdRef) (s : MirrorUse) : Prop where
  recorded : s.mirror.ranges = s.outstanding
  disjoint : s.outstanding.Pairwise fun a b => a.2 ≤ b.1 ∨ b.2 ≤ a.1
  inside : ∀ r ∈ s.outstanding, r.1 < r.2 ∧ r.2 ≤ s.mirror.regionSize
  granted : ∀ start stop, start < stop → stop ≤ s.mirror.regionSize →
    (∀ r ∈ s.outstanding, r.2 ≤ start ∨ stop ≤ r.1) →
      (s.mirror.getMutRange sfd start stop).1 = some { sfd, start, len := stop - start }
  extendable : s.outstanding = [] → ∀ newSize errno, s.mirror.regionSize ≤ newSize →
    Res.Clean (s.mirror.extend newSize errno)

/-- A request for a range that could be given out does not go over the end of the mirror. -/
def InBounds (s : MirrorUse) : MirrorEvent → Prop
  | .request start stop => start < stop →
    (∀ r ∈ s.mirror.ranges, nonemptyRangeOverlap r (start, stop) = false) → stop ≤ s.mirror.regionSize
  | _ => True

/-- The part of the lock table that holds in every run: ranges that are recorded are not empty and do not
overlap, and those that are outstanding are recorded and in the mirror. -/
structure Sound (s : MirrorUse) : Prop where
  sublist : s.outstanding.Sublist s.mirror.ranges
  disjoint : s.mirror.ranges.Pairwise fun a b => a.2 ≤ b.1 ∨ b.2 ≤ a.1
  nonempty : ∀ r ∈ s.mirror.ranges, r.1 < r.2
  inside : ∀ r ∈ s.outstanding, r.2 ≤ s.mirror.regionSize

variable {sfd : SfdRef} {s t : MirrorUse} {e : MirrorEvent}

theorem overlap_eq_false {a b : Nat × Nat} :
    nonemptyRangeOverlap a b = false ↔ a.2 ≤ b.1 ∨ b.2 ≤ a.1 := by
  simp only [nonemptyRangeOverlap, Bool.and_eq_false_iff, decide_eq_false_iff_not]
  omega

theorem sound_new (size : Nat) : (new size).Sound :=
  ⟨List.Sublist.refl _, List.Pairwise.nil, nofun, nofun⟩

/-- What `extend` leaves of a mirror. -/
theorem ranges_extend {mir mir' : Mirror} {newSize : Nat} {errno : Option Nat}
    (h : mir.extend newSize errno = .ok mir') : mir'.ranges = mir.ranges := by
  unfold Mirror.extend at h
  dsimp only at h
  by_cases hbig : ISIZE_MAX < newSize
  · rw [if_pos hbig] at h
    cases h
  rw [if_neg hbig] at h
  obtain ⟨_, -, h⟩ := Res.bind_eq_ok.mp h
  obtain ⟨_, -, h⟩ := Res.bind_eq_ok.mp h
  by_cases hsame : newSize = mir.regionSize
  · rw [if_pos hsame] at h
    cases h
    rfl
  rw [if_neg hsame] at h
  cases errno with
  | none =>
    cases h
    rfl
  | some errno =>
    dsimp only at h
    split at h
    · cases h
    · cases h

theorem extend_clean {mir : Mirror} (hranges : mir.ranges = []) {newSize : Nat}
    (hle : mir.regionSize ≤ newSize) (errno : Option Nat) : Res.Clean (mir.extend newSize errno) := by
  unfold Mirror.extend
  dsimp only
  by_cases hbig : ISIZE_MAX < newSize
  · rw [if_pos hbig]
    exact .fail _
  rw [if_neg hbig, assert_of (by rw [hranges]; rfl), Res.ok_bind, assert_of (decide_eq_true hle),
    Res.ok_bind]
  by_cases hsame : newSize = mir.regionSize
  · rw [if_pos hsame]
    exact .ok _
  rw [if_neg hsame]
  cases errno with
  | none => exact .ok _
  | some errno =>
    dsimp only
    split
    · exact .fail _
    · exact .fail _

/-- What a request can do. -/
theorem step_request {start stop : Nat} (h : step sfd s (.request start stop) = some t) :
    s.mirror.Free start stop ∧ stop ≤ s.mirror.regionSize ∧ t =
        ⟨{ s.mirror with ranges := (start, stop) :: s.mirror.ranges }, (start, stop) :: s.outstanding⟩ ∨
      s.mirror.Free start stop ∧ s.mirror.regionSize < stop ∧ t =
        ⟨{ s.mirror with ranges := (start, stop) :: s.mirror.ranges }, s.outstanding⟩ ∨
      ¬ s.mirror.Free start stop ∧ t = s := by
  rcases s.mirror.getMutRange_eq sfd start stop with ⟨hfree, hle, heq⟩ | ⟨hfree, hlt, heq⟩ | ⟨hnot, heq⟩
  · left
    have hlt := hfree.1
    rw [step, heq] at h
    simp only [Option.map_some, Option.toList_some, singleton_append,
      show start + (stop - start) = stop by omega] at h
    exact ⟨hfree, hle, (Option.some.inj h).symm⟩
  · right; left
    rw [step, heq] at h
    exact ⟨hfree, hlt, (Option.some.inj h).symm⟩
  · right; right
    rw [step, heq] at h
    exact ⟨hnot, (Option.some.inj h).symm⟩

theorem step_drop {span : Nat × Nat} (h : step sfd s (.drop span) = some t) :
    t = ⟨s.mirror.release span, s.outstanding.erase span⟩ := by
  rw [step] at h
  split at h
  · exact (Option.some.inj h).symm
  · cases h

theorem step_extend {newSize : Nat} {errno : Option Nat}
    (h : step sfd s (.extend newSize errno) = some t) :
    s.outstanding = [] ∧ t.mirror.ranges = s.mirror.ranges ∧ t.outstanding = s.outstanding := by
  rw [step] at h
  split at h
  · next hnone =>
    split at h
    · next mirror hmirror =>
      cases h
      exact ⟨hnone, ranges_extend hmirror, rfl⟩
    · cases h
      exact ⟨hnone, rfl, rfl⟩
    · cases h
  · cases h

theorem Free.disjoint {mir : Mirror} {start stop : Nat} (h : mir.Free start stop) :
    ∀ r ∈ mir.ranges, stop ≤ r.1 ∨ r.2 ≤ start := fun r hr =>
  (overlap_eq_false.mp (h.2 r hr)).symm

theorem Sound.step (h : s.Sound) (hstep : step sfd s e = some t) : t.Sound := by
  cases e with
  | request start stop =>
    rcases step_request hstep with ⟨hfree, hle, rfl⟩ | ⟨hfree, -, rfl⟩ | ⟨-, rfl⟩
    · exact ⟨h.sublist.cons_cons _, pairwise_cons.mpr ⟨Free.disjoint hfree, h.disjoint⟩,
        forall_mem_cons.mpr ⟨hfree.1, h.nonempty⟩, forall_mem_cons.mpr ⟨hle, h.inside⟩⟩
    · exact ⟨h.sublist.cons _, pairwise_cons.mpr ⟨Free.disjoint hfree, h.disjoint⟩,
        forall_mem_cons.mpr ⟨hfree.1, h.nonempty⟩, h.inside⟩
    · exact h
  | drop span =>
    rw [step_drop hstep]
    exact ⟨h.sublist.erase span, h.disjoint.sublist erase_sublist,
      fun r hr => h.nonempty r (mem_of_mem_erase hr),
      fun r hr => h.inside r (mem_of_mem_erase hr)⟩
  | extend newSize errno =>
    obtain ⟨hnone, hranges, hsame⟩ := step_extend hstep
    refine ⟨?_, ?_, ?_, ?_⟩
    · rw [hranges, hsame]
      exact h.sublist
    · rw [hranges]
      exact h.disjoint
    · rw [hranges]
      exact h.nonempty
    · rw [hsame, hnone]
      exact nofun

/-- An exact record makes the locks work. -/
theorem Sound.locked (h : s.Sound) (hrec : s.mirror.ranges = s.outstanding) : s.Locked sfd := by
  refine ⟨hrec, h.disjoint.sublist h.sublist, fun r hr => ⟨h.nonempty r (h.sublist.subset hr),
    h.inside r hr⟩, fun start stop hlt hle hfree => ?_, fun hnone newSize errno hle => ?_⟩
  · rcases s.mirror.getMutRange_cases sfd start stop with ⟨-, hsome⟩ | ⟨hnot, -⟩
    · exact hsome
    · refine absurd ⟨hlt, hle, fun r hr => ?_⟩ hnot
      rw [hrec] at hr
      exact overlap_eq_false.mpr (hfree r hr)
  · exact extend_clean (hrec.trans hnone) hle errno

/-- A step keeps an exact record if and only if it is in bounds. -/
theorem recorded_step (hrec : s.mirror.ranges = s.outstanding) (hstep : step sfd s e = some t) :
    t.mirror.ranges = t.outstanding ↔ s.InBounds e := by
  cases e with
  | request start stop =>
    rcases step_request hstep with ⟨hfree, hle, rfl⟩ | ⟨hfree, hlt, rfl⟩ | ⟨hnot, rfl⟩
    · exact iff_of_true (congrArg (List.cons (start, stop)) hrec) fun _ _ => hle
    · -- the range is in the record and not outstanding
      refine iff_of_false (fun h => ?_) fun h => absurd (h hfree.1 hfree.2) (by omega)
      have hlen : ((start, stop) :: s.mirror.ranges).length = s.outstanding.length :=
        congrArg List.length h
      rw [length_cons, hrec] at hlen
      omega
    · exact iff_of_true hrec fun hlt hfree => absurd ⟨hlt, hfree⟩ hnot
  | drop span =>
    rw [step_drop hstep]
    exact iff_of_true (congrArg (List.erase · span) hrec) trivial
  | extend newSize errno =>
    obtain ⟨-, hranges, hsame⟩ := step_extend hstep
    exact iff_of_true (hranges.trans (hrec.trans hsame.symm)) trivial

theorem locked_along_iff (events : List MirrorEvent) (h : s.Sound)
    (hrec : s.mirror.ranges = s.outstanding) :
    Along (step sfd) (fun s e => ∀ t, step sfd s e = some t → t.Locked sfd) s events ↔
      Along (step sfd) InBounds s events := by
  induction events generalizing s with
  | nil => exact Iff.rfl
  | cons e events ih =>
    constructor
    · rintro ⟨hlocked, hrest⟩
      have hbounds : s.InBounds e := by
        cases hstep : step sfd s e with
        | some t => exact (recorded_step hrec hstep).mp (hlocked t hstep).recorded
        | none =>
          cases e with
          | request start stop => cases hstep
          | drop span => trivial
          | extend newSize errno => trivial
      refine ⟨hbounds, fun t ht => ?_⟩
      exact (ih (h.step ht) ((recorded_step hrec ht).mpr hbounds)).mp (hrest t ht)
    · rintro ⟨hbounds, hrest⟩
      have hnext : ∀ t, step sfd s e = some t → t.mirror.ranges = t.outstanding := fun t ht =>
        (recorded_step hrec ht).mpr hbounds
      exact ⟨fun t ht => (h.step ht).locked (hnext t ht),
        fun t ht => (ih (h.step ht) (hnext t ht)).mpr (hrest t ht)⟩

end MirrorUse

/-- Outstanding ranges are disjoint and in the mirror, in every run; and the lock table is as it
should be in every state of a run if and only if no request for a free range goes over the end of
the mirror. -/
theorem mirror_record_exact_iff (sfd : SfdRef) (size : Nat) (events : List MirrorEvent) :
    (∀ s, run (MirrorUse.step sfd) (.new size) events = some s →
      (s.outstanding.Pairwise fun a b => a.2 ≤ b.1 ∨ b.2 ≤ a.1) ∧
        ∀ r ∈ s.outstanding, r.1 < r.2 ∧ r.2 ≤ s.mirror.regionSize) ∧
      (MirrorUse.new size).Locked sfd ∧
      (Along (MirrorUse.step sfd)
          (fun s e => ∀ t, MirrorUse.step sfd s e = some t → t.Locked sfd) (.new size) events ↔
        Along (MirrorUse.step sfd) MirrorUse.InBounds (.new size) events) := by
  have hnew := MirrorUse.sound_new size
  refine ⟨fun s hrun => ?_, hnew.locked rfl, MirrorUse.locked_along_iff events hnew rfl⟩
  have hsound : s.Sound := run_invariant (fun s e t hs _ hstep => hs.step hstep) hnew
    (Along.of_forall fun _ _ => trivial) hrun
  exact ⟨hsound.disjoint.sublist hsound.sublist, fun r hr =>
    ⟨hsound.nonempty r (hsound.sublist.subset hr), hsound.inside r hr⟩⟩

/-- A request over the end of the mirror is refused, and after that so is a request inside it; nothing is
outstanding, and extending the mirror panics. -/
theorem refused_range_recorded :
    run (MirrorUse.step 0) (.new 8) [.request 4 12] = some ⟨⟨8, [(4, 12)]⟩, []⟩ ∧
      ((Mirror.mk 8 [(4, 12)]).getMutRange 0 0 8).1.isNone = true ∧
      (Mirror.mk 8 [(4, 12)]).extend 16 none = .error (.panic "guard.ranges.is_empty()") := by
  decide +kernel

end Waypipe
