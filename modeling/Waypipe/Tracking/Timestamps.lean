import Waypipe.Tracking.Device

/-!
# Timestamps

The two instances exchange timestamps of the realtime clock; each converts them from and to the
clock that the local side uses.
-/

namespace Waypipe

def CLOCK_REALTIME : Nat := 0

def CLOCK_MONOTONIC : Nat := 1

/-- Whether a 64-bit number does not overflow. -/
def inI64 (n : Int) : Bool := -2 ^ 63 ≤ n && n < 2 ^ 63

/-- A difference of 64-bit numbers. -/
def subI64 (a b : Int) : Res Int :=
  if inI64 (a - b) then .ok (a - b) else .error (.panic "attempt to subtract with overflow")

/-- Midpoint of two numbers of seconds. -/
def midpointSec (a b : Int) : Res Int :=
  if a < b then (subI64 b a).map fun d => a + d / 2 else (subI64 a b).map fun d => b + d / 2

/-- Midpoint of two timestamps (seconds and nanoseconds). -/
def timespecMidpoint (stamp1 stamp3 : Int × Int) : Res (Int × Int) := do
  let midNsec := if stamp1.2 < stamp3.2 then stamp1.2 + (stamp3.2 - stamp1.2) / 2
    else stamp3.2 + (stamp1.2 - stamp3.2) / 2
  let midSec ← midpointSec stamp1.1 stamp3.1
  let midNsec := if stamp3.1.tmod 2 ≠ stamp1.1.tmod 2 then midNsec + 500000000 else midNsec
  return if 1000000000 < midNsec then (midSec + 1, midNsec - 1000000000) else (midSec, midNsec)

/-- A difference with nonnegative nanoseconds. -/
def borrowNsec (sec nsec : Int) : Res (Int × Int) :=
  if nsec < 0 then (subI64 sec 1).map fun sec => (sec, nsec + 1000000000) else .ok (sec, nsec)

/-- Time difference between two clocks, with nonnegative nanoseconds. -/
def clockSub (sys : System) (clockA clockB : Nat) : Res (Int × Nat) := do
  assert (clockA < 2 ^ 31 && clockB < 2 ^ 31) "called unwrap() on an Err value"
  match sys.clockGettime clockA 0, sys.clockGettime clockB 0, sys.clockGettime clockA 1 with
  | some stamp1, some stamp2, some stamp3 =>
    let avg ← timespecMidpoint stamp1 stamp3
    if !inI64 (avg.1 - stamp2.1) || !inI64 (avg.2 - stamp2.2) then fail "overflow"
    else
      let (sec, nsec) ← borrowNsec (avg.1 - stamp2.1) (avg.2 - stamp2.2)
      assert (0 ≤ nsec && nsec < 1000000000) "(0..1_000_000_000).contains(&tv_nsec)"
      return (sec, nsec.toNat)
  | _, _, _ => fail s!"clock_gettime failed for clock {clockA} or {clockB}"

/-- Add a signed offset to a time; `none` on overflow. -/
def timeAdd (a : Nat × Nat) (b : Int × Nat) : Res (Option (Nat × Nat)) := do
  assert (a.2 < 1000000000 && b.2 < 1000000000) "a.1 < 1_000_000_000 && b.1 < 1_000_000_000"
  let nsec := a.2 + b.2
  let (sec, nsec) := if 1000000000 < nsec then (a.1 + 1, nsec - 1000000000) else (a.1, nsec)
  let total := (sec : Int) + b.1
  return if sec < 2 ^ 64 ∧ 0 ≤ total ∧ total < 2 ^ 64 then some (total.toNat, nsec) else none

/-- Convert a timestamp from the given clock to the realtime clock, or back. -/
def translateTimestamp (sys : System) (stamp : Nat × Nat × Nat) (clockId : Nat)
    (toChannel : Bool) : Res (Nat × Nat × Nat) := do
  let (tvSecHi, tvSecLo, tvNsec) := stamp
  if 1000000000 ≤ tvNsec then fail s!"tv_nsec should be in [0,10^9), got {tvNsec}"
  let diff ← if toChannel then clockSub sys CLOCK_REALTIME clockId
    else clockSub sys clockId CLOCK_REALTIME
  let (newSec, newNsec) ← orErr (← timeAdd (joinU64 tvSecHi tvSecLo, tvNsec) diff) "overflow"
  return ((splitU64 newSec).1, (splitU64 newSec).2, newNsec)

end Waypipe
