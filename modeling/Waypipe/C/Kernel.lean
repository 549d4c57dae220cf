import Waypipe.Kernel

/-!
# Diffs in waypipe-c

The portable kernel of `kernel.c` compares words of eight bytes.  A segment of the diff starts with a
changed word and goes on until more than half of the window has been unchanged; the unchanged words at
its end are given up again.  The ends of a segment are in units of four bytes, as they are for the
spans of `kernel.rs`.

`none` stands for an access outside of an array.  The buffer for the diff is large enough, and only
what is returned of it is modelled.
-/

namespace Waypipe.C

open LeBytes

/-! ## Memory -/

def load (src : List UInt8) (offset n : Nat) : Option (List UInt8) :=
  if offset + n ≤ src.length then some ((src.drop offset).take n) else none

def memcpy (dest : List UInt8) (offset : Nat) (src : List UInt8) : Option (List UInt8) :=
  if offset + src.length ≤ dest.length then
    some (dest.take offset ++ src ++ dest.drop (offset + src.length))
  else none

/-! ## Construction -/

/-- Which of the two inner loops of `run_interval_diff_C` is running. -/
inductive Scan where
  | equal
  /-- The segment starts at the given word; `nskip` words at its end are unchanged. -/
  | window (start : Nat) (segment : List UInt8) (nskip : Nat)

def closeSegment (start : Nat) (segment : List UInt8) (nskip i : Nat) : List UInt8 :=
  u32le (start * 2) ++ u32le ((i - nskip) * 2) ++ segment.take (segment.length - 8 * nskip)

/-- The loops of `run_interval_diff_C`, for the `n` words from word `i` on.  Returns the diff and the
new words of the base. -/
def scanWords (diffWindowSize : Nat) : (n i : Nat) → (mod base : List UInt8) → Scan →
    List UInt8 × List UInt8
  | 0, _, _, _, .equal => ([], [])
  | 0, i, _, _, .window start segment nskip => (closeSegment start segment nskip i, [])
  | n + 1, i, mod, base, .equal =>
    let changedVal := mod.take 8
    if changedVal = base.take 8 then
      let (diff, rest) := scanWords diffWindowSize n (i + 1) (mod.drop 8) (base.drop 8) .equal
      (diff, base.take 8 ++ rest)
    else if n = 0 then
      -- Only the last word has changed.
      (u32le (i * 2) ++ u32le ((i + 1) * 2) ++ changedVal, changedVal)
    else
      let (diff, rest) := scanWords diffWindowSize n (i + 1) (mod.drop 8) (base.drop 8)
        (.window i changedVal 0)
      (diff, changedVal ++ rest)
  | n + 1, i, mod, base, .window start segment nskip =>
    let changedVal := mod.take 8
    let nskip := if changedVal = base.take 8 then nskip + 1 else 0
    if nskip ≤ diffWindowSize / 2 then
      let (diff, rest) := scanWords diffWindowSize n (i + 1) (mod.drop 8) (base.drop 8)
        (.window start (segment ++ changedVal) nskip)
      (diff, changedVal ++ rest)
    else
      let (diff, rest) := scanWords diffWindowSize n (i + 1) (mod.drop 8) (base.drop 8) .equal
      (closeSegment start (segment ++ changedVal) nskip (i + 1) ++ diff, changedVal ++ rest)

/-- Returns the diff and the new base. -/
def runIntervalDiffC (diffWindowSize : Nat) (mod base : List UInt8) (i iEnd : Nat) :
    Option (List UInt8 × List UInt8) :=
  if i < iEnd then do
    let words ← load mod (8 * i) (8 * (iEnd - i))
    let old ← load base (8 * i) (8 * (iEnd - i))
    let (diff, new) := scanWords diffWindowSize (iEnd - i) i words old .equal
    return (diff, ← memcpy base (8 * i) new)
  else some ([], base)

/-- One round of `construct_diff_core`, for words of `1 << alignmentBits` bytes. -/
def diffOne (alignmentBits : Nat) (changed : List UInt8) (p : List UInt8 × List UInt8)
    (e : Nat × Nat) : Option (List UInt8 × List UInt8) := do
  let (diff, base) ← runIntervalDiffC 24 changed p.2 (e.1 >>> alignmentBits) (e.2 >>> alignmentBits)
  return (p.1 ++ diff, base)

/-- `construct_diff_core` with `run_interval_diff_C`. -/
def constructDiffCore (alignmentBits : Nat) (damagedIntervals : List (Nat × Nat))
    (base changed : List UInt8) : Option (List UInt8 × List UInt8) :=
  damagedIntervals.foldlM (diffOne alignmentBits changed) ([], base)

def constructDiffTrailing (size alignmentBits : Nat) (base changed : List UInt8) :
    Option (List UInt8 × List UInt8) := do
  let ntrailing := size % (1 <<< alignmentBits)
  let offset := size - ntrailing
  let old ← load base offset ntrailing
  let new ← load changed offset ntrailing
  if old ≠ new then return (new, ← memcpy base offset new) else return ([], base)

/-- The diff of `worker_run_compress_diff`, whose kernel has words of eight bytes: its main part and
its last bytes.  Returns the new base as well. -/
def constructDiff (damagedEnd : Bool) (damageIntervals : List (Nat × Nat)) (size : Nat)
    (base changed : List UInt8) : Option (List UInt8 × List UInt8 × List UInt8) := do
  let (diff, base) ← constructDiffCore 3 damageIntervals base changed
  if damagedEnd then
    let (tail, base) ← constructDiffTrailing size 3 base changed
    return (diff, tail, base)
  else return (diff, [], base)

/-! ## Application -/

/-- The targets, and what `wp_error` has been given. -/
structure Applied where
  target1 : List UInt8
  target2 : List UInt8
  error : Option String
  deriving DecidableEq, Repr

/-- The loop of `apply_diff`.  Every round goes over three blocks of the diff or more. -/
def copySegments (nblocks ndiffblocks : Nat) (diff : List UInt8) :
    Nat → Nat → List UInt8 → List UInt8 → Option Applied
  | rounds + 1, i, target1, target2 =>
    if i < ndiffblocks then do
      let nfrom := leNat (← load diff (4 * i) 4)
      let nto := leNat (← load diff (4 * (i + 1)) 4)
      let span := (nto + 2 ^ 64 - nfrom) % 2 ^ 64
      if nblocks < nto ∨ nto ≤ nfrom ∨ ndiffblocks ≤ i + (nto - nfrom) then
        let stop := (i + 1 + span) % 2 ^ 64
        return ⟨target1, target2, some (s!"Invalid copy range [{nfrom},{nto}) > {nblocks}=nblocks " ++
          s!"or [{i + 1},{stop}) > {ndiffblocks}=ndiffblocks")⟩
      else
        let bytes ← load diff (4 * (i + 2)) (4 * span)
        copySegments nblocks ndiffblocks diff rounds (i + span + 2)
          (← memcpy target1 (4 * nfrom) bytes) (← memcpy target2 (4 * nfrom) bytes)
    else some ⟨target1, target2, none⟩
  | 0, _, target1, target2 => some ⟨target1, target2, none⟩

def applyDiff (size : Nat) (target1 target2 : List UInt8) (diffsize ntrailing : Nat)
    (diff : List UInt8) : Option Applied := do
  let r ← copySegments (size / 4) (diffsize / 4) diff (diffsize / 4) 0 target1 target2
  if r.error.isSome ∨ ntrailing = 0 then return r
  else if size < ntrailing then none
  else
    let tail ← load diff diffsize ntrailing
    return {
      target1 := ← memcpy r.target1 (size - ntrailing) tail
      target2 := ← memcpy r.target2 (size - ntrailing) tail
      error := none }

end Waypipe.C
