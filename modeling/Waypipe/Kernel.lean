import Waypipe.Incoming
import Waypipe.Lib.Patch

/-!
# The diff kernel

How `kernel.rs` finds what has changed in a buffer.  The target and the reference are compared in
lines of 64 bytes.  A diff is a list of spans, each with its ends in words of four bytes and its new
contents; the ends stand in front of the contents, and are filled in when the span ends.  A span
ends with the input, or when more than `skip_gap_len` words in a row are unchanged; the unchanged
words at its end are then given up again.  Every changed line is copied to the reference.
-/

namespace Waypipe

open LeBytes

/-- `copy_from_slice` to the part of a buffer that starts at `start`. -/
def writeAt (buf : List UInt8) (start : Nat) (bytes : List UInt8) : Res (List UInt8) :=
  if start + bytes.length ≤ buf.length then
    .ok (buf.take start ++ bytes ++ buf.drop (start + bytes.length))
  else .error (.panic "range end index out of range for slice")

/-- A sum of `u32` values. -/
def checkedU32 (n : Nat) : Res Nat :=
  if n < 2 ^ 32 then .ok n else .error (.panic "attempt to add with overflow")

/-! ## The iterators -/

/-- What an iterator yields: a line of the target, and what the reference has in its place. -/
structure Line where
  values : List UInt8
  refvals : List UInt8
  length_values : values.length = 64
  length_refvals : refvals.length = 64

/-- The lines of a target and a reference.  An iterator reads a line of the reference before it is
stored to, so that they can all be read first. -/
def linesOf : (n : Nat) → (target reference : List UInt8) → target.length = 64 * n →
    reference.length = 64 * n → List Line
  | 0, _, _, _, _ => []
  | n + 1, target, reference, ht, hr =>
    { values := target.take 64
      refvals := reference.take 64
      length_values := by rw [List.length_take]; omega
      length_refvals := by rw [List.length_take]; omega } ::
    linesOf n (target.drop 64) (reference.drop 64) (by rw [List.length_drop]; omega)
      (by rw [List.length_drop]; omega)

/-- `ShmIterator::new` and `LocalIterator::new`.  The former has the target in words. -/
def newIterator (target reference : List UInt8) : Res (List Line) :=
  if h : target.length = reference.length then
    if h' : target.length % 64 = 0 then
      .ok (linesOf (target.length / 64) target reference (by omega) (by omega))
    else .error (.panic "assertion failed: target.len() % 64 == 0")
  else .error (.panic "assertion failed: target.len() == reference.len()")

/-! ## The portable kernel -/

/-- The state of the two nested loops.  `diff` starts at `base` in the buffer; `dc` and `idc` count
words.  `reference` is the part of the reference that the iterator has passed. -/
structure Encoder where
  buf : List UInt8
  base : Nat
  dc : Nat
  idc : Nat
  lineNo : Nat
  reference : List UInt8

namespace Encoder

variable (e : Encoder)

/-- The head of the outer loop: room for the ends of a span. -/
def openSpan : Res Encoder := do
  assert (decide (e.base + 8 ≤ e.buf.length)) "mid > len"
  return { e with base := e.base + 8, dc := e.dc + 2, idc := e.dc + 2 }

/-- A line without changes between two spans. -/
def skipLine (line : Line) : Encoder :=
  { e with lineNo := e.lineNo + 1, reference := e.reference ++ line.refvals }

/-- The first changed line of a span; returns the start of the span as well. -/
def firstLine (refbaseBlock : Nat) (line : Line) : Res (Encoder × Nat) := do
  let leadingUnchanged := if line.values.take 32 = line.refvals.take 32 then 8 else 0
  let buf ← writeAt e.buf e.base (line.values.drop (4 * leadingUnchanged))
  let start ← checkedU32 (16 * e.lineNo + leadingUnchanged + refbaseBlock)
  return ({ e with
    buf
    dc := e.dc + (16 - leadingUnchanged)
    lineNo := e.lineNo + 1
    reference := e.reference ++ line.values }, start)

/-- A later line of a span. -/
def nextLine (line : Line) : Res Encoder := do
  let written ← checkedSub e.dc e.idc
  let buf ← writeAt e.buf (e.base + 4 * written) line.values
  return { e with
    buf
    dc := e.dc + 16
    lineNo := e.lineNo + 1
    reference := e.reference ++ line.values }

/-- The end of a span: `trailing` words are given up, and the ends are filled in.  Returns the end
of the span as well. -/
def closeSpan (refbaseBlock start trailing : Nat) : Res (Encoder × Nat) := do
  let dc ← checkedSub e.dc trailing
  let blocks ← checkedSub (16 * e.lineNo) trailing
  let stop ← checkedU32 (blocks % 2 ^ 32 + refbaseBlock)
  let ctrl ← checkedSub e.base 8
  let buf ← writeAt e.buf ctrl (u32le start ++ u32le stop)
  return ({ e with buf, dc }, stop)

/-- `diff = &mut diff[(4 * (end - start))..]`, after which the outer loop goes on. -/
def advance (start stop : Nat) : Res Encoder := do
  let words ← checkedSub stop start
  assert (decide (e.base + 4 * words ≤ e.buf.length)) "range start index out of range for slice"
  return { e with base := e.base + 4 * words }

end Encoder

/-- Which of the two inner loops is running. -/
inductive Scan where
  | unchanged
  | changed (trailingUnchanged start : Nat)

/-- The loops of `construct_diff_segment_two_iter`. -/
def encode (skipGapLen refbaseBlock : Nat) : List Line → Scan → Encoder → Res Encoder
  | [], .unchanged, e => do return { e with dc := ← checkedSub e.dc 2 }
  | [], .changed trailing start, e => do return (← e.closeSpan refbaseBlock start trailing).1
  | line :: lines, .unchanged, e =>
    if line.values = line.refvals then
      encode skipGapLen refbaseBlock lines .unchanged (e.skipLine line)
    else do
      let (e, start) ← e.firstLine refbaseBlock line
      encode skipGapLen refbaseBlock lines (.changed 0 start) e
  | line :: lines, .changed trailing start, e => do
    let clear := (decide (line.values = line.refvals)).toNat
    let trailing := trailing * clear + clear * 16
    let e ← e.nextLine line
    if skipGapLen < trailing then
      let (e, stop) ← e.closeSpan refbaseBlock start trailing
      let e ← e.advance start stop
      let e ← e.openSpan
      encode skipGapLen refbaseBlock lines .unchanged e
    else encode skipGapLen refbaseBlock lines (.changed trailing start) e

/-- Returns the length of the diff, the diff buffer and the reference. -/
def constructDiffSegmentTwoIter (diff : List UInt8) (lines : List Line)
    (referenceBase skipGapLen : Nat) : Res (Nat × List UInt8 × List UInt8) := do
  assert (referenceBase % 4 == 0) "reference_base % 4 == 0"
  assert (decide (16 ≤ skipGapLen)) "skip_gap_len >= 16"
  let e ← Encoder.openSpan {
    buf := diff
    base := 0
    dc := 0
    idc := 0
    lineNo := 0
    reference := [] }
  let e ← encode skipGapLen (referenceBase / 4) lines .unchanged e
  if e.dc * 4 < 2 ^ 32 then return (e.dc * 4, e.buf, e.reference)
  else .error (.panic "called `Result::unwrap()` on an `Err` value: TryFromIntError(())")

/-! ## Several intervals -/

structure DiffProgress where
  outputLen : Nat
  diff : List UInt8
  reference : List UInt8

/-- One round of the loop of `construct_diff`.  The diff buffer starts at a multiple of four, the
target and the reference at multiples of 64, so that what the kernel asserts of the addresses of
their parts is asserted of the offsets here. -/
def diffInterval (target : List UInt8) (referenceBase skipGapLen : Nat) (p : DiffProgress)
    (intv : Nat × Nat) : Res DiffProgress := do
  assert (intv.1 % 64 == 0 && intv.2 % 64 == 0) "intv.0 % 64 == 0 && intv.1 % 64 == 0"
  assert (decide (referenceBase ≤ intv.1) && decide (intv.1 < intv.2))
    "reference_base <= intv.0 && intv.0 < intv.1"
  assert (decide (p.outputLen ≤ p.diff.length)) "range start index out of range for slice"
  -- `get_u32` leaves out what is over at the end of the mapping.
  let words := target.take (4 * (target.length / 4))
  let values ← slice words (4 * (intv.1 / 4)) (4 * (intv.2 / 4))
  let lo := intv.1 - referenceBase
  let hi := intv.2 - referenceBase
  let refvals ← slice p.reference lo hi
  assert (lo % 64 == 0) "reference.as_ptr() as usize % 64 == 0"
  let lines ← newIterator values refvals
  assert (p.outputLen % 4 == 0) "diff.as_ptr() as usize % 4 == 0"
  let (n, diff, refvals) ← constructDiffSegmentTwoIter (p.diff.drop p.outputLen) lines intv.1
    skipGapLen
  return {
    outputLen := p.outputLen + n
    diff := p.diff.take p.outputLen ++ diff
    reference := p.reference.take lo ++ refvals ++ p.reference.drop hi }

/-- `construct_diff`, for any length of the gap. -/
def constructDiffWith (skipGapLen : Nat) (diff target : List UInt8) (intervals : List (Nat × Nat))
    (reference : List UInt8) (referenceBase : Nat) : Res DiffProgress :=
  intervals.foldlM (diffInterval target referenceBase skipGapLen)
    { outputLen := 0, diff, reference }

def constructDiff : List UInt8 → List UInt8 → List (Nat × Nat) → List UInt8 → Nat →
    Res DiffProgress :=
  constructDiffWith 16

/-! ## The last bytes -/

/-- Returns whether the bytes have changed, the end of the diff buffer and the reference. -/
def copyTailIfDiff (diffTail target : List UInt8) (tailLen : Nat) (reference : List UInt8) :
    Res (Bool × List UInt8 × List UInt8) := do
  assert (reference.length == tailLen) "reference.len() == tail_len"
  let start ← checkedSub target.length tailLen
  assert (decide (tailLen ≤ diffTail.length)) "index out of bounds"
  let tail := target.drop start
  return (decide (tail ≠ reference), tail ++ diffTail.drop tailLen, tail)

/-- The first part of `diff_inner`, where no other task has parts of the mirror.  Returns the length of
the diff, the diff buffer and the mirror. -/
def diffRegion (task : DiffTask) (dst target mirror : List UInt8) :
    Res (Nat × List UInt8 × List UInt8) :=
  match task.region with
  | none => .ok (0, dst, mirror)
  | some (start, stop) => do
    assert (start % 64 == 0) "start % 64 == 0"
    assert (stop % 64 == 0) "end % 64 == 0"
    if stop ≤ start ∨ mirror.length < stop then fail "Failed to acquire mirror for diff"
    let p ← constructDiff dst target task.intervals ((mirror.drop start).take (stop - start)) start
    return (p.outputLen, p.diff, mirror.take start ++ p.reference ++ mirror.drop stop)

/-- Returns the lengths of the two parts of the diff, the diff buffer and the mirror. -/
def diffInner (task : DiffTask) (dst target mirror : List UInt8) :
    Res (Nat × Nat × List UInt8 × List UInt8) := do
  let (diffLen, dst, mirror) ← diffRegion task dst target mirror
  if 0 < task.trailing then
    let start ← checkedSub target.length task.trailing
    if mirror.length < target.length then fail "Failed to acquire trailing mirror"
    let (tailChanged, diffTail, tail) ← copyTailIfDiff (dst.drop diffLen) target task.trailing
      ((mirror.drop start).take task.trailing)
    return (diffLen, if tailChanged then task.trailing else 0, dst.take diffLen ++ diffTail,
      mirror.take start ++ tail ++ mirror.drop target.length)
  else return (diffLen, 0, dst, mirror)

end Waypipe
