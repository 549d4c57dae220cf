import Waypipe.Util

/-!
# Damage intervals

`damage.rs`: the bytes of a buffer that a list of rectangles covers, as a sorted list of intervals
(`computeDamagedSegments`), and the union of two such lists (`unionDamage`).
-/

namespace Waypipe

structure Rect where
  x1 : Nat
  x2 : Nat
  y1 : Nat
  y2 : Nat
  deriving DecidableEq, Repr

def USIZE_MAX : Nat := 2 ^ 64 - 1

def saturatingAdd (a b : Nat) : Nat := min (a + b) USIZE_MAX

def saturatingMul (a b : Nat) : Nat := min (a * b) USIZE_MAX

/-- The value of a sum or product of `usize` numbers, which must not overflow. -/
def checkedUsize (n : Nat) : Res Nat :=
  if n ≤ USIZE_MAX then .ok n else .error (.panic "arithmetic overflow")

/-- Where the pixels of a buffer are in memory. -/
structure Placement where
  offset : Nat
  stride : Nat
  bpp : Nat
  alignBits : Nat
  deriving DecidableEq, Repr

variable (p : Placement)

def boundingInterval (r : Rect) : Nat × Nat :=
  (saturatingAdd (saturatingAdd p.offset (saturatingMul r.y1 p.stride)) (saturatingMul r.x1 p.bpp),
    saturatingAdd (saturatingAdd p.offset (saturatingMul r.y2 p.stride)) (saturatingMul r.x2 p.bpp))

def alignDown (x alignBits : Nat) : Nat := x / 2 ^ alignBits * 2 ^ alignBits

def alignUp (x alignBits : Nat) : Res Nat := checkedUsize (align x (2 ^ alignBits))

def alignedBoundingInterval (r : Rect) : Res (Nat × Nat) := do
  let x := boundingInterval p r
  return (alignDown x.1 p.alignBits, ← alignUp x.2 p.alignBits)

/-! ## Rows of a group of rectangles -/

/-- An entry of the heap: where the next segment of a rectangle starts, and which row it is in.
Without a row, all rows of the rectangle are one segment. -/
structure RowEntry where
  start : Nat
  index : Nat
  rect : Rect
  row : Option Nat
  deriving DecidableEq, Repr

/-- The entry that the heap yields before the other: the one that starts first, and of those the
one with the largest index. -/
def RowEntry.before (a b : RowEntry) : Bool :=
  a.start < b.start || (a.start == b.start && b.index < a.index)

/-- Take the first entry off the heap. -/
def popFirst : List RowEntry → Option (RowEntry × List RowEntry)
  | [] => none
  | e :: es => match popFirst es with
    | none => some (e, [])
    | some (f, rest) => if f.before e then some (f, e :: rest) else some (e, f :: rest)

/-- The heap entry for a row of a rectangle; `row` counts from the top of the rectangle. -/
def rowEntry (index : Nat) (rect : Rect) (row : Option Nat) : Res RowEntry := do
  let pos ← checkedUsize (p.offset + (rect.y1 + row.getD 0) * p.stride + rect.x1 * p.bpp)
  return { start := alignDown pos p.alignBits, index, rect, row }

/-- End of the segment that an entry stands for. -/
def RowEntry.stop (e : RowEntry) : Res Nat := do
  let lastRow ← match e.row with
    | none => checkedSub e.rect.y2 1
    | some row => pure (e.rect.y1 + row)
  alignUp (← checkedUsize (p.offset + lastRow * p.stride + e.rect.x2 * p.bpp)) p.alignBits

/-- Add a segment to the one being built, or start a new one after a gap. -/
def joinSegment (minGap : Nat) (cur : Option (Nat × Nat)) (seg : Nat × Nat) :
    Option (Nat × Nat) × List (Nat × Nat) :=
  match cur with
  | none => (some seg, [])
  | some cv =>
    if seg.1 ≤ cv.2 ∨ seg.1 - cv.2 < minGap then (some (cv.1, max cv.2 seg.2), [])
    else (some seg, [cv])

/-- Put the next row of a rectangle back on the heap, if there is one. -/
def pushNextRow (e : RowEntry) (heap : List RowEntry) : Res (List RowEntry) :=
  match e.row with
  | none => .ok heap
  | some row =>
    if row + 1 < e.rect.y2 - e.rect.y1 then
      (rowEntry p e.index e.rect (some (row + 1))).map (· :: heap)
    else .ok heap

/-- The loop of `process_group`.  Every iteration takes one segment off the heap; `fuel` is the
number of segments. -/
def processRows (p : Placement) (minGap : Nat) (bound : Nat × Nat) :
    Nat → List RowEntry → Option (Nat × Nat) → Nat → Res (List (Nat × Nat))
  | 0, _, cur, _ => .ok cur.toList
  | fuel + 1, heap, cur, work =>
    match popFirst heap with
    | none => .ok cur.toList
    | some (e, heap) => do
      let stop ← e.stop p
      let (cur, pushed) := joinSegment minGap cur (e.start, stop)
      let heap ← pushNextRow p e heap
      -- bail out when this takes longer than comparing the whole interval would
      let work := work + Nat.log2 (max 16 heap.length)
      if (bound.2 - bound.1) / 8 < work then
        return pushed ++ [((cur.map (·.1)).getD 0, bound.2)]
      return pushed ++ (← processRows p minGap bound fuel heap cur work)

/-- Number of segments of a rectangle. -/
def RowEntry.segments (e : RowEntry) : Nat :=
  match e.row with
  | none => 1
  | some _ => max 1 (e.rect.y2 - e.rect.y1)

def processGroup (minGap : Nat) (rects : List Rect) (bound : Nat × Nat) :
    Res (List (Nat × Nat)) := do
  let heap ← rects.zipIdx.mapM fun (r, i) => do
    let width ← checkedUsize ((r.x2 - r.x1) * p.bpp)
    rowEntry p i r (if p.stride - minGap < width then none else some 0)
  processRows p minGap bound ((heap.map RowEntry.segments).sum + 1) heap none 0

/-- Put rectangles that are close together into groups, with the region that each group covers. -/
def groupRects (p : Placement) (minGap : Nat) :
    List Rect → List Rect → Nat × Nat → Res (List (List Rect × (Nat × Nat)))
  | [], group, region => .ok [(group, region)]
  | r :: rest, group, region => do
    let b ← alignedBoundingInterval p r
    if b.1 ≤ region.2 ∨ b.1 - region.2 < minGap then
      groupRects p minGap rest (group ++ [r]) (region.1, max region.2 b.2)
    else return (group, region) :: (← groupRects p minGap rest [r] b)

/-- The rectangles are sorted by where they start; the program's sort is not stable, so the order
of rectangles that start at the same byte is the one this sort gives. -/
def computeDamagedSegments (rects : List Rect) (p : Placement) (minGap : Nat) :
    Res (List (Nat × Nat)) :=
  match rects.mergeSort fun a b => (boundingInterval p a).1 ≤ (boundingInterval p b).1 with
  | [] => .ok []
  | r :: rest => do
    assert (0 < p.bpp) "bpp > 0"
    rects.forM fun r => assert (r.x1 < r.x2 && r.y1 < r.y2) "r.x1 < r.x2 && r.y1 < r.y2"
    let spans ← groupRects p minGap rest [r] (← alignedBoundingInterval p r)
    return (← spans.mapM fun (group, region) => processGroup p minGap group region).flatten

/-! ## Union of interval lists -/

/-- Whether all intervals are nonempty with ends at multiples of `2 ^ alignBits`, in order, and
with gaps of at least `minGap` between them. -/
def validateOutput (a : List (Nat × Nat)) (alignBits minGap : Nat) : Bool :=
  a.all (fun x => x.1 < x.2 && x.1 % 2 ^ alignBits == 0 && x.2 % 2 ^ alignBits == 0) &&
    (a.zip a.tail).all fun (x, y) => x.2 + minGap ≤ y.1

/-- Both lists in one, by starting points; on a tie the interval of the first list comes first. -/
def mergeByStart (a b : List (Nat × Nat)) : List (Nat × Nat) :=
  a.merge b fun x y => x.1 ≤ y.1

/-- Join the intervals of a sorted list that overlap or are closer than `minGap`. -/
def closeGaps (minGap : Nat) : List (Nat × Nat) → Option (Nat × Nat) → List (Nat × Nat)
  | [], last => last.toList
  | nxt :: rest, last =>
    let (last, pushed) := joinSegment minGap last nxt
    pushed ++ closeGaps minGap rest last

def unionDamage (a b : List (Nat × Nat)) (minGap : Nat) : Res (List (Nat × Nat)) := do
  assert (validateOutput a 0 minGap) "validate_output(a, 0, min_gap).is_ok()"
  assert (validateOutput b 0 minGap) "validate_output(b, 0, min_gap).is_ok()"
  return closeGaps minGap (mergeByStart a b) none

end Waypipe
