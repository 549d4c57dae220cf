import Waypipe.Lib.Separated

/-!
# Merging damage in waypipe-c

`merge_mergesort` of `interval.c` adds rectangles of damage, as rows of intervals, to a sorted list of
intervals.  The lists that are still to be merged are in one buffer, each followed by a sentinel, and
a stack has their places; two lists are merged when the upper one is more than half as long as the
lower one.

All values are `int`, and C does not define what a sum or a product is that is not one.  The
functions take that from a parameter, `Overflow`; with `undefinedOverflow`, they return `none` if the
behaviour is undefined.  `none` also stands for an access outside of an array.  Memory is always
allocated.

`mergeMergesort_covers_iff` says which rectangles are merged as required.
-/

namespace Waypipe.C

open Ranges

/-! ## Integers -/

def INT32_MIN : Int := -2147483648

def INT32_MAX : Int := 2147483647

def IsInt32 (x : Int) : Prop := INT32_MIN ≤ x ∧ x ≤ INT32_MAX

instance (x : Int) : Decidable (IsInt32 x) := inferInstanceAs (Decidable (_ ∧ _))

/-- The result of an operation on `int` with the given exact result. -/
abbrev Overflow := Int → Option Int

def undefinedOverflow : Overflow := fun x => if IsInt32 x then some x else none

/-- What compiled code mostly does. -/
def wrappingOverflow : Overflow := fun x => some (x.bmod (2 ^ 32))

/-- `(x >> bits) << bits`. -/
def alignDown (bits : Nat) (x : Int) : Int := x / 2 ^ bits * 2 ^ bits

/-! ## Lists of intervals -/

/-- `struct interval`: the start and the end. -/
abbrev Interval := Int × Int

structure ExtInterval where
  start : Int
  width : Int
  rep : Int
  stride : Int
  deriving DecidableEq, Repr

def sentinel : Interval := (INT32_MAX, INT32_MAX)

/-- What is done with the selected interval: it is added to `c_list`, or the last interval there is
made longer. -/
def addSelected (overflow : Overflow) (margin cursor : Int) (sel : Interval) (c : List Interval) :
    Option (List Interval) := do
  let free ← overflow (cursor + margin)
  if free ≤ sel.1 then return c ++ [sel]
  else
    let last ← c.getLast?
    return c.dropLast ++ [(last.1, max cursor sel.2)]

/-- The loop of `stream_merge`, from the next elements of `a_list` and `b_list` on.  Every round reads
one more element. -/
def streamMergeLoop (overflow : Overflow) (margin : Int) :
    Nat → List Interval → List Interval → Int → List Interval → Option (List Interval)
  | rounds + 1, x :: a, y :: b, cursor, c =>
    if x.1 = INT32_MAX ∧ y.1 = INT32_MAX then some c
    else if x.1 < y.1 then do
      let c ← addSelected overflow margin cursor x c
      streamMergeLoop overflow margin rounds a (y :: b) (max cursor x.2) c
    else do
      let c ← addSelected overflow margin cursor y c
      streamMergeLoop overflow margin rounds (x :: a) b (max cursor y.2) c
  | _, _, _, _, _ => none

/-- `stream_merge`: what it writes to `c_list`. -/
def streamMerge (overflow : Overflow) (margin : Int) (a b : List Interval) :
    Option (List Interval) := do
  let c ← streamMergeLoop overflow margin (a.length + b.length) a b INT32_MIN []
  return c ++ [sentinel]

structure MergeStackElem where
  offset : Nat
  count : Nat
  deriving DecidableEq, Repr

/-- `fix_merge_stack_property`, for a stack that is given from its top on.  Returns the stack, the
buffer and the number of absorbed intervals. -/
def fixMergeStackProperty (overflow : Overflow) (margin : Int) (forceCompact : Bool) :
    MergeStackElem → List MergeStackElem → List Interval → Int →
      Option (List MergeStackElem × List Interval × Int)
  | top, [], base, absorbed => some ([top], base, absorbed)
  | top, nxt :: stack, base, absorbed =>
    if 2 * top.count ≤ nxt.count ∧ forceCompact = false then
      some (top :: nxt :: stack, base, absorbed)
    else do
      let temp ← streamMerge overflow margin (base.drop top.offset) (base.drop nxt.offset)
      let xs := temp.length - 1
      fixMergeStackProperty overflow margin forceCompact { offset := nxt.offset, count := xs } stack
        (base.take nxt.offset ++ temp) (absorbed + (top.count + nxt.count - xs))

/-! ## Rows of intervals -/

variable (overflow : Overflow) (margin : Int) (bits : Nat)

variable (e : ExtInterval)

/-- One interval of a row, with its ends rounded. -/
def roundedInterval (ir : Int) :
    Option Interval := do
  let offset ← overflow (ir * e.stride)
  let start ← overflow (e.start + offset)
  let stop ← overflow (start + e.width)
  let above ← overflow (stop + 2 ^ bits)
  let above ← overflow (above - 1)
  return (alignDown bits start, alignDown bits above)

def unpackLoop (overflow : Overflow) (bits : Nat) (e : ExtInterval) :
    Nat → Int → Int → List Interval → Option (List Interval)
  | 0, _, _, vec => some vec
  | n + 1, ir, lastEnd, vec => do
    let x ← roundedInterval overflow bits e ir
    if lastEnd < x.1 then unpackLoop overflow bits e n (ir + 1) x.2 (vec ++ [x])
    else
      let last ← vec.getLast?
      unpackLoop overflow bits e n (ir + 1) x.2 (vec.dropLast ++ [(last.1, x.2)])

/-- `unpack_ext_interval`, without the sentinel. -/
def unpackExtInterval :
    Option (List Interval) :=
  unpackLoop overflow bits e e.rep.toNat 0 INT32_MIN []

/-- The end of the last interval.  It is computed with 64 bits. -/
def ExtInterval.intvEnd : Int := e.start + e.stride * (e.rep - 1) + e.width

/-- The overflow protection. -/
def ExtInterval.limited : ExtInterval :=
  if INT32_MAX ≤ e.intvEnd then { e with width := INT32_MAX - 1 - e.start, rep := 1 } else e

/-- A row with short gaps is replaced by one interval. -/
def ExtInterval.combined (forceCombine : Bool)
    (e : ExtInterval) : Option ExtInterval := do
  let longest ← overflow (e.stride - margin)
  if longest < e.width ∨ forceCombine = true then
    let width ← overflow (e.stride * (e.rep - 1))
    let width ← overflow (width + e.width)
    return { e with width, rep := 1 }
  else return e

/-- The intervals that are pushed for a row. -/
def rowIntervals (forceCombine : Bool)
    (e : ExtInterval) : Option (List Interval) := do
  let e ← e.limited.combined overflow margin forceCombine
  unpackExtInterval overflow bits e

/-! ## The sort -/

/-- The stack, from its top on, and the buffer. -/
structure MergeState where
  substack : List MergeStackElem
  base : List Interval
  srcCount : Int
  absorbed : Int
  deriving DecidableEq, Repr

/-- The stack has room for 32 elements. -/
def substackSize : Nat := 32

/-- The intervals that are not ignored. -/
def ExtInterval.Valid : Prop := ¬ (e.width ≤ 0 ∨ e.rep ≤ 0 ∨ e.start < 0)

instance (e : ExtInterval) : Decidable e.Valid := inferInstanceAs (Decidable (¬ _))

/-- One round of the loop of `merge_mergesort`. -/
def mergeOne (s : MergeState) (e : ExtInterval) :
    Option MergeState :=
  if ¬ e.Valid then some s
  else do
    let remaining := s.srcCount - s.absorbed
    let forceCombine := decide (30000 < s.absorbed) || decide (10 * remaining < s.srcCount)
    let vec ← rowIntervals overflow margin bits forceCombine e
    if s.substack.length < substackSize then
      let (substack, base, absorbed) ← fixMergeStackProperty overflow margin false
        { offset := s.base.length, count := vec.length } s.substack (s.base ++ vec ++ [sentinel])
        s.absorbed
      return { substack, base, absorbed, srcCount := s.srcCount + vec.length }
    else none

/-- A list of `count` intervals, and what is after it in memory. -/
structure DamageList where
  count : Nat
  data : List Interval
  deriving DecidableEq, Repr

def DamageList.empty : DamageList := ⟨0, []⟩

def DamageList.intervals (d : DamageList) : List Interval := d.data.take d.count

/-- The state before the loop. -/
def mergeStart (old : DamageList) : MergeState :=
  if old.count = 0 then { substack := [], base := [], srcCount := 0, absorbed := 0 }
  else {
    substack := [{ offset := 0, count := old.count }]
    -- with the sentinel
    base := old.data.take (old.count + 1)
    srcCount := 0
    absorbed := 0 }

def mergeMergesort (old : DamageList)
    (newList : List ExtInterval) : Option DamageList := do
  let s ← newList.foldlM (mergeOne overflow margin bits) (mergeStart old)
  match s.substack with
  | [] => return { count := 0, data := s.base }
  | top :: rest =>
    let (substack, base, _) ← fixMergeStackProperty overflow margin true top rest s.base s.absorbed
    return { count := (substack.getLast?.map MergeStackElem.count).getD 0, data := base }

def mergeMargin : Int := 256

/-- Lists of damage, one after the other. -/
def mergeRuns (calls : List (List ExtInterval)) :
    Option DamageList :=
  calls.foldlM (mergeMergesort overflow mergeMargin bits) .empty

end Waypipe.C
