import Waypipe.Wayland.Codec
import Waypipe.Lib.Effect
import Mathlib.Data.List.Forall2

/-!
# Message arguments in a buffer

The functions of `wayland.rs` take arguments from the front of a tail of the message, and write them
to the front of a tail of a buffer, by slices that panic when they do not fit.  `InPlace` has them
as they are there, and relates them to the codec: a parser that fails leaves its tail
(`exec_parseArray`), and a writer with enough space adds the bytes of its argument
(`exec_writeArray`).  From this follow the round trip of a list of arguments and that every parser
is total (`arguments_round_trip`).
-/

namespace Waypipe.Wayland

open LeBytes List
open Eff (exec exec_bind)

/-! ## Slices -/

/-- `&l[start..]` -/
def sliceFrom (l : List UInt8) (start : Nat) : Res (List UInt8) :=
  if start ≤ l.length then .ok (l.drop start)
  else .error (.panic "range start index out of range for slice")

/-- `length.checked_next_multiple_of(4)` -/
def checkedNextMultipleOf4 (length : Nat) : Option Nat :=
  if align4 length < 2 ^ 64 then some (align4 length) else none

namespace InPlace

/-! ## Parsers -/

/-- A parser that moves the tail of the message forward. -/
abbrev Parser (α : Type) := Eff Fault (List UInt8) α

/-- A word of four bytes, from `from_le_bytes`. -/
def parseWord {α : Type} (fromLeBytes : List UInt8 → α) : Parser α := do
  let msgTail ← get
  if msgTail.length < 4 then throw (.err PARSE_ERROR)
  let val ← Eff.ofExcept (slice msgTail 0 4)
  set (← Eff.ofExcept (sliceFrom msgTail 4))
  return fromLeBytes val

def parseU32 : Parser Nat := parseWord leNat

def parseObj : Parser Nat := parseU32

def parseI32 : Parser Int := parseWord fun val => toI32 (leNat val)

def parseArray : Parser (List UInt8) := do
  let msgTail ← get
  if msgTail.length < 4 then throw (.err PARSE_ERROR)
  let length := leNat (← Eff.ofExcept (slice msgTail 0 4))
  let space ← Eff.ofExcept ((checkedNextMultipleOf4 length).elim (.error (.err PARSE_ERROR)) .ok)
  if msgTail.length - 4 < space then throw (.err PARSE_ERROR)
  let ret ← Eff.ofExcept (slice msgTail 4 (4 + length))
  set (← Eff.ofExcept (sliceFrom msgTail (4 + space)))
  return ret

def parseString : Parser (Option (List UInt8)) := do
  let v ← parseArray
  if v.isEmpty then return none
  else return some (← Eff.ofExcept (slice v 0 (v.length - 1)))

/-! ## Writers -/

/-- A buffer: what has been written, and the tail for what follows. -/
structure Buffer where
  written : List UInt8
  tail : List UInt8
  deriving DecidableEq, Repr

abbrev Writer := Eff Fault Buffer Unit

/-- `tail[start..stop].copy_from_slice(data)` -/
def copyFromSlice (start stop : Nat) (data : List UInt8) : Writer := do
  let tail := (← get).tail
  if ¬ (start ≤ stop ∧ stop ≤ tail.length) then
    throw (.panic "range end index out of range for slice")
  if data.length ≠ stop - start then
    throw (.panic "copy_from_slice: source slice length does not match destination slice length")
  modify fun b => { b with tail := b.tail.take start ++ data ++ b.tail.drop stop }

/-- `tail[start..stop].fill(0)` -/
def fillZero (start stop : Nat) : Writer := copyFromSlice start stop (replicate (stop - start) 0)

/-- `*tail = &mut std::mem::take(tail)[n..]` -/
def advance (n : Nat) : Writer := do
  if (← get).tail.length < n then throw (.panic "range start index out of range for slice")
  modify fun b => ⟨b.written ++ b.tail.take n, b.tail.drop n⟩

def writeU32 (val : Nat) : Writer := do
  copyFromSlice 0 4 (u32le val)
  advance 4

def writeObj (val : Nat) : Writer := writeU32 val

def writeI32 (val : Int) : Writer := do
  copyFromSlice 0 4 (i32le val)
  advance 4

def writeArray (s : List UInt8) : Writer := do
  copyFromSlice 0 4 (u32le s.length)
  copyFromSlice 4 (s.length + 4) s
  let e := lengthArray s.length
  fillZero (s.length + 4) e
  advance e

def writeString : Option (List UInt8) → Writer
  | some s => do
    -- the length is cut to 32 bits before the terminator is counted
    if 2 ^ 32 ≤ s.length % 2 ^ 32 + 1 then throw (.panic "attempt to add with overflow")
    copyFromSlice 0 4 (u32le (s.length % 2 ^ 32 + 1))
    copyFromSlice 4 (s.length + 4) s
    let e := lengthString s.length
    fillZero (s.length + 4) e
    advance e
  | none => do
    fillZero 0 4
    advance 4

/-! ## The parsers move the tail as the codec does -/

variable (tail : List UInt8)

/-- The outcome of a parser and the tail that it leaves: a failure leaves the tail. -/
def outcome {α : Type} : Except String (α × List UInt8) → Res α × List UInt8
  | .ok (a, rest) => (.ok a, rest)
  | .error e => (.error (.err e), tail)

variable {tail : List UInt8}

theorem sliceFrom_of_le {l : List UInt8} {a : Nat} (h : a ≤ l.length) :
    sliceFrom l a = .ok (l.drop a) := if_pos h

theorem exec_parseWord {α : Type} (fromLeBytes : List UInt8 → α) (tail : List UInt8) :
    exec (parseWord fromLeBytes) tail =
      if tail.length < 4 then (.error (.err PARSE_ERROR), tail)
      else (.ok (fromLeBytes (tail.take 4)), tail.drop 4) := by
  unfold parseWord
  by_cases h : tail.length < 4
  · simp [exec_bind, h]
  · have hslice := slice_of_le (l := tail) (a := 0) (b := 4) (by omega)
    have hfrom := sliceFrom_of_le (l := tail) (a := 4) (by omega)
    simp [exec_bind, h, hslice, hfrom]
    rfl

theorem exec_parseU32 :
    exec parseU32 tail = outcome tail (Wayland.parseU32 tail) := by
  unfold parseU32 Wayland.parseU32
  rw [exec_parseWord]
  split
  · rfl
  · rfl

theorem parseI32_eq :
    Wayland.parseI32 tail = (Wayland.parseU32 tail).map fun x => (toI32 x.1, x.2) := by
  show (Wayland.parseU32 >>= fun x => pure (toI32 x) : ArgParser Int) tail = _
  cases h : Wayland.parseU32 tail with
  | error e => simp only [bind, StateT.bind, Except.bind, h]; rfl
  | ok x => simp only [bind, StateT.bind, Except.bind, h]; rfl

theorem parseString_eq :
    Wayland.parseString tail = (Wayland.parseArray tail).map fun x =>
      (if x.1.isEmpty then none else some x.1.dropLast, x.2) := by
  show (Wayland.parseArray >>= fun v => pure (if v.isEmpty then none else some v.dropLast) :
    ArgParser (Option (List UInt8))) tail = _
  cases h : Wayland.parseArray tail with
  | error e => simp only [bind, StateT.bind, Except.bind, h]; rfl
  | ok x => simp only [bind, StateT.bind, Except.bind, h]; rfl

theorem exec_parseI32 :
    exec parseI32 tail = outcome tail (Wayland.parseI32 tail) := by
  rw [parseI32_eq]
  unfold parseI32 Wayland.parseU32
  rw [exec_parseWord]
  split
  · rfl
  · rfl

theorem exec_parseArray :
    exec parseArray tail = outcome tail (Wayland.parseArray tail) := by
  unfold parseArray Wayland.parseArray
  by_cases h : tail.length < 4
  · simp [exec_bind, h, outcome]
  · have hslice := slice_of_le (l := tail) (a := 0) (b := 4) (by omega)
    have hlength : leNat (tail.take 4) < 2 ^ 32 := by
      have hlt := leNat_lt (tail.take 4)
      rwa [length_take, Nat.min_eq_left (by omega)] at hlt
    have halign :
        checkedNextMultipleOf4 (leNat (tail.take 4)) = some (align4 (leNat (tail.take 4))) := by
      have := align4_lt (leNat (tail.take 4))
      exact if_pos (by omega)
    by_cases hspace : tail.length - 4 < align4 (leNat (tail.take 4))
    · simp [exec_bind, h, outcome, hslice, halign, hspace]
    · have hle := le_align4 (leNat (tail.take 4))
      have hret := slice_of_le (l := tail) (a := 4) (b := 4 + leNat (tail.take 4)) (by omega)
      have hfrom := sliceFrom_of_le (l := tail) (a := 4 + align4 (leNat (tail.take 4))) (by omega)
      simp [exec_bind, h, outcome, hslice, halign, hspace, hret, hfrom]
      rfl

theorem exec_parseString :
    exec parseString tail = outcome tail (Wayland.parseString tail) := by
  rw [parseString_eq]
  unfold parseString
  rw [exec_bind, exec_parseArray]
  cases h : Wayland.parseArray tail with
  | error e => rfl
  | ok x =>
    obtain ⟨v, rest⟩ := x
    cases v with
    | nil => rfl
    | cons b bs =>
      have hslice := slice_of_le (l := b :: bs) (a := 0) (b := (b :: bs).length - 1) (by simp)
      rw [Nat.sub_zero, drop_zero, ← dropLast_eq_take] at hslice
      show exec (Eff.ofExcept (slice (b :: bs) 0 ((b :: bs).length - 1)) >>= fun s => pure (some s))
        rest = _
      rw [hslice]
      rfl

/-! ## The writers add the bytes of the codec -/

section Writers

variable {w pre data : List UInt8} {start stop : Nat}

/-- Behind the bytes `pre` that are already in their place. -/
theorem exec_copyFromSlice (hstart : pre.length = start) (hstop : start + data.length = stop)
    (hfits : stop ≤ tail.length) :
    exec (copyFromSlice start stop data) ⟨w, pre ++ tail.drop start⟩ =
      (.ok (), ⟨w, (pre ++ data) ++ tail.drop stop⟩) := by
  have hlen : (pre ++ tail.drop start).length = tail.length := by
    rw [length_append, length_drop]
    omega
  have hrange : ¬ ¬ (start ≤ stop ∧ stop ≤ (pre ++ tail.drop start).length) := by omega
  have hdata : ¬ data.length ≠ stop - start := by omega
  have htake : (pre ++ tail.drop start).take start = pre := take_left' hstart
  have hdrop : (pre ++ tail.drop start).drop stop = tail.drop stop := by
    rw [drop_append, drop_eq_nil_of_le (by omega), nil_append, drop_drop]
    congr 1
    omega
  unfold copyFromSlice
  simp only [exec_bind, Eff.exec_get, if_neg hrange, if_neg hdata, Eff.exec_modify, htake, hdrop]

theorem exec_advance (hstop : pre.length = stop) :
    exec (advance stop) ⟨w, pre ++ tail.drop stop⟩ = (.ok (), ⟨w ++ pre, tail.drop stop⟩) := by
  have hlen : ¬ (pre ++ tail.drop stop).length < stop := by
    rw [length_append]
    omega
  unfold advance
  simp only [exec_bind, Eff.exec_get, if_neg hlen, Eff.exec_modify,
    take_left' hstop, drop_left' hstop]

theorem exec_writeWord (hdata : data.length = 4) (hfits : 4 ≤ tail.length) :
    exec (copyFromSlice 0 4 data >>= fun _ => advance 4) ⟨w, tail⟩ =
      (.ok (), ⟨w ++ data, tail.drop 4⟩) := by
  have hcopy : exec (copyFromSlice 0 4 data) ⟨w, [] ++ tail.drop 0⟩ =
      (.ok (), ⟨w, ([] ++ data) ++ tail.drop 4⟩) := exec_copyFromSlice rfl (by omega) hfits
  rw [drop_zero, nil_append] at hcopy
  rw [Eff.exec_bind_of_ok hcopy, nil_append, exec_advance hdata]

theorem exec_writeU32 (val : Nat) (hfits : 4 ≤ tail.length) :
    exec (writeU32 val) ⟨w, tail⟩ = (.ok (), ⟨w ++ Wayland.writeU32 val, tail.drop 4⟩) :=
  exec_writeWord (length_u32le val) hfits

theorem exec_writeI32 (val : Int) (hfits : 4 ≤ tail.length) :
    exec (writeI32 val) ⟨w, tail⟩ = (.ok (), ⟨w ++ Wayland.writeI32 val, tail.drop 4⟩) :=
  exec_writeWord (length_i32le val) hfits

/-- A length word, some bytes, and zeros up to the end. -/
theorem exec_writePadded {header s : List UInt8} {e : Nat} (hheader : header.length = 4)
    (hend : s.length + 4 ≤ e) (hfits : e ≤ tail.length) :
    exec (do
        copyFromSlice 0 4 header
        copyFromSlice 4 (s.length + 4) s
        fillZero (s.length + 4) e
        advance e) ⟨w, tail⟩ =
      (.ok (), ⟨w ++ (header ++ s ++ replicate (e - (s.length + 4)) 0), tail.drop e⟩) := by
  have hfirst : exec (copyFromSlice 0 4 header) ⟨w, [] ++ tail.drop 0⟩ =
      (.ok (), ⟨w, ([] ++ header) ++ tail.drop 4⟩) := exec_copyFromSlice rfl (by omega) (by omega)
  rw [drop_zero, nil_append] at hfirst
  rw [Eff.exec_bind_of_ok hfirst, nil_append]
  rw [Eff.exec_bind_of_ok (exec_copyFromSlice hheader (by omega) (by omega))]
  rw [fillZero, Eff.exec_bind_of_ok (exec_copyFromSlice (by simp; omega) (by simp; omega) hfits)]
  exact exec_advance (by simp; omega)

theorem exec_writeArray (s : List UInt8) (hfits : lengthArray s.length ≤ tail.length) :
    exec (writeArray s) ⟨w, tail⟩ =
      (.ok (), ⟨w ++ Wayland.writeArray s, tail.drop (lengthArray s.length)⟩) := by
  have hpad := le_align4 s.length
  unfold writeArray
  rw [exec_writePadded (length_u32le _) (by unfold lengthArray; omega) hfits]
  have hzeros : lengthArray s.length - (s.length + 4) = align4 s.length - s.length := by
    unfold lengthArray
    omega
  rw [hzeros]
  rfl

theorem exec_writeString_some (s : List UInt8) (hsmall : s.length + 1 < 2 ^ 32)
    (hfits : lengthString s.length ≤ tail.length) :
    exec (writeString (some s)) ⟨w, tail⟩ =
      (.ok (), ⟨w ++ Wayland.writeString (some s), tail.drop (lengthString s.length)⟩) := by
  have hpad := le_align4 (s.length + 1)
  have hmod : s.length % 2 ^ 32 = s.length := Nat.mod_eq_of_lt (by omega)
  have hzeros : lengthString s.length - (s.length + 4) = align4 (s.length + 1) - s.length := by
    unfold lengthString lengthArray
    omega
  unfold writeString
  dsimp only
  rw [hmod, if_neg (by omega)]
  show exec (do
    copyFromSlice 0 4 (u32le (s.length + 1))
    copyFromSlice 4 (s.length + 4) s
    fillZero (s.length + 4) (lengthString s.length)
    advance (lengthString s.length)) ⟨w, tail⟩ = _
  rw [exec_writePadded (length_u32le _) (by unfold lengthString lengthArray; omega) hfits, hzeros]
  rfl

theorem exec_writeString_none (hfits : 4 ≤ tail.length) :
    exec (writeString none) ⟨w, tail⟩ =
      (.ok (), ⟨w ++ Wayland.writeString none, tail.drop 4⟩) :=
  exec_writeWord (rfl : (replicate 4 (0 : UInt8)).length = 4) hfits

end Writers

end InPlace

/-! ## Lists of arguments -/

inductive Arg
  | u32 (val : UInt32)
  | i32 (val : Int32)
  | obj (id : UInt32)
  | string (s : Option (List UInt8))
  | array (a : List UInt8)
  deriving DecidableEq, Repr

inductive ArgType
  | u32 | i32 | obj | string | array
  deriving DecidableEq, Repr

namespace Arg

def type : Arg → ArgType
  | u32 _ => .u32
  | i32 _ => .i32
  | obj _ => .obj
  | string _ => .string
  | array _ => .array

/-- The space of an argument: that of `length_string` and `length_array`, and four bytes for a scalar and
for no string. -/
def length : Arg → Nat
  | u32 _ | i32 _ | obj _ | string none => 4
  | string (some s) => lengthString s.length
  | array a => lengthArray a.length

def write : Arg → InPlace.Writer
  | u32 val => InPlace.writeU32 val.toNat
  | i32 val => InPlace.writeI32 val.toInt
  | obj id => InPlace.writeObj id.toNat
  | string s => InPlace.writeString s
  | array a => InPlace.writeArray a

/-- The bytes that the codec has for an argument. -/
def bytes : Arg → List UInt8
  | u32 val => writeU32 val.toNat
  | i32 val => writeI32 val.toInt
  | obj id => writeObj id.toNat
  | string s => writeString s
  | array a => writeArray a

end Arg

def ArgType.parse : ArgType → InPlace.Parser Arg
  | u32 => do return .u32 (.ofNat (← InPlace.parseU32))
  | i32 => do return .i32 (.ofInt (← InPlace.parseI32))
  | obj => do return .obj (.ofNat (← InPlace.parseObj))
  | string => do return .string (← InPlace.parseString)
  | array => do return .array (← InPlace.parseArray)

/-- The space of a list of arguments. -/
def argsLength (args : List Arg) : Nat := (args.map Arg.length).sum

namespace Arg

variable {w tail : List UInt8}

theorem length_bytes (a : Arg) : a.bytes.length = a.length := by
  cases a with
  | u32 val => exact length_writeU32 _
  | i32 val => exact length_writeI32 _
  | obj id => exact length_writeObj _
  | string s => cases s with
    | none => rfl
    | some s => exact length_writeString s
  | array a => exact length_writeArray a

theorem exec_write (a : Arg) (hsmall : a.length < 2 ^ 32) (hfits : a.length ≤ tail.length) :
    exec a.write ⟨w, tail⟩ = (.ok (), ⟨w ++ a.bytes, tail.drop a.length⟩) := by
  cases a with
  | u32 val => exact InPlace.exec_writeU32 _ hfits
  | i32 val => exact InPlace.exec_writeI32 _ hfits
  | obj id => exact InPlace.exec_writeU32 _ hfits
  | string s => cases s with
    | none => exact InPlace.exec_writeString_none hfits
    | some s =>
      have hlen : s.length + 1 ≤ lengthString s.length := by
        have := le_align4 (s.length + 1)
        unfold lengthString lengthArray
        omega
      exact InPlace.exec_writeString_some s (Nat.lt_of_le_of_lt hlen hsmall) hfits
  | array a => exact InPlace.exec_writeArray a hfits

theorem exec_parse (a : Arg) (hsmall : a.length < 2 ^ 32) (rest : List UInt8) :
    exec a.type.parse (a.bytes ++ rest) = (.ok a, rest) := by
  cases a with
  | u32 val =>
    have hread : exec InPlace.parseU32 (writeU32 val.toNat ++ rest) = (.ok val.toNat, rest) := by
      rw [InPlace.exec_parseU32, parseU32_writeU32 val.toNat_lt]
      rfl
    show exec (InPlace.parseU32 >>= fun n => pure (Arg.u32 (.ofNat n))) (writeU32 val.toNat ++ rest) = _
    rw [Eff.exec_bind_of_ok hread, UInt32.ofNat_toNat]
    rfl
  | i32 val =>
    have hread : exec InPlace.parseI32 (writeI32 val.toInt ++ rest) = (.ok val.toInt, rest) := by
      rw [InPlace.exec_parseI32, parseI32_writeI32 val.le_toInt val.toInt_lt]
      rfl
    show exec (InPlace.parseI32 >>= fun n => pure (Arg.i32 (.ofInt n))) (writeI32 val.toInt ++ rest) = _
    rw [Eff.exec_bind_of_ok hread, Int32.ofInt_toInt]
    rfl
  | obj id =>
    have hread : exec InPlace.parseObj (writeObj id.toNat ++ rest) = (.ok id.toNat, rest) := by
      unfold InPlace.parseObj writeObj
      rw [InPlace.exec_parseU32, parseU32_writeU32 id.toNat_lt]
      rfl
    show exec (InPlace.parseObj >>= fun n => pure (Arg.obj (.ofNat n))) (writeObj id.toNat ++ rest) = _
    rw [Eff.exec_bind_of_ok hread, UInt32.ofNat_toNat]
    rfl
  | string s =>
    have hlen : ∀ v ∈ s, v.length + 1 < 2 ^ 32 := by
      rintro v rfl
      have hsmall : align4 (v.length + 1) + 4 < 2 ^ 32 := hsmall
      have := le_align4 (v.length + 1)
      omega
    have hread : exec InPlace.parseString (writeString s ++ rest) = (.ok s, rest) := by
      rw [InPlace.exec_parseString, parseString_writeString hlen]
      rfl
    show exec (InPlace.parseString >>= fun s => pure (Arg.string s)) (writeString s ++ rest) = _
    rw [Eff.exec_bind_of_ok hread]
    rfl
  | array a =>
    have hlen : a.length < 2 ^ 32 := by
      have hsmall : align4 a.length + 4 < 2 ^ 32 := hsmall
      have := le_align4 a.length
      omega
    have hread : exec InPlace.parseArray (writeArray a ++ rest) = (.ok a, rest) := by
      rw [InPlace.exec_parseArray, parseArray_writeArray hlen]
      rfl
    show exec (InPlace.parseArray >>= fun a => pure (Arg.array a)) (writeArray a ++ rest) = _
    rw [Eff.exec_bind_of_ok hread]
    rfl

end Arg

theorem argsLength_cons (a : Arg) (args : List Arg) :
    argsLength (a :: args) = a.length + argsLength args := sum_cons

theorem length_flatMap_bytes (args : List Arg) : (args.flatMap Arg.bytes).length = argsLength args := by
  induction args with
  | nil => rfl
  | cons a args ih => rw [flatMap_cons, length_append, a.length_bytes, ih, argsLength_cons]

theorem exec_writeArgs {w tail : List UInt8} (args : List Arg) (hsmall : argsLength args < 2 ^ 32)
    (hfits : argsLength args ≤ tail.length) :
    exec (args.forM Arg.write) ⟨w, tail⟩ =
      (.ok (), ⟨w ++ args.flatMap Arg.bytes, tail.drop (argsLength args)⟩) := by
  induction args generalizing w tail with
  | nil => simp [argsLength]
  | cons a args ih =>
    rw [argsLength_cons] at hsmall hfits
    have hhead : exec a.write ⟨w, tail⟩ = (.ok (), ⟨w ++ a.bytes, tail.drop a.length⟩) :=
      a.exec_write (by omega) (by omega)
    have hrest : exec (args.forM Arg.write) ⟨w ++ a.bytes, tail.drop a.length⟩ =
        (.ok (), ⟨w ++ a.bytes ++ args.flatMap Arg.bytes,
          (tail.drop a.length).drop (argsLength args)⟩) :=
      ih (by omega) (by rw [length_drop]; omega)
    show exec (a.write >>= fun _ => args.forM Arg.write) _ = _
    rw [Eff.exec_bind_of_ok hhead, hrest, flatMap_cons, append_assoc, drop_drop, argsLength_cons]

theorem exec_parseArgs (args : List Arg) (hsmall : argsLength args < 2 ^ 32) (rest : List UInt8) :
    exec ((args.map Arg.type).mapM ArgType.parse) (args.flatMap Arg.bytes ++ rest) = (.ok args,
      rest) := by
  induction args with
  | nil => rfl
  | cons a args ih =>
    rw [argsLength_cons] at hsmall
    have hhead := a.exec_parse (by omega) (args.flatMap Arg.bytes ++ rest)
    rw [map_cons, mapM_cons, flatMap_cons, append_assoc]
    rw [Eff.exec_bind_of_ok hhead, Eff.exec_bind_of_ok (ih (by omega))]
    rfl

/-- How a parser ends: it fails and leaves the tail, or it takes some words from its front. -/
def TakesWords {α : Type} (tail : List UInt8) (r : Res α × List UInt8) : Prop :=
  r = (.error (.err PARSE_ERROR), tail) ∨
    ∃ a n, r = (.ok a, tail.drop n) ∧ 0 < n ∧ n % 4 = 0 ∧ n ≤ tail.length

section Total

variable {α β : Type} {tail : List UInt8}

theorem TakesWords.bind_pure {p : InPlace.Parser α} {f : α → β} (h : TakesWords tail (exec p tail)) :
    TakesWords tail (exec (p >>= fun a => pure (f a)) tail) := by
  rw [exec_bind]
  rcases h with h | ⟨a, n, h, hn⟩
  · rw [h]
    exact .inl rfl
  · rw [h]
    exact .inr ⟨f a, n, rfl, hn⟩

theorem takesWords_parseWord (fromLeBytes : List UInt8 → α) (tail : List UInt8) :
    TakesWords tail (exec (InPlace.parseWord fromLeBytes) tail) := by
  rw [InPlace.exec_parseWord]
  split
  · exact .inl rfl
  · exact .inr ⟨_, 4, rfl, by omega, rfl, by omega⟩

theorem takesWords_parseArray (tail : List UInt8) :
    TakesWords tail (exec InPlace.parseArray tail) := by
  rw [InPlace.exec_parseArray]
  unfold parseArray
  dsimp only
  split
  · exact .inl rfl
  · split
    · exact .inl rfl
    · have := align4_mod (leNat (tail.take 4))
      exact .inr ⟨_, 4 + align4 (leNat (tail.take 4)), rfl, by omega, by omega, by omega⟩

theorem takesWords_parseString (tail : List UInt8) :
    TakesWords tail (exec InPlace.parseString tail) := by
  have h := takesWords_parseArray tail
  rw [InPlace.exec_parseArray] at h
  rw [InPlace.exec_parseString, InPlace.parseString_eq]
  cases harray : parseArray tail with
  | error e =>
    rw [harray] at h
    rcases h with h | ⟨a, n, h, -⟩
    · cases h
      exact .inl rfl
    · cases h
  | ok x =>
    obtain ⟨v, rest⟩ := x
    rw [harray] at h
    rcases h with h | ⟨a, n, h, hn⟩
    · cases h
    · cases h
      exact .inr ⟨_, n, rfl, hn⟩

theorem takesWords_parse (t : ArgType) (tail : List UInt8) : TakesWords tail (exec t.parse tail) := by
  cases t with
  | u32 => exact (takesWords_parseWord _ tail).bind_pure
  | i32 => exact (takesWords_parseWord _ tail).bind_pure
  | obj => exact (takesWords_parseWord _ tail).bind_pure
  | string => exact (takesWords_parseString tail).bind_pure
  | array => exact (takesWords_parseArray tail).bind_pure

end Total

/-- Arguments that fit in a buffer are written to its front in exactly their space, and read again from
there; and on any bytes a parser fails and leaves them, or takes some words. -/
theorem arguments_round_trip :
    (∀ (args : List Arg) (b : InPlace.Buffer), argsLength args < 2 ^ 32 →
      argsLength args ≤ b.tail.length → ∃ bytes, bytes.length = argsLength args ∧
        exec (args.forM Arg.write) b = (.ok (), ⟨b.written ++ bytes, b.tail.drop (argsLength args)⟩) ∧
        ∀ rest, exec ((args.map Arg.type).mapM ArgType.parse) (bytes ++ rest) = (.ok args, rest)) ∧
    ∀ (t : ArgType) (tail : List UInt8), TakesWords tail (exec t.parse tail) := by
  refine ⟨fun args b hsmall hfits => ?_, takesWords_parse⟩
  refine ⟨args.flatMap Arg.bytes, length_flatMap_bytes args, ?_, exec_parseArgs args hsmall⟩
  exact exec_writeArgs args hsmall hfits

/-- A number, no string, the empty string, an array and a string that has a zero byte. -/
theorem arguments_round_trip_mixed :
    ∃ bytes, bytes.length = 36 ∧
      exec ([Arg.i32 (-1), .string none, .string (some []), .array [1, 2, 3, 4, 5],
        .string (some [7, 0])].forM
        Arg.write) ⟨[], replicate 40 9⟩ = (.ok (), ⟨bytes, replicate 4 9⟩) ∧
      exec ([ArgType.i32, .string, .string, .array, .string].mapM ArgType.parse) bytes =
        (.ok [Arg.i32 (-1), .string none, .string (some []), .array [1, 2, 3, 4, 5],
          .string (some [7, 0])], []) := by
  obtain ⟨bytes, hlen, hwrite, hread⟩ := arguments_round_trip.1
    [Arg.i32 (-1), .string none, .string (some []), .array [1, 2, 3, 4, 5], .string (some [7, 0])]
    ⟨[], replicate 40 9⟩ (by decide) (by decide)
  refine ⟨bytes, hlen, hwrite, ?_⟩
  have h := hread []
  rwa [append_nil] at h

end Waypipe.Wayland
