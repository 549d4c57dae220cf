import Waypipe.Util

/-!
# Wayland messages as bytes

The argument codec of `wayland.rs`.  A Wayland message is a header (object id, length and opcode)
followed by its arguments, each padded to four bytes.  Between the two instances the header also
carries the number of file descriptors that belong to the message.
-/

namespace Waypipe.Wayland

open LeBytes List

def PARSE_ERROR : String := "Failed to parse message"

/-- A parser of message arguments: takes bytes from the front of the remaining message. -/
abbrev ArgParser (α : Type) := StateT (List UInt8) (Except String) α

def parseU32 : ArgParser Nat := fun tail =>
  if tail.length < 4 then .error PARSE_ERROR else .ok (leNat (tail.take 4), tail.drop 4)

def parseObj : ArgParser Nat := parseU32

/-- The value of a word read as a signed number. -/
def toI32 (n : Nat) : Int := if n < 2 ^ 31 then n else (n : Int) - 2 ^ 32

def parseI32 : ArgParser Int := do return toI32 (← parseU32)

def parseArray : ArgParser (List UInt8) := fun tail =>
  if tail.length < 4 then .error PARSE_ERROR
  else
    let length := leNat (tail.take 4)
    let space := align4 length
    if tail.length - 4 < space then .error PARSE_ERROR
    else .ok ((tail.drop 4).take length, tail.drop (4 + space))

/-- Null strings are encoded as empty arrays; otherwise the terminator is dropped. -/
def parseString : ArgParser (Option (List UInt8)) := do
  let v ← parseArray
  return if v.isEmpty then none else some v.dropLast

/-- Parse all arguments of a message, which must leave nothing over. -/
def parseMsg {α : Type} (args : ArgParser α) (msg : List UInt8) : Except String α :=
  if msg.length < 8 then .error PARSE_ERROR
  else match args (msg.drop 8) with
    | .error e => .error e
    | .ok (a, tail) => if tail.isEmpty then .ok a else .error PARSE_ERROR

def lengthArray (arrLen : Nat) : Nat := align4 arrLen + 4

def lengthString (strLenUnterminated : Nat) : Nat := lengthArray (strLenUnterminated + 1)

def writeHeader (objId length opcode ntagfds : Nat) : Res (List UInt8) := do
  assert (length < 2 ^ 16 && ntagfds < 2 ^ 5 && opcode < 2 ^ 8)
    "length < (1 << 16) && ntagfds < (1 << 5) && opcode < (1 << 8)"
  return u32le objId ++ u32le (length * 2 ^ 16 + ntagfds * 2 ^ 11 + opcode)

def writeU32 (val : Nat) : List UInt8 := u32le val

def writeObj (val : Nat) : List UInt8 := writeU32 val

def writeI32 (val : Int) : List UInt8 := i32le val

def writeArray (s : List UInt8) : List UInt8 :=
  u32le s.length ++ s ++ replicate (align4 s.length - s.length) 0

def writeString : Option (List UInt8) → List UInt8
  | some s => u32le (s.length + 1) ++ s ++ replicate (align4 (s.length + 1) - s.length) 0
  | none => u32le 0

theorem length_writeHeader {objId length opcode ntagfds : Nat} {v : List UInt8}
    (h : writeHeader objId length opcode ntagfds = .ok v) : v.length = 8 := by
  obtain ⟨-, -, h⟩ := Res.bind_eq_ok.mp h
  cases h
  simp

@[simp] theorem length_writeU32 (val : Nat) : (writeU32 val).length = 4 := length_u32le val

@[simp] theorem length_writeObj (val : Nat) : (writeObj val).length = 4 := length_u32le val

@[simp] theorem length_writeI32 (val : Int) : (writeI32 val).length = 4 := length_i32le val

@[simp] theorem length_writeArray (s : List UInt8) : (writeArray s).length = lengthArray s.length := by
  have := le_align4 s.length
  simp [writeArray, lengthArray]
  omega

@[simp] theorem length_writeString (s : List UInt8) :
    (writeString (some s)).length = lengthString s.length := by
  have := le_align4 (s.length + 1)
  simp [writeString, lengthString, lengthArray]
  omega

theorem lengthArray_mod (n : Nat) : lengthArray n % 4 = 0 := by
  have := align4_mod n
  unfold lengthArray
  omega

theorem lengthString_mod (n : Nat) : lengthString n % 4 = 0 := lengthArray_mod (n + 1)

/-! ## Reading what was written -/

theorem parseU32_writeU32 {n : Nat} (h : n < 2 ^ 32) (rest : List UInt8) :
    parseU32 (writeU32 n ++ rest) = .ok (n, rest) := by
  have hlen : ¬ (writeU32 n ++ rest).length < 4 := by
    rw [length_append, length_writeU32]
    omega
  unfold parseU32
  rw [if_neg hlen, take_left' (length_writeU32 n), drop_left' (length_writeU32 n)]
  rw [writeU32, u32le, leNat_leBytes_of_lt h]

theorem parseU32_lt {tail rest : List UInt8} {n : Nat} (h : parseU32 tail = .ok (n, rest)) :
    n < 2 ^ 32 := by
  unfold parseU32 at h
  split at h
  · cases h
  · next hlen =>
    cases h
    have hlt := leNat_lt (tail.take 4)
    rwa [length_take, Nat.min_eq_left (by omega)] at hlt

theorem toI32_emod {n : Int} (hlo : -2 ^ 31 ≤ n) (hhi : n < 2 ^ 31) :
    toI32 (n % 2 ^ 32).toNat = n := by
  unfold toI32
  split <;> omega

theorem parseI32_writeI32 {n : Int} (hlo : -2 ^ 31 ≤ n) (hhi : n < 2 ^ 31) (rest : List UInt8) :
    parseI32 (writeI32 n ++ rest) = .ok (n, rest) := by
  have hword : parseU32 (writeI32 n ++ rest) = .ok ((n % 2 ^ 32).toNat, rest) := by
    show parseU32 (writeU32 (n % 2 ^ 32).toNat ++ rest) = _
    exact parseU32_writeU32 (by omega) rest
  show (parseU32 >>= fun x => pure (toI32 x) : ArgParser Int) _ = _
  simp only [bind, StateT.bind, Except.bind, hword]
  rw [toI32_emod hlo hhi]
  rfl

theorem parseArray_writeArray {s : List UInt8} (h : s.length < 2 ^ 32) (rest : List UInt8) :
    parseArray (writeArray s ++ rest) = .ok (s, rest) := by
  have hpad := le_align4 s.length
  have hlen : leNat ((writeArray s ++ rest).take 4) = s.length := by
    rw [writeArray, append_assoc, append_assoc, take_left' (length_u32le _), u32le,
      leNat_leBytes_of_lt h]
  have htotal : (writeArray s ++ rest).length = align4 s.length + 4 + rest.length := by
    rw [length_append, length_writeArray, lengthArray]
  unfold parseArray
  rw [hlen, htotal, if_neg (by omega), if_neg (by omega)]
  have hdrop : (writeArray s ++ rest).drop 4 =
      s ++ (replicate (align4 s.length - s.length) 0 ++ rest) := by
    rw [writeArray, append_assoc, append_assoc, drop_left' (length_u32le _)]
  have hend : (writeArray s ++ rest).drop (4 + align4 s.length) = rest := by
    apply drop_left'
    rw [length_writeArray, lengthArray]
    omega
  rw [hdrop, hend, take_left' rfl]

/-- A string is an array with a terminator, and no string an empty array. -/
theorem writeString_some (s : List UInt8) : writeString (some s) = writeArray (s ++ [0]) := by
  have hpad := le_align4 (s.length + 1)
  have hzeros : replicate (align4 (s.length + 1) - s.length) (0 : UInt8) =
      0 :: replicate (align4 (s.length + 1) - (s.length + 1)) 0 := by
    rw [← replicate_succ]
    congr 1
    omega
  simp only [writeString, writeArray, hzeros, length_append, length_singleton,
    append_assoc, cons_append, nil_append]

theorem writeString_none : writeString none = writeArray [] := by decide

theorem parseString_writeString {s : Option (List UInt8)}
    (h : ∀ v ∈ s, v.length + 1 < 2 ^ 32) (rest : List UInt8) :
    parseString (writeString s ++ rest) = .ok (s, rest) := by
  show (parseArray >>= fun v => pure (if v.isEmpty then none else some v.dropLast) :
    ArgParser (Option (List UInt8))) _ = _
  cases s with
  | none =>
    simp only [bind, StateT.bind, Except.bind, writeString_none, parseArray_writeArray (s :=
      []) (by decide)]
    rfl
  | some v =>
    have hlen : (v ++ [(0 : UInt8)]).length < 2 ^ 32 := by
      rw [length_append]
      exact h v rfl
    simp only [bind, StateT.bind, Except.bind, writeString_some, parseArray_writeArray hlen]
    rw [if_neg (by simp), dropLast_concat]
    rfl

/-! ## The error event of `wl_display` -/

def lengthEvtWlDisplayError (messageLen : Nat) : Nat := 16 + lengthString messageLen

def writeEvtWlDisplayError (forId objectId code : Nat) (message : List UInt8) :
    Res (List UInt8) := do
  let header ← writeHeader forId (lengthEvtWlDisplayError message.length) 0 0
  return header ++ writeObj objectId ++ writeU32 code ++ writeString (some message)

theorem length_writeEvtWlDisplayError {forId objectId code : Nat} {message v : List UInt8}
    (h : writeEvtWlDisplayError forId objectId code message = .ok v) :
    v.length = lengthEvtWlDisplayError message.length := by
  obtain ⟨header, hh, h⟩ := Res.bind_eq_ok.mp h
  have h8 := length_writeHeader hh
  cases h
  simp only [length_append, h8, length_writeObj, length_writeU32, length_writeString,
    lengthEvtWlDisplayError]

end Waypipe.Wayland
