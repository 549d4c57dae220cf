import Waypipe.Lib.Bytes
import Waypipe.Lib.Framing

/-!
# Wire messages

The parts of `util.rs` that the rest of the development uses: rounding, interval splitting, and
the header of a wire message (wmsg).  A wmsg starts with a 32-bit little-endian header that packs
the length of the message and its type; the message is then padded to a multiple of four bytes.
`wmsgFraming` is that format as a length-prefixed framing, and `buildWmsgHeader_isFrame` is how
every producer shows that what it queues is one whole wmsg.
-/

namespace Waypipe

open LeBytes

variable {len header : Nat} {typ : WmsgType}

/-- How a function of the program ends other than by returning a value: with an `Err` that is
passed up, or with a panic (a failed assertion, `unwrap`, `unreachable!` or bounds check). -/
inductive Fault where
  | err (msg : String)
  | panic (msg : String)
  deriving DecidableEq, Repr

abbrev Res (α : Type) := Except Fault α

theorem Res.toOption_eq_some {α : Type} {x : Res α} {a : α} : x.toOption = some a ↔ x = .ok a := by
  cases x <;> simp [Except.toOption]

/-- A computation that returns went through each of its steps. -/
theorem Res.bind_eq_ok {α β : Type} {x : Res α} {f : α → Res β} {b : β} :
    x >>= f = .ok b ↔ ∃ a, x = .ok a ∧ f a = .ok b := by
  cases x with
  | error e => simp [bind, Except.bind]
  | ok a => simp [bind, Except.bind]

/-- `assert!`: panics when the condition is false. -/
def assert (cond : Bool) (msg : String) : Res Unit :=
  if cond then .ok () else .error (.panic msg)

theorem assert_eq_ok {cond : Bool} {msg : String} {u : Unit} :
    assert cond msg = .ok u ↔ cond = true := by
  cases cond <;> simp [assert]

theorem Res.ok_bind {α β : Type} (a : α) (f : α → Res β) : ((.ok a : Res α) >>= f) = f a := rfl

theorem Res.pure_eq {α : Type} (a : α) : (pure a : Res α) = .ok a := rfl

theorem assert_of {c : Bool} (h : c = true) (msg : String) : assert c msg = .ok () := by
  rw [h]
  rfl

/-- Subtraction of unsigned numbers, which must not go below zero. -/
def checkedSub (a b : Nat) : Res Nat :=
  if b ≤ a then .ok (a - b) else .error (.panic "attempt to subtract with overflow")

theorem checkedSub_of_le {a b : Nat} (h : b ≤ a) : checkedSub a b = .ok (a - b) := if_pos h

/-- `&l[start..stop]` -/
def slice (l : List UInt8) (start stop : Nat) : Res (List UInt8) :=
  if start ≤ stop ∧ stop ≤ l.length then .ok ((l.drop start).take (stop - start))
  else .error (.panic "range end index out of range for slice")

theorem slice_of_le {l : List UInt8} {a b : Nat} (h : a ≤ b ∧ b ≤ l.length) :
    slice l a b = .ok ((l.drop a).take (b - a)) := if_pos h

/-- Remote identifier of a shadowed file descriptor, an `i32`. -/
abbrev Rid := Int

def u32le (n : Nat) : List UInt8 := leBytes 4 n

def u64le (n : Nat) : List UInt8 := leBytes 8 n

def i32le (n : Int) : List UInt8 := leBytes 4 (n % 2 ^ 32).toNat

@[simp] theorem length_u32le (n : Nat) : (u32le n).length = 4 := length_leBytes 4 n

@[simp] theorem length_u64le (n : Nat) : (u64le n).length = 8 := length_leBytes 8 n

@[simp] theorem length_i32le (n : Int) : (i32le n).length = 4 := length_leBytes 4 _

/-- The bytes of a text, which must be ASCII. -/
def asciiBytes (s : String) : List UInt8 := s.toList.map fun c => UInt8.ofNat c.toNat

/-! ## Arithmetic helpers -/

def align (x y : Nat) : Nat := roundUp x y

def align4 (x : Nat) : Nat := align x 4

theorem align4_mod (x : Nat) : align4 x % 4 = 0 :=
  Nat.mod_eq_zero_of_dvd (dvd_roundUp x 4)

theorem le_align4 (x : Nat) : x ≤ align4 x := le_roundUp x (by decide)

theorem align4_lt (x : Nat) : align4 x < x + 4 := roundUp_lt x (by decide)

theorem align4_of_mod {x : Nat} (h : x % 4 = 0) : align4 x = x :=
  roundUp_of_dvd (by decide) (Nat.dvd_of_mod_eq_zero h)

/-- Adding a multiple of four commutes with padding. -/
theorem align4_add_left (k : Nat) {m : Nat} (h : k % 4 = 0) : align4 (k + m) = k + align4 m := by
  unfold align4 align roundUp
  omega

def ceildiv (v u : Nat) : Nat := (v + (u - 1)) / u

/-- The `index`-th of the `nparts + 1` boundaries that cut `[lo, hi)` into nearly equal parts. -/
def splitInterval (lo hi nparts index : Nat) : Res Nat := do
  assert (nparts < 2 ^ 15 && hi - lo < 2 ^ 31) "nparts < 1 << 15 && hi - lo < 1 << 31"
  return lo + index * ((hi - lo) / nparts) + (index * ((hi - lo) % nparts)) / nparts

/-- The high and the low 32 bits. -/
def splitU64 (x : Nat) : Nat × Nat := (x / 2 ^ 32, x % 2 ^ 32)

def joinU64 (hi lo : Nat) : Nat := hi * 2 ^ 32 + lo

/-! ## Message types and headers -/

inductive WmsgType where
  | protocol
  | injectRIDs
  | openFile
  | extendFile
  | openDMABUF
  | bufferFill
  | bufferDiff
  | openIRPipe
  | openIWPipe
  | openRWPipe
  | pipeTransfer
  | pipeShutdownR
  | pipeShutdownW
  | openDMAVidSrc
  | openDMAVidDst
  | sendDMAVidPacket
  | ackNblocks
  | restart
  | close
  | openDMAVidSrcV2
  | openDMAVidDstV2
  | openTimeline
  | signalTimeline
  | version
  deriving DecidableEq, Repr

namespace WmsgType

/-- The value of the enumeration on the wire. -/
def code : WmsgType → Nat
  | protocol => 0
  | injectRIDs => 1
  | openFile => 2
  | extendFile => 3
  | openDMABUF => 4
  | bufferFill => 5
  | bufferDiff => 6
  | openIRPipe => 7
  | openIWPipe => 8
  | openRWPipe => 9
  | pipeTransfer => 10
  | pipeShutdownR => 11
  | pipeShutdownW => 12
  | openDMAVidSrc => 13
  | openDMAVidDst => 14
  | sendDMAVidPacket => 15
  | ackNblocks => 16
  | restart => 17
  | close => 18
  | openDMAVidSrcV2 => 19
  | openDMAVidDstV2 => 20
  | openTimeline => 21
  | signalTimeline => 22
  | version => 23

def ofCode : Nat → Option WmsgType
  | 0 => some protocol
  | 1 => some injectRIDs
  | 2 => some openFile
  | 3 => some extendFile
  | 4 => some openDMABUF
  | 5 => some bufferFill
  | 6 => some bufferDiff
  | 7 => some openIRPipe
  | 8 => some openIWPipe
  | 9 => some openRWPipe
  | 10 => some pipeTransfer
  | 11 => some pipeShutdownR
  | 12 => some pipeShutdownW
  | 13 => some openDMAVidSrc
  | 14 => some openDMAVidDst
  | 15 => some sendDMAVidPacket
  | 16 => some ackNblocks
  | 17 => some restart
  | 18 => some close
  | 19 => some openDMAVidSrcV2
  | 20 => some openDMAVidDstV2
  | 21 => some openTimeline
  | 22 => some signalTimeline
  | 23 => some version
  | _ => none

theorem code_lt (t : WmsgType) : t.code < 32 := by cases t <;> decide

theorem ofCode_code (t : WmsgType) : ofCode t.code = some t := by cases t <;> rfl

end WmsgType

/-- The header word of a message of `len` bytes; the length has to fit in 27 bits. -/
def buildWmsgHeader (typ : WmsgType) (len : Nat) : Res Nat := do
  assert (len < 2 ^ 27) "called Option::unwrap() on a None value"
  return len * 2 ^ 5 ||| typ.code

/-- The length (without padding) and the type in a header word. -/
def parseWmsgHeader (header : Nat) : Option (Nat × WmsgType) :=
  (WmsgType.ofCode (header % 2 ^ 5)).map fun t => (header / 2 ^ 5, t)

theorem buildWmsgHeader_eq_ok
    (h : buildWmsgHeader typ len = .ok header) : len < 2 ^ 27 ∧ header = len * 2 ^ 5 + typ.code := by
  simp only [buildWmsgHeader, assert] at h
  split at h
  · next hlen =>
    have hlor : len * 2 ^ 5 ||| typ.code = len * 2 ^ 5 + typ.code := by
      rw [Nat.mul_comm]
      exact (Nat.two_pow_add_eq_or_of_lt typ.code_lt len).symm
    refine ⟨by simpa using hlen, ?_⟩
    rw [← hlor]
    exact (Except.ok.inj h).symm
  · cases h

theorem parseWmsgHeader_build
    (h : buildWmsgHeader typ len = .ok header) : parseWmsgHeader header = some (len, typ) := by
  obtain ⟨-, rfl⟩ := buildWmsgHeader_eq_ok h
  have hcode := typ.code_lt
  have hmod : (len * 2 ^ 5 + typ.code) % 2 ^ 5 = typ.code := by omega
  have hdiv : (len * 2 ^ 5 + typ.code) / 2 ^ 5 = len := by omega
  simp only [parseWmsgHeader, hmod, hdiv, WmsgType.ofCode_code, Option.map_some]

/-- A length that fits builds a header, whose bytes decode to the length and the type. -/
theorem buildWmsgHeader_ok (typ : WmsgType) {len : Nat} (h : len < 2 ^ 27) :
    ∃ header, buildWmsgHeader typ len = .ok header := by
  refine ⟨len * 2 ^ 5 ||| typ.code, ?_⟩
  have hc : decide (len < 2 ^ 27) = true := decide_eq_true h
  simp only [buildWmsgHeader, assert, hc, if_true]
  rfl

/-! ## The framing of wire messages -/

/-- Total length of a message with padding, read from its header bytes; messages shorter than
their header are refused. -/
def paddedLen (header : List UInt8) : Option Nat :=
  match parseWmsgHeader (leNat header) with
  | some (len, _) => if len < 4 then none else some (align4 len)
  | none => none

def wmsgFraming : Framing UInt8 where
  width := 4
  size := paddedLen
  width_pos := by decide
  width_le := by
    intro h n hn
    simp only [paddedLen] at hn
    split at hn
    · next len typ hp =>
      split at hn
      · cases hn
      · have := le_align4 len
        cases hn
        omega
    · cases hn

/-- `m` is exactly one wire message: header, body and padding. -/
abbrev IsWmsg (m : List UInt8) : Prop := wmsgFraming.IsFrame m

/-- `s` is a sequence of complete wire messages. -/
abbrev Wmsgs (s : List UInt8) : Prop := wmsgFraming.Framed s

theorem paddedLen_build
    (h : buildWmsgHeader typ len = .ok header) (hlen : 4 ≤ len) :
    paddedLen (u32le header) = some (align4 len) := by
  have hlt : header < 256 ^ 4 := by
    obtain ⟨h27, rfl⟩ := buildWmsgHeader_eq_ok h
    have := typ.code_lt
    omega
  simp only [paddedLen, u32le, leNat_leBytes_of_lt hlt, parseWmsgHeader_build h]
  rw [if_neg (by omega)]

/-- A header built for `len` bytes, followed by the body and the padding, is one wire message. -/
theorem buildWmsgHeader_isFrame {body : List UInt8}
    (h : buildWmsgHeader typ len = .ok header) (hlen : 4 ≤ len)
    (hbody : body.length + 4 = align4 len) : IsWmsg (u32le header ++ body) := by
  show paddedLen ((u32le header ++ body).take 4) = _
  rw [List.take_left' (length_u32le header), paddedLen_build h hlen, List.length_append,
    length_u32le, ← hbody, Nat.add_comm]

theorem paddedLen_mod {h : List UInt8} {n : Nat} (hn : paddedLen h = some n) : n % 4 = 0 := by
  simp only [paddedLen] at hn
  split at hn
  · split at hn
    · cases hn
    · cases hn
      exact align4_mod _
  · cases hn

theorem IsWmsg.length_mod {m : List UInt8} (h : IsWmsg m) : m.length % 4 = 0 := paddedLen_mod h

theorem Wmsgs.length_mod {s : List UInt8} (h : Wmsgs s) : s.length % 4 = 0 := by
  obtain ⟨ms, hms, rfl⟩ := h
  induction ms with
  | nil => rfl
  | cons m ms ih =>
    have hm := IsWmsg.length_mod (hms m (by simp))
    have := ih fun m' h' => hms m' (by simp [h'])
    rw [List.flatten_cons, List.length_append]
    omega

end Waypipe
