import Waypipe.Kernel

/-!
# What the diff kernel writes

`DiffOf out a old new` says that `out` is the encoding of a list of spans, and that these turn a
store with `old` at `a` into one with `new`.  `constructDiffSegmentTwoIter_spec` shows this of the
output of the portable kernel: the scan over the lines is followed with `Encoder.Layout`, which
says what stands in the diff buffer, and `OpenWords`, which says what the words of the open span are.
-/

namespace Waypipe

open LeBytes Patch List

/-! ## Spans -/

/-- A span of a diff: its first word, and the new contents, which are whole words.  Both ends are
`u32`. -/
structure Span where
  start : Nat
  data : List UInt8
  whole : data.length % 4 = 0
  nonempty : 0 < data.length
  small : start + data.length / 4 < 2 ^ 32

namespace Span

def stop (s : Span) : Nat := s.start + s.data.length / 4

def bytes (s : Span) : List UInt8 := u32le s.start ++ u32le s.stop ++ s.data

/-- What applying the span writes. -/
def segment (s : Span) : Segment UInt8 := ⟨4 * s.start, s.data⟩

theorem length_bytes (s : Span) : s.bytes.length = 8 + s.data.length := by
  simp only [bytes, length_append, length_u32le]

theorem four_mul_stop (s : Span) : 4 * s.stop = 4 * s.start + s.data.length := by
  have := s.whole
  unfold stop
  omega

end Span

theorem length_flatMap_bytes_mod (spans : List Span) :
    (spans.flatMap Span.bytes).length % 4 = 0 := by
  induction spans with
  | nil => rfl
  | cons s spans ih =>
    have := s.whole
    rw [flatMap_cons, length_append, s.length_bytes]
    omega

/-- The bytes are a diff that turns `old`, at the offset `a`, into `new`. -/
def DiffOf (out : List UInt8) (a : Nat) (old new : List UInt8) : Prop :=
  ∃ spans : List Span, out = spans.flatMap Span.bytes ∧
    (∀ s ∈ spans, a ≤ 4 * s.start ∧ 4 * s.stop ≤ a + new.length) ∧
    Turns (spans.map Span.segment) a old new

namespace DiffOf

variable {a : Nat} {out out' old new old' new' : List UInt8}

theorem nil (a : Nat) (l : List UInt8) : DiffOf [] a l l := by
  refine ⟨[], rfl, ?_, Turns.nil l⟩
  intro s hs
  cases hs

theorem single (s : Span) (h : old.length = s.data.length) :
    DiffOf s.bytes (4 * s.start) old s.data := by
  refine ⟨[s], by simp, ?_, Turns.single h⟩
  intro t ht
  rw [mem_singleton.mp ht]
  exact ⟨Nat.le_refl _, Nat.le_of_eq s.four_mul_stop⟩

theorem append (h : DiffOf out a old new) (h' : DiffOf out' (a + new.length) old' new') :
    DiffOf (out ++ out') a (old ++ old') (new ++ new') := by
  obtain ⟨spans, rfl, hin, hturns⟩ := h
  obtain ⟨spans', rfl, hin', hturns'⟩ := h'
  refine ⟨spans ++ spans', flatMap_append.symm, ?_, ?_⟩
  · intro s hs
    rw [length_append]
    rcases mem_append.mp hs with hs | hs
    · have := hin s hs
      omega
    · have := hin' s hs
      omega
  · rw [map_append]
    exact hturns.append hturns'

theorem trans {mid : List UInt8} (h : DiffOf out a old mid) (h' : DiffOf out' a mid new) :
    DiffOf (out ++ out') a old new := by
  obtain ⟨spans, rfl, hin, hturns⟩ := h
  obtain ⟨spans', rfl, hin', hturns'⟩ := h'
  have hlen : mid.length = new.length := hturns'.length_eq
  refine ⟨spans ++ spans', flatMap_append.symm, ?_, ?_⟩
  · intro s hs
    rcases mem_append.mp hs with hs | hs
    · have := hin s hs
      omega
    · exact hin' s hs
  · rw [map_append]
    exact hturns.trans hturns'

theorem length_mod (h : DiffOf out a old new) : out.length % 4 = 0 := by
  obtain ⟨spans, rfl, -, -⟩ := h
  exact length_flatMap_bytes_mod spans

theorem length_eq (h : DiffOf out a old new) : old.length = new.length := by
  obtain ⟨_, -, -, hturns⟩ := h
  exact hturns.length_eq

end DiffOf

/-! ## Writing to a buffer -/

theorem writeAt_append {p q r bytes : List UInt8} {start : Nat} (hstart : start = p.length)
    (hlen : q.length = bytes.length) : writeAt (p ++ q ++ r) start bytes = .ok (p ++ bytes ++ r) := by
  subst hstart
  unfold writeAt
  rw [if_pos (by simp only [length_append]; omega), append_assoc p q r,
    take_left, drop_append, drop_eq_nil_of_le (by omega), Nat.add_sub_cancel_left,
    ← hlen, drop_left]
  rfl

theorem checkedU32_of_lt {n : Nat} (h : n < 2 ^ 32) : checkedU32 n = .ok n := if_pos h

/-! ## The lines -/

/-- The target, or the reference, of some lines. -/
def newOf (lines : List Line) : List UInt8 := lines.flatMap Line.values

def oldOf (lines : List Line) : List UInt8 := lines.flatMap Line.refvals

@[simp] theorem newOf_nil : newOf [] = [] := rfl

@[simp] theorem oldOf_nil : oldOf [] = [] := rfl

@[simp] theorem newOf_cons (line : Line) (lines : List Line) :
    newOf (line :: lines) = line.values ++ newOf lines := flatMap_cons

@[simp] theorem oldOf_cons (line : Line) (lines : List Line) :
    oldOf (line :: lines) = line.refvals ++ oldOf lines := flatMap_cons

theorem newOf_linesOf (n : Nat) (t r : List UInt8) (ht : t.length = 64 * n)
    (hr : r.length = 64 * n) : newOf (linesOf n t r ht hr) = t := by
  induction n generalizing t r with
  | zero => exact (eq_nil_of_length_eq_zero (by omega)).symm
  | succ n ih =>
    unfold linesOf
    rw [newOf_cons, ih]
    exact take_append_drop 64 t

theorem oldOf_linesOf (n : Nat) (t r : List UInt8) (ht : t.length = 64 * n)
    (hr : r.length = 64 * n) : oldOf (linesOf n t r ht hr) = r := by
  induction n generalizing t r with
  | zero => exact (eq_nil_of_length_eq_zero (by omega)).symm
  | succ n ih =>
    unfold linesOf
    rw [oldOf_cons, ih]
    exact take_append_drop 64 r

theorem length_newOf (lines : List Line) : (newOf lines).length = 64 * lines.length := by
  induction lines with
  | nil => rfl
  | cons line lines ih =>
    rw [newOf_cons, length_append, line.length_values, ih, length_cons]
    omega

theorem newIterator_ok {t r : List UInt8} (h : t.length = r.length) (h64 : t.length % 64 = 0) :
    ∃ lines, newIterator t r = .ok lines ∧ newOf lines = t ∧ oldOf lines = r := by
  refine ⟨_, ?_, newOf_linesOf (t.length / 64) t r (by omega) (by omega), oldOf_linesOf ..⟩
  unfold newIterator
  rw [dif_pos h, dif_pos h64]

/-! ## The buffer of the encoder -/

/-- The diff buffer: the finished spans, the ends of the open span, its words, and free space. -/
structure Encoder.Layout (e : Encoder) (done ctrl cur free : List UInt8) : Prop where
  buf_eq : e.buf = done ++ ctrl ++ cur ++ free
  ctrl_length : ctrl.length = 8
  base_eq : e.base = done.length + 8
  idc_eq : 4 * e.idc = e.base
  dc_eq : 4 * e.dc = e.base + cur.length

namespace Encoder

variable {e : Encoder} {done ctrl cur free : List UInt8}

theorem Layout.length_buf (h : e.Layout done ctrl cur free) :
    e.buf.length = done.length + 8 + cur.length + free.length := by
  rw [h.buf_eq]
  simp only [length_append, h.ctrl_length]

/-- Between two spans. -/
structure Between (e : Encoder) (done free : List UInt8) : Prop where
  buf_eq : e.buf = done ++ free
  base_eq : e.base = done.length
  dc_eq : 4 * e.dc = done.length

theorem openSpan_spec (h : e.Between done free) (hfree : 8 ≤ free.length) :
    ∃ e', e.openSpan = .ok e' ∧ e'.Layout done (free.take 8) [] (free.drop 8) ∧
      e'.lineNo = e.lineNo ∧ e'.reference = e.reference := by
  have hroom : decide (e.base + 8 ≤ e.buf.length) = true := by
    rw [h.buf_eq, h.base_eq, length_append]
    exact decide_eq_true (by omega)
  refine ⟨{ e with base := e.base + 8, dc := e.dc + 2, idc := e.dc + 2 }, ?_, ?_, rfl, rfl⟩
  · unfold openSpan
    rw [assert_of hroom]
    rfl
  · have hbase := h.base_eq
    have hdc := h.dc_eq
    constructor
    · rw [append_nil, append_assoc, take_append_drop]
      exact h.buf_eq
    · rw [length_take]
      omega
    · show e.base + 8 = _
      omega
    · show 4 * (e.dc + 2) = e.base + 8
      omega
    · show 4 * (e.dc + 2) = e.base + 8 + 0
      omega

/-- The first line of a span is copied from its first half with a change on. -/
theorem Layout.firstLine_spec {refbaseBlock : Nat} (h : e.Layout done ctrl [] free) (line : Line)
    (hfree : 64 ≤ free.length) (hsmall : 16 * (e.lineNo + 1) + refbaseBlock < 2 ^ 32) :
    ∃ e' leading, leading ≤ 8 ∧ line.values.take (4 * leading) = line.refvals.take (4 * leading) ∧
      e.firstLine refbaseBlock line = .ok (e', 16 * e.lineNo + leading + refbaseBlock) ∧
      e'.Layout done ctrl (line.values.drop (4 * leading)) (free.drop (64 - 4 * leading)) ∧
      e'.lineNo = e.lineNo + 1 ∧ e'.reference = e.reference ++ line.values := by
  obtain ⟨leading, hle, htake, hif⟩ : ∃ leading, leading ≤ 8 ∧
      line.values.take (4 * leading) = line.refvals.take (4 * leading) ∧
      (if line.values.take 32 = line.refvals.take 32 then 8 else 0) = leading := by
    split
    · next heq => exact ⟨8, Nat.le_refl 8, heq, rfl⟩
    · exact ⟨0, Nat.zero_le 8, rfl, rfl⟩
  have hlen : (line.values.drop (4 * leading)).length = 64 - 4 * leading := by
    rw [length_drop, line.length_values]
  have hbuf : e.buf = done ++ ctrl ++ free.take (64 - 4 * leading) ++ free.drop (64 - 4 * leading) := by
    rw [h.buf_eq, append_nil, append_assoc _ (free.take _), take_append_drop]
  have hwrite : writeAt e.buf e.base (line.values.drop (4 * leading)) =
      .ok (done ++ ctrl ++ line.values.drop (4 * leading) ++ free.drop (64 - 4 * leading)) := by
    rw [hbuf]
    apply writeAt_append
    · rw [h.base_eq, length_append, h.ctrl_length]
    · rw [hlen, length_take]
      omega
  refine ⟨{ e with
    buf := done ++ ctrl ++ line.values.drop (4 * leading) ++ free.drop (64 - 4 * leading)
    dc := e.dc + (16 - leading)
    lineNo := e.lineNo + 1
    reference := e.reference ++ line.values }, leading, hle, htake, ?_, ?_, rfl, rfl⟩
  · unfold firstLine
    simp only [hif, hwrite, Res.ok_bind]
    rw [checkedU32_of_lt (by omega)]
    rfl
  · have hdc := h.dc_eq
    refine ⟨rfl, h.ctrl_length, h.base_eq, h.idc_eq, ?_⟩
    show 4 * (e.dc + (16 - leading)) = e.base + _
    rw [hlen]
    simp only [length_nil] at hdc
    omega

theorem Layout.nextLine_spec (h : e.Layout done ctrl cur free) (line : Line)
    (hfree : 64 ≤ free.length) :
    ∃ e', e.nextLine line = .ok e' ∧
      e'.Layout done ctrl (cur ++ line.values) (free.drop 64) ∧
      e'.lineNo = e.lineNo + 1 ∧ e'.reference = e.reference ++ line.values := by
  have hdc := h.dc_eq
  have hidc := h.idc_eq
  have hwrite : writeAt e.buf (e.base + 4 * (e.dc - e.idc)) line.values =
      .ok (done ++ ctrl ++ cur ++ line.values ++ free.drop 64) := by
    have hbuf : e.buf = done ++ ctrl ++ cur ++ free.take 64 ++ free.drop 64 := by
      rw [h.buf_eq, append_assoc _ (free.take _), take_append_drop]
    have hbase := h.base_eq
    have hctrl := h.ctrl_length
    rw [hbuf]
    apply writeAt_append
    · simp only [length_append]
      omega
    · rw [length_take, line.length_values]
      omega
  refine ⟨{ e with
    buf := done ++ ctrl ++ cur ++ line.values ++ free.drop 64
    dc := e.dc + 16
    lineNo := e.lineNo + 1
    reference := e.reference ++ line.values }, ?_, ?_, rfl, rfl⟩
  · unfold nextLine
    rw [checkedSub_of_le (by omega), Res.ok_bind, hwrite]
    rfl
  · refine ⟨by rw [← append_assoc _ cur], h.ctrl_length, h.base_eq, hidc, ?_⟩
    show 4 * (e.dc + 16) = e.base + _
    rw [length_append, line.length_values]
    omega

/-- Closing a span keeps its words except for the `trailing` ones. -/
theorem closeSpan_spec {refbaseBlock start trailing : Nat} (h : e.Layout done ctrl cur free)
    (htrailing : 4 * trailing < cur.length) (hwhole : cur.length % 4 = 0)
    (hstart : 4 * start + cur.length = 4 * (16 * e.lineNo + refbaseBlock))
    (hlines : trailing ≤ 16 * e.lineNo)
    (hsmall : 16 * e.lineNo + refbaseBlock < 2 ^ 32) :
    ∃ e' : Encoder, ∃ span : Span,
      e.closeSpan refbaseBlock start trailing = .ok (e', span.stop) ∧
      span.start = start ∧ span.data = cur.take (cur.length - 4 * trailing) ∧
      e'.buf = done ++ span.bytes ++ (cur.drop (cur.length - 4 * trailing) ++ free) ∧
      4 * e'.dc = (done ++ span.bytes).length ∧ e'.base = e.base ∧ e'.lineNo = e.lineNo ∧
      e'.reference = e.reference := by
  have hlen : (cur.take (cur.length - 4 * trailing)).length = cur.length - 4 * trailing := by
    rw [length_take]
    omega
  let span : Span := {
    start
    data := cur.take (cur.length - 4 * trailing)
    whole := by rw [hlen]; omega
    nonempty := by rw [hlen]; omega
    small := by rw [hlen]; omega }
  have hdata : span.data.length = cur.length - 4 * trailing := hlen
  have hstop : 16 * e.lineNo - trailing + refbaseBlock = span.stop := by
    have := span.four_mul_stop
    have hs : span.start = start := rfl
    omega
  have hwrite : writeAt e.buf done.length (u32le start ++ u32le span.stop) =
      .ok (done ++ (u32le start ++ u32le span.stop) ++ (cur ++ free)) := by
    rw [h.buf_eq, append_assoc _ cur]
    apply writeAt_append rfl
    rw [h.ctrl_length]
    simp
  refine ⟨{ e with
    buf := done ++ (u32le start ++ u32le span.stop) ++ (cur ++ free)
    dc := e.dc - trailing }, span, ?_, rfl, rfl, ?_, ?_, rfl, rfl, rfl⟩
  · have hdc := h.dc_eq
    unfold closeSpan
    rw [checkedSub_of_le (by omega), Res.ok_bind, checkedSub_of_le hlines, Res.ok_bind,
      Nat.mod_eq_of_lt (by omega), hstop, checkedU32_of_lt (by omega), Res.ok_bind, h.base_eq,
      checkedSub_of_le (Nat.le_add_left ..), Res.ok_bind, Nat.add_sub_cancel, hwrite]
    rfl
  · have hsplit : cur = span.data ++ cur.drop (cur.length - 4 * trailing) :=
      (take_append_drop _ cur).symm
    conv_lhs => rw [hsplit]
    simp only [Span.bytes, append_assoc]
    rfl
  · have hdc := h.dc_eq
    have hbase := h.base_eq
    show 4 * (e.dc - trailing) = _
    rw [length_append, span.length_bytes]
    omega

end Encoder

/-! ## The words of the open span -/

/-- `cur` is what an open span has so far, `old` what the reference had there; the last `trailing`
words have not changed, but some word before them has. -/
structure OpenWords (trailing : Nat) (cur old : List UInt8) : Prop where
  whole : cur.length % 4 = 0
  length_eq : old.length = cur.length
  trailing_lt : 4 * trailing < cur.length
  unchanged : old.drop (cur.length - 4 * trailing) = cur.drop (cur.length - 4 * trailing)
  ne : old ≠ cur

namespace OpenWords

variable {trailing : Nat} {cur old : List UInt8}

/-- The first line of a span, from its first half with a change on. -/
theorem first {line : Line} {leading : Nat} (hle : leading ≤ 8)
    (htake : line.values.take (4 * leading) = line.refvals.take (4 * leading))
    (hne : line.values ≠ line.refvals) :
    OpenWords 0 (line.values.drop (4 * leading)) (line.refvals.drop (4 * leading)) := by
  have hv := line.length_values
  have hr := line.length_refvals
  constructor
  · rw [length_drop]
    omega
  · rw [length_drop, length_drop, hv, hr]
  · rw [length_drop]
    omega
  · rw [drop_eq_nil_of_le, drop_eq_nil_of_le] <;> simp only [length_drop] <;> omega
  · intro heq
    apply hne
    rw [← take_append_drop (4 * leading) line.values, htake, ← heq, take_append_drop]

variable (h : OpenWords trailing cur old)

include h

/-- What is in a span before it gets another line. -/
theorem ne_append (l l' : List UInt8) : old ++ l ≠ cur ++ l' := by
  intro heq
  exact h.ne (append_inj heq h.length_eq).1

/-- With a line that has changed nothing is trailing. -/
theorem changed (line : Line) : OpenWords 0 (cur ++ line.values) (old ++ line.refvals) := by
  have hwhole := h.whole
  have hlen := h.length_eq
  constructor
  · rw [length_append, line.length_values]
    omega
  · rw [length_append, length_append, line.length_values, line.length_refvals, hlen]
  · rw [length_append, line.length_values]
    omega
  · rw [drop_eq_nil_of_le, drop_eq_nil_of_le] <;>
      simp only [length_append, line.length_values, line.length_refvals] <;> omega
  · exact h.ne_append _ _

theorem clear {line : Line} (hclear : line.values = line.refvals) :
    OpenWords (trailing + 16) (cur ++ line.values) (old ++ line.refvals) := by
  have hwhole := h.whole
  have hlen := h.length_eq
  have htrailing := h.trailing_lt
  have hcut : (cur ++ line.values).length - 4 * (trailing + 16) = cur.length - 4 * trailing := by
    rw [length_append, line.length_values]
    omega
  constructor
  · rw [length_append, line.length_values]
    omega
  · rw [length_append, length_append, line.length_values, line.length_refvals, hlen]
  · rw [length_append, line.length_values]
    omega
  · rw [hcut, drop_append_of_le_length (by omega), drop_append_of_le_length (by omega),
      h.unchanged, hclear]
  · exact h.ne_append _ _

/-- The span that is left when the trailing words are given up makes the whole change. -/
theorem diffOf (s : Span) (hdata : s.data = cur.take (cur.length - 4 * trailing)) :
    DiffOf s.bytes (4 * s.start) old cur := by
  have hlen := h.length_eq
  have hspan : DiffOf s.bytes (4 * s.start) (old.take (cur.length - 4 * trailing)) s.data := by
    apply DiffOf.single s
    rw [hdata, length_take, length_take, hlen]
  have htail := DiffOf.nil (4 * s.start + s.data.length) (cur.drop (cur.length - 4 * trailing))
  have hwhole := hspan.append htail
  rw [append_nil, hdata, take_append_drop, ← h.unchanged, take_append_drop] at hwhole
  exact hwhole

end OpenWords

/-! ## The scan -/

namespace Encoder

/-- The scan is over: the buffer has `done` and a diff of the lines, and nothing else is used. -/
structure Finished (e : Encoder) (size : Nat) (done : List UInt8) (a : Nat)
    (old new : List UInt8) : Prop where
  length_buf : e.buf.length = size
  diff : ∃ out free, e.buf = done ++ out ++ free ∧ 4 * e.dc = (done ++ out).length ∧
    out.length ≤ new.length + 8 ∧ DiffOf out a old new ∧ (old = new → out = [])

namespace Finished

variable {e : Encoder} {size a : Nat} {done old new : List UInt8}

/-- What comes before the lines has not changed. -/
theorem prepend (l : List UInt8) (h : e.Finished size done (a + l.length) old new) :
    e.Finished size done a (l ++ old) (l ++ new) := by
  obtain ⟨hsize, out, free, hbuf, hdc, hout, hdiff, hnone⟩ := h
  refine ⟨hsize, out, free, hbuf, hdc, ?_, (DiffOf.nil a l).append hdiff, ?_⟩
  · rw [length_append]
    omega
  · exact fun heq => hnone (append_cancel_left heq)

/-- What comes before the lines has been closed with a span. -/
theorem after {out₁ old₁ new₁ : List UInt8}
    (h : e.Finished size (done ++ out₁) (a + new₁.length) old new)
    (hdiff₁ : DiffOf out₁ a old₁ new₁) (hle : out₁.length ≤ new₁.length) (hne : old₁ ≠ new₁) :
    e.Finished size done a (old₁ ++ old) (new₁ ++ new) := by
  obtain ⟨hsize, out, free, hbuf, hdc, hout, hdiff, -⟩ := h
  refine ⟨hsize, out₁ ++ out, free, ?_, ?_, ?_, hdiff₁.append hdiff, ?_⟩
  · rw [hbuf, append_assoc done out₁]
  · rw [hdc, append_assoc done out₁]
  · simp only [length_append]
    omega
  · exact fun heq => absurd (append_inj heq hdiff₁.length_eq).1 hne

end Finished

/-- A span is open. -/
structure InSpan (e : Encoder) (refbaseBlock : Nat) (done ctrl cur free old : List UInt8)
    (trailing start : Nat) : Prop where
  layout : e.Layout done ctrl cur free
  words : OpenWords trailing cur old
  start_eq : 4 * start + cur.length = 4 * (16 * e.lineNo + refbaseBlock)
  trailing_le : trailing ≤ 16 * e.lineNo

section InSpan

variable {e e₁ : Encoder} {refbaseBlock trailing start : Nat} {done ctrl cur free old : List UInt8}
  {line : Line}

/-- Nothing is written after the finished spans. -/
theorem Layout.giveUp (h : e.Layout done ctrl [] free) {a : Nat} {l : List UInt8} :
    Finished { e with dc := e.dc - 2 } e.buf.length done a l l := by
  have hdc := h.dc_eq
  have hbase := h.base_eq
  rw [length_nil] at hdc
  refine ⟨rfl, [], ctrl ++ free, ?_, ?_, Nat.zero_le _, DiffOf.nil _ _, fun _ => rfl⟩
  · show e.buf = _
    rw [h.buf_eq]
    simp
  · show 4 * (e.dc - 2) = _
    rw [append_nil]
    omega

theorem Layout.length_nextLine (h : e.Layout done ctrl cur free)
    (h₁ : e₁.Layout done ctrl (cur ++ line.values) (free.drop 64)) (hfree : 64 ≤ free.length) :
    e₁.buf.length = e.buf.length := by
  rw [h₁.length_buf, h.length_buf, length_append, length_drop, line.length_values]
  omega

variable (h : e.InSpan refbaseBlock done ctrl cur free old trailing start)

include h

theorem InSpan.nextLine {trailing' : Nat} {free' : List UInt8}
    (h₁ : e₁.Layout done ctrl (cur ++ line.values) free')
    (hwords : OpenWords trailing' (cur ++ line.values) (old ++ line.refvals))
    (hle : trailing' ≤ 16 * e₁.lineNo) (hno : e₁.lineNo = e.lineNo + 1) :
    e₁.InSpan refbaseBlock done ctrl (cur ++ line.values) free' (old ++ line.refvals) trailing'
      start := by
  refine ⟨h₁, hwords, ?_, hle⟩
  have hstart := h.start_eq
  rw [length_append, line.length_values, hno]
  omega

variable (hsmall : 16 * e.lineNo + refbaseBlock < 2 ^ 32)

include hsmall

/-- What `closeSpan` does to an open span, in terms of the diff. -/
theorem InSpan.close :
    ∃ e' : Encoder, ∃ span : Span,
      e.closeSpan refbaseBlock start trailing = .ok (e', span.stop) ∧ span.start = start ∧
      span.data.length + 4 * trailing = cur.length ∧
      DiffOf span.bytes (4 * start) old cur ∧
      e'.buf = done ++ span.bytes ++ (cur.drop (cur.length - 4 * trailing) ++ free) ∧
      4 * e'.dc = (done ++ span.bytes).length ∧ e'.base = e.base ∧ e'.lineNo = e.lineNo ∧
      e'.reference = e.reference := by
  obtain ⟨e', span, hclose, hstart, hdata, hrest⟩ := closeSpan_spec h.layout h.words.trailing_lt
    h.words.whole h.start_eq h.trailing_le hsmall
  have hlt := h.words.trailing_lt
  refine ⟨e', span, hclose, hstart, ?_, ?_, hrest⟩
  · rw [hdata, length_take]
    omega
  · rw [← hstart]
    exact h.words.diffOf span hdata

/-- After a span has been closed, the words that were given up are free again. -/
theorem InSpan.advance :
    ∃ e₁ e₂ free', ∃ span : Span,
      e.closeSpan refbaseBlock start trailing = .ok (e₁, span.stop) ∧
      e₁.advance start span.stop = .ok e₂ ∧ span.start = start ∧
      DiffOf span.bytes (4 * start) old cur ∧ e₂.Between (done ++ span.bytes) free' ∧
      free'.length = free.length + 4 * trailing ∧
      span.bytes.length + 4 * trailing = cur.length + 8 ∧ e₂.lineNo = e.lineNo ∧
      e₂.reference = e.reference := by
  obtain ⟨e₁, span, hclose, hstart, hlen, hdiff, hbuf, hdc, hbase, hno, href⟩ := h.close hsmall
  have hbase' := h.layout.base_eq
  have hstop := span.four_mul_stop
  have hwords : e₁.base + 4 * (span.stop - start) = (done ++ span.bytes).length := by
    rw [length_append, span.length_bytes]
    omega
  refine ⟨e₁, { e₁ with base := e₁.base + 4 * (span.stop - start) }, _, span, hclose, ?_, hstart,
    hdiff, ⟨hbuf, hwords, hdc⟩, ?_, ?_, hno, href⟩
  · unfold Encoder.advance
    rw [checkedSub_of_le (by omega), Res.ok_bind, assert_of]
    · rfl
    · rw [hwords, hbuf]
      apply decide_eq_true
      simp only [length_append]
      omega
  · rw [length_append, length_drop]
    omega
  · rw [span.length_bytes]
    omega

/-- The outer loop opens the next span: the free words make room for its ends. -/
theorem InSpan.reopen (htrailing : 2 ≤ trailing) :
    ∃ e₁ e₂ e₃ ctrl' free', ∃ span : Span,
      e.closeSpan refbaseBlock start trailing = .ok (e₁, span.stop) ∧
      e₁.advance start span.stop = .ok e₂ ∧ e₂.openSpan = .ok e₃ ∧ span.start = start ∧
      DiffOf span.bytes (4 * start) old cur ∧ e₃.Layout (done ++ span.bytes) ctrl' [] free' ∧
      free.length + 4 * trailing = free'.length + 8 ∧
      span.bytes.length + 4 * trailing = cur.length + 8 ∧ e₃.buf.length = e.buf.length ∧
      e₃.lineNo = e.lineNo ∧ e₃.reference = e.reference := by
  obtain ⟨e₁, e₂, free', span, hclose, hadvance, hstart, hdiff, hbetween, hfree, hout, hno, href⟩ :=
    h.advance hsmall
  obtain ⟨e₃, hopen, hlayout, hno₃, href₃⟩ := openSpan_spec hbetween (by omega)
  refine ⟨e₁, e₂, e₃, _, _, span, hclose, hadvance, hopen, hstart, hdiff, hlayout, ?_, hout, ?_,
    hno₃.trans hno, href₃.trans href⟩
  · rw [length_drop]
    omega
  · rw [hlayout.length_buf, h.layout.length_buf, length_drop, length_append, length_nil]
    omega

end InSpan

end Encoder

section Scan

variable (refbaseBlock : Nat) (lines : List Line)

/-- From a state between two spans, the scan ends with a diff of the lines. -/
def EncodesUnchanged (run : Scan → Encoder → Res Encoder) : Prop :=
  ∀ (e : Encoder) (done ctrl free : List UInt8), e.Layout done ctrl [] free →
    64 * lines.length ≤ free.length →
    16 * (e.lineNo + lines.length) + refbaseBlock < 2 ^ 32 →
    ∃ e', run .unchanged e = .ok e' ∧
      e'.Finished e.buf.length done (4 * (16 * e.lineNo + refbaseBlock)) (oldOf lines)
        (newOf lines) ∧
      e'.reference = e.reference ++ newOf lines

/-- From a state with an open span, the scan ends with a diff of the span and the lines. -/
def EncodesChanged (run : Scan → Encoder → Res Encoder) : Prop :=
  ∀ (e : Encoder) (done ctrl cur free old : List UInt8) (trailing start : Nat),
    e.InSpan refbaseBlock done ctrl cur free old trailing start →
    64 * lines.length ≤ free.length →
    16 * (e.lineNo + lines.length) + refbaseBlock < 2 ^ 32 →
    ∃ e', run (.changed trailing start) e = .ok e' ∧
      e'.Finished e.buf.length done (4 * start) (old ++ oldOf lines) (cur ++ newOf lines) ∧
      e'.reference = e.reference ++ newOf lines

end Scan

section Scan

variable {refbaseBlock trailing start : Nat} {lines : List Line} {line : Line} {e e₁ : Encoder}
  {done ctrl cur free old : List UInt8} {run : Scan → Encoder → Res Encoder}

/-- A line without changes between two spans. -/
theorem EncodesUnchanged.skipLine (ih : EncodesUnchanged refbaseBlock lines run)
    (h : e.Layout done ctrl [] free)
    (hfree : 64 * (lines.length + 1) ≤ free.length)
    (hsmall : 16 * (e.lineNo + (lines.length + 1)) + refbaseBlock < 2 ^ 32)
    (heq : line.values = line.refvals) :
    ∃ e', run .unchanged (e.skipLine line) = .ok e' ∧
      e'.Finished e.buf.length done (4 * (16 * e.lineNo + refbaseBlock)) (oldOf (line :: lines))
        (newOf (line :: lines)) ∧
      e'.reference = e.reference ++ newOf (line :: lines) := by
  obtain ⟨e', henc, hfinished, href⟩ := ih (e.skipLine line) done ctrl free
    ⟨h.buf_eq, h.ctrl_length, h.base_eq, h.idc_eq, h.dc_eq⟩ (by omega)
    (by show 16 * (e.lineNo + 1 + lines.length) + _ < _; omega)
  have hnext : 4 * (16 * (e.skipLine line).lineNo + refbaseBlock) =
      4 * (16 * e.lineNo + refbaseBlock) + line.values.length := by
    rw [line.length_values]
    show 4 * (16 * (e.lineNo + 1) + refbaseBlock) = _
    omega
  rw [hnext] at hfinished
  refine ⟨e', henc, ?_, ?_⟩
  · rw [newOf_cons, oldOf_cons, ← heq]
    exact hfinished.prepend line.values
  · rw [href, newOf_cons, heq]
    exact append_assoc ..

/-- The rest of the scan after the first line of a span, which starts with word `leading` of the
line. -/
theorem EncodesChanged.firstLine {leading : Nat} (ih : EncodesChanged refbaseBlock lines run)
    (h : e.Layout done ctrl [] free) (hfree : 64 * (lines.length + 1) ≤ free.length)
    (hsmall : 16 * (e.lineNo + (lines.length + 1)) + refbaseBlock < 2 ^ 32)
    (hne : line.values ≠ line.refvals) (hle : leading ≤ 8)
    (htake : line.values.take (4 * leading) = line.refvals.take (4 * leading))
    (h₁ : e₁.Layout done ctrl (line.values.drop (4 * leading)) (free.drop (64 - 4 * leading)))
    (hno : e₁.lineNo = e.lineNo + 1) (href₁ : e₁.reference = e.reference ++ line.values) :
    ∃ e', run (.changed 0 (16 * e.lineNo + leading + refbaseBlock)) e₁ = .ok e' ∧
      e'.Finished e.buf.length done (4 * (16 * e.lineNo + refbaseBlock)) (oldOf (line :: lines))
        (newOf (line :: lines)) ∧
      e'.reference = e.reference ++ newOf (line :: lines) := by
  have hv := line.length_values
  have hspan : e₁.InSpan refbaseBlock done ctrl (line.values.drop (4 * leading))
      (free.drop (64 - 4 * leading)) (line.refvals.drop (4 * leading)) 0
      (16 * e.lineNo + leading + refbaseBlock) := by
    refine ⟨h₁, OpenWords.first hle htake hne, ?_, Nat.zero_le _⟩
    rw [length_drop, hno]
    omega
  obtain ⟨e', henc, hfinished, href⟩ :=
    ih e₁ done ctrl _ _ _ 0 _ hspan (by rw [length_drop]; omega) (by omega)
  refine ⟨e', henc, ?_, ?_⟩
  · -- The unchanged words before the span are not part of it.
    have hsize : e₁.buf.length = e.buf.length := by
      rw [h₁.length_buf, h.length_buf, length_drop, length_drop, length_nil]
      omega
    have hnext : 4 * (16 * e.lineNo + leading + refbaseBlock) =
        4 * (16 * e.lineNo + refbaseBlock) + (line.values.take (4 * leading)).length := by
      rw [length_take]
      omega
    rw [hsize, hnext] at hfinished
    have hwhole := hfinished.prepend _
    rw [← append_assoc, ← append_assoc, take_append_drop, htake, take_append_drop] at hwhole
    rw [newOf_cons, oldOf_cons]
    exact hwhole
  · rw [href, href₁, newOf_cons, append_assoc]

/-- The rest of the scan after a line that belongs to the open span. -/
theorem EncodesChanged.nextLine (ih : EncodesChanged refbaseBlock lines run)
    (hspan : e₁.InSpan refbaseBlock done ctrl (cur ++ line.values) (free.drop 64)
      (old ++ line.refvals) trailing start)
    (hfree : 64 * (lines.length + 1) ≤ free.length)
    (hsmall : 16 * (e₁.lineNo + lines.length) + refbaseBlock < 2 ^ 32)
    (hsize : e₁.buf.length = e.buf.length) (href₁ : e₁.reference = e.reference ++ line.values) :
    ∃ e', run (.changed trailing start) e₁ = .ok e' ∧
      e'.Finished e.buf.length done (4 * start) (old ++ oldOf (line :: lines))
        (cur ++ newOf (line :: lines)) ∧
      e'.reference = e.reference ++ newOf (line :: lines) := by
  obtain ⟨e', henc, hfinished, href⟩ :=
    ih e₁ done ctrl _ _ _ trailing start hspan (by rw [length_drop]; omega) (by omega)
  refine ⟨e', henc, ?_, ?_⟩
  · rw [newOf_cons, oldOf_cons, ← append_assoc, ← append_assoc, ← hsize]
    exact hfinished
  · rw [href, href₁, newOf_cons, append_assoc]

/-- The rest of the scan after a line with which the open span ends. -/
theorem EncodesUnchanged.endLine {e₂ : Encoder} {out ctrl' free' : List UInt8}
    (ih : EncodesUnchanged refbaseBlock lines run)
    (hspan : e₁.InSpan refbaseBlock done ctrl (cur ++ line.values) (free.drop 64)
      (old ++ line.refvals) trailing start)
    (hdiff : DiffOf out (4 * start) (old ++ line.refvals) (cur ++ line.values))
    (hout : out.length ≤ (cur ++ line.values).length)
    (h₂ : e₂.Layout (done ++ out) ctrl' [] free') (hfree : 64 * lines.length ≤ free'.length)
    (hsmall : 16 * (e₁.lineNo + lines.length) + refbaseBlock < 2 ^ 32)
    (hsize : e₂.buf.length = e.buf.length) (hno : e₂.lineNo = e₁.lineNo)
    (href₂ : e₂.reference = e.reference ++ line.values) :
    ∃ e', run .unchanged e₂ = .ok e' ∧
      e'.Finished e.buf.length done (4 * start) (old ++ oldOf (line :: lines))
        (cur ++ newOf (line :: lines)) ∧
      e'.reference = e.reference ++ newOf (line :: lines) := by
  obtain ⟨e', henc, hfinished, href⟩ := ih e₂ (done ++ out) ctrl' free' h₂ hfree (by omega)
  have hpos := hspan.start_eq
  rw [hsize, show 4 * (16 * e₂.lineNo + refbaseBlock) = 4 * start + (cur ++ line.values).length by
    rw [hno]; omega] at hfinished
  refine ⟨e', henc, ?_, ?_⟩
  · rw [newOf_cons, oldOf_cons, ← append_assoc, ← append_assoc]
    exact hfinished.after hdiff hout hspan.words.ne
  · rw [href, href₂, newOf_cons, append_assoc]

end Scan

section Scan

variable {skipGapLen refbaseBlock : Nat} {lines : List Line} {line : Line}

/-- Nothing to record: the room for the ends of a span is given up. -/
theorem encodesUnchanged_nil :
    EncodesUnchanged refbaseBlock [] (encode skipGapLen refbaseBlock []) := by
  intro e done ctrl free h _ _
  have hdc := h.dc_eq
  have hbase := h.base_eq
  rw [length_nil] at hdc
  refine ⟨{ e with dc := e.dc - 2 }, ?_, h.giveUp, (append_nil _).symm⟩
  unfold encode
  rw [checkedSub_of_le (by omega)]
  rfl

theorem encodesChanged_nil :
    EncodesChanged refbaseBlock [] (encode skipGapLen refbaseBlock []) := by
  intro e done ctrl cur free old trailing start h _ hsmall
  obtain ⟨e', span, hclose, -, hlen, hdiff, hbuf, hdc, -, -, href⟩ := h.close hsmall
  refine ⟨e', ?_, ?_, ?_⟩
  · unfold encode
    rw [hclose]
    rfl
  · rw [oldOf_nil, newOf_nil, append_nil, append_nil]
    refine ⟨?_, span.bytes, _, hbuf, hdc, ?_, hdiff, fun heq => absurd heq h.words.ne⟩
    · rw [hbuf, h.layout.length_buf]
      simp only [length_append, span.length_bytes, length_drop]
      omega
    · rw [span.length_bytes]
      omega
  · rw [href, newOf_nil, append_nil]

theorem encodesUnchanged_cons
    (ih : EncodesUnchanged refbaseBlock lines (encode skipGapLen refbaseBlock lines))
    (ih' : EncodesChanged refbaseBlock lines (encode skipGapLen refbaseBlock lines)) :
    EncodesUnchanged refbaseBlock (line :: lines)
      (encode skipGapLen refbaseBlock (line :: lines)) := by
  intro e done ctrl free h hfree hsmall
  rw [length_cons] at hfree hsmall
  unfold encode
  by_cases heq : line.values = line.refvals
  · rw [if_pos heq]
    exact ih.skipLine h hfree hsmall heq
  · rw [if_neg heq]
    obtain ⟨e₁, leading, hle, htake, hfirst, h₁, hno, href₁⟩ :=
      h.firstLine_spec line (by omega) (show 16 * (e.lineNo + 1) + refbaseBlock < 2 ^ 32 by omega)
    rw [hfirst]
    exact ih'.firstLine h hfree hsmall heq hle htake h₁ hno href₁

theorem encodesChanged_cons (hskip : 16 ≤ skipGapLen)
    (ih : EncodesUnchanged refbaseBlock lines (encode skipGapLen refbaseBlock lines))
    (ih' : EncodesChanged refbaseBlock lines (encode skipGapLen refbaseBlock lines)) :
    EncodesChanged refbaseBlock (line :: lines)
      (encode skipGapLen refbaseBlock (line :: lines)) := by
  intro e done ctrl cur free old trailing start h hfree hsmall
  rw [length_cons] at hfree hsmall
  obtain ⟨e₁, hnext, hlayout, hno, href₁⟩ := h.layout.nextLine_spec line (by omega)
  obtain ⟨trailing', htrailing', hwords, hle⟩ : ∃ trailing',
      trailing * (decide (line.values = line.refvals)).toNat +
        (decide (line.values = line.refvals)).toNat * 16 = trailing' ∧
      OpenWords trailing' (cur ++ line.values) (old ++ line.refvals) ∧
      trailing' ≤ 16 * e₁.lineNo := by
    have hle := h.trailing_le
    by_cases hclear : line.values = line.refvals
    · refine ⟨trailing + 16, ?_, h.words.clear hclear, by omega⟩
      rw [decide_eq_true hclear]
      simp
    · refine ⟨0, ?_, h.words.changed line, Nat.zero_le _⟩
      rw [decide_eq_false hclear]
      simp
  have hspan := h.nextLine hlayout hwords hle hno
  have hsize := h.layout.length_nextLine hlayout (by omega)
  unfold encode
  simp only [hnext, Res.ok_bind, htrailing']
  by_cases hgap : skipGapLen < trailing'
  · rw [if_pos hgap]
    obtain ⟨e₂, e₃, e₄, ctrl', free', span, hclose, hadvance, hopen, -, hdiff, h₄, hfree', hout,
      hsize₄, hno₄, href₄⟩ := hspan.reopen (by omega) (by omega)
    rw [length_drop] at hfree'
    rw [hclose, Res.ok_bind, hadvance, Res.ok_bind, hopen]
    exact ih.endLine hspan hdiff (by omega) h₄ (by omega) (by omega) (hsize₄.trans hsize) hno₄
      (href₄.trans href₁)
  · rw [if_neg hgap]
    exact ih'.nextLine hspan hfree (by omega) hsize href₁

/-- Both loops at once, by induction on the lines. -/
theorem encode_spec (hskip : 16 ≤ skipGapLen) (lines : List Line) :
    EncodesUnchanged refbaseBlock lines (encode skipGapLen refbaseBlock lines) ∧
      EncodesChanged refbaseBlock lines (encode skipGapLen refbaseBlock lines) := by
  induction lines with
  | nil => exact ⟨encodesUnchanged_nil, encodesChanged_nil⟩
  | cons line lines ih =>
    exact ⟨encodesUnchanged_cons ih.1 ih.2, encodesChanged_cons hskip ih.1 ih.2⟩

end Scan

/-- What a kernel leaves for one interval, in a diff buffer of `diff.length` bytes: a diff of the
contents of its start, and a reference equal to the target. -/
structure Encoded (diff : List UInt8) (a : Nat) (old new : List UInt8)
    (r : Nat × List UInt8 × List UInt8) : Prop where
  length_buf : r.2.1.length = diff.length
  length_le : r.1 ≤ new.length + 8
  diff : ∃ out free, r.2.1 = out ++ free ∧ r.1 = out.length ∧ DiffOf out a old new
  reference : r.2.2 = new
  unchanged : old = new → r.1 = 0

/-- What a kernel returns when its scan is over. -/
theorem Encoder.Finished.encoded {e : Encoder} {diff old new : List UInt8} {a n : Nat}
    (h : e.Finished diff.length [] a old new) (href : e.reference = new) (hn : n = e.dc * 4) :
    Encoded diff a old new (n, e.buf, e.reference) := by
  obtain ⟨hsize, out, free, hbuf, hdc, hout, hdiff, hnone⟩ := h
  rw [nil_append] at hbuf hdc
  refine ⟨hsize, ?_, ⟨out, free, hbuf, ?_, hdiff⟩, href, ?_⟩
  · show n ≤ _
    omega
  · show n = _
    omega
  · intro heq
    show n = 0
    rw [hnone heq, length_nil] at hdc
    omega

theorem Encoder.Finished.dc_le {e : Encoder} {size a : Nat} {old new : List UInt8}
    (h : e.Finished size [] a old new) : 4 * e.dc ≤ new.length + 8 := by
  obtain ⟨-, out, free, -, hdc, hout, -, -⟩ := h
  rw [hdc, nil_append]
  exact hout

/-- The first span is opened at the start of the buffer. -/
theorem Encoder.openSpan_start {diff : List UInt8} (h : 8 ≤ diff.length) :
    ∃ e₁, Encoder.openSpan ⟨diff, 0, 0, 0, 0, []⟩ = .ok e₁ ∧
      e₁.Layout [] (diff.take 8) [] (diff.drop 8) ∧ e₁.lineNo = 0 ∧ e₁.reference = [] ∧
      e₁.buf.length = diff.length := by
  have hstart : Encoder.Between ⟨diff, 0, 0, 0, 0, []⟩ [] diff := ⟨rfl, rfl, rfl⟩
  obtain ⟨e₁, hopen, hlayout, hno, href⟩ := Encoder.openSpan_spec hstart h
  refine ⟨e₁, hopen, hlayout, hno, href, ?_⟩
  rw [hlayout.length_buf, length_nil, length_drop]
  omega

/-- A diff buffer with eight bytes more than the lines have is always enough. -/
theorem constructDiffSegmentTwoIter_spec {skipGapLen referenceBase : Nat} {diff : List UInt8}
    {lines : List Line} (hskip : 16 ≤ skipGapLen) (hbase : referenceBase % 4 = 0)
    (hblock : referenceBase < 2 ^ 32) (hsmall : 64 * lines.length + 8 < 2 ^ 32)
    (hdiff : 64 * lines.length + 8 ≤ diff.length) :
    ∃ r, constructDiffSegmentTwoIter diff lines referenceBase skipGapLen = .ok r ∧
      Encoded diff referenceBase (oldOf lines) (newOf lines) r := by
  obtain ⟨e₁, hopen, hlayout, hno, href₁, hsize⟩ := @Encoder.openSpan_start diff (by omega)
  obtain ⟨e', henc, hfinished, href⟩ :=
    (encode_spec hskip lines).1 e₁ [] _ _ hlayout (by rw [length_drop]; omega)
      (show 16 * (e₁.lineNo + lines.length) + referenceBase / 4 < 2 ^ 32 by omega)
  have hnew := length_newOf lines
  rw [hsize, show 4 * (16 * e₁.lineNo + referenceBase / 4) = referenceBase by omega] at hfinished
  have hdc := hfinished.dc_le
  refine ⟨(e'.dc * 4, e'.buf, e'.reference), ?_, hfinished.encoded ?_ rfl⟩
  · unfold constructDiffSegmentTwoIter
    rw [assert_of (beq_iff_eq.mpr hbase), Res.ok_bind, assert_of (decide_eq_true hskip), Res.ok_bind,
      hopen, Res.ok_bind, henc, Res.ok_bind, if_pos (by omega)]
    rfl
  · rw [href, href₁, nil_append]

end Waypipe
