import Waypipe.ReadBuffer

/-!
# Framing of the channel input

However the kernel cuts a stream of whole messages into pieces, `ReadBuffer` hands out exactly
these messages, in order, and none of its assertions fails (`reads_all_messages`).  `BufOk` is the
invariant between two reads, `Reads` is what one read does.  The bytes in progress are always less
than a message, and `lastMsgStart` and the sizes of chunks stay multiples of 4, which leaves room
for at least one byte in every read.
-/

namespace Waypipe

open LeBytes Framing ReadBuffer List
open Res (ok_bind)

variable {b : ReadBuffer} {c : ReadBufferChunk} {bytes pending : List UInt8} {src : ReadvResult}

/-! ## Chunks -/

namespace ReadBufferChunk

theorem read_of_le {start len : Nat} (h : start + len ≤ c.data.length) :
    c.read start len = .ok ((c.data.drop start).take len) := by
  simp only [read, assert, h, decide_true, if_true]
  rfl

/-- Writing directly behind the initialised part extends it. -/
theorem write_at_end {start : Nat} (hstart : start = c.data.length)
    (hsize : start + bytes.length ≤ c.size) :
    c.write start bytes = .ok { c with data := c.data ++ bytes } := by
  subst hstart
  simp only [write, assert, Nat.le_refl, hsize, decide_true, Bool.and_self, if_true,
    take_length, drop_eq_nil_of_le (Nat.le_add_right _ _), append_nil]
  rfl

theorem new_of_pos {len : Nat} (h : 0 < len) : new len = .ok { size := len, data := [] } := by
  simp only [new, assert, h, decide_true, if_true]
  rfl

end ReadBufferChunk

namespace ReadBuffer

theorem getMessagePaddedLen_of_paddedLen {start n : Nat} (hlen : start + 4 ≤ c.data.length)
    (h : paddedLen ((c.data.drop start).take 4) = some n) :
    getMessagePaddedLen c start = .ok n := by
  unfold getMessagePaddedLen
  rw [ReadBufferChunk.read_of_le hlen]
  simp only [paddedLen] at h
  split at h
  next len typ hp =>
    simp only [ok_bind, hp]
    split at h
    · cases h
    next hge =>
      cases h
      rw [if_neg hge]
      rfl
  · cases h

theorem getChunk_of_some {i : Nat} (h : b.chunks[i]? = some c) : b.getChunk i = .ok c := by
  rw [getChunk, h]

end ReadBuffer

/-! ## Views -/

/-- Chunks are only ever written to behind their initialised part. -/
def ChunksGrow (h h' : List ReadBufferChunk) : Prop :=
  ∀ (i : Nat) (c : ReadBufferChunk), h[i]? = some c →
    ∃ c' : ReadBufferChunk, h'[i]? = some c' ∧ c.data <+: c'.data

namespace ChunksGrow

variable {h h' h'' : List ReadBufferChunk}

theorem refl (h : List ReadBufferChunk) : ChunksGrow h h :=
  fun _ c hc => ⟨c, hc, prefix_refl _⟩

theorem trans (h₁ : ChunksGrow h h') (h₂ : ChunksGrow h' h'') : ChunksGrow h h'' := by
  intro i c hc
  obtain ⟨c', hc', hp⟩ := h₁ i c hc
  obtain ⟨c'', hc'', hp'⟩ := h₂ i c' hc'
  exact ⟨c'', hc'', hp.trans hp'⟩

theorem append (h : List ReadBufferChunk) (c : ReadBufferChunk) : ChunksGrow h (h ++ [c]) := by
  intro i d hd
  refine ⟨d, ?_, prefix_refl _⟩
  rw [getElem?_append_left (List.getElem?_eq_some_iff.mp hd).1, hd]

theorem set {i : Nat} (hc : h[i]? = some c) :
    ChunksGrow h (h.set i { c with data := c.data ++ bytes }) := by
  intro j d hd
  by_cases hij : i = j
  · subst hij
    rw [hc] at hd
    cases hd
    refine ⟨{ c with data := c.data ++ bytes }, ?_, prefix_append _ _⟩
    rw [getElem?_set_self (List.getElem?_eq_some_iff.mp hc).1]
  · exact ⟨d, by rw [getElem?_set_ne hij, hd], prefix_refl _⟩

end ChunksGrow

/-- The bytes of a view. -/
def ReadBufferView.get (h : List ReadBufferChunk) (v : ReadBufferView) : List UInt8 :=
  match h[v.base]? with
  | some c => (c.data.drop v.start).take v.dataLen
  | none => []

/-- A view of one whole message, in initialised memory. -/
def ViewOk (h : List ReadBufferChunk) (v : ReadBufferView) : Prop :=
  (∃ c : ReadBufferChunk, h[v.base]? = some c ∧ v.start + v.dataLen ≤ c.data.length) ∧
    IsWmsg (v.get h)

/-- A view keeps its message whatever is read later. -/
theorem ViewOk.get_eq {h h' : List ReadBufferChunk} {v : ReadBufferView} (hv : ViewOk h v)
    (hgrow : ChunksGrow h h') : v.get h' = v.get h := by
  obtain ⟨⟨c, hc, hlen⟩, -⟩ := hv
  obtain ⟨c', hc', t, ht⟩ := hgrow v.base c hc
  simp only [ReadBufferView.get, hc, hc', ← ht]
  rw [drop_append_of_le_length (by omega), take_append_of_le_length]
  rw [length_drop]
  omega

theorem ViewOk.mono {h h' : List ReadBufferChunk} {v : ReadBufferView} (hv : ViewOk h v)
    (hgrow : ChunksGrow h h') : ViewOk h' v := by
  have hget := hv.get_eq hgrow
  obtain ⟨⟨c, hc, hlen⟩, hm⟩ := hv
  obtain ⟨c', hc', hp⟩ := hgrow v.base c hc
  refine ⟨⟨c', hc', Nat.le_trans hlen hp.length_le⟩, ?_⟩
  rw [hget]
  exact hm

/-! ## The invariant -/

/-- Less than one message. -/
def Incomplete (p : List UInt8) : Prop :=
  ∀ n, 4 ≤ p.length → paddedLen (p.take 4) = some n → p.length < n

namespace ReadBuffer

variable (b : ReadBuffer)

/-- The index of the chunk that holds the message in progress. -/
def active : Nat := b.old.getD b.current

/-- The bytes of the message in progress. -/
def tail : List UInt8 :=
  match b.chunks[b.active]? with
  | some c => c.data.drop b.lastMsgStart
  | none => []

end ReadBuffer

/-- The message in progress is in the current chunk. -/
structure CurrentOk (b : ReadBuffer) (c : ReadBufferChunk) : Prop where
  chunk : b.chunks[b.current]? = some c
  size_mod : c.size % 4 = 0
  size_ge : 4 * MAX_NORMAL_MSG_SIZE ≤ c.size
  data : c.data.length = b.stop
  room : b.stop + MAX_NORMAL_MSG_SIZE ≤ c.size
  start_le : b.lastMsgStart ≤ b.stop
  start_mod : b.lastMsgStart % 4 = 0
  old : b.old = none

/-- The message in progress is in the chunk `o`, with its end in sight, and the current chunk is
empty. -/
structure OldOk (b : ReadBuffer) (o : Nat) (oc c : ReadBufferChunk) (n : Nat) : Prop where
  chunk : b.chunks[b.current]? = some c
  size_mod : c.size % 4 = 0
  size_ge : 4 * MAX_NORMAL_MSG_SIZE ≤ c.size
  empty : c.data = []
  old : b.old = some o
  ne : o ≠ b.current
  oldChunk : b.chunks[o]? = some oc
  data : oc.data.length = b.stop
  header : b.lastMsgStart + 4 ≤ b.stop
  len : paddedLen ((oc.data.drop b.lastMsgStart).take 4) = some n
  rest : b.stop < b.lastMsgStart + n
  fits : b.lastMsgStart + n ≤ oc.size

/-- Between two reads. -/
def BufOk (b : ReadBuffer) : Prop :=
  (∃ c, CurrentOk b c ∧ Incomplete b.tail) ∨ ∃ o oc c n, OldOk b o oc c n

/-- What a read does: it takes `bytes` from the input, and queues views of the messages that are
whole by then. -/
structure Reads (b : ReadBuffer) (bytes : List UInt8) (b' : ReadBuffer) : Prop where
  grow : ChunksGrow b.chunks b'.chunks
  ok : BufOk b'
  queue : ∃ vs, b'.msgQueue = b.msgQueue ++ vs ∧ (∀ v ∈ vs, ViewOk b'.chunks v) ∧
    (vs.map (·.get b'.chunks)).flatten ++ b'.tail = b.tail ++ bytes

theorem CurrentOk.tail_eq (h : CurrentOk b c) :
    b.tail = c.data.drop b.lastMsgStart := by
  simp only [ReadBuffer.tail, active, h.old, Option.getD_none, h.chunk]

theorem OldOk.tail_eq {o n : Nat} {oc : ReadBufferChunk} (h : OldOk b o oc c n) :
    b.tail = oc.data.drop b.lastMsgStart := by
  simp only [ReadBuffer.tail, active, h.old, Option.getD_some, h.oldChunk]

/-! ## Extracting messages -/

/-- The header of the message in progress, when it is there. -/
theorem header_of_framed {p : List UInt8} (h : Wmsgs (p ++ pending)) (hlen : 4 ≤ p.length) :
    ∃ n, paddedLen (p.take 4) = some n ∧ IsWmsg ((p ++ pending).take n) ∧
      Wmsgs ((p ++ pending).drop n) := by
  have hwidth : wmsgFraming.width ≤ (p ++ pending).length := by
    rw [length_append]
    exact Nat.le_trans hlen (Nat.le_add_right _ _)
  obtain ⟨n, hn, -, hm, hrest⟩ := Framed.uncons h hwidth
  refine ⟨n, ?_, hm, hrest⟩
  have htake : (p ++ pending).take wmsgFraming.width = p.take 4 :=
    take_append_of_le_length hlen
  rw [htake] at hn
  exact hn

/-- The loop queues views of all whole messages in the chunk.  The induction is on the fuel: every
round takes at least 4 of the bytes that are left. -/
theorem extractLoop_spec {current stop : Nat} (hdata : c.data.length = stop) :
    ∀ (fuel start : Nat) (queue : List ReadBufferView), start ≤ stop → stop - start < 4 * fuel →
      start % 4 = 0 → Wmsgs (c.data.drop start ++ pending) →
      ∃ start' vs, extractLoop c current stop fuel start queue =
          .ok (start', queue ++ vs) ∧
        start' ≤ stop ∧ start' % 4 = 0 ∧ Incomplete (c.data.drop start') ∧
        (∀ v ∈ vs, v.base = current ∧ v.start + v.dataLen ≤ stop ∧
          IsWmsg ((c.data.drop v.start).take v.dataLen)) ∧
        (vs.map fun v => (c.data.drop v.start).take v.dataLen).flatten ++ c.data.drop start' =
          c.data.drop start := by
  intro fuel
  induction fuel with
  | zero =>
    intro start queue _ hfuel
    omega
  | succ fuel ih =>
    intro start queue hle hfuel hmod hframed
    have htail : (c.data.drop start).length = stop - start := by rw [length_drop, hdata]
    unfold extractLoop
    rw [checkedSub_of_le hle]
    show ∃ start' vs, (if stop - start < 4 then _ else _) = _ ∧ _
    by_cases hshort : stop - start < 4
    · refine ⟨start, [], ?_, hle, hmod, ?_, by simp, by simp⟩
      · rw [if_pos hshort, append_nil]
        rfl
      · intro n h4
        omega
    · rw [if_neg hshort]
      obtain ⟨n, hn, hm, hrest⟩ := header_of_framed hframed (by omega)
      rw [getMessagePaddedLen_of_paddedLen (by omega) hn]
      show ∃ start' vs, (if n ≤ stop - start then _ else _) = _ ∧ _
      by_cases hfit : n ≤ stop - start
      · -- a whole message: queue its view and go on behind it
        have hnmod := paddedLen_mod hn
        have hpos : 4 ≤ n := by
          have := hm.width_le_length
          rw [length_take] at this
          exact Nat.le_trans this (Nat.min_le_left _ _)
        have hmsg : (c.data.drop start ++ pending).take n = (c.data.drop start).take n :=
          take_append_of_le_length (by omega)
        rw [drop_append_of_le_length (by omega), drop_drop] at hrest
        obtain ⟨start', vs, hloop, hle', hmod', hinc, hvs, hflat⟩ :=
          ih (start + n) (queue ++ [{ base := current, start, dataLen := n }]) (by omega) (by omega)
            (by omega) hrest
        refine ⟨start', { base := current, start, dataLen := n } :: vs, ?_, hle', hmod', hinc, ?_, ?_⟩
        · rw [if_pos hfit, hloop, append_assoc]
          rfl
        · intro v hv
          rcases mem_cons.mp hv with rfl | hv
          · exact ⟨rfl, by dsimp only; omega, hmsg ▸ hm⟩
          · exact hvs v hv
        · rw [map_cons, flatten_cons, append_assoc, hflat, ← drop_drop, take_append_drop]
      · refine ⟨start, [], ?_, hle, hmod, ?_, by simp, by simp⟩
        · rw [if_neg hfit, append_nil]
          rfl
        · intro n' _ hn'
          rw [hn] at hn'
          cases hn'
          omega

/-- `extract_messages` on a chunk that is read up to `stop`. -/
theorem extractMessages_spec (h : CurrentOk b c) (hframed : Wmsgs (b.tail ++ pending)) :
    ∃ b', b.extractMessages = .ok b' ∧ Reads b [] b' := by
  rw [h.tail_eq] at hframed
  obtain ⟨start', vs, hloop, hle, hmod, hinc, hvs, hflat⟩ :=
    @extractLoop_spec c pending b.current b.stop h.data (b.stop + 1) b.lastMsgStart b.msgQueue
      h.start_le (by omega) h.start_mod hframed
  refine ⟨{ b with lastMsgStart := start', msgQueue := b.msgQueue ++ vs }, ?_, ?_⟩
  · rw [extractMessages, getChunk_of_some h.chunk]
    show ((extractLoop c b.current b.stop (b.stop + 1) b.lastMsgStart b.msgQueue) >>=
      fun r => _) = _
    rw [hloop]
    rfl
  · have hcur : CurrentOk { b with lastMsgStart := start', msgQueue := b.msgQueue ++ vs } c :=
      ⟨h.chunk, h.size_mod, h.size_ge, h.data, h.room, hle, hmod, h.old⟩
    have hget : ∀ v ∈ vs, v.get b.chunks = (c.data.drop v.start).take v.dataLen := by
      intro v hv
      rw [ReadBufferView.get, (hvs v hv).1, h.chunk]
    refine ⟨ChunksGrow.refl _, .inl ⟨c, hcur, ?_⟩, vs, rfl, ?_, ?_⟩
    · rw [hcur.tail_eq]
      exact hinc
    · intro v hv
      obtain ⟨hbase, hend, hm⟩ := hvs v hv
      refine ⟨⟨c, by rw [hbase]; exact h.chunk, by rw [h.data]; exact hend⟩, ?_⟩
      rw [show v.get b.chunks = _ from hget v hv]
      exact hm
    · rw [hcur.tail_eq, h.tail_eq, append_nil, ← hflat]
      rw [map_congr_left (fun v hv => hget v hv)]

/-! ## Reading -/

/-- The input is where the kernel takes its bytes from, and reading does not fail. -/
def Delivers (src : ReadvResult) (pending : List UInt8) : Prop :=
  match src with
  | .bytes available => available <+: pending
  | .reset | .retry => True
  | .failed _ => False

theorem readInner_spec {space : Nat} (hpos : 0 < space) (hsrc : Delivers src pending) :
    ∃ eof bytes, readInner space src = .ok (eof, bytes) ∧ bytes.length ≤ space ∧
      bytes <+: pending := by
  unfold readInner
  simp only [assert, hpos, decide_true, if_true]
  cases src with
  | bytes available =>
    have hfirst : available.take space <+: available := take_prefix _ _
    exact ⟨_, _, rfl, by rw [length_take]; omega, hfirst.trans hsrc⟩
  | reset => exact ⟨true, [], rfl, Nat.zero_le _, nil_prefix⟩
  | retry => exact ⟨false, [], rfl, Nat.zero_le _, nil_prefix⟩
  | failed errno => exact hsrc.elim

theorem fill_spec {i start : Nat} (hc : b.chunks[i]? = some c) (hstart : start = c.data.length)
    (hsize : start + bytes.length ≤ c.size) :
    b.fill i start bytes =
      .ok { b with chunks := b.chunks.set i { c with data := c.data ++ bytes } } := by
  rw [fill, getChunk_of_some hc]
  show ((c.write start bytes) >>= fun chunk => _) = _
  rw [ReadBufferChunk.write_at_end hstart hsize]
  rfl

/-- A read that returns the first bytes of the input, as many as there is room for, and what it has
done with them. -/
def ReadsFrom (b : ReadBuffer) (src : ReadvResult) (pending : List UInt8)
    (r : Res (Bool × List UInt8 × ReadBuffer)) : Prop :=
  ∃ eof bytes b', r = .ok (eof, bytes, b') ∧ (∃ room, readInner room src = .ok (eof, bytes)) ∧
    bytes <+: pending ∧ Reads b bytes b'

/-- What is done before the bytes arrive does not count. -/
theorem ReadsFrom.of_same_tail {b₁ : ReadBuffer} {r : Res (Bool × List UInt8 × ReadBuffer)}
    (h : ReadsFrom b₁ src pending r) (hgrow : ChunksGrow b.chunks b₁.chunks)
    (hqueue : b₁.msgQueue = b.msgQueue) (htail : b₁.tail = b.tail) :
    ReadsFrom b src pending r := by
  obtain ⟨eof, bytes, b', hr, hread, hpre, hreads⟩ := h
  obtain ⟨vs, hq, hvs, hflat⟩ := hreads.queue
  refine ⟨eof, bytes, b', hr, hread, hpre, hgrow.trans hreads.grow, hreads.ok, vs, ?_, hvs, ?_⟩
  · rw [hq, hqueue]
  · rw [hflat, htail]

/-- Bytes that arrive in the current chunk are appended to the message in progress, and the whole
messages are extracted. -/
theorem Reads.of_append {b₁ b' : ReadBuffer} (h : Reads b₁ [] b')
    (hgrow : ChunksGrow b.chunks b₁.chunks) (hqueue : b₁.msgQueue = b.msgQueue)
    (htail : b₁.tail = b.tail ++ bytes) : Reads b bytes b' := by
  obtain ⟨vs, hq, hvs, hflat⟩ := h.queue
  exact ⟨hgrow.trans h.grow, h.ok, vs, by rw [hq, hqueue], hvs, by rw [hflat, htail, append_nil]⟩

/-- The buffer with bytes written behind the message in progress. -/
def ReadBuffer.appended (c : ReadBufferChunk) (bytes : List UInt8) : ReadBuffer :=
  { b with
    chunks := b.chunks.set b.current { c with data := c.data ++ bytes }
    stop := b.stop + bytes.length }

section Current

variable (h : CurrentOk b c)

include h

theorem CurrentOk.appended (hlen : b.stop + bytes.length + MAX_NORMAL_MSG_SIZE ≤ c.size) :
    CurrentOk (b.appended c bytes) { c with data := c.data ++ bytes } where
  chunk := getElem?_set_self (List.getElem?_eq_some_iff.mp h.chunk).1
  size_mod := h.size_mod
  size_ge := h.size_ge
  data := by
    show (c.data ++ bytes).length = b.stop + bytes.length
    rw [length_append, h.data]
  room := hlen
  start_le := Nat.le_trans h.start_le (Nat.le_add_right _ _)
  start_mod := h.start_mod
  old := h.old

theorem CurrentOk.tail_appended (hlen : b.stop + bytes.length + MAX_NORMAL_MSG_SIZE ≤ c.size) :
    (b.appended c bytes).tail = b.tail ++ bytes := by
  rw [(h.appended hlen).tail_eq, h.tail_eq]
  exact drop_append_of_le_length (by rw [h.data]; exact h.start_le)

theorem readCurrent_eq {b' : ReadBuffer} {eof : Bool}
    (hread : readInner (c.size - MAX_NORMAL_MSG_SIZE - b.stop) src = .ok (eof, bytes))
    (hlen : bytes.length ≤ c.size - MAX_NORMAL_MSG_SIZE - b.stop)
    (hext : (b.appended c bytes).extractMessages = .ok b') :
    b.readCurrent src = .ok (eof, bytes, b') := by
  have hroom := h.room
  have hleft : (decide (MAX_NORMAL_MSG_SIZE ≤ c.size - b.stop)) = true := by
    rw [decide_eq_true_eq]
    omega
  have h1 : b.stop ≤ c.size := by omega
  have h2 : MAX_NORMAL_MSG_SIZE ≤ c.size := by omega
  have h3 : b.stop ≤ c.size - MAX_NORMAL_MSG_SIZE := by omega
  have hfill := @fill_spec b c bytes b.current b.stop h.chunk h.data.symm (by omega)
  rw [readCurrent, getChunk_of_some h.chunk, ok_bind, checkedSub_of_le h1,
    ok_bind, assert_of hleft, ok_bind, checkedSub_of_le h2, ok_bind, checkedSub_of_le h3,
    ok_bind, hread, ok_bind]
  dsimp only
  rw [hfill, ok_bind]
  unfold appended at hext
  dsimp only
  rw [hext, ok_bind, Res.pure_eq]

/-- The message in progress moves to the start of a new chunk. -/
theorem moveTailToNew_spec {newSize : Nat} (hmod : newSize % 4 = 0)
    (hsize : 4 * MAX_NORMAL_MSG_SIZE ≤ newSize)
    (hroom : b.stop - b.lastMsgStart + MAX_NORMAL_MSG_SIZE ≤ newSize) (hpos : 0 < newSize) :
    ∃ b₁ c₁, b.moveTailToNew newSize = .ok b₁ ∧ CurrentOk b₁ c₁ ∧ c₁.size = newSize ∧
      b₁.stop = b.stop - b.lastMsgStart ∧ ChunksGrow b.chunks b₁.chunks ∧
      b₁.msgQueue = b.msgQueue ∧ b₁.tail = b.tail := by
  have hle := h.start_le
  have htail : (c.data.drop b.lastMsgStart).take (b.stop - b.lastMsgStart) =
      c.data.drop b.lastMsgStart := by
    rw [take_of_length_le]
    rw [length_drop, h.data]
  have hlen : (c.data.drop b.lastMsgStart).length = b.stop - b.lastMsgStart := by
    rw [length_drop, h.data]
  have hread : c.read b.lastMsgStart (b.stop - b.lastMsgStart) =
      .ok (c.data.drop b.lastMsgStart) := by
    rw [ReadBufferChunk.read_of_le (by rw [h.data]; omega), htail]
  have hwrite : ReadBufferChunk.write { size := newSize, data := [] } 0
      (c.data.drop b.lastMsgStart) =
      .ok { size := newSize, data := c.data.drop b.lastMsgStart } :=
    ReadBufferChunk.write_at_end rfl (by dsimp only; omega)
  have hfit : (decide (b.stop - b.lastMsgStart ≤ newSize)) = true := by
    rw [decide_eq_true_eq]
    omega
  have hcur : CurrentOk { b with
      chunks := b.chunks ++ [{ size := newSize, data := c.data.drop b.lastMsgStart }]
      current := b.chunks.length
      stop := b.stop - b.lastMsgStart
      lastMsgStart := 0 } { size := newSize, data := c.data.drop b.lastMsgStart } :=
    ⟨getElem?_concat_length, hmod, hsize, hlen, hroom, Nat.zero_le _, rfl, h.old⟩
  refine ⟨_, _, ?_, hcur, rfl, rfl, ChunksGrow.append _ _, rfl, ?_⟩
  · rw [moveTailToNew, getChunk_of_some h.chunk, ok_bind,
      ReadBufferChunk.new_of_pos hpos, ok_bind, checkedSub_of_le hle, ok_bind,
      assert_of hfit, ok_bind, hread, ok_bind, hwrite, ok_bind, Res.pure_eq]
  · rw [hcur.tail_eq, h.tail_eq]
    exact drop_zero

variable (hsrc : Delivers src pending) (hframed : Wmsgs (b.tail ++ pending))

include hsrc hframed

theorem readCurrent_spec (hroom : b.stop + MAX_NORMAL_MSG_SIZE < c.size) :
    ReadsFrom b src pending (b.readCurrent src) := by
  obtain ⟨eof, bytes, hread, hlen, rest, hrest⟩ :=
    @readInner_spec pending src (c.size - MAX_NORMAL_MSG_SIZE - b.stop) (by omega) hsrc
  have hfits : b.stop + bytes.length + MAX_NORMAL_MSG_SIZE ≤ c.size := by omega
  have htail := h.tail_appended hfits
  have hframed' : Wmsgs ((b.appended c bytes).tail ++ rest) := by
    rw [htail, append_assoc, hrest]
    exact hframed
  obtain ⟨b', hext, hreads⟩ := extractMessages_spec (h.appended hfits) hframed'
  exact ⟨eof, bytes, b', readCurrent_eq h hread hlen hext, ⟨_, hread⟩, ⟨rest, hrest⟩,
    hreads.of_append (ChunksGrow.set h.chunk) rfl htail⟩

theorem readMoved_spec {newSize : Nat} (hmod : newSize % 4 = 0)
    (hsize : 4 * MAX_NORMAL_MSG_SIZE ≤ newSize)
    (hroom : b.stop - b.lastMsgStart + MAX_NORMAL_MSG_SIZE < newSize) :
    ReadsFrom b src pending (b.moveTailToNew newSize >>= fun b => b.readCurrent src) := by
  obtain ⟨b₁, c₁, hmove, hcur, hsize₁, hstop, hgrow, hqueue, htail⟩ :=
    moveTailToNew_spec h hmod hsize hroom.le (by omega)
  rw [hmove, ok_bind]
  rw [← htail] at hframed
  exact (readCurrent_spec hcur hsrc hframed (by omega)).of_same_tail hgrow hqueue htail

end Current

/-- The state of `read_with_old` after `readv`: the two chunks with what was read. -/
def ReadBuffer.filled (o : Nat) (oc c : ReadBufferChunk) (first second : List UInt8) :
    ReadBuffer :=
  { b with
    chunks := (b.chunks.set o { oc with data := oc.data ++ first }).set b.current
      { c with data := second } }

section Old

variable {o n : Nat} {oc : ReadBufferChunk} {first second : List UInt8} (h : OldOk b o oc c n)

include h

theorem OldOk.current_set (first : List UInt8) :
    (b.chunks.set o { oc with data := oc.data ++ first })[b.current]? = some c := by
  rw [getElem?_set_ne h.ne]
  exact h.chunk

theorem OldOk.fill_both (hfirst : b.stop + first.length ≤ oc.size) (hsecond : second.length ≤ c.size) :
    ∃ b₁, b.fill o b.stop first = .ok b₁ ∧ b₁.current = b.current ∧
      b₁.fill b₁.current 0 second = .ok (b.filled o oc c first second) := by
  have h1 := @fill_spec b oc first o b.stop h.oldChunk h.data.symm hfirst
  refine ⟨_, h1, rfl, ?_⟩
  have h2 := @fill_spec { b with chunks := b.chunks.set o { oc with data := oc.data ++ first } }
    c second b.current 0 (h.current_set _) (by rw [h.empty]; rfl) (by rw [Nat.zero_add]; exact hsecond)
  rw [h2, h.empty, nil_append]
  rfl

theorem OldOk.filled_chunks (first second : List UInt8) :
    (b.filled o oc c first second).chunks[o]? = some { oc with data := oc.data ++ first } ∧
    (b.filled o oc c first second).chunks[b.current]? = some { c with data := second } ∧
    ChunksGrow b.chunks (b.filled o oc c first second).chunks := by
  have hlt := (List.getElem?_eq_some_iff.mp h.oldChunk).1
  have hlt' := (List.getElem?_eq_some_iff.mp h.chunk).1
  refine ⟨?_, ?_, ?_⟩
  · unfold filled
    dsimp only
    rw [getElem?_set_ne (Ne.symm h.ne), getElem?_set_self hlt]
  · unfold filled
    dsimp only
    rw [getElem?_set_self (by rw [length_set]; exact hlt')]
  · have hgrow := @ChunksGrow.set c second _ b.current (h.current_set first)
    rw [h.empty, nil_append] at hgrow
    exact (ChunksGrow.set h.oldChunk).trans hgrow

/-- The bytes do not complete the message. -/
theorem OldOk.partly (hlen : bytes.length < b.lastMsgStart + n - b.stop) :
    Reads b bytes { b.filled o oc c bytes [] with stop := b.stop + bytes.length } := by
  obtain ⟨hold, hcur, hgrow⟩ := h.filled_chunks bytes []
  have hheader := h.header
  have hdrop : (oc.data ++ bytes).drop b.lastMsgStart = oc.data.drop b.lastMsgStart ++ bytes :=
    drop_append_of_le_length (by rw [h.data]; omega)
  have hok : OldOk { b.filled o oc c bytes [] with stop := b.stop + bytes.length } o
      { oc with data := oc.data ++ bytes } { c with data := [] } n := by
    refine ⟨hcur, h.size_mod, h.size_ge, rfl, h.old, h.ne, hold, ?_, ?_, ?_, ?_, h.fits⟩
    · show (oc.data ++ bytes).length = b.stop + bytes.length
      rw [length_append, h.data]
    · exact Nat.le_trans hheader (Nat.le_add_right _ _)
    · show paddedLen (((oc.data ++ bytes).drop b.lastMsgStart).take 4) = some n
      rw [hdrop, take_append_of_le_length (by rw [length_drop, h.data]; omega)]
      exact h.len
    · show b.stop + bytes.length < b.lastMsgStart + n
      omega
  refine ⟨hgrow, .inr ⟨_, _, _, _, hok⟩, [], by simp [filled], by simp, ?_⟩
  rw [hok.tail_eq, h.tail_eq]
  exact hdrop

/-- The bytes complete the message: it is queued, and the following ones are extracted from the
current chunk. -/
theorem OldOk.completed (hfirst : first.length = b.lastMsgStart + n - b.stop)
    (hsecond : second.length + MAX_NORMAL_MSG_SIZE ≤ c.size) (hmsg : IsWmsg (b.tail ++ first))
    (hrest : Wmsgs (second ++ pending)) :
    ∃ b', extractMessages { b.filled o oc c first second with
        old := none
        msgQueue := b.msgQueue ++ [{ base := o, start := b.lastMsgStart, dataLen := n }]
        lastMsgStart := 0
        stop := second.length } = .ok b' ∧ Reads b (first ++ second) b' := by
  obtain ⟨hold, hcur, hgrow⟩ := h.filled_chunks first second
  have hheader := h.header
  have hin := h.rest
  have hcurrent : CurrentOk { b.filled o oc c first second with
      old := none
      msgQueue := b.msgQueue ++ [{ base := o, start := b.lastMsgStart, dataLen := n }]
      lastMsgStart := 0
      stop := second.length } { c with data := second } :=
    ⟨hcur, h.size_mod, h.size_ge, rfl, hsecond, Nat.zero_le _, rfl, rfl⟩
  have htail := hcurrent.tail_eq
  rw [drop_zero] at htail
  obtain ⟨b', hext, hreads⟩ := extractMessages_spec hcurrent (by rw [htail]; exact hrest)
  refine ⟨b', hext, ?_⟩
  obtain ⟨vs, hqueue, hvs, hflat⟩ := hreads.queue
  -- the view of the completed message
  have hget : ReadBufferView.get (b.filled o oc c first second).chunks
      { base := o, start := b.lastMsgStart, dataLen := n } = b.tail ++ first := by
    simp only [ReadBufferView.get, hold]
    rw [drop_append_of_le_length (by rw [h.data]; omega), ← h.tail_eq, take_of_length_le]
    rw [length_append, h.tail_eq, length_drop, h.data, hfirst]
    omega
  have hview : ViewOk (b.filled o oc c first second).chunks
      { base := o, start := b.lastMsgStart, dataLen := n } := by
    refine ⟨⟨_, hold, ?_⟩, by rw [hget]; exact hmsg⟩
    show b.lastMsgStart + n ≤ (oc.data ++ first).length
    rw [length_append, h.data, hfirst]
    omega
  refine ⟨hgrow.trans hreads.grow, hreads.ok,
    { base := o, start := b.lastMsgStart, dataLen := n } :: vs, ?_, ?_, ?_⟩
  · rw [hqueue]
    simp
  · intro v hv
    rcases mem_cons.mp hv with rfl | hv
    · exact hview.mono hreads.grow
    · exact hvs v hv
  · rw [map_cons, flatten_cons, hview.get_eq hreads.grow, hget, append_assoc, hflat,
      htail, append_nil, append_assoc]

theorem readWithOld_spec (hsrc : Delivers src pending) (hframed : Wmsgs (b.tail ++ pending)) :
    ReadsFrom b src pending (b.readWithOld o src) := by
  have hheader := h.header
  have hin := h.rest
  have hfits := h.fits
  have hsize := h.size_ge
  obtain ⟨eof, bytes, hread, hlen, rest, hrest⟩ := @readInner_spec pending src
    (b.lastMsgStart + n - b.stop + (c.size - MAX_NORMAL_MSG_SIZE)) (by omega) hsrc
  obtain ⟨b₁, hfill₁, hcur₁, hfill₂⟩ := @OldOk.fill_both b c o n oc
    (bytes.take (b.lastMsgStart + n - b.stop)) (bytes.drop (b.lastMsgStart + n - b.stop)) h
    (by rw [length_take]; omega) (by rw [length_drop]; omega)
  have hlen4 : (decide (4 ≤ b.stop - b.lastMsgStart)) = true := by
    rw [decide_eq_true_eq]
    omega
  have h1 : b.lastMsgStart ≤ b.stop := by omega
  have h2 : b.stop ≤ b.lastMsgStart + n := by omega
  have h3 : MAX_NORMAL_MSG_SIZE ≤ c.size := by omega
  have hmlen : getMessagePaddedLen oc b.lastMsgStart = .ok n :=
    getMessagePaddedLen_of_paddedLen (by rw [h.data]; omega) h.len
  rw [readWithOld, getChunk_of_some h.oldChunk, ok_bind,
    getChunk_of_some h.chunk, ok_bind, checkedSub_of_le h1, ok_bind,
    assert_of hlen4, ok_bind, hmlen, ok_bind]
  dsimp only
  rw [checkedSub_of_le h2, ok_bind, checkedSub_of_le h3, ok_bind, hread, ok_bind]
  dsimp only
  rw [hfill₁, ok_bind, hfill₂, ok_bind]
  by_cases hpart : bytes.length < b.lastMsgStart + n - b.stop
  · rw [if_pos hpart, take_of_length_le (Nat.le_of_lt hpart),
      drop_eq_nil_of_le (Nat.le_of_lt hpart)]
    exact ⟨eof, bytes, _, rfl, ⟨_, hread⟩, ⟨rest, hrest⟩, h.partly hpart⟩
  · rw [if_neg hpart]
    have htail : b.tail.length = b.stop - b.lastMsgStart := by
      rw [h.tail_eq, length_drop, h.data]
    obtain ⟨n', hn', hmsg, hafter⟩ := header_of_framed hframed (by omega)
    have hnn : n' = n := by
      rw [h.tail_eq, h.len] at hn'
      exact (Option.some.inj hn').symm
    have hsplit : n = b.tail.length + (b.lastMsgStart + n - b.stop) := by omega
    rw [hnn, ← hrest, hsplit, take_length_add_append, take_append_of_le_length (by omega)] at hmsg
    rw [hnn, ← hrest, hsplit, drop_length_add_append, drop_append_of_le_length (by omega)] at hafter
    obtain ⟨b', hext, hreads⟩ := h.completed (by rw [length_take]; omega)
      (by rw [length_drop]; omega) hmsg hafter
    rw [length_drop] at hext
    rw [take_append_drop] at hreads
    refine ⟨eof, bytes, b', ?_, ⟨_, hread⟩, ⟨rest, hrest⟩, hreads⟩
    exact congrArg (fun r : Res ReadBuffer => r >>= fun b => pure (eof, bytes, b)) hext

end Old

/-! ## One read -/

theorem MAX_NORMAL_MSG_SIZE_pos : 0 < MAX_NORMAL_MSG_SIZE := by decide

theorem MAX_NORMAL_MSG_SIZE_mod : MAX_NORMAL_MSG_SIZE % 4 = 0 := by decide

section More

variable (hsrc : Delivers src pending) (hframed : Wmsgs (b.tail ++ pending))

include hsrc hframed

/-- A message that does not fit into its chunk is moved to one that is large enough for it. -/
theorem readKnown_spec {n : Nat} (h : CurrentOk b c) (hinc : Incomplete b.tail)
    (hheader : b.lastMsgStart + 4 ≤ b.stop) (hn : paddedLen (b.tail.take 4) = some n) :
    ReadsFrom b src pending (b.readKnown c.size n src) := by
  have hlen : b.tail.length = b.stop - b.lastMsgStart := by
    rw [h.tail_eq, length_drop, h.data]
  have hlt := hinc n (by omega) hn
  have hmax := MAX_NORMAL_MSG_SIZE_pos
  have hmod4 := MAX_NORMAL_MSG_SIZE_mod
  have hnmod := paddedLen_mod hn
  unfold readKnown
  dsimp only
  by_cases hover : c.size < b.lastMsgStart + n
  · rw [if_pos hover]
    have hnew : (decide (n + MAX_NORMAL_MSG_SIZE < max (2 * n) (4 * MAX_NORMAL_MSG_SIZE))) = true := by
      rw [decide_eq_true_eq]
      omega
    rw [assert_of hnew, ok_bind]
    exact readMoved_spec h hsrc hframed (by omega) (by omega) (by omega)
  · rw [if_neg hover]
    by_cases hend : c.size - (b.lastMsgStart + n) ≤ MAX_NORMAL_MSG_SIZE
    · -- the rest of this message fits, but not much more
      rw [if_pos hend, ReadBufferChunk.new_of_pos (by omega), ok_bind]
      have hlt' := (List.getElem?_eq_some_iff.mp h.chunk).1
      have hold : OldOk { b with
          chunks := b.chunks ++ [{ size := 4 * MAX_NORMAL_MSG_SIZE, data := [] }]
          current := b.chunks.length
          old := some b.current } b.current c
          { size := 4 * MAX_NORMAL_MSG_SIZE, data := [] } n := by
        refine ⟨getElem?_concat_length, ?_, Nat.le_refl _, rfl, rfl, Nat.ne_of_lt hlt', ?_,
          h.data, hheader, ?_, ?_, Nat.le_of_not_lt hover⟩
        · show 4 * MAX_NORMAL_MSG_SIZE % 4 = 0
          omega
        · exact (getElem?_append_left hlt').trans h.chunk
        · rw [← h.tail_eq]
          exact hn
        · show b.stop < b.lastMsgStart + n
          omega
      have htail := hold.tail_eq.trans h.tail_eq.symm
      rw [← htail] at hframed
      exact (readWithOld_spec hold hsrc hframed).of_same_tail (ChunksGrow.append _ _) rfl htail
    · rw [if_neg hend]
      exact readCurrent_spec h hsrc hframed (by omega)

/-- Without a header in sight there is room for a byte, because everything is a multiple of 4. -/
theorem readUnknown_spec (h : CurrentOk b c) (hshort : b.stop - b.lastMsgStart < 4) :
    ReadsFrom b src pending (b.readUnknown c.size src) := by
  have hmax : 4 ≤ MAX_NORMAL_MSG_SIZE := by decide
  have hmod4 := MAX_NORMAL_MSG_SIZE_mod
  have hroom := h.room
  have hle := h.start_le
  have hsmod := h.size_mod
  have hstart := h.start_mod
  have hcap : (decide (b.lastMsgStart ≤ c.size)) = true := by
    rw [decide_eq_true_eq]
    omega
  unfold readUnknown
  dsimp only
  rw [assert_of hcap, ok_bind]
  by_cases hend : c.size - b.lastMsgStart ≤ MAX_NORMAL_MSG_SIZE
  · rw [if_pos hend]
    exact readMoved_spec h hsrc hframed (by omega) (Nat.le_refl _) (by omega)
  · rw [if_neg hend]
    exact readCurrent_spec h hsrc hframed (by omega)

/-- **One read.** It does not fail, and what it adds to the views and to the message in progress is
what it takes from the input. -/
theorem readMore_spec (h : BufOk b) : ReadsFrom b src pending (b.readMore src) := by
  unfold readMore
  rcases h with ⟨c, hcur, hinc⟩ | ⟨o, oc, c, n, hold⟩
  · rw [hcur.old]
    dsimp only
    rw [getChunk_of_some hcur.chunk, ok_bind, checkedSub_of_le hcur.start_le, ok_bind]
    have hlen : b.tail.length = b.stop - b.lastMsgStart := by
      rw [hcur.tail_eq, length_drop, hcur.data]
    have hle := hcur.start_le
    by_cases hheader : 4 ≤ b.stop - b.lastMsgStart
    · obtain ⟨n, hn, -, -⟩ := header_of_framed hframed (by omega)
      have hmlen : getMessagePaddedLen c b.lastMsgStart = .ok n := by
        rw [hcur.tail_eq] at hn
        exact getMessagePaddedLen_of_paddedLen (by rw [hcur.data]; omega) hn
      rw [if_pos hheader, hmlen, ok_bind]
      exact readKnown_spec hsrc hframed hcur hinc (by omega) hn
    · rw [if_neg hheader]
      exact readUnknown_spec hsrc hframed hcur (by omega)
  · rw [hold.old]
    exact readWithOld_spec hold hsrc hframed

end More

/-! ## Every run -/

theorem BufOk.incomplete (h : BufOk b) : Incomplete b.tail := by
  rcases h with ⟨c, -, hinc⟩ | ⟨o, oc, c, n, hold⟩
  · exact hinc
  · intro n' _ hn'
    have hheader := hold.header
    have hlen := hold.rest
    rw [hold.tail_eq, hold.len] at hn'
    cases hn'
    rw [hold.tail_eq, length_drop, hold.data]
    omega

/-- The queue of views does not matter. -/
theorem BufOk.with_queue (h : BufOk b) (queue : List ReadBufferView) :
    BufOk { b with msgQueue := queue } := by
  rcases h with ⟨c, ⟨h1, h2, h3, h4, h5, h6, h7, h8⟩, hinc⟩ |
    ⟨o, oc, c, n, h1, h2, h3, h4, h5, h6, h7, h8, h9, h10, h11, h12⟩
  · exact .inl ⟨c, ⟨h1, h2, h3, h4, h5, h6, h7, h8⟩, hinc⟩
  · exact .inr ⟨o, oc, c, n, h1, h2, h3, h4, h5, h6, h7, h8, h9, h10, h11, h12⟩

/-- Less than a message is no message. -/
theorem Incomplete.eq_nil {p : List UInt8} (h : Incomplete p) (hp : Wmsgs p) : p = [] := by
  by_contra hne
  obtain ⟨ms, hms, rfl⟩ := hp
  cases ms with
  | nil => exact hne rfl
  | cons m ms =>
    have hm := hms m (by simp)
    have hwidth : 4 ≤ m.length := hm.width_le_length
    have hlen : m.length ≤ (m :: ms).flatten.length := by simp
    have := h m.length (by omega) (by
      rw [flatten_cons]
      exact hm.size_append _)
    omega

/-- The views are the messages read, in order, and what is left is the message in progress. -/
structure ReaderInv (stream : List UInt8) (s : Reader) : Prop where
  buf : BufOk s.buf
  stream : s.taken ++ s.pending = stream
  views : ∀ v ∈ s.popped ++ s.buf.msgQueue, ViewOk s.buf.chunks v
  bytes : ((s.popped ++ s.buf.msgQueue).map (·.get s.buf.chunks)).flatten ++ s.buf.tail = s.taken

namespace ReaderInv

variable {stream : List UInt8} {s : Reader}

theorem start (stream : List UInt8) : ∃ s, Reader.start stream = .ok s ∧ ReaderInv stream s := by
  have hnew : new = .ok
      { chunks := [{ size := 4 * MAX_NORMAL_MSG_SIZE, data := [] }], old := none, current := 0,
        lastMsgStart := 0, stop := 0, msgQueue := [] } := by
    rw [new, ReadBufferChunk.new_of_pos (by decide), ok_bind, Res.pure_eq]
  refine ⟨_, by rw [Reader.start, hnew, ok_bind, Res.pure_eq],
    .inl ⟨{ size := 4 * MAX_NORMAL_MSG_SIZE, data := [] }, ?_, ?_⟩, ?_, ?_, ?_⟩
  · have hroom : 0 + MAX_NORMAL_MSG_SIZE ≤ 4 * MAX_NORMAL_MSG_SIZE := by decide
    exact ⟨rfl, by decide, Nat.le_refl _, rfl, hroom, Nat.le_refl _, rfl, rfl⟩
  · intro n h4
    cases h4
  · rfl
  · intro v hv
    cases hv
  · rfl

variable (h : ReaderInv stream s)

include h

theorem whole : ∀ m ∈ (s.popped ++ s.buf.msgQueue).map (·.get s.buf.chunks), IsWmsg m := by
  intro m hm
  obtain ⟨v, hv, rfl⟩ := mem_map.mp hm
  exact (h.views v hv).2

variable (hstream : Wmsgs stream)

include hstream

theorem rest_framed : Wmsgs (s.buf.tail ++ s.pending) := by
  rw [← h.stream, ← h.bytes, append_assoc] at hstream
  exact Framed.cancel_left ⟨_, h.whole, rfl⟩ hstream

theorem receive (hsrc : Delivers src s.pending) :
    ∃ t, s.receive src = .ok t ∧ ReaderInv stream t ∧
      ∃ room eof bytes, readInner room src = .ok (eof, bytes) ∧ t.taken = s.taken ++ bytes := by
  obtain ⟨eof, bytes, b', hread, ⟨room, hroom⟩, ⟨rest, hrest⟩, hreads⟩ :=
    readMore_spec hsrc (h.rest_framed hstream) h.buf
  obtain ⟨vs, hqueue, hvs, hflat⟩ := hreads.queue
  refine ⟨_, by rw [Reader.receive, hread]; rfl, ⟨hreads.ok, ?_, ?_, ?_⟩, room, eof, bytes, hroom, rfl⟩
  · show s.taken ++ bytes ++ s.pending.drop bytes.length = stream
    rw [← h.stream, ← hrest, drop_left, append_assoc]
  · intro v hv
    have hv' : v ∈ (s.popped ++ s.buf.msgQueue) ++ vs := by
      rw [append_assoc, ← hqueue]
      exact hv
    rcases mem_append.mp hv' with hold | hnew
    · exact (h.views v hold).mono hreads.grow
    · exact hvs v hnew
  · show ((s.popped ++ b'.msgQueue).map (·.get b'.chunks)).flatten ++ b'.tail = s.taken ++ bytes
    have hsame : (s.popped ++ s.buf.msgQueue).map (·.get b'.chunks) =
        (s.popped ++ s.buf.msgQueue).map (·.get s.buf.chunks) :=
      map_congr_left fun v hv => (h.views v hv).get_eq hreads.grow
    rw [hqueue, ← append_assoc, map_append, hsame, flatten_append, append_assoc,
      hflat, ← append_assoc, h.bytes]

/-- **Step.** -/
theorem step (e : ReadEvent) : ∃ t, s.step e = .ok t ∧ ReaderInv stream t := by
  have hreceive {src : ReadvResult} (hsrc : Delivers src s.pending) :
      ∃ t, s.receive src = .ok t ∧ ReaderInv stream t := by
    obtain ⟨t, ht, hinv, -⟩ := h.receive hstream hsrc
    exact ⟨t, ht, hinv⟩
  cases e with
  | read n => exact hreceive <| take_prefix _ _
  | reset => exact hreceive trivial
  | retry => exact hreceive trivial
  | pop =>
    -- the first view of the queue becomes the last one handed out
    have hlist : s.popped ++ s.buf.msgQueue.head?.toList ++ s.buf.msgQueue.tail =
        s.popped ++ s.buf.msgQueue := by
      cases s.buf.msgQueue <;> simp
    refine ⟨_, rfl, ?_, h.stream, ?_, ?_⟩
    · exact h.buf.with_queue _
    · intro v hv
      exact h.views v (hlist ▸ hv)
    · show ((s.popped ++ s.buf.msgQueue.head?.toList ++ s.buf.msgQueue.tail).map
        (·.get s.buf.chunks)).flatten ++ s.buf.tail = s.taken
      rw [hlist]
      exact h.bytes

/-- A read takes as many of the bytes that are there as there is room for, which is at least one. -/
theorem progress (n : Nat) : ∃ room t, 0 < room ∧ s.step (.read n) = .ok t ∧
    t.taken = s.taken ++ s.pending.take (min room n) := by
  have hsrc : Delivers (.bytes (s.pending.take n)) s.pending := take_prefix _ _
  obtain ⟨t, ht, -, room, eof, bytes, hread, htaken⟩ := h.receive hstream hsrc
  obtain ⟨u, hroom, hread⟩ := Res.bind_eq_ok.mp hread
  cases hread
  exact ⟨room, t, of_decide_eq_true (assert_eq_ok.mp hroom), ht, by rw [htaken, take_take]⟩

/-- **Run.** -/
theorem run (es : List ReadEvent) : ∃ t, s.run es = .ok t ∧ ReaderInv stream t := by
  induction es generalizing s with
  | nil => exact ⟨s, rfl, h⟩
  | cons e es ih =>
    obtain ⟨u, hu, hinv⟩ := h.step hstream e
    obtain ⟨t, ht, hinv'⟩ := ih hinv
    exact ⟨t, by rw [Reader.run, hu, ok_bind, ht], hinv'⟩

end ReaderInv

/-- **Framing of the input.** Let the input be the concatenation of the messages `ms`, cut into
pieces in any way.  Then nothing fails; the views handed out, the views in the queue and the bytes
in progress are together the bytes read so far; each view is one whole message; they are the first
ones of `ms`, in order; and once all input is read, they are all of `ms`.  The next read takes as
many of the bytes that are there as there is room for, and there is room. -/
theorem reads_all_messages (ms : List (List UInt8)) (hms : ∀ m ∈ ms, IsWmsg m)
    (es : List ReadEvent) :
    ∃ t, (Reader.start ms.flatten >>= fun s => s.run es) = .ok t ∧
      t.taken ++ t.pending = ms.flatten ∧
      (t.popped.map (·.get t.buf.chunks)).flatten ++
        ((t.buf.msgQueue.map (·.get t.buf.chunks)).flatten ++ t.buf.tail) = t.taken ∧
      (∀ v ∈ t.popped ++ t.buf.msgQueue, ViewOk t.buf.chunks v) ∧
      (t.popped ++ t.buf.msgQueue).map (·.get t.buf.chunks) <+: ms ∧
      (t.pending = [] → (t.popped ++ t.buf.msgQueue).map (·.get t.buf.chunks) = ms) ∧
      ∀ n, ∃ room u, 0 < room ∧ t.step (.read n) = .ok u ∧
        u.taken = t.taken ++ t.pending.take (min room n) := by
  have hstream : Wmsgs ms.flatten := ⟨ms, hms, rfl⟩
  obtain ⟨s, hs, hinv₀⟩ := ReaderInv.start ms.flatten
  obtain ⟨t, ht, hinv⟩ := hinv₀.run hstream es
  obtain ⟨ns, hns, hrest⟩ := hinv.rest_framed hstream
  have hsplit : (t.popped ++ t.buf.msgQueue).map (·.get t.buf.chunks) ++ ns = ms := by
    refine flatten_injective (F := wmsgFraming) ?_ hms ?_
    · intro m hm
      rcases mem_append.mp hm with h | h
      · exact hinv.whole m h
      · exact hns m h
    · rw [flatten_append, hrest, ← append_assoc, hinv.bytes, hinv.stream]
  refine ⟨t, by rw [hs, ok_bind, ht], hinv.stream, ?_, hinv.views, ⟨ns, hsplit⟩, ?_,
    hinv.progress hstream⟩
  · rw [← hinv.bytes, map_append, flatten_append, append_assoc]
  · intro hnil
    have hframed := hinv.rest_framed hstream
    rw [hnil, append_nil] at hframed
    have htail := hinv.buf.incomplete.eq_nil hframed
    have hns0 : ns = [] := by
      rw [hnil, htail] at hrest
      cases ns with
      | nil => rfl
      | cons n ns =>
        have := (hns n (by simp)).length_pos
        have := congrArg length hrest
        simp only [flatten_cons, append_nil, length_append, length_nil] at this
        omega
    rw [← hsplit, hns0, append_nil]

def ackAndClose : List (List UInt8) := [[16, 1, 0, 0, 1, 0, 0, 0], [18, 1, 0, 0, 0, 0, 0, 0]]

/-- Pieces of 3, 2, 0 and 20 bytes. -/
def smallReads : List ReadEvent := [.read 3, .read 2, .retry, .read 0, .pop, .read 20, .pop]

theorem reads_all_messages_close :
    ∃ t, (Reader.start ackAndClose.flatten >>= fun s => s.run smallReads) = .ok t ∧
      (t.popped ++ t.buf.msgQueue).map (·.get t.buf.chunks) = ackAndClose := by
  obtain ⟨t, hrun, -, -, -, -, hall, -⟩ := reads_all_messages ackAndClose (by decide) smallReads
  have hpending : (Reader.start ackAndClose.flatten >>= fun s => s.run smallReads).map (·.pending) =
      .ok [] := by
    decide +kernel
  rw [hrun] at hpending
  exact ⟨t, hrun, hall (Except.ok.inj hpending)⟩

end Waypipe
