import Waypipe.Lib.Transition
import Waypipe.Tracking.Handler

/-!
# Output to the Wayland connection

`process_channel` appends translated messages and their descriptors to a buffer, from which
`write_to_socket` sends.  A call sends as many of the queued descriptors as fit into one control
message, and only one byte when some are left.  The two queues advance at different rates, but no
byte and no descriptor is lost or sent twice, and the descriptors of a message are sent before its
last byte (`socket_output_exact`): with at most eight entries of at most four descriptors, what one
call leaves, the next one sends.
-/

namespace Waypipe

open Transition List

/-! ## The buffer -/

/-- Data queued for transfer to the Wayland connection. -/
structure TransferWayland where
  data : List UInt8
  start : Nat
  len : Nat
  fds : List SfdRef

/-- What `sendmsg` returns. -/
inductive SendResult where
  | sent (s : Nat)
  /-- `EINTR` or `EAGAIN` -/
  | retry
  /-- `ECONNRESET` or `EPIPE` -/
  | disconnected
  | failed (errno : String)
  deriving DecidableEq, Repr

/-- The bytes and the descriptors that arrive at the other end. -/
structure SocketSend where
  bytes : List UInt8
  fds : List Fd
  deriving DecidableEq, Repr

/-- Length of `raw_fds`. -/
def RAW_FDS_LEN : Nat := 16

/-- The loop over the queue: the descriptors of the next control message, and whether some are left. -/
def collectRawFds (heap : List ShadowFd) : List SfdRef → List Fd → Res (List Fd × Bool)
  | [], rawFds => .ok (rawFds, false)
  | r :: fds, rawFds => do
    match (← orPanic heap[r]? "dangling reference").data with
    | .file data =>
      if RAW_FDS_LEN < rawFds.length + 1 then return (rawFds, true)
      else collectRawFds heap fds (rawFds ++ [data.fd])
    | .pipe data =>
      if RAW_FDS_LEN < rawFds.length + 1 then return (rawFds, true)
      else collectRawFds heap fds (rawFds ++ [← orPanic data.exportFd UNWRAP_NONE])
    | .timeline data =>
      if RAW_FDS_LEN < rawFds.length + 1 then return (rawFds, true)
      else collectRawFds heap fds (rawFds ++ [← orPanic data.exportFd UNWRAP_NONE])
    | .dmabuf data =>
      if RAW_FDS_LEN < rawFds.length + data.exportPlanes.length then return (rawFds, true)
      else collectRawFds heap fds (rawFds ++ data.exportPlanes.map (·.fd))

/-- All descriptors provided were sent: drop them. -/
def dropSentFds : List ShadowFd → List SfdRef → Nat → Res (List ShadowFd × List SfdRef)
  | heap, fds, 0 => .ok (heap, fds)
  | _, [], _ + 1 => .error (.panic UNWRAP_NONE)
  | heap, r :: fds, n + 1 => do
    let sfd ← orPanic heap[r]? "dangling reference"
    match sfd.data with
    | .file _ => dropSentFds heap fds n
    | .pipe data =>
      dropSentFds (heap.set r { sfd with data := .pipe { data with exportFd := none } }) fds n
    | .timeline data =>
      dropSentFds (heap.set r { sfd with data := .timeline { data with exportFd := none } }) fds n
    | .dmabuf data => do
      let left ← checkedSub (n + 1) data.exportPlanes.length
      dropSentFds (heap.set r { sfd with data := .dmabuf { data with exportPlanes := [] } }) fds left

/-- Write data and descriptors to a Wayland socket, when `sendmsg` returns the given result.  Returns
true if the connection is closed; with it, what has been sent. -/
def writeToSocket (heap : List ShadowFd) (buf : TransferWayland) (result : SendResult) :
    Res (Bool × List ShadowFd × TransferWayland × SocketSend) := do
  assert (0 < buf.len) "buf.len > 0"
  let (rawFds, trunc) ← collectRawFds heap buf.fds []
  let nbytesSent := if trunc then 1 else buf.len
  if buf.data.length < buf.start + nbytesSent then
    throw (.panic "range end index out of range for slice")
  let iov := (buf.data.drop buf.start).take nbytesSent
  match result with
  | .sent s =>
    let len ← checkedSub buf.len s
    let (heap, fds) ← dropSentFds heap buf.fds rawFds.length
    return (false, heap, { buf with start := if len = 0 then 0 else buf.start + s, len, fds },
      { bytes := iov.take s, fds := rawFds })
  | .retry => return (false, heap, buf, { bytes := [], fds := [] })
  | .disconnected => return (true, heap, buf, { bytes := [], fds := [] })
  | .failed errno => fail s!"Error writing to socket: {errno}"

/-! ## Descriptors of an entry -/

namespace ShadowFd

/-- The descriptors that are sent for an entry of the queue, when they are there. -/
def exported (sfd : ShadowFd) : Option (List Fd) :=
  match sfd.data with
  | .file data => some [data.fd]
  | .pipe data => data.exportFd.map fun fd => [fd]
  | .timeline data => data.exportFd.map fun fd => [fd]
  | .dmabuf data => some (data.exportPlanes.map (·.fd))

/-- The entry after its descriptors have been sent. -/
def dropExported (sfd : ShadowFd) : ShadowFd :=
  match sfd.data with
  | .file _ => sfd
  | .pipe data => { sfd with data := .pipe { data with exportFd := none } }
  | .timeline data => { sfd with data := .timeline { data with exportFd := none } }
  | .dmabuf data => { sfd with data := .dmabuf { data with exportPlanes := [] } }

end ShadowFd

/-- The descriptors of a reference. -/
def exportedAt (heap : List ShadowFd) (r : SfdRef) : List Fd :=
  ((heap[r]?).bind ShadowFd.exported).getD []

/-- An entry with its descriptors, of which there are at most four. -/
def Exports (heap : List ShadowFd) (r : SfdRef) : Prop :=
  ∃ sfd fs, heap[r]? = some sfd ∧ sfd.exported = some fs ∧ fs.length ≤ 4

instance (heap : List ShadowFd) (r : SfdRef) : Decidable (Exports heap r) :=
  decidable_of_iff (∃ fs ∈ (heap[r]?).bind ShadowFd.exported, fs.length ≤ 4) (by
    unfold Exports
    simp only [Option.mem_def, Option.bind_eq_some_iff]
    constructor
    · rintro ⟨fs, ⟨sfd, hr, hfs⟩, hlen⟩
      exact ⟨sfd, fs, hr, hfs, hlen⟩
    · rintro ⟨sfd, fs, hr, hfs, hlen⟩
      exact ⟨fs, ⟨sfd, hr, hfs⟩, hlen⟩)

section Queue

variable {heap : List ShadowFd} {r : SfdRef} {fds : List SfdRef} {sfd : ShadowFd} {fs rawFds : List Fd}
  {n : Nat}

theorem exportedAt_eq (hr : heap[r]? = some sfd) (hfs : sfd.exported = some fs) :
    exportedAt heap r = fs := by
  unfold exportedAt
  rw [hr, Option.bind_some, hfs]
  rfl

theorem Exports.length_le (h : Exports heap r) : (exportedAt heap r).length ≤ 4 := by
  obtain ⟨sfd, fs, hr, hfs, hlen⟩ := h
  rw [exportedAt_eq hr hfs]
  exact hlen

theorem collectRawFds_cons (hr : heap[r]? = some sfd) (hfs : sfd.exported = some fs) :
    collectRawFds heap (r :: fds) rawFds =
      if RAW_FDS_LEN < rawFds.length + fs.length then .ok (rawFds, true)
      else collectRawFds heap fds (rawFds ++ fs) := by
  have hread : orPanic heap[r]? "dangling reference" = .ok sfd := by rw [hr]; rfl
  unfold ShadowFd.exported at hfs
  rw [collectRawFds, hread, Res.ok_bind]
  split
  · next data hdata =>
    rw [hdata] at hfs
    cases hfs
    rfl
  · next data hdata =>
    rw [hdata] at hfs
    obtain ⟨fd, hfd, rfl⟩ := Option.map_eq_some_iff.mp hfs
    rw [hfd]
    rfl
  · next data hdata =>
    rw [hdata] at hfs
    obtain ⟨fd, hfd, rfl⟩ := Option.map_eq_some_iff.mp hfs
    rw [hfd]
    rfl
  · next data hdata =>
    rw [hdata] at hfs
    cases hfs
    rw [length_map]
    rfl

theorem dropSentFds_cons (hr : heap[r]? = some sfd) (hfs : sfd.exported = some fs) (hpos : 0 < n)
    (hle : fs.length ≤ n) :
    dropSentFds heap (r :: fds) n = dropSentFds (heap.set r sfd.dropExported) fds (n - fs.length) := by
  have hread : orPanic heap[r]? "dangling reference" = .ok sfd := by rw [hr]; rfl
  obtain ⟨n, rfl⟩ : ∃ k, n = k + 1 := ⟨n - 1, by omega⟩
  unfold ShadowFd.exported at hfs
  unfold ShadowFd.dropExported
  rw [dropSentFds, hread, Res.ok_bind]
  split
  · next data hdata =>
    rw [hdata] at hfs
    cases hfs
    have hsame : heap.set r sfd = heap := by
      obtain ⟨hlt, hget⟩ := List.getElem?_eq_some_iff.mp hr
      rw [← hget, set_getElem_self]
    rw [hsame]
    rfl
  · next data hdata =>
    rw [hdata] at hfs
    obtain ⟨fd, hfd, rfl⟩ := Option.map_eq_some_iff.mp hfs
    rfl
  · next data hdata =>
    rw [hdata] at hfs
    obtain ⟨fd, hfd, rfl⟩ := Option.map_eq_some_iff.mp hfs
    rfl
  · next data hdata =>
    rw [hdata] at hfs
    cases hfs
    rw [length_map] at hle ⊢
    rw [checkedSub_of_le hle, Res.ok_bind]

/-- What is collected is a prefix of the queue: all of it, or as much as fits. -/
theorem collectRawFds_spec (rawFds : List Fd) (hexports : ∀ r ∈ fds, Exports heap r) :
    ∃ taken rest trunc, fds = taken ++ rest ∧
      collectRawFds heap fds rawFds = .ok (rawFds ++ taken.flatMap (exportedAt heap), trunc) ∧
      ((trunc = false ∧ rest = []) ∨ (trunc = true ∧ ∃ r rest', rest = r :: rest' ∧
        RAW_FDS_LEN < (rawFds ++ taken.flatMap (exportedAt heap)).length +
          (exportedAt heap r).length)) := by
  induction fds generalizing rawFds with
  | nil => exact ⟨[], [], false, rfl, by simp [collectRawFds], .inl ⟨rfl, rfl⟩⟩
  | cons r fds ih =>
    obtain ⟨sfd, fs, hr, hfs, hlen⟩ := hexports r mem_cons_self
    have hat := exportedAt_eq hr hfs
    rw [collectRawFds_cons hr hfs]
    by_cases hfull : RAW_FDS_LEN < rawFds.length + fs.length
    · refine ⟨[], r :: fds, true, rfl, ?_, .inr ⟨rfl, r, fds, rfl, ?_⟩⟩
      · rw [if_pos hfull]
        simp
      · rw [hat]
        simpa using hfull
    · obtain ⟨taken, rest, trunc, hsplit, hcollect, hrest⟩ :=
        ih (rawFds ++ fs) fun r' hr' => hexports r' (mem_cons_of_mem r hr')
      refine ⟨r :: taken, rest, trunc, by rw [hsplit]; rfl, ?_, ?_⟩
      · rw [if_neg hfull, hcollect, flatMap_cons, hat, append_assoc]
      · rw [flatMap_cons, hat, ← append_assoc]
        exact hrest

theorem exportedAt_set_ne {r' : SfdRef} (hne : r ≠ r') :
    exportedAt (heap.set r sfd) r' = exportedAt heap r' := by
  unfold exportedAt
  rw [getElem?_set_ne hne]

theorem Exports.set_ne {r' : SfdRef} (hne : r ≠ r') (h : Exports heap r') :
    Exports (heap.set r sfd) r' := by
  unfold Exports
  rw [getElem?_set_ne hne]
  exact h

/-- After some entries have been sent, the queue starts with entries of which nothing is left to
send, and the others are as they were. -/
theorem dropSentFds_spec {taken rest : List SfdRef} (hexports : ∀ r ∈ taken ++ rest, Exports heap r)
    (hnodup : (taken ++ rest).Nodup) :
    ∃ heap' left, dropSentFds heap (taken ++ rest) (taken.flatMap (exportedAt heap)).length =
        .ok (heap', left ++ rest) ∧
      left.Sublist taken ∧ left.flatMap (exportedAt heap') = [] ∧
      (∀ r ∈ left ++ rest, Exports heap' r) ∧
      rest.flatMap (exportedAt heap') = rest.flatMap (exportedAt heap) := by
  induction taken generalizing heap with
  | nil => exact ⟨heap, [], by simp [dropSentFds], .slnil, rfl, hexports, rfl⟩
  | cons r taken ih =>
    obtain ⟨sfd, fs, hr, hfs, hlen⟩ := hexports r mem_cons_self
    have hat := exportedAt_eq hr hfs
    rw [cons_append, nodup_cons] at hnodup
    rw [flatMap_cons, hat, length_append]
    by_cases hzero : fs.length + (taken.flatMap (exportedAt heap)).length = 0
    · -- nothing at all was sent, and nothing is dropped
      refine ⟨heap, r :: taken, ?_, .refl _, ?_, hexports, rfl⟩
      · rw [hzero]
        exact dropSentFds.eq_1 heap _
      · have hnil : fs ++ taken.flatMap (exportedAt heap) = [] :=
          eq_nil_of_length_eq_zero (by rw [length_append]; exact hzero)
        rw [flatMap_cons, hat, hnil]
    · have hne (r' : SfdRef) (hr' : r' ∈ taken ++ rest) : r ≠ r' := by
        rintro rfl
        exact hnodup.1 hr'
      have hsame (l : List SfdRef) (hl : ∀ r' ∈ l, r' ∈ taken ++ rest) :
          l.flatMap (exportedAt (heap.set r sfd.dropExported)) = l.flatMap (exportedAt heap) :=
        flatMap_congr fun r' hr' => exportedAt_set_ne (hne r' (hl r' hr'))
      obtain ⟨heap', left, hdrop, hleft, hempty, hexports', hrest⟩ :=
        @ih (heap.set r sfd.dropExported)
          (fun r' hr' => (hexports r' (mem_cons_of_mem r hr')).set_ne (hne r' hr')) hnodup.2
      rw [hsame taken fun r' hr' => mem_append_left rest hr'] at hdrop
      refine ⟨heap', left, ?_, hleft.cons r, hempty, hexports', ?_⟩
      · rw [cons_append, dropSentFds_cons hr hfs (by omega) (by omega), Nat.add_sub_cancel_left]
        exact hdrop
      · rw [hrest]
        exact hsame rest fun r' hr' => mem_append_right taken hr'

end Queue

/-! ## Runs -/

/-- A message for the Wayland connection, with its descriptors. -/
structure OutgoingMsg where
  bytes : List UInt8
  fds : List Fd

/-- The buffer with its history: the messages that have been appended, and what has been sent. -/
structure SocketOutput where
  heap : List ShadowFd
  buf : TransferWayland
  appended : List OutgoingMsg
  sent : SocketSend

inductive SocketEvent where
  /-- A translated message and its entries of the queue. -/
  | append (bytes : List UInt8) (fds : List SfdRef)
  | write (result : SendResult)
  /-- The rest of the program changes the heap. -/
  | update (heap : List ShadowFd)

namespace TransferWayland

def pending (buf : TransferWayland) : List UInt8 := (buf.data.drop buf.start).take buf.len

/-- What `process_way_msg` writes behind the bytes that are in the buffer. -/
def append (buf : TransferWayland) (bytes : List UInt8) (fds : List SfdRef) : TransferWayland where
  data := buf.data.take buf.len ++ bytes ++ buf.data.drop (buf.len + bytes.length)
  start := buf.start
  len := buf.len + bytes.length
  fds := buf.fds ++ fds

end TransferWayland

namespace SocketOutput

variable (s : SocketOutput)

def step : SocketEvent → Option SocketOutput
  | .append bytes fds =>
    -- only append to a channel that has not started writing
    if s.buf.start ≠ 0 then none
    else some { s with
      buf := s.buf.append bytes fds
      appended := s.appended ++ [{ bytes, fds := fds.flatMap (exportedAt s.heap) }] }
  | .write result =>
    match writeToSocket s.heap s.buf result with
    | .ok (_, heap, buf, sent) => some { s with
        heap, buf, sent := { bytes := s.sent.bytes ++ sent.bytes, fds := s.sent.fds ++ sent.fds } }
    | .error _ => none
  | .update heap => some { s with heap }

/-- The answers that `sendmsg` can give: a positive number of bytes is at most what it was given. -/
def Answers : SendResult → Prop
  | .sent n => 0 < n ∧ ∀ rawFds trunc, collectRawFds s.heap s.buf.fds [] = .ok (rawFds, trunc) →
      n ≤ if trunc then 1 else s.buf.len
  | _ => True

instance (s : SocketOutput) : ∀ result, Decidable (s.Answers result)
  | .sent n => decidable_of_iff (0 < n ∧ ∀ x ∈ (collectRawFds s.heap s.buf.fds []).toOption,
      n ≤ if x.2 then 1 else s.buf.len) (by
    refine and_congr_right fun _ =>
      ⟨fun h rawFds trunc hcollect => h (rawFds, trunc) (by rw [hcollect]; rfl), ?_⟩
    rintro h ⟨rawFds, trunc⟩ hmem
    exact h rawFds trunc (Res.toOption_eq_some.mp hmem))
  | .retry | .disconnected | .failed _ => isTrue trivial

/-- A message has a header, there is room for it and for its entries (`check_space!`), and these are new,
with at most four descriptors each. -/
structure Fits (s : SocketOutput) (bytes : List UInt8) (fds : List SfdRef) : Prop where
  header : 8 ≤ bytes.length
  space : s.buf.len + bytes.length ≤ s.buf.data.length
  entries : s.buf.fds.length + fds.length ≤ MAX_OUTGOING_FDS
  fresh : (s.buf.fds ++ fds).Nodup
  exports : ∀ r ∈ fds, Exports s.heap r

instance (s : SocketOutput) (bytes : List UInt8) (fds : List SfdRef) : Decidable (s.Fits bytes fds) :=
  decidable_of_iff (8 ≤ bytes.length ∧ s.buf.len + bytes.length ≤ s.buf.data.length ∧
      s.buf.fds.length + fds.length ≤ MAX_OUTGOING_FDS ∧ (s.buf.fds ++ fds).Nodup ∧
      ∀ r ∈ fds, Exports s.heap r)
    ⟨fun ⟨h₁, h₂, h₃, h₄, h₅⟩ => ⟨h₁, h₂, h₃, h₄, h₅⟩, fun ⟨h₁, h₂, h₃, h₄, h₅⟩ => ⟨h₁, h₂, h₃, h₄, h₅⟩⟩

/-- The events of the main loop: messages that fit, calls when there is something to write, and
changes of the heap that leave the queued descriptors alone. -/
def Allowed : SocketEvent → Prop
  | .append bytes fds => s.Fits bytes fds
  | .write result => 0 < s.buf.len ∧ s.Answers result
  | .update heap => ∀ r ∈ s.buf.fds, Exports heap r ∧ exportedAt heap r = exportedAt s.heap r

instance (s : SocketOutput) : ∀ e, Decidable (s.Allowed e)
  | .append bytes fds => inferInstanceAs (Decidable (s.Fits bytes fds))
  | .write result => inferInstanceAs (Decidable (0 < s.buf.len ∧ s.Answers result))
  | .update heap => inferInstanceAs (Decidable (∀ r ∈ s.buf.fds, Exports heap r ∧
      exportedAt heap r = exportedAt s.heap r))

/-- An empty buffer. -/
def Empty : Prop :=
  s.buf.start = 0 ∧ s.buf.len = 0 ∧ s.buf.fds = [] ∧ s.appended = [] ∧ s.sent = ⟨[], []⟩

/-- The descriptors that are still to be sent. -/
def pendingFds : List Fd := s.buf.fds.flatMap (exportedAt s.heap)

end SocketOutput

def msgsBytes (ms : List OutgoingMsg) : List UInt8 := ms.flatMap OutgoingMsg.bytes

def msgsFds (ms : List OutgoingMsg) : List Fd := ms.flatMap OutgoingMsg.fds

/-- The invariant: nothing is lost, and the messages before those in the buffer have been sent
whole.  While there are descriptors to send, not more than one byte of the buffer has been sent, and
when one has, the descriptors that are left fit into one control message. -/
structure SocketOutput.Inv (s : SocketOutput) : Prop where
  range : s.buf.start + s.buf.len ≤ s.buf.data.length
  flushed : s.buf.len = 0 → s.buf.start = 0
  nodup : s.buf.fds.Nodup
  exports : ∀ r ∈ s.buf.fds, Exports s.heap r
  limit : s.buf.fds.length ≤ MAX_OUTGOING_FDS
  header : ∀ m ∈ s.appended, 8 ≤ m.bytes.length
  bytes : s.sent.bytes ++ s.buf.pending = msgsBytes s.appended
  fds : s.sent.fds ++ s.pendingFds = msgsFds s.appended
  batch : ∃ old new, s.appended = old ++ new ∧
    s.sent.bytes.length = (msgsBytes old).length + s.buf.start ∧
    msgsFds old <+: s.sent.fds ∧
    (s.pendingFds = [] ∨ s.buf.start = 0 ∨ (s.buf.start = 1 ∧ s.pendingFds.length ≤ RAW_FDS_LEN))

namespace SocketOutput

variable {s t : SocketOutput}

theorem Empty.inv (h : s.Empty) : s.Inv := by
  obtain ⟨hstart, hlen, hfds, happended, hsent⟩ := h
  have hpending : s.buf.pending = [] := by
    unfold TransferWayland.pending
    rw [hlen, take_zero]
  have hpendingFds : s.pendingFds = [] := by
    unfold pendingFds
    rw [hfds]
    rfl
  refine ⟨by omega, fun _ => hstart, by rw [hfds]; exact .nil, ?_,
    by rw [hfds]; exact Nat.zero_le _, ?_, ?_, ?_,
    [], [], happended, ?_, nil_prefix, .inl hpendingFds⟩
  · rw [hfds]
    exact fun r hr => by cases hr
  · rw [happended]
    exact fun m hm => by cases hm
  · rw [hpending, hsent, happended]
    rfl
  · rw [hpendingFds, hsent, happended]
    rfl
  · rw [hsent, hstart]
    rfl

theorem msgsBytes_append (ms ms' : List OutgoingMsg) :
    msgsBytes (ms ++ ms') = msgsBytes ms ++ msgsBytes ms' :=
  flatMap_append

theorem msgsFds_append (ms ms' : List OutgoingMsg) : msgsFds (ms ++ ms') = msgsFds ms ++ msgsFds ms' :=
  flatMap_append

/-! ### Appended messages -/

theorem pending_append {buf : TransferWayland} {bytes : List UInt8} {fds : List SfdRef}
    (hstart : buf.start = 0)
    (hspace : buf.len + bytes.length ≤ buf.data.length) :
    (buf.append bytes fds).pending = buf.pending ++ bytes := by
  have htake : (buf.data.take buf.len).length = buf.len := by
    rw [length_take]
    omega
  unfold TransferWayland.pending TransferWayland.append
  dsimp only
  rw [hstart, drop_zero, drop_zero]
  apply take_left'
  rw [length_append, htake]

theorem Inv.append (h : s.Inv) {bytes : List UInt8} {fds : List SfdRef} (hfits : s.Fits bytes fds)
    (hstep : s.step (.append bytes fds) = some t) : t.Inv := by
  simp only [step] at hstep
  split at hstep
  · cases hstep
  next hstart =>
  have hstart : s.buf.start = 0 := Decidable.not_not.mp hstart
  cases hstep
  obtain ⟨old, new, happended, hlen, hold, -⟩ := h.batch
  have hspace := hfits.space
  refine ⟨?_, fun hzero => ?_, hfits.fresh, ?_, ?_, ?_, ?_, ?_, old,
    new ++ [⟨bytes, fds.flatMap (exportedAt s.heap)⟩], ?_, hlen, hold, .inr (.inl hstart)⟩
  · show s.buf.start + (s.buf.len + bytes.length) ≤
      (s.buf.data.take s.buf.len ++ bytes ++ s.buf.data.drop (s.buf.len + bytes.length)).length
    simp only [length_append, length_take, length_drop]
    omega
  · exact hstart
  · intro r hr
    rcases mem_append.mp hr with hr | hr
    · exact h.exports r hr
    · exact hfits.exports r hr
  · show (s.buf.fds ++ fds).length ≤ _
    rw [length_append]
    exact hfits.entries
  · intro m hm
    rcases mem_append.mp hm with hm | hm
    · exact h.header m hm
    · rw [mem_singleton.mp hm]
      exact hfits.header
  · rw [pending_append hstart hspace, ← append_assoc, h.bytes, msgsBytes_append]
    simp [msgsBytes]
  · have hpending : s.pendingFds ++ fds.flatMap (exportedAt s.heap) =
        (s.buf.fds ++ fds).flatMap (exportedAt s.heap) := flatMap_append.symm
    show s.sent.fds ++ (s.buf.fds ++ fds).flatMap (exportedAt s.heap) = _
    rw [← hpending, ← append_assoc, h.fds, msgsFds_append]
    simp [msgsFds]
  · show s.appended ++ [_] = _
    rw [happended, append_assoc]

/-! ### Changes of the heap -/

theorem Inv.update (h : s.Inv) {heap : List ShadowFd}
    (hsame : ∀ r ∈ s.buf.fds, Exports heap r ∧ exportedAt heap r = exportedAt s.heap r) :
    Inv { s with heap } := by
  have hpending : pendingFds { s with heap } = s.pendingFds :=
    flatMap_congr fun r hr => (hsame r hr).2
  obtain ⟨old, new, happended, hlen, hold, hbatch⟩ := h.batch
  refine ⟨h.range, h.flushed, h.nodup, fun r hr => (hsame r hr).1, h.limit, h.header, h.bytes, ?_,
    old, new, happended, hlen, hold, ?_⟩
  · rw [hpending]
    exact h.fds
  · rw [hpending]
    exact hbatch

/-! ### Calls of `write_to_socket` -/

theorem length_flatMap_le {l : List SfdRef} {heap : List ShadowFd} (h : ∀ r ∈ l, Exports heap r) :
    (l.flatMap (exportedAt heap)).length ≤ 4 * l.length := by
  induction l with
  | nil => exact Nat.zero_le _
  | cons r l ih =>
    have hr := (h r mem_cons_self).length_le
    have hl := ih fun r' hr' => h r' (mem_cons_of_mem r hr')
    rw [flatMap_cons, length_append, length_cons]
    omega

theorem Inv.length_pending (h : s.Inv) : s.buf.pending.length = s.buf.len := by
  have hrange := h.range
  unfold TransferWayland.pending
  rw [length_take, length_drop]
  omega

/-- When not all descriptors fit into one control message, nothing of the batch has been sent, and
there is more than one byte. -/
theorem Inv.first_call (h : s.Inv) (hmany : RAW_FDS_LEN < s.pendingFds.length) :
    s.buf.start = 0 ∧ 8 ≤ s.buf.len := by
  obtain ⟨old, new, happended, hlen, hold, hbatch⟩ := h.batch
  have hstart : s.buf.start = 0 := by
    rcases hbatch with hnone | hstart | ⟨-, hfew⟩
    · rw [hnone] at hmany
      cases hmany
    · exact hstart
    · omega
  refine ⟨hstart, ?_⟩
  have hbytes := congrArg length h.bytes
  rw [happended, msgsBytes_append, length_append, length_append, h.length_pending] at hbytes
  cases new with
  | nil =>
    -- without a message in the buffer there is no descriptor either
    have hfds := congrArg length h.fds
    have hle := hold.length_le
    rw [happended, append_nil, length_append] at hfds
    have hpos : 0 < RAW_FDS_LEN := by decide
    omega
  | cons m new =>
    have hm := h.header m (by rw [happended]; simp)
    have hsplit : (msgsBytes (m :: new)).length = m.bytes.length + (msgsBytes new).length := by
      simp [msgsBytes]
    omega

/-- A call after which `n` bytes have been sent. -/
theorem Inv.writeToSocket_sent (h : s.Inv) (hpos : 0 < s.buf.len) {n : Nat}
    (hanswer : s.Answers (.sent n)) :
    ∃ heap fds taken rest trunc, s.buf.fds = taken ++ rest ∧
      ((trunc = false ∧ rest = []) ∨ (trunc = true ∧ ∃ r rest', rest = r :: rest' ∧
        RAW_FDS_LEN < (taken.flatMap (exportedAt s.heap)).length + (exportedAt s.heap r).length)) ∧
      n ≤ (if trunc then 1 else s.buf.len) ∧
      writeToSocket s.heap s.buf (.sent n) = .ok (false, heap,
        { s.buf with
          start := if s.buf.len - n = 0 then 0 else s.buf.start + n
          len := s.buf.len - n
          fds },
        { bytes := s.buf.pending.take n, fds := taken.flatMap (exportedAt s.heap) }) ∧
      fds.Sublist s.buf.fds ∧ (∀ r ∈ fds, Exports heap r) ∧
      fds.flatMap (exportedAt heap) = rest.flatMap (exportedAt s.heap) := by
  have hrange := h.range
  obtain ⟨taken, rest, trunc, hsplit, hcollect, hrest⟩ := collectRawFds_spec [] h.exports
  rw [nil_append] at hcollect hrest
  have hn := hanswer.2 _ _ hcollect
  have hn' : n ≤ s.buf.len := by
    split at hn
    · omega
    · exact hn
  have hrequest : (if trunc then 1 else s.buf.len) ≤ s.buf.len := by
    split
    · omega
    · exact Nat.le_refl _
  have hqueue : ∀ r ∈ taken ++ rest, Exports s.heap r := hsplit ▸ h.exports
  obtain ⟨heap, left, hdrop, hleft, hempty, hexports, hsame⟩ :=
    dropSentFds_spec hqueue (hsplit ▸ h.nodup)
  refine ⟨heap, left ++ rest, taken, rest, trunc, hsplit, hrest, hn, ?_, ?_, hexports, ?_⟩
  · unfold writeToSocket
    rw [assert_of (by simpa using hpos), Res.ok_bind, hcollect, Res.ok_bind]
    dsimp only
    rw [if_neg (by omega), checkedSub_of_le hn', Res.ok_bind, hsplit, hdrop, Res.ok_bind]
    unfold TransferWayland.pending
    rw [take_take, take_take, Nat.min_eq_left hn, Nat.min_eq_left hn']
    rfl
  · rw [hsplit]
    exact hleft.append_right rest
  · rw [flatMap_append, hempty, hsame, nil_append]

/-- What is left after a call that could not send all descriptors fits into one control message. -/
theorem Inv.rest_le (h : s.Inv) {taken rest' : List SfdRef} {r : SfdRef}
    (hsplit : s.buf.fds = taken ++ r :: rest')
    (hfull : RAW_FDS_LEN < (taken.flatMap (exportedAt s.heap)).length + (exportedAt s.heap r).length) :
    ((r :: rest').flatMap (exportedAt s.heap)).length ≤ RAW_FDS_LEN := by
  have hexports : ∀ r' ∈ taken ++ r :: rest', Exports s.heap r' := hsplit ▸ h.exports
  have htaken := length_flatMap_le fun r' hr' => hexports r' (mem_append_left _ hr')
  have hrest := length_flatMap_le fun r' hr' => hexports r' (mem_append_right taken hr')
  have hr := (hexports r (by simp)).length_le
  have hlimit := h.limit
  rw [hsplit, length_append] at hlimit
  unfold RAW_FDS_LEN at hfull ⊢
  unfold MAX_OUTGOING_FDS at hlimit
  omega

theorem Inv.pendingFds_eq {taken rest : List SfdRef} (hsplit : s.buf.fds = taken ++ rest) :
    s.pendingFds = taken.flatMap (exportedAt s.heap) ++ rest.flatMap (exportedAt s.heap) := by
  unfold pendingFds
  rw [hsplit, flatMap_append]

theorem Inv.sent (h : s.Inv) (hpos : 0 < s.buf.len) {n : Nat} (hanswer : s.Answers (.sent n))
    (hstep : s.step (.write (.sent n)) = some t) : t.Inv ∧ t.buf.len + n = s.buf.len := by
  obtain ⟨heap, fds, taken, rest, trunc, hsplit, hrest, hn, hwrite, hsub, hexports, hsame⟩ :=
    h.writeToSocket_sent hpos hanswer
  simp only [step, hwrite, Option.some.injEq] at hstep
  subst hstep
  have hnpos := hanswer.1
  have hrange := h.range
  have hpending := h.length_pending
  have hall := Inv.pendingFds_eq hsplit
  have hn' : n ≤ s.buf.len := by
    split at hn
    · omega
    · exact hn
  refine ⟨⟨?_, ?_, hsub.nodup h.nodup, hexports, ?_, h.header, ?_, ?_, ?_⟩, ?_⟩
  · dsimp only
    split
    · omega
    · omega
  · exact fun hzero => if_pos hzero
  · exact Nat.le_trans hsub.length_le h.limit
  · have hleft : (if s.buf.len - n = 0 then 0 else s.buf.start + n) = s.buf.start + n ∨
        s.buf.len - n = 0 := by
      split
      · next hzero => exact .inr hzero
      · exact .inl rfl
    have hdrop : TransferWayland.pending { s.buf with
        start := if s.buf.len - n = 0 then 0 else s.buf.start + n, len := s.buf.len - n, fds } =
        s.buf.pending.drop n := by
      unfold TransferWayland.pending
      dsimp only
      rw [drop_take, drop_drop]
      rcases hleft with hstart | hzero
      · rw [hstart]
      · rw [hzero, take_zero, take_zero]
    rw [hdrop, ← h.bytes, append_assoc, take_append_drop]
  · show s.sent.fds ++ _ ++ fds.flatMap (exportedAt heap) = _
    rw [hsame, append_assoc, ← hall, h.fds]
  · -- either everything has been sent with this call, or it was the first, for one byte
    have hrest' : rest.flatMap (exportedAt s.heap) = [] ∨ (n = 1 ∧ s.buf.start = 0 ∧ 8 ≤ s.buf.len ∧
        (rest.flatMap (exportedAt s.heap)).length ≤ RAW_FDS_LEN) := by
      rcases hrest with ⟨-, rfl⟩ | ⟨rfl, r, rest', rfl, hfull⟩
      · exact .inl rfl
      · have hmany : RAW_FDS_LEN < s.pendingFds.length := by
          rw [hall, flatMap_cons, length_append, length_append]
          omega
        obtain ⟨hstart, hlen⟩ := h.first_call hmany
        rw [if_pos rfl] at hn
        exact .inr ⟨by omega, hstart, hlen, h.rest_le hsplit hfull⟩
    obtain ⟨old, new, happended, hlen, hold, -⟩ := h.batch
    have htake : (s.buf.pending.take n).length = n := by
      rw [length_take]
      omega
    have hlen' : (s.sent.bytes ++ s.buf.pending.take n).length =
        (msgsBytes old).length + s.buf.start + n := by
      rw [length_append, htake, hlen]
    by_cases hzero : s.buf.len - n = 0
    · have hnone : rest.flatMap (exportedAt s.heap) = [] := by
        rcases hrest' with hnone | ⟨rfl, -, hmore, -⟩
        · exact hnone
        · omega
      have hfds := h.fds
      rw [hall, hnone, append_nil] at hfds
      refine ⟨s.appended, [], by simp, ?_, ⟨[], (append_nil _).trans hfds.symm⟩,
        .inl (hsame.trans hnone)⟩
      have hbytes := congrArg length h.bytes
      rw [length_append, hpending] at hbytes
      show (s.sent.bytes ++ s.buf.pending.take n).length =
        _ + if s.buf.len - n = 0 then 0 else s.buf.start + n
      rw [if_pos hzero, length_append, htake]
      omega
    · refine ⟨old, new, happended, ?_, hold.trans (prefix_append _ _), ?_⟩
      · show (s.sent.bytes ++ s.buf.pending.take n).length =
          _ + if s.buf.len - n = 0 then 0 else s.buf.start + n
        rw [if_neg hzero, hlen']
        omega
      · rcases hrest' with hnone | ⟨hone, hstart, -, hfew⟩
        · exact .inl (hsame.trans hnone)
        · refine .inr (.inr ⟨?_, ?_⟩)
          · show (if s.buf.len - n = 0 then 0 else s.buf.start + n) = 1
            rw [if_neg hzero]
            omega
          · show (fds.flatMap (exportedAt heap)).length ≤ RAW_FDS_LEN
            rw [hsame]
            exact hfew
  · exact Nat.sub_add_cancel hn'

theorem writeToSocket_unsent (h : s.Inv) (hpos : 0 < s.buf.len) :
    writeToSocket s.heap s.buf .retry = .ok (false, s.heap, s.buf, ⟨[], []⟩) ∧
      writeToSocket s.heap s.buf .disconnected = .ok (true, s.heap, s.buf, ⟨[], []⟩) ∧
      ∀ errno, ∃ msg, writeToSocket s.heap s.buf (.failed errno) = .error (.err msg) := by
  have hrange := h.range
  obtain ⟨taken, rest, trunc, -, hcollect, -⟩ := collectRawFds_spec [] h.exports
  have hrequest : ¬ s.buf.data.length < s.buf.start + if trunc then 1 else s.buf.len := by
    split
    · omega
    · omega
  refine ⟨?_, ?_, fun errno => ⟨s!"Error writing to socket: {errno}", ?_⟩⟩
  all_goals
    unfold writeToSocket
    rw [assert_of (by simpa using hpos), Res.ok_bind, hcollect, Res.ok_bind]
    dsimp only
    rw [if_neg hrequest]
  all_goals rfl

theorem Inv.step (h : s.Inv) {e : SocketEvent} (hallowed : s.Allowed e)
    (hstep : s.step e = some t) : t.Inv := by
  cases e with
  | append bytes fds => exact h.append hallowed hstep
  | update heap =>
    cases hstep
    exact h.update hallowed
  | write result =>
    obtain ⟨hpos, hanswer⟩ := hallowed
    obtain ⟨hretry, hclosed, hfailed⟩ := writeToSocket_unsent h hpos
    have hunsent : s = { s with sent := ⟨s.sent.bytes ++ [], s.sent.fds ++ []⟩ } := by
      rw [append_nil, append_nil]
    cases result with
    | sent n => exact (h.sent hpos hanswer hstep).1
    | retry =>
      simp only [SocketOutput.step, hretry, Option.some.injEq] at hstep
      rw [← hstep, ← hunsent]
      exact h
    | disconnected =>
      simp only [SocketOutput.step, hclosed, Option.some.injEq] at hstep
      rw [← hstep, ← hunsent]
      exact h
    | failed errno =>
      obtain ⟨msg, hmsg⟩ := hfailed errno
      simp only [SocketOutput.step, hmsg] at hstep
      cases hstep

/-- When the last byte of a message has been sent, so have its descriptors. -/
theorem Inv.timely (h : s.Inv) {pre : List OutgoingMsg} (hpre : pre <+: s.appended)
    (hsent : (msgsBytes pre).length ≤ s.sent.bytes.length) : msgsFds pre <+: s.sent.fds := by
  obtain ⟨old, new, happended, hlen, hold, hbatch⟩ := h.batch
  have hflat {ms ms' : List OutgoingMsg} (hms : ms <+: ms') : msgsFds ms <+: msgsFds ms' := by
    obtain ⟨rest, rfl⟩ := hms
    rw [msgsFds_append]
    exact prefix_append _ _
  by_cases hnone : s.pendingFds = []
  · have hfds := h.fds
    rw [hnone, append_nil] at hfds
    rw [hfds]
    exact hflat hpre
  · have hstart : s.buf.start ≤ 1 := by
      rcases hbatch with hnone' | hstart | ⟨hstart, -⟩
      · exact absurd hnone' hnone
      · omega
      · omega
    rcases prefix_or_prefix_of_prefix hpre ⟨new, happended.symm⟩ with hle | ⟨more, rfl⟩
    · exact (hflat hle).trans hold
    · cases more with
      | nil =>
        rw [append_nil]
        exact hold
      | cons m more =>
        -- another message would have at least eight bytes more
        have hm := h.header m (hpre.subset (by simp))
        have hbytes : (msgsBytes (old ++ m :: more)).length =
            (msgsBytes old).length + m.bytes.length + (msgsBytes more).length := by
          rw [msgsBytes_append, length_append]
          simp [msgsBytes, Nat.add_assoc]
        omega

theorem Inv.all_sent (h : s.Inv) (hzero : s.buf.len = 0) :
    s.sent.bytes = msgsBytes s.appended ∧ s.sent.fds = msgsFds s.appended := by
  have hbytes : s.sent.bytes = msgsBytes s.appended := by
    have hpending : s.buf.pending = [] := eq_nil_of_length_eq_zero (h.length_pending.trans hzero)
    rw [← h.bytes, hpending, append_nil]
  refine ⟨hbytes, ?_⟩
  obtain ⟨rest, hrest⟩ := h.timely prefix_rfl (Nat.le_of_eq (congrArg length hbytes.symm))
  have hlen := congrArg length hrest
  have hfds := congrArg length h.fds
  rw [length_append] at hlen hfds
  have hnil : rest = [] := eq_nil_of_length_eq_zero (by omega)
  rw [← hrest, hnil, append_nil]

end SocketOutput

/-- In every state that is reached by appending messages and writing them, whatever `sendmsg`
answers: what has been sent and what is pending is what was appended, in order; the descriptors of
the messages that have been sent whole have been sent; when the buffer is empty, everything has been
sent; and when it is not, the next call returns, and takes the bytes that `sendmsg` took. -/
theorem socket_output_exact (s₀ s : SocketOutput) (es : List SocketEvent) (hempty : s₀.Empty)
    (halong : Along SocketOutput.step SocketOutput.Allowed s₀ es)
    (hrun : run SocketOutput.step s₀ es = some s) :
    s.sent.bytes ++ s.buf.pending = msgsBytes s.appended ∧
    s.sent.fds ++ s.pendingFds = msgsFds s.appended ∧
    (∀ pre, pre <+: s.appended → (msgsBytes pre).length ≤ s.sent.bytes.length →
      msgsFds pre <+: s.sent.fds) ∧
    (s.buf.len = 0 → s.sent.bytes = msgsBytes s.appended ∧ s.sent.fds = msgsFds s.appended) ∧
    (0 < s.buf.len → s.Answers (.sent 1) ∧ s.step (.write .retry) = some s ∧
      ∀ n, s.Answers (.sent n) → ∃ t, s.step (.write (.sent n)) = some t ∧
        t.buf.len + n = s.buf.len) := by
  have h : s.Inv := run_invariant (fun _ _ _ h hallowed hstep => h.step hallowed hstep) hempty.inv
    halong hrun
  refine ⟨h.bytes, h.fds, fun pre hpre hsent => h.timely hpre hsent, h.all_sent,
    fun hpos => ⟨?_, ?_, ?_⟩⟩
  · refine ⟨Nat.one_pos, fun rawFds trunc _ => ?_⟩
    split
    · exact Nat.le_refl _
    · exact hpos
  · simp only [SocketOutput.step, (SocketOutput.writeToSocket_unsent h hpos).1, append_nil]
  · intro n hanswer
    obtain ⟨heap, fds, taken, rest, trunc, -, -, -, hwrite, -⟩ := h.writeToSocket_sent hpos hanswer
    obtain ⟨t, ht⟩ : ∃ t, s.step (.write (.sent n)) = some t := by
      simp only [SocketOutput.step, hwrite]
      exact ⟨_, rfl⟩
    exact ⟨t, ht, (h.sent hpos hanswer ht).2⟩

/-- Five buffers of four planes for two messages: the first call sends one byte and sixteen descriptors,
the second the other four with what it sends of the rest. -/
theorem socket_output_exact_planes :
    let dmabuf (fd : Fd) : ShadowFd := ⟨fd, false, .dmabuf {
      buf := .gbm 1 1 4
      mirror := none
      drmFormat := 0
      drmModifier := 0
      damage := .intervals []
      viewRowStride := none
      firstDamage := true
      exportPlanes := (range 4).map fun i => ⟨fd + i, i, 0, 0, 0⟩
      videoDecode := false
      videoEncode := false
      usingImplicitSync := false
      acquires := []
      releases := []
      pendingApplyTasks := 0
      debugWaylandId := 0 }⟩
    let s₀ : SocketOutput := ⟨[dmabuf 10, dmabuf 20, dmabuf 30, dmabuf 40, dmabuf 50],
      ⟨replicate 32 0, 0, 0, []⟩, [], ⟨[], []⟩⟩
    let es : List SocketEvent := [.append (range 8 |>.map .ofNat) [0, 1, 2], .write .retry,
      .append (range 12 |>.map .ofNat) [3, 4], .write (.sent 1), .write (.sent 10),
      .write (.sent 9)]
    ∃ s, run SocketOutput.step s₀ es = some s ∧ s.buf.len = 0 ∧
      s.sent.bytes = msgsBytes s.appended ∧ s.sent.fds = msgsFds s.appended ∧
      s.sent.fds.length = 20 := by
  intro dmabuf s₀ es
  have hend : ((run SocketOutput.step s₀ es).map fun s => (s.buf.len, s.sent.fds.length)) =
      some (0, 20) := by
    decide +kernel
  obtain ⟨s, hrun, hs⟩ := Option.map_eq_some_iff.mp hend
  obtain ⟨hlen, hfds⟩ := Prod.mk.inj hs
  have hexact := socket_output_exact s₀ s es ⟨rfl, rfl, rfl, rfl, rfl⟩ (by decide +kernel) hrun
  obtain ⟨hbytes, hall⟩ := hexact.2.2.2.1 hlen
  exact ⟨s, hrun, hlen, hbytes, hall, hfds⟩

end Waypipe
