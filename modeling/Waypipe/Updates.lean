import Waypipe.Lib.Effect
import Waypipe.Workers

/-!
# Decompressing and applying updates

What a worker does with an update of a file, or of the mirror of a GBM buffer.  `runDecompTask`
reads a `BufferDiff` or `BufferFill` message and finds the region that it changes; `runApplyTask`
performs the writes, in order, until it is done or fails.  Together they are the work of the worker
threads, `shmWork`.
-/

namespace Waypipe

open LeBytes TaskSet

/-! ## The region of a diff -/

/-- The loop over the spans of a diff, from `pos` up to `limit`.  Every round reads eight bytes or
more, so the length of the diff is enough for the number of rounds. -/
def diffSpanLoop (diff : List UInt8) (limit : Nat) : Nat → Nat → Nat → Nat → Res (Nat × Nat)
  | 0, _, start, stop => .ok (start, stop)
  | rounds + 1, pos, start, stop =>
    if pos < limit then do
      let spanStart ← readU32 diff pos
      let spanEnd ← readU32 diff (pos + 4)
      let len ← checkedSub spanEnd spanStart
      diffSpanLoop diff limit rounds (pos + 8 + len * 4) (min start spanStart) (max stop spanEnd)
    else .ok (start, stop)

variable (diff : List UInt8)

/-- The region that a diff changes.  A diff is a list of spans, each with its ends in words of four
bytes and its contents, followed by the last `ntrailing` bytes of the buffer. -/
def computeDiffSpan (ntrailing bufLen : Nat) : Res (Nat × Nat) := do
  let body ← checkedSub diff.length ntrailing
  assert (body % 4 == 0) "(diff.len() - ntrailing) % 4 == 0"
  let nblocks := body / 4
  if nblocks = 0 then
    if ntrailing = 0 then fail "computed diff span on empty diff"
    else return (← checkedSub bufLen ntrailing, bufLen)
  else
    let (start, stop) ← diffSpanLoop diff (4 * nblocks) diff.length 0 bufLen 0
    assert (decide (start < stop)) "start < end"
    return if 0 < ntrailing then (start * 4, bufLen) else (start * 4, stop * 4)

/-! ## Writing -/

/-- Performs writes; those before a failure have been made. -/
abbrev Writer (α : Type) := Eff Fault (List (Loc × UInt8)) α

/-- Bytes for the file, or for its mirror, from an offset on. -/
def writesAt (sfd : SfdRef) (inMirror : Bool) (start : Nat) (bytes : List UInt8) :
    List (Loc × UInt8) :=
  bytes.zipIdx.map fun e => ({ sfd, inMirror, offset := start + e.2 }, e.1)

def store (sfd : SfdRef) (inMirror : Bool) (start : Nat) (bytes : List UInt8) : Writer Unit :=
  modify (· ++ writesAt sfd inMirror start bytes)

/-- The part of a mirror that a task has exclusive access to: `data[from..to]` is checked. -/
structure MirrorRange where
  sfd : SfdRef
  start : Nat
  len : Nat

/-- `get_mut_range`, for a range that no other task has. -/
def getMutRange (sfd : SfdRef) (size start stop : Nat) (failure : String) : Res MirrorRange :=
  if stop ≤ start ∨ size < stop then fail failure else .ok { sfd, start, len := stop - start }

/-- Copy to a part of the mirror that is given by offsets from the start of the buffer. -/
def MirrorRange.copy (m : MirrorRange) (start : Nat) (bytes : List UInt8) : Writer Unit := do
  let first ← Eff.ofExcept (checkedSub start m.start)
  Eff.ofExcept (assert (decide (first + bytes.length ≤ m.len))
    "range end index out of range for slice")
  store m.sfd true start bytes

/-- The loop over the spans of a diff: `check pos start stop` fails on an invalid span. -/
def applySpans (diff : List UInt8) (limit : Nat) (check : Nat → Nat → Nat → Res Unit)
    (write : Nat → List UInt8 → Writer Unit) : Nat → Nat → Writer Unit
  | 0, _ => pure ()
  | rounds + 1, pos =>
    if pos < limit then do
      let start ← Eff.ofExcept (readU32 diff pos)
      let stop ← Eff.ofExcept (readU32 diff (pos + 4))
      Eff.ofExcept (check pos start stop)
      write (start * 4) (← Eff.ofExcept (slice diff (pos + 8) (pos + 8 + 4 * (stop - start))))
      applySpans diff limit check write rounds (pos + 8 + 4 * (stop - start))
    else pure ()

/-- Apply a diff to a file of `size` bytes and to its mirror. -/
def applyDiff (ntrailing : Nat) (size : Nat) (m : MirrorRange) :
    Writer Unit := do
  let body ← Eff.ofExcept (checkedSub diff.length ntrailing)
  Eff.ofExcept (assert (body % 4 == 0) "(diff.len() - ntrailing) % 4 == 0")
  let nblocks := body / 4
  let check pos start stop : Res Unit :=
    if stop ≤ start ∨ size / 4 < stop ∨ 4 * nblocks < pos + 8 + 4 * (stop - start) then
      fail "Copy interval invalid"
    else .ok ()
  let write start bytes : Writer Unit := do
    m.copy start bytes
    store m.sfd false start bytes
  applySpans diff (4 * nblocks) check write diff.length 0
  if 0 < ntrailing then
    let offset ← Eff.ofExcept (checkedSub size ntrailing)
    let tail ← Eff.ofExcept (slice diff (nblocks * 4) (nblocks * 4 + ntrailing))
    tail.zipIdx.forM fun e => do
      store m.sfd false (offset + e.2) [e.1]
      m.copy (offset + e.2) [e.1]

/-- Apply a diff to a mirror alone. -/
def applyDiffOne (ntrailing : Nat) (m : MirrorRange) : Writer Unit := do
  let body ← Eff.ofExcept (checkedSub diff.length ntrailing)
  Eff.ofExcept (assert (body % 4 == 0) "(diff.len() - ntrailing) % 4 == 0")
  let nblocks := body / 4
  let bufEnd := m.start + m.len
  let check pos start stop : Res Unit :=
    if stop ≤ start ∨ bufEnd < stop ∨ 4 * nblocks < pos + 4 * (stop - start) then
      let lo := m.start / 4
      let hi := bufEnd / 4
      let left := nblocks - pos / 4
      fail (s!"copy interval invalid: pos {pos} segment [{start},{stop}) " ++
        s!"mirror range [{lo},{hi}) remaining {left}")
    else .ok ()
  applySpans diff (4 * nblocks) check m.copy diff.length 0
  if 0 < ntrailing then
    let offset ← Eff.ofExcept (checkedSub m.len ntrailing)
    let tail ← Eff.ofExcept (slice diff (nblocks * 4) (nblocks * 4 + ntrailing))
    m.copy (m.start + offset) tail

/-- Copy to a file of `size` bytes; the bounds are checked byte by byte. -/
def copyOntoMapping (src : List UInt8) (sfd : SfdRef) (size start : Nat) : Writer Unit :=
  src.zipIdx.forM fun e => do
    Eff.ofExcept (assert (decide (start + e.2 < size)) "index out of bounds")
    store sfd false (start + e.2) [e.1]

/-! ## The tasks -/

/-- The outcomes of a task that has been applied. -/
inductive TaskOutput where
  | applyDone (remoteId : Rid)
  | mirrorApply
  deriving DecidableEq, Repr

namespace TaskSet

/-- The file or mirror of an update.  What is done with a DMABUF on the GPU is not modelled. -/
def applyTarget (task : DecompTask) : Res ApplyTaskTarget :=
  match task.target with
  | .file sfd skipMirror => .ok (.shm sfd task.fileSize skipMirror)
  | .mirrorOnly sfd notifyOnCompletion => .ok (.mirrorOnly sfd task.fileSize notifyOnCompletion)
  | .dmabuf _ _ => fail "Not a file or mirror"

/-- `run_decomp_task` for a file or a mirror. -/
def runDecompTask (c : Codec) (sequence : Nat) (task : DecompTask) : Res ApplyTask := do
  let msg := task.msgView
  let header ← readU32 msg 0
  let (len, t) ← orPanic (parseWmsgHeader header) UNWRAP_NONE
  let remoteId ← readI32 msg 4
  let target ← applyTarget task
  match t with
  | .bufferDiff =>
    let diffSize ← readU32 msg 8
    let ntrailing ← readU32 msg 12
    let data ← c.decompIntoVec task.compression (← slice msg 16 len) (diffSize + ntrailing)
    let (regionStart, regionEnd) ← computeDiffSpan data ntrailing task.fileSize
    return {
      sequence
      remoteId
      data
      isDiffType := true
      ntrailing
      target
      regionStart
      regionEnd }
  | .bufferFill =>
    let regionStart ← readU32 msg 8
    let regionEnd ← readU32 msg 12
    if regionEnd ≤ regionStart then fail s!"Invalid region: {regionStart} {regionEnd}"
    else
      let data ← c.decompIntoVec task.compression (← slice msg 16 len) (regionEnd - regionStart)
      return {
        sequence
        remoteId
        data
        isDiffType := false
        ntrailing := 0
        target
        regionStart
        regionEnd }
  | _ => .error (.panic UNREACHABLE)

/-- `copy_from_slice` on the whole of a part of a mirror. -/
def copyFromSlice (m : MirrorRange) (data : List UInt8) : Writer Unit := do
  Eff.ofExcept (assert (data.length == m.len)
    "copy_from_slice: source slice length does not match destination slice length")
  m.copy m.start data

/-- The writes of a task for a mirror. -/
def applyToMirror (task : ApplyTask) (sfd : SfdRef) (len : Nat) : Writer Unit := do
  let lo := task.regionStart
  let hi := task.regionEnd
  let v ← Eff.ofExcept (getMutRange sfd len lo hi
    s!"Failed to get mirror segment {lo}..{hi} from mirror of length {len}")
  if task.isDiffType then applyDiffOne task.data task.ntrailing v
  else copyFromSlice v task.data

/-- The writes of a task for a file. -/
def applyToFile (task : ApplyTask) (sfd : SfdRef) (len : Nat) (skipMirror : Bool) : Writer Unit :=
  let lo := task.regionStart
  let hi := task.regionEnd
  let range : Writer MirrorRange := Eff.ofExcept (getMutRange sfd len lo hi
    s!"Failed to acquire mirror range {lo}..{hi} when applying")
  if task.isDiffType then do applyDiff task.data task.ntrailing len (← range)
  else do
    copyOntoMapping task.data sfd len lo
    if skipMirror then pure () else copyFromSlice (← range) task.data

/-- `run_apply_task` for a file or a mirror. -/
def runApplyTask (task : ApplyTask) : Writer TaskOutput :=
  match task.target with
  | .mirrorOnly sfd len notifyOnCompletion => do
    applyToMirror task sfd len
    return if notifyOnCompletion then .applyDone task.remoteId else .mirrorApply
  | .shm sfd len skipMirror => do
    applyToFile task sfd len skipMirror
    return .applyDone task.remoteId
  | .dmabuf _ _ _ _ => Eff.ofExcept (fail "Not a file or mirror")

theorem runDecompTask_sequence {c : Codec} {q : Nat} {t : DecompTask} {a : ApplyTask}
    (h : runDecompTask c q t = .ok a) : a.sequence = q := by
  unfold runDecompTask at h
  obtain ⟨header, -, h⟩ := Res.bind_eq_ok.mp h
  obtain ⟨⟨len, typ⟩, -, h⟩ := Res.bind_eq_ok.mp h
  obtain ⟨rid, -, h⟩ := Res.bind_eq_ok.mp h
  obtain ⟨target, -, h⟩ := Res.bind_eq_ok.mp h
  cases typ with
  | bufferDiff =>
    obtain ⟨diffSize, -, h⟩ := Res.bind_eq_ok.mp h
    obtain ⟨ntrailing, -, h⟩ := Res.bind_eq_ok.mp h
    obtain ⟨src, -, h⟩ := Res.bind_eq_ok.mp h
    obtain ⟨data, -, h⟩ := Res.bind_eq_ok.mp h
    obtain ⟨region, -, h⟩ := Res.bind_eq_ok.mp h
    cases h
    rfl
  | bufferFill =>
    obtain ⟨regionStart, -, h⟩ := Res.bind_eq_ok.mp h
    obtain ⟨regionEnd, -, h⟩ := Res.bind_eq_ok.mp h
    split at h
    · cases h
    · obtain ⟨src, -, h⟩ := Res.bind_eq_ok.mp h
      obtain ⟨data, -, h⟩ := Res.bind_eq_ok.mp h
      cases h
      rfl
  | _ => cases h

end TaskSet

/-! ## Where a task writes -/

section Inside

variable {lo hi : Nat} {α β : Type}

/-- The writes that have been added lie in `[lo, hi)`. -/
def AddsIn (lo hi : Nat) (before after : List (Loc × UInt8)) : Prop :=
  ∀ w ∈ after, w ∈ before ∨ lo ≤ w.1.offset ∧ w.1.offset < hi

theorem AddsIn.rfl (s : List (Loc × UInt8)) : AddsIn lo hi s s := fun _ hw => .inl hw

theorem AddsIn.trans (s t u : List (Loc × UInt8)) (hst : AddsIn lo hi s t) (htu : AddsIn lo hi t u) :
    AddsIn lo hi s u := by
  intro w hw
  rcases htu w hw with hw | hw
  · exact hst w hw
  · exact .inr hw

/-- All writes of a computation lie in `[lo, hi)`. -/
def WritesIn (lo hi : Nat) (m : Writer α) : Prop := Eff.Always (AddsIn lo hi) m

namespace WritesIn

theorem pure (a : α) : WritesIn lo hi (Pure.pure a : Writer α) := Eff.Always.pure AddsIn.rfl a

theorem ofExcept (x : Res α) : WritesIn lo hi (Eff.ofExcept x : Writer α) := fun s => AddsIn.rfl s

theorem bind {m : Writer α} {f : α → Writer β} (hm : WritesIn lo hi m)
    (hf : ∀ a, WritesIn lo hi (f a)) : WritesIn lo hi (m >>= f) :=
  Eff.Always.bind AddsIn.trans hm hf

theorem ofExcept_bind {x : Res α} {f : α → Writer β} (hf : ∀ a, x = .ok a → WritesIn lo hi (f a)) :
    WritesIn lo hi (Eff.ofExcept x >>= f) :=
  Eff.Always.ofExcept_bind AddsIn.rfl hf

theorem forM {γ : Type} {f : γ → Writer PUnit} (l : List γ) (hf : ∀ c ∈ l, WritesIn lo hi (f c)) :
    WritesIn lo hi (l.forM f) :=
  Eff.Always.forM AddsIn.rfl AddsIn.trans l hf

theorem store (sfd : SfdRef) (inMirror : Bool) {start : Nat} {bytes : List UInt8} (hlo : lo ≤ start)
    (hhi : start + bytes.length ≤ hi) : WritesIn lo hi (Waypipe.store sfd inMirror start bytes) := by
  intro s w hw
  rcases List.mem_append.mp hw with hw | hw
  · exact .inl hw
  · right
    obtain ⟨⟨b, i⟩, he, rfl⟩ := List.mem_map.mp hw
    have hlt := (List.mem_zipIdx he).2.1
    dsimp only
    omega

end WritesIn

variable {m : MirrorRange}

theorem checkedSub_eq_ok {a b c : Nat} (h : checkedSub a b = .ok c) : b ≤ a ∧ c = a - b := by
  unfold checkedSub at h
  split at h
  · next hle =>
    cases h
    exact ⟨hle, rfl⟩
  · cases h

/-- Bytes that are copied to a part of a mirror, and then elsewhere, are in the bounds. -/
theorem writesIn_copy_bind (start : Nat) (bytes : List UInt8) {f : Unit → Writer β}
    (hf : m.start ≤ start → start + bytes.length ≤ m.start + m.len →
      WritesIn m.start (m.start + m.len) (f ())) :
    WritesIn m.start (m.start + m.len) (m.copy start bytes >>= f) := by
  unfold MirrorRange.copy
  rw [bind_assoc]
  refine .ofExcept_bind fun first hfirst => ?_
  obtain ⟨hle, rfl⟩ := checkedSub_eq_ok hfirst
  rw [bind_assoc]
  refine .ofExcept_bind fun _ hlen => ?_
  have hlen := of_decide_eq_true (assert_eq_ok.mp hlen)
  exact .bind (.store m.sfd true hle (by omega)) fun _ => hf hle (by omega)

theorem writesIn_copy (start : Nat) (bytes : List UInt8) :
    WritesIn m.start (m.start + m.len) (m.copy start bytes) := by
  rw [← bind_pure (m.copy start bytes)]
  exact writesIn_copy_bind start bytes fun _ _ => .pure ()

theorem writesIn_applySpans {diff : List UInt8} {limit : Nat} {check : Nat → Nat → Nat → Res Unit}
    {write : Nat → List UInt8 → Writer Unit} (hwrite : ∀ start bytes, WritesIn lo hi (write start bytes))
    (rounds pos : Nat) : WritesIn lo hi (applySpans diff limit check write rounds pos) := by
  induction rounds generalizing pos with
  | zero => exact .pure ()
  | succ rounds ih =>
    unfold applySpans
    split
    · refine .ofExcept_bind fun start _ => .ofExcept_bind fun stop _ => ?_
      refine .ofExcept_bind fun _ _ => .ofExcept_bind fun bytes _ => ?_
      exact .bind (hwrite _ _) fun _ => ih _
    · exact .pure ()

theorem writesIn_applyDiff {ntrailing size : Nat}
    (htail : 0 < ntrailing → m.start ≤ size - ntrailing ∧ size ≤ m.start + m.len) :
    WritesIn m.start (m.start + m.len) (applyDiff diff ntrailing size m) := by
  unfold applyDiff
  refine .ofExcept_bind fun body _ => .ofExcept_bind fun _ _ => ?_
  refine .bind (writesIn_applySpans (fun start bytes => ?_) _ _) fun _ => ?_
  · refine writesIn_copy_bind start bytes fun hlo hhi => ?_
    exact .store m.sfd false hlo hhi
  · split
    · next hpos =>
      obtain ⟨hlo, hhi⟩ := htail hpos
      refine .ofExcept_bind fun offset hoffset => .ofExcept_bind fun tail htail => ?_
      obtain ⟨hle, rfl⟩ := checkedSub_eq_ok hoffset
      have hlen : tail.length ≤ ntrailing := by
        unfold slice at htail
        split at htail
        · cases htail
          rw [List.length_take]
          omega
        · cases htail
      refine .forM _ fun e he => ?_
      have hlt := (List.mem_zipIdx he).2.1
      refine .bind (.store m.sfd false (by omega) ?_) fun _ => writesIn_copy _ _
      rw [List.length_singleton]
      omega
    · exact .pure ()

theorem writesIn_applyDiffOne (ntrailing : Nat) :
    WritesIn m.start (m.start + m.len) (applyDiffOne diff ntrailing m) := by
  unfold applyDiffOne
  refine .ofExcept_bind fun body _ => .ofExcept_bind fun _ _ => ?_
  refine .bind (writesIn_applySpans writesIn_copy _ _) fun _ => ?_
  split
  · exact .ofExcept_bind fun offset _ => .ofExcept_bind fun tail _ => writesIn_copy _ _
  · exact .pure ()

theorem writesIn_copyOntoMapping {src : List UInt8} (sfd : SfdRef) (size : Nat) {start : Nat}
    (hlo : lo ≤ start) (hhi : start + src.length ≤ hi) :
    WritesIn lo hi (copyOntoMapping src sfd size start) := by
  refine .forM _ fun e he => ?_
  have hlt := (List.mem_zipIdx he).2.1
  refine .ofExcept_bind fun _ _ => .store sfd false (by omega) ?_
  rw [List.length_singleton]
  omega

theorem writesIn_getMutRange_bind {sfd : SfdRef} {size : Nat} {failure : String}
    {f : MirrorRange → Writer β}
    (hf : ∀ m, m.start = lo → m.start + m.len = hi → WritesIn m.start (m.start + m.len) (f m)) :
    WritesIn lo hi (Eff.ofExcept (getMutRange sfd size lo hi failure) >>= f) := by
  refine .ofExcept_bind fun m hm => ?_
  unfold getMutRange at hm
  split at hm
  · cases hm
  · next hbounds =>
    cases hm
    have hend : lo + (hi - lo) = hi := by omega
    have h := hf { sfd, start := lo, len := hi - lo } rfl hend
    rwa [hend] at h

theorem writesIn_copyFromSlice (data : List UInt8) :
    WritesIn m.start (m.start + m.len) (copyFromSlice m data) :=
  .ofExcept_bind fun _ _ => writesIn_copy _ _

end Inside

/-- The length of the file or mirror that a task writes to. -/
def ApplyTaskTarget.size : ApplyTaskTarget → Nat
  | .dmabuf _ _ _ _ => 0
  | .shm _ len _ => len
  | .mirrorOnly _ len _ => len

/-- A task whose data fits its region: a fill has the length of the region, and the trailing bytes
of a diff belong to it. -/
structure TaskSet.ApplyTask.Fits (a : TaskSet.ApplyTask) : Prop where
  fill : a.isDiffType = false → a.regionStart + a.data.length ≤ a.regionEnd
  diff : a.isDiffType = true → 0 < a.ntrailing →
    a.regionStart ≤ a.target.size - a.ntrailing ∧ a.target.size ≤ a.regionEnd

theorem TaskSet.writesIn_applyToMirror (a : TaskSet.ApplyTask) (sfd : SfdRef) (len : Nat) :
    WritesIn a.regionStart a.regionEnd (applyToMirror a sfd len) := by
  unfold applyToMirror
  refine writesIn_getMutRange_bind fun m _ _ => ?_
  split
  · exact writesIn_applyDiffOne _ _
  · exact writesIn_copyFromSlice _

theorem TaskSet.writesIn_applyToFile {a : TaskSet.ApplyTask} (h : a.Fits) {sfd : SfdRef} {len : Nat}
    {skipMirror : Bool} (htarget : a.target.size = len) :
    WritesIn a.regionStart a.regionEnd (applyToFile a sfd len skipMirror) := by
  unfold applyToFile
  split
  · next hdiff =>
    refine writesIn_getMutRange_bind fun m hstart hend => ?_
    refine writesIn_applyDiff _ fun hpos => ?_
    obtain ⟨hlo, hhi⟩ := h.diff hdiff hpos
    omega
  · next hfill =>
    have hlen := h.fill (by simpa using hfill)
    refine .bind (writesIn_copyOntoMapping sfd len (Nat.le_refl _) hlen) fun _ => ?_
    split
    · exact .pure _
    · exact writesIn_getMutRange_bind fun m _ _ => writesIn_copyFromSlice _

/-- Such a task only writes inside its region. -/
theorem TaskSet.ApplyTask.Fits.writesIn {a : TaskSet.ApplyTask} (h : a.Fits) :
    WritesIn a.regionStart a.regionEnd (runApplyTask a) := by
  unfold runApplyTask
  split
  · exact .bind (writesIn_applyToMirror a _ _) fun _ => .pure _
  · next sfd len skipMirror htarget =>
    exact .bind (writesIn_applyToFile h (by rw [htarget]; rfl)) fun _ => .pure _
  · exact .ofExcept _

/-- The work of the worker threads on files and mirrors. -/
def shmWork (c : Codec) : Work where
  decompress := TaskSet.runDecompTask c
  writes a := (Eff.exec (TaskSet.runApplyTask a) []).2
  sequence_eq _ _ _ h := TaskSet.runDecompTask_sequence h

theorem shmWork_inside {c : Codec} {t : DecompTask}
    (h : ∀ q a, runDecompTask c q t = .ok a → a.Fits) : (shmWork c).Inside t := by
  intro q a ha w hw
  rcases (h q a ha).writesIn [] w hw with hw | hw
  · cases hw
  · exact hw

end Waypipe
