import Waypipe.DiffRoundTrip
import Waypipe.Shards

/-!
# Filling whole buffers

The contents of a read-only file, and those of a DMABUF when it is damaged for the first time, are
sent in `BufferFill` messages, one for each shard.  The ranges of the shards partition a file
(`constructFillTransfers_eq`), and the receiver has all of the contents when it has applied them.  A
DMABUF of less than 64 bytes gets no shard at all, and so its contents are never sent.
-/

namespace Waypipe

open Intervals LeBytes Patch Writes Eff TaskSet List

/-! ## The ranges -/

/-- The bytes that shard `i` of a buffer of `size` bytes has. -/
def fillRange (size nshards i : Nat) : Nat × Nat :=
  (64 * (i * (size / 64) / nshards),
    64 * ((i + 1) * (size / 64) / nshards) + if i = nshards - 1 then size % 64 else 0)

def fillRanges (size nshards : Nat) : List (Nat × Nat) :=
  (range nshards).map (fillRange size nshards)

section ranges

variable {size nshards : Nat}

theorem fillRanges_consecutive_from (hsteps : ∀ i, i + 1 < nshards →
      i * (size / 64) / nshards < (i + 1) * (size / 64) / nshards)
    (hlast : 64 * ((nshards - 1) * (size / 64) / nshards) < size) (m : Nat) {k : Nat}
    (hk : k + (m + 1) = nshards) :
    Consecutive (64 * (k * (size / 64) / nshards)) size
      ((range' k (m + 1)).map (fillRange size nshards)) := by
  induction m generalizing k with
  | zero =>
    have hk' : k = nshards - 1 := by omega
    have hend : (k + 1) * (size / 64) / nshards = size / 64 := by
      rw [show k + 1 = nshards by omega, Nat.mul_div_cancel_left _ (by omega)]
    have hrange : fillRange size nshards k = (64 * (k * (size / 64) / nshards), size) := by
      unfold fillRange
      rw [hend, if_pos hk', Nat.div_add_mod]
    show Consecutive _ _ [fillRange size nshards k]
    rw [hrange]
    exact ⟨rfl, hk' ▸ hlast, rfl⟩
  | succ m ih =>
    have hrange : fillRange size nshards k =
        (64 * (k * (size / 64) / nshards), 64 * ((k + 1) * (size / 64) / nshards)) := by
      unfold fillRange
      rw [if_neg (by omega), Nat.add_zero]
    rw [range'_succ, map_cons, hrange]
    refine ⟨rfl, Nat.mul_lt_mul_of_pos_left (hsteps k (by omega)) (by decide), ih (by omega)⟩

/-- With the right number of shards, the ranges partition the buffer. -/
theorem fillRanges_consecutive (hsize : 64 ≤ size) :
    Consecutive 0 size (fillRanges size (shardCount (size / 64))) := by
  have hlen : 0 < size / 64 := by omega
  have hpos := shardCount_pos hlen
  obtain ⟨m, hm⟩ : ∃ m, m + 1 = shardCount (size / 64) := ⟨shardCount (size / 64) - 1, by omega⟩
  have hlast : (shardCount (size / 64) - 1) * (size / 64) / shardCount (size / 64) < size / 64 := by
    have := (shard_bounds hlen (shardCount (size / 64) - 1)).1
    rwa [show shardCount (size / 64) - 1 + 1 = shardCount (size / 64) by omega,
      last_boundary hlen] at this
  have h := fillRanges_consecutive_from (fun i _ => (shard_bounds hlen i).1) (by omega) m
    (k := 0) (by omega)
  rw [Nat.zero_mul, Nat.zero_div, Nat.mul_zero, hm, ← range_eq_range'] at h
  exact h

/-- Without a whole chunk, one shard has the bytes that there are. -/
theorem fillRanges_one (hsize : 1 ≤ size) (hsmall : size < 64) :
    Consecutive 0 size (fillRanges size 1) := by
  have hdiv : size / 64 = 0 := by omega
  have h := @fillRanges_consecutive_from size 1 (fun i hi => by omega) (by simp [hdiv]; omega) 0 0 rfl
  simpa [hdiv, fillRanges] using h

/-- No range is much longer than a shard should be. -/
theorem fillRange_short (i : Nat) :
    (fillRange size (shardCount (size / 64)) i).2 - (fillRange size (shardCount (size / 64)) i).1
      < 2 ^ 26 := by
  unfold fillRange
  by_cases hlen : 0 < size / 64
  · have := shard_bounds hlen i
    dsimp only
    split <;> omega
  · have hzero : size / 64 = 0 := by omega
    simp only [hzero, Nat.mul_zero, Nat.zero_div]
    split <;> omega

end ranges

/-! ## The messages -/

variable (env : CollectEnv)

/-- The compressed contents of a shard fit in a message. -/
def CollectEnv.Compresses : Prop :=
  ∀ src : List UInt8, src.length < 2 ^ 26 →
    16 + (env.codec.compress env.opts.compression src).length < 2 ^ 27

/-- The number of shards of a file: there is one even if there is no whole chunk. -/
def fileShards (size : Nat) : Nat :=
  if shardCount (size / 64) = 0 ∧ 0 < size % 64 then 1 else shardCount (size / 64)

/-- The message for a range of a buffer, as it is sent. -/
def fillVectors (rid : Rid) (contents : List UInt8) (r : Nat × Nat) :
    List (List UInt8) :=
  let compressed := env.codec.compress env.opts.compression (part contents r)
  [u32le ((16 + compressed.length) * 2 ^ 5 ||| WmsgType.bufferFill.code) ++ i32le rid ++ u32le r.1 ++
    u32le r.2, compressed] ++ padVectors compressed.length

section file

variable {env : CollectEnv} {size : Nat} {mapping : List UInt8}

theorem fileRanges_consecutive (hsize : 1 ≤ size) :
    Consecutive 0 size (fillRanges size (fileShards size)) := by
  unfold fileShards
  by_cases hsmall : size < 64
  · have hzero : shardCount (size / 64) = 0 := by
      rw [show size / 64 = 0 by omega]
      rfl
    rw [if_pos ⟨hzero, by omega⟩]
    exact fillRanges_one hsize hsmall
  · have hpos : 0 < shardCount (size / 64) := shardCount_pos (by omega)
    rw [if_neg (by omega)]
    exact fillRanges_consecutive (by omega)

theorem fileShards_bounds (hsize : 1 ≤ size) (hmax : size < 2 ^ 31) :
    0 < fileShards size ∧ fileShards size < 2 ^ 15 := by
  have := @shardCount_bounds (size / 64)
  unfold fileShards
  split <;> omega

theorem fileRange_short (i : Nat) :
    (fillRange size (fileShards size) i).2 - (fillRange size (fileShards size) i).1 < 2 ^ 26 := by
  unfold fileShards
  split
  · next h =>
    have := @shardCount_bounds (size / 64)
    have hzero : size / 64 = 0 := by omega
    unfold fillRange
    simp only [hzero, Nat.mul_zero, Nat.zero_div]
    split <;> omega
  · exact fillRange_short i

variable (henv : env.Compresses) (hsize : 1 ≤ size) (hmax : size < 2 ^ 31)
  (hmap : mapping.length = size) (rid : Rid) (s : Collecting)

include henv hsize hmax hmap

theorem exec_constructFillTransfer {i : Nat} (hi : i < fileShards size) :
    exec (constructFillTransfer env rid size (fileShards size) mapping i) s =
      exec (pushVectors (fillVectors env rid mapping (fillRange size (fileShards size) i))) s := by
  obtain ⟨hpos, hlt⟩ := fileShards_bounds hsize hmax
  have hmem : fillRange size (fileShards size) i ∈ fillRanges size (fileShards size) :=
    mem_map_of_mem (mem_range.mpr hi)
  obtain ⟨hne, hle⟩ := (fileRanges_consecutive hsize).mem _ hmem
  have hshort := @fileRange_short size i
  have hlength := @length_part (fillRange size (fileShards size) i) mapping (by omega)
  have hheader : 16 + (env.codec.compress env.opts.compression
      (part mapping (fillRange size (fileShards size) i))).length < 2 ^ 27 :=
    henv _ (by omega)
  unfold constructFillTransfer
  rw [splitInterval_eq hpos hlt (by omega), splitInterval_eq hpos hlt (by omega)]
  unfold fillRange at hne hle hheader
  unfold part at hheader
  show exec (liftRes (assert _ _) >>= _) s = _
  rw [assert_of (by simp only [decide_eq_true_eq]; omega)]
  show exec (liftRes (buildWmsgHeader _ _) >>= _) s = _
  unfold buildWmsgHeader
  rw [assert_of (decide_eq_true hheader)]
  rfl

/-- The queue gets the messages of all shards. -/
theorem constructFillTransfers_eq :
    exec (constructFillTransfers env rid size mapping) s =
      (.ok (), { s with queue := { s.queue with
        otherMessages := s.queue.otherMessages ++
          (fillRanges size (fileShards size)).flatMap (fillVectors env rid mapping) } }) := by
  have hloop := exec_forM (fun i hi s => exec_constructFillTransfer henv hsize hmax hmap rid s
    (mem_range.mp (hi : i ∈ range (fileShards size)))) s
  refine hloop.trans (congrArg _ ?_)
  clear hloop
  unfold fillRanges
  generalize range (fileShards size) = l
  induction l generalizing s with
  | nil => simp
  | cons i l ih =>
    rw [foldl_cons, ih, map_cons, flatMap_cons]
    simp only [append_assoc]

end file

/-! ## The receiver -/

/-- The file or mirror that a worker writes to. -/
def DecompTarget.buffer : DecompTarget → Option (SfdRef × Bool)
  | .file sfd _ => some (sfd, false)
  | .mirrorOnly sfd _ => some (sfd, true)
  | .dmabuf _ _ => none

/-- The update that a message brings to a buffer of `size` bytes. -/
def fillUpdate (size : Nat) (target : DecompTarget) (msg : List UInt8) :
    DecompTask where
  msgView := msg
  fileSize := size
  compression := env.opts.compression
  target

section receiver

variable {env : CollectEnv} {contents : List UInt8} {r : Nat × Nat} {target : DecompTarget}
  {sfd : SfdRef} {inMirror : Bool}

/-- The words and the data of a `BufferFill` message. -/
theorem runDecompTask_words {c : Codec} {comp : Compression} {size header start stop : Nat} {rid : Rid}
    {src pad data : List UInt8} {t : ApplyTaskTarget} (q : Nat) (hword : header < 2 ^ 32)
    (hparse : parseWmsgHeader header = some (16 + src.length, .bufferFill)) (hlt : start < stop)
    (hstop : stop < 2 ^ 32) (hdecomp : c.decompIntoVec comp src (stop - start) = .ok data)
    {msg : List UInt8}
    (hmsg : msg = u32le header ++ i32le rid ++ u32le start ++ u32le stop ++ src ++ pad)
    (ht : applyTarget ⟨msg, size, comp, target⟩ = .ok t) :
    runDecompTask c q ⟨msg, size, comp, target⟩ =
      .ok {
        sequence := q
        remoteId := toI32 (rid % 2 ^ 32).toNat
        data
        isDiffType := false
        ntrailing := 0
        target := t
        regionStart := start
        regionEnd := stop } := by
  have h₀ : readU32 msg 0 = .ok header := by
    have h := @readU32_append [] (i32le rid ++ u32le start ++ u32le stop ++ src ++ pad) header 0 rfl
      hword
    rw [hmsg]
    simpa only [nil_append, append_assoc] using h
  have h₄ : readI32 msg 4 = .ok (toI32 (rid % 2 ^ 32).toNat) := by
    have h := @readU32_append (u32le header) (u32le start ++ u32le stop ++ src ++ pad)
      (rid % 2 ^ 32).toNat 4 (by simp) (by omega)
    have hmsg' : msg = u32le header ++ u32le (rid % 2 ^ 32).toNat ++
        (u32le start ++ u32le stop ++ src ++ pad) := by
      rw [hmsg]
      simp only [append_assoc]
      rfl
    unfold readI32
    rw [hmsg', h]
    rfl
  have h₈ : readU32 msg 8 = .ok start := by
    have h := @readU32_append (u32le header ++ i32le rid) (u32le stop ++ src ++ pad) start 8 (by simp)
      (by omega)
    rw [hmsg]
    simpa only [append_assoc] using h
  have h₁₂ : readU32 msg 12 = .ok stop := by
    have h := @readU32_append (u32le header ++ i32le rid ++ u32le start) (src ++ pad) stop 12 (by simp)
      hstop
    rw [hmsg]
    simpa only [append_assoc] using h
  have hbody : slice msg 16 (16 + src.length) = .ok src := by
    rw [slice_of_le (by rw [hmsg]; simp; omega), hmsg, append_assoc, Nat.add_sub_cancel_left,
      drop_left' (by simp), take_left]
  unfold runDecompTask
  dsimp only
  rw [h₀, Res.ok_bind, hparse]
  show (readI32 msg 4 >>= _) = _
  rw [h₄, Res.ok_bind, ht, Res.ok_bind]
  dsimp only
  rw [h₈, Res.ok_bind, h₁₂, Res.ok_bind, if_neg (by omega), hbody, Res.ok_bind, hdecomp, Res.ok_bind]
  rfl

theorem exec_copyOntoMapping {src : List UInt8} {size start : Nat}
    (h : start + src.length ≤ size) (log : List (Loc × UInt8)) :
    exec (copyOntoMapping src sfd size start) log =
      (.ok (), log ++ writesAt sfd false start src) := by
  have hround : ∀ e ∈ src.zipIdx, ∀ log : List (Loc × UInt8), exec (do
      ofExcept (assert (decide (start + e.2 < size)) "index out of bounds")
      store sfd false (start + e.2) [e.1]) log =
        (.ok ⟨⟩, log ++ [({ sfd, inMirror := false, offset := start + e.2 }, e.1)]) := by
    intro e he log
    have hlt := (mem_zipIdx he).2.1
    rw [assert_of (decide_eq_true (by omega)), ofExcept_ok_bind]
    rfl
  refine (exec_forM hround log).trans (congrArg _ ?_)
  unfold writesAt
  clear hround
  generalize src.zipIdx = l
  induction l generalizing log with
  | nil => simp
  | cons e l ih => rw [foldl_cons, ih, map_cons, append_assoc, singleton_append]

theorem exec_copyFromSlice {m : MirrorRange} {data : List UInt8} (h : data.length = m.len)
    (log : List (Loc × UInt8)) :
    exec (copyFromSlice m data) log =
      (.ok (), log ++ writesAt m.sfd true m.start data) := by
  unfold copyFromSlice
  rw [assert_of (beq_iff_eq.mpr h), ofExcept_ok_bind, exec_copy le_rfl (by omega)]

theorem getMutRange_ok {size start stop : Nat} {failure : String} (hlt : start < stop)
    (hle : stop ≤ size) :
    getMutRange sfd size start stop failure = .ok { sfd, start, len := stop - start } :=
  if_neg (by omega)

section Task

variable {a : TaskSet.ApplyTask} {len : Nat} (hfill : a.isDiffType = false)
  (hlt : a.regionStart < a.regionEnd) (hle : a.regionEnd ≤ len)
  (hdata : a.data.length = a.regionEnd - a.regionStart) (log : List (Loc × UInt8))

include hfill hlt hle hdata

theorem exec_applyToMirror_fill :
    exec (applyToMirror a sfd len) log =
      (.ok (), log ++ writesAt sfd true a.regionStart a.data) := by
  unfold applyToMirror
  dsimp only
  rw [getMutRange_ok hlt hle, ofExcept_ok_bind, if_neg (by simp [hfill])]
  exact exec_copyFromSlice hdata log

theorem exec_applyToFile_fill {skipMirror : Bool} :
    exec (applyToFile a sfd len skipMirror) log =
      (.ok (), log ++ writesAt sfd false a.regionStart a.data ++
        if skipMirror then [] else writesAt sfd true a.regionStart a.data) := by
  unfold applyToFile
  rw [if_neg (by simp [hfill]), exec_bind, exec_copyOntoMapping (by omega)]
  cases skipMirror with
  | true => simp
  | false =>
    dsimp only
    rw [if_neg (by decide), getMutRange_ok hlt hle, ofExcept_ok_bind]
    exact exec_copyFromSlice hdata _

end Task

section Fill

variable (henv : env.Compresses) (hr : r.1 < r.2) (hle : r.2 ≤ contents.length)
  (hmax : contents.length < 2 ^ 31) (hshort : r.2 - r.1 < 2 ^ 26) (rid : Rid) (q : Nat)

include henv hr hle hmax hshort

/-- The task that the receiver makes of the message for a range. -/
theorem runDecompTask_fill {t : ApplyTaskTarget}
    (ht : applyTarget (fillUpdate env contents.length target
      (fillVectors env rid contents r).flatten) = .ok t) :
    runDecompTask env.codec q (fillUpdate env contents.length target
        (fillVectors env rid contents r).flatten) =
      .ok {
        sequence := q
        remoteId := toI32 (rid % 2 ^ 32).toNat
        data := part contents r
        isDiffType := false
        ntrailing := 0
        target := t
        regionStart := r.1
        regionEnd := r.2 } := by
  have hlength := length_part hle
  have hheader := henv (part contents r) (by omega)
  have hbuild : buildWmsgHeader .bufferFill
      (16 + (env.codec.compress env.opts.compression (part contents r)).length) =
        .ok ((16 + (env.codec.compress env.opts.compression (part contents r)).length) * 2 ^ 5 |||
          WmsgType.bufferFill.code) := by
    unfold buildWmsgHeader
    rw [assert_of (decide_eq_true hheader)]
    rfl
  have hword := (buildWmsgHeader_eq_ok hbuild).2
  have hcode : WmsgType.bufferFill.code < 32 := WmsgType.code_lt _
  have hmsg : (fillVectors env rid contents r).flatten =
      u32le ((16 + (env.codec.compress env.opts.compression (part contents r)).length) * 2 ^ 5 |||
        WmsgType.bufferFill.code) ++ i32le rid ++ u32le r.1 ++ u32le r.2 ++
      env.codec.compress env.opts.compression (part contents r) ++
        (padVectors (env.codec.compress env.opts.compression (part contents r)).length).flatten := by
    simp only [fillVectors, cons_append, nil_append, flatten_cons, append_assoc]
  refine runDecompTask_words q (by omega) (parseWmsgHeader_build hbuild) hr (by omega) ?_ hmsg ht
  rw [← hlength]
  exact env.codec.decompIntoVec_compress ..

/-- What a fill of a range writes to a file or mirror. -/
theorem contents_fill (hbuffer : target.buffer = some (sfd, inMirror)) (mem : Loc → UInt8) :
    ∃ a, (shmWork env.codec).decompress q (fillUpdate env contents.length target
        (fillVectors env rid contents r).flatten) = .ok a ∧
      Waypipe.contents (writeAll mem ((shmWork env.codec).writes a)) sfd inMirror =
        Segment.apply ⟨r.1, part contents r⟩ (Waypipe.contents mem sfd inMirror) := by
  have hlength := length_part hle
  cases target with
  | dmabuf dst stride => cases hbuffer
  | file f skipMirror =>
    cases hbuffer
    refine ⟨_, runDecompTask_fill henv hr hle hmax hshort rid q rfl, ?_⟩
    show Waypipe.contents (writeAll mem
      (exec (applyToFile _ sfd contents.length skipMirror >>= _) []).2) sfd false = _
    rw [exec_bind, exec_applyToFile_fill rfl hr hle hlength, nil_append]
    show Waypipe.contents (writeAll mem (_ ++ _)) sfd false = _
    rw [writeAll_append, ← contents_writesAt]
    cases skipMirror with
    | true => rfl
    | false => exact contents_writesAt_other _ (by simp) _ _
  | mirrorOnly f notify =>
    cases hbuffer
    refine ⟨_, runDecompTask_fill henv hr hle hmax hshort rid q rfl, ?_⟩
    show Waypipe.contents (writeAll mem
      (exec (applyToMirror _ sfd contents.length >>= _) []).2) sfd true = _
    rw [exec_bind, exec_applyToMirror_fill rfl hr hle hlength, nil_append]
    exact contents_writesAt ..

end Fill

/-- When consecutive ranges have been applied, the buffer has the contents between their ends. -/
theorem contents_fills (henv : env.Compresses) (hmax : contents.length < 2 ^ 31) (rid : Rid)
    (hbuffer : target.buffer = some (sfd, inMirror))
    {ranges : List (Nat × Nat)} {lo hi : Nat} (hranges : Consecutive lo hi ranges)
    (hhi : hi ≤ contents.length) (hshort : ∀ r ∈ ranges, r.2 - r.1 < 2 ^ 26) (q : Nat)
    (mem : Loc → UInt8) (x : Nat) :
    (shmWork env.codec).applyInOrder q (ranges.map fun r => fillUpdate env contents.length target
        (fillVectors env rid contents r).flatten) mem ⟨sfd, inMirror, x⟩ =
      if lo ≤ x ∧ x < hi then (contents[x]?).getD 0 else mem ⟨sfd, inMirror, x⟩ := by
  induction ranges generalizing q lo mem with
  | nil =>
    cases (hranges : lo = hi)
    rw [if_neg (by omega)]
    rfl
  | cons r ranges ih =>
    obtain ⟨rfl, hlt, hrest⟩ := hranges
    have hle := hrest.le
    obtain ⟨hfirst, hothers⟩ := forall_mem_cons.mp hshort
    obtain ⟨a, ha, hwrite⟩ := contents_fill henv hlt (hle.trans hhi) hmax hfirst rid q hbuffer mem
    have hlength := length_part (hle.trans hhi)
    rw [map_cons]
    unfold Work.applyInOrder
    rw [ha, ih hrest hothers]
    have hhere := congrFun hwrite x
    by_cases hlater : r.2 ≤ x ∧ x < hi
    · rw [if_pos hlater, if_pos (by omega)]
    · rw [if_neg hlater]
      refine hhere.trans ?_
      by_cases hin : r.1 ≤ x ∧ x < hi
      · rw [if_pos hin]
        unfold Segment.apply
        dsimp only
        rw [if_pos hin.1, part_getElem? r (by omega), Nat.add_sub_cancel' hin.1]
        have hx : x < contents.length := by omega
        rw [getElem?_eq_getElem hx]
        rfl
      · rw [if_neg hin]
        by_cases hbefore : x < r.1
        · exact Segment.apply_of_lt hbefore
        · exact Segment.apply_of_ge (by dsimp only; omega)

end receiver

/-! ## DMABUFs -/

/-- `run_dmabuf_fill_task_2`: update the mirror, and make the message for what was read. -/
def runDmabufFillTask2 (c : Codec) (task : FillDmabufTask) (mirror : Option (SfdRef × Nat))
    (data : List UInt8) : Writer (List UInt8) := do
  match mirror with
  | some (sfd, len) =>
    let range ← Eff.ofExcept (getMutRange sfd len task.regionStart task.regionEnd
      "failed to acquire mirror range")
    TaskSet.copyFromSlice range data
  | none => pure ()
  let compressed := c.compress task.compression data
  let header ← Eff.ofExcept (buildWmsgHeader .bufferFill (16 + compressed.length))
  return u32le header ++ i32le task.rid ++ u32le task.regionStart ++ u32le task.regionEnd ++
    (compressed ++ (padVectors compressed.length).flatten)

/-- A task that copies part of a DMABUF. -/
def WorkTask.fillTask : WorkTask → Option FillDmabufTask
  | .fillDmabuf t | .fillDmabuf2 t _ => some t
  | .diff _ | .diffDmabuf _ | .videoEncode _ _ => none

/-- The task for a range of a DMABUF. -/
def fillTaskOf (rid : Rid) (acquires : List (Nat × SfdRef)) (r : Nat × Nat) :
    FillDmabufTask where
  rid
  compression := env.opts.compression
  regionStart := r.1
  regionEnd := r.2
  acquires

/-- Tasks for the ranges of a DMABUF are queued, in order. -/
def QueuesFills (rid : Rid) (acquires : List (Nat × SfdRef)) (ranges : List (Nat × Nat))
    {α : Type} (run : CollectM α) (a : α) (s : Collecting) : Prop :=
  ∃ (t : Collecting) (tasks : List WorkTask), Eff.exec run s = (.ok a, t) ∧ t.tasks = s.tasks ++ tasks ∧
    tasks.map WorkTask.fillTask = ranges.map fun r => some (fillTaskOf env rid acquires r)

/-- The device does what it is asked for. -/
structure CollectEnv.Serves (env : CollectEnv) (data : ShadowFdDmabuf) : Prop where
  timelines : ∀ a ∈ data.acquires, env.isTimeline a.2 = true
  syncFile : ∃ b, env.exportSyncFile = .ok b
  semaphore : env.exportBinarySemaphore = .ok ()
  pixels : ∀ n, ∃ v, env.copyFromDmabuf n = .ok v
  -- a row of the image fits in the parameters that are sent
  row : data.buf.width * data.buf.bpp < 2 ^ 32

section dmabuf

variable {env : CollectEnv} {data : ShadowFdDmabuf} {rid : Rid} {syncFile : Bool}
  {acquires : List (Nat × SfdRef)} {copied : List UInt8} {n nshards : Nat} (henv : env.Serves data)
  (s : Collecting)

include henv

theorem CollectEnv.Serves.drained {data' : ShadowFdDmabuf} (hbuf : data'.buf = data.buf)
    (hacquires : data'.acquires = []) : env.Serves data' where
  timelines := by simp [hacquires]
  syncFile := henv.syncFile
  semaphore := henv.semaphore
  pixels := henv.pixels
  row := hbuf ▸ henv.row

theorem exec_importSemaphore : exec (importSemaphore env syncFile) s = (.ok (), s) := by
  unfold importSemaphore
  split
  · rw [henv.semaphore]
    rfl
  · rfl

/-- A shard becomes one task. -/
theorem exec_fillTaskFor {i : Nat} (hpos : 0 < nshards) (hlt : nshards < 2 ^ 15) (hn : n / 64 < 2 ^ 31) :
    ∃ t : WorkTask, t.fillTask = some (fillTaskOf env rid acquires (fillRange n nshards i)) ∧
      exec (fillTaskFor env rid data syncFile acquires copied n nshards i) s =
        exec (queueTask t) s := by
  unfold fillTaskFor
  rw [splitInterval_eq hpos hlt hn, splitInterval_eq hpos hlt hn]
  cases hbuf : data.buf with
  | vulkan w h b =>
    refine ⟨.fillDmabuf (fillTaskOf env rid acquires (fillRange n nshards i)), rfl, ?_⟩
    show exec (importSemaphore env syncFile >>= _) s = _
    rw [exec_bind, exec_importSemaphore henv]
    rfl
  | gbm w h b =>
    exact ⟨.fillDmabuf2 (fillTaskOf env rid acquires (fillRange n nshards i))
      (part copied (fillRange n nshards i)), rfl, rfl⟩

/-- The shards become tasks, in order. -/
theorem exec_fillTasks (hlt : nshards < 2 ^ 15) (hn : n / 64 < 2 ^ 31) {l : List Nat}
    (hl : ∀ i ∈ l, i < nshards) : QueuesFills env rid acquires (l.map (fillRange n nshards))
      (l.forM (fillTaskFor env rid data syncFile acquires copied n nshards)) () s := by
  induction l generalizing s with
  | nil => exact ⟨s, [], rfl, (append_nil _).symm, rfl⟩
  | cons i l ih =>
    obtain ⟨hi, hl⟩ := forall_mem_cons.mp hl
    obtain ⟨task, htask, hexec⟩ :=
      @exec_fillTaskFor env data rid syncFile acquires copied n nshards henv s i
      (by omega) hlt hn
    obtain ⟨t, tasks, hrun, htasks, hregions⟩ := ih (exec (queueTask task) s).2 hl
    refine ⟨t, task :: tasks, ?_, ?_, ?_⟩
    · show exec (fillTaskFor env rid data syncFile acquires copied n nshards i >>= fun _ =>
        l.forM _) s = _
      rw [exec_bind, hexec]
      exact hrun
    · rw [htasks]
      exact append_assoc ..
    · rw [map_cons, map_cons, map_cons, htask, hregions]

theorem exec_openDmabuf (hvideo : data.videoEncode = false) (onlyHere : Bool) :
    ∃ t, exec (openDmabuf env rid onlyHere data) s = (.ok (), t) ∧ t.tasks = s.tasks := by
  cases onlyHere with
  | false => exact ⟨s, rfl, rfl⟩
  | true =>
    have hslice : ∃ v, dmabufSliceMakeIdeal data.drmFormat data.buf.width data.buf.height
        data.buf.bpp = .ok v := by
      unfold dmabufSliceMakeIdeal
      rw [assert_of (decide_eq_true henv.row)]
      exact ⟨_, rfl⟩
    obtain ⟨v, hv⟩ := hslice
    obtain ⟨header, hheader⟩ := @buildWmsgHeader_ok .openDMABUF (12 + v.length) (by
      rw [length_dmabufSliceMakeIdeal hv]
      decide)
    have hmsg : exec (openDmabufMsg env rid data) s = exec (pushVectors [u32le header ++
        (i32le rid ++ u32le (data.buf.nominalSize data.viewRowStride)), v]) s := by
      unfold openDmabufMsg
      rw [hv, hvideo]
      show exec (liftRes (buildWmsgHeader .openDMABUF (12 + v.length)) >>= _) s = _
      rw [hheader]
      rfl
    unfold openDmabuf
    rw [if_pos rfl, exec_bind, hmsg]
    exact ⟨_, rfl, rfl⟩

theorem exec_drainAcquires : exec (drainAcquires env data) s = (.ok data.acquires, s) := by
  unfold drainAcquires
  rw [if_pos (all_eq_true.mpr henv.timelines)]
  rfl

theorem dmabufSetupImplicitSync_ok : ∃ p, dmabufSetupImplicitSync env data = .ok p := by
  obtain ⟨b, hb⟩ := henv.syncFile
  unfold dmabufSetupImplicitSync
  rw [hb]
  split
  · split
    · split
      · exact ⟨_, rfl⟩
      · cases b with
        | true => exact ⟨_, rfl⟩
        | false => exact ⟨_, rfl⟩
    · exact ⟨_, rfl⟩
  · exact ⟨_, rfl⟩

theorem exec_readPixels {data' : ShadowFdDmabuf} (n : Nat) :
    ∃ copied, exec (readPixels env data' n) s = (.ok copied, s) := by
  unfold readPixels
  split
  · obtain ⟨v, hv⟩ := henv.pixels n
    rw [hv]
    exact ⟨v, rfl⟩
  · exact ⟨[], rfl⟩

/-- Filling a buffer queues a task for each shard. -/
theorem exec_queueFill (hacquires : data.acquires = []) (hn : n < 2 ^ 31) :
    QueuesFills env rid acquires (fillRanges n (shardCount (n / 64)))
      (queueFill env rid data syncFile acquires copied n) () s := by
  have hcount := @shardCount_bounds (n / 64)
  let filled : ShadowFdDmabuf :=
    { data with firstDamage := false, mirror := some (data.mirror.getD n) }
  obtain ⟨t, tasks, hrun, htasks, hregions⟩ := @exec_fillTasks env filled rid syncFile acquires copied n
    (shardCount (n / 64)) (henv.drained rfl hacquires) (exec (setDmabuf filled) s).2 (by omega)
    (by omega) (range (shardCount (n / 64))) (fun i hi => mem_range.mp hi)
  refine ⟨(exec (setDmabuf { filled with damage := .intervals [] }) t).2, tasks, ?_, htasks, hregions⟩
  unfold queueFill
  show exec ((range (shardCount (n / 64))).forM (fillTaskFor env rid filled syncFile
    acquires copied n (shardCount (n / 64))) >>= _) (exec (setDmabuf filled) s).2 = _
  rw [exec_bind, hrun]
  rfl

variable (hfirst : data.firstDamage = true) (hsize : data.buf.nominalSize data.viewRowStride = n)
  (hdamaged : data.damage.toIntervals n ≠ []) (hn : n < 2 ^ 31)

include hfirst hsize hdamaged hn

/-- The first damage of a buffer leads to a task for each shard. -/
theorem exec_collectPixels : QueuesFills env rid data.acquires (fillRanges n (shardCount (n / 64)))
    (collectPixels env rid data) true s := by
  obtain ⟨p, hp⟩ := dmabufSetupImplicitSync_ok henv
  -- what is known about the buffer when its pixels are read, and the state then
  let read : ShadowFdDmabuf := { data with acquires := [], usingImplicitSync := false }
  let u := (exec (setDmabuf read) (exec (setDmabuf { data with acquires := [] }) s).2).2
  have hread : env.Serves read := henv.drained rfl rfl
  obtain ⟨copied, hcopied⟩ := exec_readPixels hread u n
  obtain ⟨t, tasks, hrun, htasks, hregions⟩ :=
    @exec_queueFill env read rid p.1 data.acquires copied n hread u rfl hn
  refine ⟨t, tasks, ?_, htasks, hregions⟩
  unfold collectPixels
  dsimp only
  rw [hsize, if_neg (by simpa using hdamaged), exec_bind, exec_drainAcquires henv, hp]
  show exec (readPixels env read n >>= _) u = _
  rw [exec_bind, hcopied]
  dsimp only
  rw [if_pos (by simp [hfirst])]
  show exec (queueFill env rid read p.1 data.acquires copied n >>= _) u = _
  rw [exec_bind, hrun]
  rfl

/-- The same for `collect_updates`, which may have to announce the buffer first. -/
theorem exec_collectUpdates_dmabuf (hvideo : data.videoEncode = false)
    (hdata : s.sfd.data = .dmabuf data) :
    QueuesFills env s.sfd.remoteId data.acquires (fillRanges n (shardCount (n / 64)))
      (collectUpdates env) true s := by
  obtain ⟨u, hopen, hu⟩ := @exec_openDmabuf env data s.sfd.remoteId henv s hvideo s.sfd.onlyHere
  obtain ⟨t, tasks, hrun, htasks, hregions⟩ :=
    @exec_collectPixels env data s.sfd.remoteId n henv u hfirst hsize hdamaged hn
  refine ⟨t, tasks, ?_, hu ▸ htasks, hregions⟩
  have hcollect : exec (collectUpdates env) s =
      exec (collectDmabuf env s.sfd.remoteId s.sfd.onlyHere data) s := by
    unfold collectUpdates
    rw [exec_bind, exec_get]
    dsimp only
    rw [hdata]
  rw [hcollect]
  unfold collectDmabuf
  rw [hvideo]
  dsimp only
  rw [exec_bind, hopen]
  exact hrun

end dmabuf

/-- What is read from the device for a range is sent, and kept in the mirror. -/
theorem exec_runDmabufFillTask2 {env : CollectEnv} (henv : env.Compresses) {pixels : List UInt8}
    {r : Nat × Nat}
    (hr : r.1 < r.2) (hle : r.2 ≤ pixels.length) (hshort : r.2 - r.1 < 2 ^ 26) (rid : Rid)
    (acquires : List (Nat × SfdRef)) (sfd : SfdRef) (log : List (Loc × UInt8)) :
    exec (runDmabufFillTask2 env.codec (fillTaskOf env rid acquires r) (some (sfd, pixels.length))
        (part pixels r)) log =
      (.ok (fillVectors env rid pixels r).flatten, log ++ writesAt sfd true r.1 (part pixels r)) := by
  have hlength := length_part hle
  have hheader := henv (part pixels r) (by omega)
  unfold runDmabufFillTask2
  dsimp only [fillTaskOf]
  rw [getMutRange_ok hr hle, ofExcept_ok_bind, exec_bind, exec_copyFromSlice hlength]
  unfold buildWmsgHeader
  dsimp only
  rw [assert_of (decide_eq_true hheader)]
  refine congrArg (fun msg => (Except.ok msg, _)) ?_
  simp only [fillVectors, cons_append, nil_append, flatten_cons, append_assoc]

/-! ## Partition -/

/-- The receiver has the contents when it has applied the messages for the ranges. -/
def FillsReceived (rid : Rid) (contents : List UInt8)
    (ranges : List (Nat × Nat)) : Prop :=
  ∀ (target : DecompTarget) (sfd : SfdRef) (inMirror : Bool),
    target.buffer = some (sfd, inMirror) → ∀ (mem : Loc → UInt8) (x : Nat), x < contents.length →
      (shmWork env.codec).applyInOrder 0 (ranges.map fun r => fillUpdate env contents.length target
        (fillVectors env rid contents r).flatten) mem ⟨sfd, inMirror, x⟩ = (contents[x]?).getD 0

theorem fillsReceived {env : CollectEnv} (henv : env.Compresses) {contents : List UInt8}
    (hmax : contents.length < 2 ^ 31) {ranges : List (Nat × Nat)}
    (hranges : Consecutive 0 contents.length ranges) (hshort : ∀ r ∈ ranges, r.2 - r.1 < 2 ^ 26)
    (rid : Rid) : FillsReceived env rid contents ranges := by
  intro target sfd inMirror hbuffer mem x hx
  rw [contents_fills henv hmax rid hbuffer hranges le_rfl hshort, if_pos ⟨Nat.zero_le _, hx⟩]

theorem fillRanges_short {size nshards : Nat}
    (h : ∀ i, (fillRange size nshards i).2 - (fillRange size nshards i).1 < 2 ^ 26) :
    ∀ r ∈ fillRanges size nshards, r.2 - r.1 < 2 ^ 26 := by
  intro r hr
  obtain ⟨i, -, rfl⟩ := mem_map.mp hr
  exact h i

/-- The fills of a file partition it, whatever its size.  Those of a DMABUF do so when it has at
least one whole chunk, and otherwise there is none. -/
theorem fills_partition {env : CollectEnv} (henv : env.Compresses) {n : Nat} (hn : 1 ≤ n)
    (hmax : n < 2 ^ 31) :
    (∀ (rid : Rid) (mapping : List UInt8) (s : Collecting), mapping.length = n →
      ∃ ranges, Consecutive 0 n ranges ∧
        Eff.exec (constructFillTransfers env rid n mapping) s =
          (.ok (), { s with queue := { s.queue with
            otherMessages := s.queue.otherMessages ++
              ranges.flatMap (fillVectors env rid mapping) } }) ∧
        FillsReceived env rid mapping ranges) ∧
    (∀ (data : ShadowFdDmabuf) (s : Collecting), s.sfd.data = .dmabuf data → env.Serves data →
      data.firstDamage = true → data.videoEncode = false →
      data.buf.nominalSize data.viewRowStride = n → data.damage.toIntervals n ≠ [] →
      ∃ (t : Collecting) (tasks : List WorkTask) (ranges : List (Nat × Nat)),
        Eff.exec (collectUpdates env) s = (.ok true, t) ∧ t.tasks = s.tasks ++ tasks ∧
        tasks.map WorkTask.fillTask =
          ranges.map (fun r => some (fillTaskOf env s.sfd.remoteId data.acquires r)) ∧
        (Consecutive 0 n ranges ↔ 64 ≤ n) ∧
        (64 ≤ n → ∀ pixels : List UInt8, pixels.length = n →
          (∀ r ∈ ranges, ∀ sfd log, Eff.exec (runDmabufFillTask2 env.codec
              (fillTaskOf env s.sfd.remoteId data.acquires r) (some (sfd, n)) (part pixels r)) log =
            (.ok (fillVectors env s.sfd.remoteId pixels r).flatten,
              log ++ writesAt sfd true r.1 (part pixels r))) ∧
          FillsReceived env s.sfd.remoteId pixels ranges)) := by
  refine ⟨fun rid mapping s hlen => ?_, fun data s hdata hserves hfirst hvideo hsize hdamaged => ?_⟩
  · subst hlen
    refine ⟨_, fileRanges_consecutive hn, constructFillTransfers_eq henv hn hmax rfl rid s, ?_⟩
    exact fillsReceived henv hmax (fileRanges_consecutive hn) (fillRanges_short fileRange_short) rid
  · obtain ⟨t, tasks, hrun, htasks, hfills⟩ :=
      exec_collectUpdates_dmabuf hserves s hfirst hsize hdamaged hmax hvideo hdata
    have hshort := fillRanges_short (@fillRange_short n)
    refine ⟨t, tasks, _, hrun, htasks, hfills, ⟨fun h => ?_, fillRanges_consecutive⟩,
      fun hwhole pixels hpixels => ⟨fun r hr sfd log => ?_, ?_⟩⟩
    · -- less than a chunk: no shard, and so nothing from 0 to `n`
      by_contra hsmall
      have hnone : shardCount (n / 64) = 0 := by
        rw [show n / 64 = 0 by omega]
        rfl
      rw [hnone] at h
      have hend : 0 = n := h
      omega
    · obtain ⟨hlt, hle⟩ := (fillRanges_consecutive hwhole).mem r hr
      rw [← hpixels] at hle ⊢
      exact exec_runDmabufFillTask2 henv hlt hle (hshort r hr) _ _ sfd log
    · rw [← hpixels] at hmax hwhole hshort ⊢
      exact fillsReceived henv hmax (fillRanges_consecutive hwhole) hshort _

/-- A new image with four bytes for each pixel, all of which is damaged. -/
def damagedImage (width height : Nat) : ShadowFdDmabuf where
  buf := .vulkan width height 4
  mirror := none
  drmFormat := 0
  drmModifier := 0
  damage := .everything
  viewRowStride := none
  firstDamage := true
  exportPlanes := []
  videoDecode := false
  videoEncode := false
  usingImplicitSync := false
  acquires := []
  releases := []
  pendingApplyTasks := 0
  debugWaylandId := 0

def collectingImage (width height : Nat) : Collecting where
  sfd := { remoteId := 1, onlyHere := true, data := .dmabuf (damagedImage width height) }
  queue := .initial
  tasks := []

theorem compresses_plain : CollectEnv.plain.Compresses := fun src hsrc => by
  show 16 + src.length < 2 ^ 27
  omega

/-- Eighty bytes as a file, and as an image of four by five pixels. -/
theorem fills_partition_eighty :
    (∃ ranges, Consecutive 0 80 ranges ∧
      FillsReceived .plain 1 (replicate 80 7) ranges) ∧
    ∃ (t : Collecting) (tasks : List WorkTask) (ranges : List (Nat × Nat)),
      Eff.exec (collectUpdates .plain) (collectingImage 4 5) = (.ok true, t) ∧
      t.tasks = [] ++ tasks ∧
      tasks.map WorkTask.fillTask = ranges.map (fun r => some (fillTaskOf .plain 1 [] r)) ∧
      Consecutive 0 80 ranges := by
  obtain ⟨hfile, hdmabuf⟩ := @fills_partition .plain compresses_plain 80 (by decide) (by decide)
  obtain ⟨ranges, hranges, -, hreceived⟩ := hfile 1 (replicate 80 7)
    (collectingImage 4 5) (by simp)
  obtain ⟨t, tasks, shards, hrun, htasks, hfills, hiff, -⟩ := hdmabuf (damagedImage 4 5)
    (collectingImage 4 5) rfl ⟨by simp [damagedImage], ⟨false, rfl⟩, rfl, fun n => ⟨_, rfl⟩, by decide⟩
    rfl rfl rfl (by decide)
  exact ⟨⟨ranges, hranges, hreceived⟩, t, tasks, shards, hrun, htasks, hfills, hiff.mpr (by decide)⟩

/-- An image of one pixel is damaged, and there is no task for it; nothing is left to be sent. -/
theorem one_pixel_lost :
    (Eff.exec (collectUpdates .plain) (collectingImage 1 1)).1 = .ok true ∧
    (Eff.exec (collectUpdates .plain) (collectingImage 1 1)).2.tasks = [] ∧
    (Eff.exec (collectUpdates .plain) (collectingImage 1 1)).2.sfd.data =
      .dmabuf { damagedImage 1 1 with
        mirror := some 4, firstDamage := false, damage := .intervals [] } := by
  refine ⟨rfl, rfl, rfl⟩

end Waypipe
