import Waypipe.DiffRoundTrip
import Waypipe.Tracking.PanicFree

/-!
# The two appliers of diffs

`apply_diff` changes a file and its mirror, `apply_diff_one` a mirror alone.  Both read the same spans,
but `apply_diff_one` compares the end of a span, in words, with the end of the buffer in bytes, and it
leaves the header of a span out when it compares its length with what is left.  `JudgedAlike` says that
no span of a diff lies between the two checks; `appliers_agree_iff` shows that the appliers agree on
exactly these diffs.
-/

namespace Waypipe

open LeBytes Writes Patch Eff List

variable {α : Type} {diff : List UInt8} {pos start stop : Nat}

/-! ## Outcomes -/

/-- An error that is returned. -/
def Res.IsErr {α : Type} (x : Res α) : Prop := ∃ msg, x = .error (.err msg)

theorem Res.isErr_fail (msg : String) : Res.IsErr (fail msg : Res α) := ⟨msg, rfl⟩

theorem Res.not_isErr_ok (a : α) : ¬ Res.IsErr (.ok a : Res α) := fun ⟨_, h⟩ => nomatch h

theorem Res.not_isErr_panic (msg : String) : ¬ Res.IsErr (.error (.panic msg) : Res α) :=
  fun ⟨_, h⟩ => nomatch h

theorem Res.IsErr.clean {x : Res α} (h : x.IsErr) : x.Clean := by
  obtain ⟨msg, rfl⟩ := h
  rintro _ ⟨⟩ hpanic
  exact hpanic

theorem Res.not_clean_panic (msg : String) : ¬ Res.Clean (.error (.panic msg) : Res α) :=
  fun h => h _ rfl trivial

/-! ## Headers of spans -/

/-- The ends of a span at a position of a diff. -/
def Header (diff : List UInt8) (pos start stop : Nat) : Prop :=
  readU32 diff pos = .ok start ∧ readU32 diff (pos + 4) = .ok stop

theorem readU32_ok {msg : List UInt8} (h : pos + 4 ≤ msg.length) :
    ∃ n < 2 ^ 32, readU32 msg pos = .ok n := by
  unfold readU32
  rw [slice_of_le ⟨Nat.le_add_right _ _, h⟩]
  refine ⟨_, ?_, rfl⟩
  have hlt := leNat_lt ((msg.drop pos).take (pos + 4 - pos))
  rw [length_take, length_drop, show min (pos + 4 - pos) (msg.length - pos) = 4 by omega] at hlt
  exact hlt

theorem readU32_panics {msg : List UInt8} (h : msg.length < pos + 4) :
    readU32 msg pos = .error (.panic "range end index out of range for slice") := by
  unfold readU32 slice
  rw [if_neg (by omega)]
  rfl

theorem Header.fits (h : Header diff pos start stop) :
    pos + 8 ≤ diff.length := by
  by_contra hshort
  have hstop := h.2
  rw [readU32_panics (by omega)] at hstop
  cases hstop

theorem exists_header (h : pos + 8 ≤ diff.length) :
    ∃ start stop, Header diff pos start stop := by
  obtain ⟨start, -, hstart⟩ := readU32_ok (show pos + 4 ≤ diff.length by omega)
  obtain ⟨stop, -, hstop⟩ := readU32_ok (show pos + 4 + 4 ≤ diff.length by omega)
  exact ⟨start, stop, hstart, hstop⟩

theorem Header.small (h : Header diff pos start stop) :
    start < 2 ^ 32 ∧ stop < 2 ^ 32 := by
  have hfits := h.fits
  obtain ⟨n, hn, hstart⟩ := readU32_ok (show pos + 4 ≤ diff.length by omega)
  obtain ⟨k, hk, hstop⟩ := readU32_ok (show pos + 4 + 4 ≤ diff.length by omega)
  rw [Except.ok.inj (h.1.symm.trans hstart), Except.ok.inj (h.2.symm.trans hstop)]
  exact ⟨hn, hk⟩

/-! ## One round of the loop -/

section Rounds

variable {diff : List UInt8} {limit pos start stop rounds : Nat} {log : List (Loc × UInt8)}
  {check : Nat → Nat → Nat → Res Unit} {write : Nat → List UInt8 → Writer Unit}

theorem applySpans_done (h : limit ≤ pos) :
    (applySpans diff limit check write rounds pos).exec log = (.ok (), log) := by
  cases rounds with
  | zero => rfl
  | succ rounds =>
    unfold applySpans
    rw [if_neg (by omega)]
    rfl

/-- A header that is cut off. -/
theorem applySpans_short (hpos : pos < limit) (h : diff.length < pos + 8) :
    ¬ Res.Clean ((applySpans diff limit check write (rounds + 1) pos).exec log).1 := by
  rw [applySpans, if_pos hpos]
  by_cases hstart : pos + 4 ≤ diff.length
  · obtain ⟨start, -, hread⟩ := readU32_ok hstart
    rw [hread, ofExcept_ok_bind, readU32_panics (by omega)]
    exact Res.not_clean_panic _
  · rw [readU32_panics (by omega)]
    exact Res.not_clean_panic _

/-- A span that fails the check. -/
theorem applySpans_rejected (hpos : pos < limit) (h : Header diff pos start stop)
    (hcheck : (check pos start stop).IsErr) :
    Res.IsErr ((applySpans diff limit check write (rounds + 1) pos).exec log).1 := by
  obtain ⟨msg, hmsg⟩ := hcheck
  rw [applySpans, if_pos hpos, h.1, ofExcept_ok_bind, h.2, ofExcept_ok_bind, hmsg]
  exact ⟨msg, rfl⟩

/-- A span that is read and written. -/
theorem applySpans_span (hpos : pos < limit) (h : Header diff pos start stop)
    (hcheck : check pos start stop = .ok ()) (hfits : pos + 8 + 4 * (stop - start) ≤ diff.length)
    {log' : List (Loc × UInt8)}
    (hwrite : (write (start * 4) ((diff.drop (pos + 8)).take (4 * (stop - start)))).exec log =
      (.ok (), log')) :
    (applySpans diff limit check write (rounds + 1) pos).exec log =
      (applySpans diff limit check write rounds (pos + 8 + 4 * (stop - start))).exec log' := by
  rw [applySpans, if_pos hpos, h.1, ofExcept_ok_bind, h.2, ofExcept_ok_bind, hcheck,
    ofExcept_ok_bind, slice_of_le ⟨Nat.le_add_right _ _, hfits⟩, ofExcept_ok_bind,
    Nat.add_sub_cancel_left, exec_bind, hwrite]

end Rounds

/-! ## The parts of the appliers -/

/-- What `apply_diff` checks of a span. -/
def fileCheck (size limit pos start stop : Nat) : Res Unit :=
  if stop ≤ start ∨ size / 4 < stop ∨ limit < pos + 8 + 4 * (stop - start) then
    fail "Copy interval invalid"
  else .ok ()

/-- What `apply_diff` does with the bytes of a span. -/
def fileWrite (m : MirrorRange) (start : Nat) (bytes : List UInt8) : Writer Unit := do
  m.copy start bytes
  store m.sfd false start bytes

/-- One of the last bytes of the file. -/
def fileTailWrite (m : MirrorRange) (offset : Nat) (e : UInt8 × Nat) : Writer Unit := do
  store m.sfd false (offset + e.2) [e.1]
  m.copy (offset + e.2) [e.1]

/-- What `apply_diff_one` checks of a span. -/
def mirrorCheck (size limit pos start stop : Nat) : Res Unit :=
  if stop ≤ start ∨ size < stop ∨ limit < pos + 4 * (stop - start) then
    let hi := size / 4
    let left := limit / 4 - pos / 4
    fail (s!"copy interval invalid: pos {pos} segment [{start},{stop}) " ++
      s!"mirror range [{0},{hi}) remaining {left}")
  else .ok ()

/-- The loops of `apply_diff` and `apply_diff_one`. -/
def fileLoop (diff : List UInt8) (limit size : Nat) (sfd : SfdRef) (rounds pos : Nat) : Writer Unit :=
  applySpans diff limit (fileCheck size limit) (fileWrite ⟨sfd, 0, size⟩) rounds pos

@[inherit_doc fileLoop]
def mirrorLoop (diff : List UInt8) (limit size : Nat) (sfd : SfdRef) (rounds pos : Nat) :
    Writer Unit :=
  applySpans diff limit (mirrorCheck size limit) (MirrorRange.copy ⟨sfd, 0, size⟩) rounds pos

section Parts

variable {diff : List UInt8} {ntrailing size : Nat} {sfd : SfdRef}

section Equations

variable (hle : ntrailing ≤ diff.length) (hsize : ntrailing ≤ size)
  (hmod : (diff.length - ntrailing) % 4 = 0)
include hle hsize hmod

theorem applyDiff_eq :
    applyDiff diff ntrailing size ⟨sfd, 0, size⟩ =
      (fileLoop diff (diff.length - ntrailing) size sfd diff.length 0 >>= fun _ =>
        (diff.drop (diff.length - ntrailing)).zipIdx.forM
          (fileTailWrite ⟨sfd, 0, size⟩ (size - ntrailing))) := by
  have hlimit : 4 * ((diff.length - ntrailing) / 4) = diff.length - ntrailing := by omega
  unfold applyDiff
  rw [checkedSub_of_le hle, ofExcept_ok_bind, assert_of (beq_iff_eq.mpr hmod), ofExcept_ok_bind]
  dsimp only
  rw [hlimit, Nat.mul_comm _ 4, hlimit]
  congr 1
  funext _
  by_cases hpos : 0 < ntrailing
  · rw [if_pos hpos, checkedSub_of_le hsize, ofExcept_ok_bind, slice_of_le (by omega),
      ofExcept_ok_bind, take_of_length_le (by rw [length_drop]; omega)]
    rfl
  · rw [if_neg hpos, drop_of_length_le (by omega)]
    rfl

theorem applyDiffOne_eq :
    applyDiffOne diff ntrailing ⟨sfd, 0, size⟩ =
      (mirrorLoop diff (diff.length - ntrailing) size sfd diff.length 0 >>= fun _ =>
        if 0 < ntrailing then MirrorRange.copy ⟨sfd, 0, size⟩ (size - ntrailing)
          (diff.drop (diff.length - ntrailing)) else pure ()) := by
  have hlimit : 4 * ((diff.length - ntrailing) / 4) = diff.length - ntrailing := by omega
  unfold applyDiffOne
  rw [checkedSub_of_le hle, ofExcept_ok_bind, assert_of (beq_iff_eq.mpr hmod), ofExcept_ok_bind]
  dsimp only
  rw [hlimit, Nat.mul_comm _ 4, hlimit]
  congr 1
  · unfold mirrorLoop
    congr 1
    funext pos start stop
    unfold mirrorCheck
    rw [Nat.zero_add]
  · funext _
    by_cases hpos : 0 < ntrailing
    · rw [if_pos hpos, if_pos hpos, checkedSub_of_le hsize, ofExcept_ok_bind,
        slice_of_le (by omega), ofExcept_ok_bind,
        take_of_length_le (by rw [length_drop]; omega), Nat.zero_add]
    · rw [if_neg hpos, if_neg hpos]

end Equations

end Parts

/-! ## What is written -/

/-- The writes of the two appliers make the same mirror, and keep the mirror equal to the file. -/
structure Synced (sfd : SfdRef) (both one : List (Loc × UInt8)) : Prop where
  mirror : ∀ mem, contents (writeAll mem both) sfd true = contents (writeAll mem one) sfd true
  mapping : ∀ mem x, contents mem sfd true x = contents mem sfd false x →
    contents (writeAll mem both) sfd true x = contents (writeAll mem both) sfd false x

namespace Synced

variable {sfd : SfdRef} {both one : List (Loc × UInt8)}

theorem nil (sfd : SfdRef) : Synced sfd [] [] := ⟨fun _ => rfl, fun _ _ h => h⟩

/-- Bytes that are written to the file and to the mirror, and to the mirror alone. -/
theorem append (h : Synced sfd both one) {bytes : List UInt8} {ws : List (Loc × UInt8)}
    (hws : ∀ mem inMirror, contents (writeAll mem ws) sfd inMirror =
      Segment.apply ⟨start, bytes⟩ (contents mem sfd inMirror)) :
    Synced sfd (both ++ ws) (one ++ writesAt sfd true start bytes) := by
  constructor
  · intro mem
    rw [writeAll_append, writeAll_append, hws, contents_writesAt, h.mirror]
  · intro mem x hx
    rw [writeAll_append, hws, hws]
    unfold Segment.apply
    rw [h.mapping mem x hx]

theorem contents_writesAt_both (mem : Loc → UInt8) (first inMirror : Bool) (start : Nat)
    (bytes : List UInt8) :
    contents (writeAll mem (writesAt sfd first start bytes ++ writesAt sfd (!first) start bytes)) sfd
      inMirror = Segment.apply ⟨start, bytes⟩ (contents mem sfd inMirror) := by
  rw [writeAll_append]
  by_cases hfirst : inMirror = first
  · subst hfirst
    rw [contents_writesAt_other _ (by simp), contents_writesAt]
  · obtain rfl : inMirror = !first := by
      cases inMirror <;> cases first <;> simp_all
    rw [contents_writesAt, contents_writesAt_other _ (by simp)]

end Synced

section Writes

variable {sfd : SfdRef} {size start : Nat} {bytes : List UInt8} {both one : List (Loc × UInt8)}

theorem exec_fileWrite (hfits : start + bytes.length ≤ size) (log : List (Loc × UInt8)) :
    (fileWrite ⟨sfd, 0, size⟩ start bytes).exec log =
      (.ok (), log ++ (writesAt sfd true start bytes ++ writesAt sfd false start bytes)) := by
  unfold fileWrite
  rw [exec_bind, exec_copy (Nat.zero_le _) (by dsimp only; omega)]
  show (Except.ok (), _) = _
  rw [← append_assoc]

/-- The last bytes are written one by one to the file and the mirror, and at once to the mirror. -/
theorem exec_fileTail {offset : Nat} (tail : List UInt8) (k : Nat)
    (hfits : offset + k + tail.length ≤ size) (h : Synced sfd both one) :
    ∃ both', ((tail.zipIdx k).forM (fileTailWrite ⟨sfd, 0, size⟩ offset)).exec both =
        (.ok (), both') ∧
      Synced sfd both' (one ++ writesAt sfd true (offset + k) tail) := by
  induction tail generalizing k both one with
  | nil => exact ⟨both, rfl, by simpa [writesAt] using h⟩
  | cons b tail ih =>
    rw [length_cons] at hfits
    have hbyte : (fileTailWrite ⟨sfd, 0, size⟩ offset (b, k)).exec both =
        (.ok (), both ++
          (writesAt sfd false (offset + k) [b] ++ writesAt sfd true (offset + k) [b])) := by
      unfold fileTailWrite
      show ((MirrorRange.copy ⟨sfd, 0, size⟩ (offset + k) [b]).exec
        (both ++ writesAt sfd false (offset + k) [b])) = _
      rw [exec_copy (Nat.zero_le _) (by simp only [length_singleton]; omega), append_assoc]
    have hnext := h.append fun mem inMirror =>
      @Synced.contents_writesAt_both sfd mem false inMirror (offset + k) [b]
    obtain ⟨both', hrun, hsynced⟩ := ih (k + 1) (by omega) hnext
    refine ⟨both', ?_, ?_⟩
    · rw [zipIdx_cons]
      show (fileTailWrite ⟨sfd, 0, size⟩ offset (b, k) >>= fun _ => _).exec both = _
      rw [exec_bind, hbyte]
      exact hrun
    · rw [writesAt_cons]
      rw [append_assoc] at hsynced
      exact hsynced

end Writes

/-! ## Where the checks differ -/

/-- From a position on, every span is valid for both appliers up to the end, or up to a span that both
of them reject.  Lengths and positions are in bytes, the ends of spans in words. -/
inductive JudgedAlike (diff : List UInt8) (limit size : Nat) : Nat → Prop
  | done {pos : Nat} : limit ≤ pos → JudgedAlike diff limit size pos
  | valid {pos start stop : Nat} : pos < limit → Header diff pos start stop → start < stop →
      4 * stop ≤ size → pos + 8 + 4 * (stop - start) ≤ limit →
      JudgedAlike diff limit size (pos + 8 + 4 * (stop - start)) → JudgedAlike diff limit size pos
  | rejected {pos start stop : Nat} : pos < limit → Header diff pos start stop →
      stop ≤ start ∨ size < stop ∨ limit < pos + 4 * (stop - start) →
      JudgedAlike diff limit size pos

theorem Header.unique {start' stop' : Nat} (h : Header diff pos start stop)
    (h' : Header diff pos start' stop') :
    start' = start ∧ stop' = stop :=
  ⟨Except.ok.inj (h'.1.symm.trans h.1), Except.ok.inj (h'.2.symm.trans h.2)⟩

/-- What is known from the header at a position that is judged alike. -/
theorem JudgedAlike.at_header {limit size : Nat} (h : JudgedAlike diff limit size pos)
    (hpos : pos < limit) (hheader : Header diff pos start stop) :
    (stop ≤ start ∨ size < stop ∨ limit < pos + 4 * (stop - start)) ∨
      4 * stop ≤ size ∧ pos + 8 + 4 * (stop - start) ≤ limit ∧
        JudgedAlike diff limit size (pos + 8 + 4 * (stop - start)) := by
  cases h with
  | done hle => omega
  | valid _ hheader' _ hstop hfits hnext =>
    obtain ⟨rfl, rfl⟩ := hheader.unique hheader'
    exact .inr ⟨hstop, hfits, hnext⟩
  | rejected _ hheader' hrej =>
    obtain ⟨rfl, rfl⟩ := hheader.unique hheader'
    exact .inl hrej

theorem JudgedAlike.header {limit size : Nat} (h : JudgedAlike diff limit size pos)
    (hpos : pos < limit) : pos + 8 ≤ diff.length := by
  cases h with
  | done hle => omega
  | valid _ hheader => exact hheader.fits
  | rejected _ hheader => exact hheader.fits

section Loops

variable {diff : List UInt8} {limit size pos start stop rounds : Nat} {sfd : SfdRef}
  {both one : List (Loc × UInt8)}

/-- A span that `apply_diff_one` lets through, and that goes over the end of the body or of the
buffer. -/
theorem mirrorLoop_not_isErr (hpos : pos < limit) (hheader : Header diff pos start stop)
    (hcheck : ¬ (stop ≤ start ∨ size < stop ∨ limit < pos + 4 * (stop - start)))
    (hover : size < 4 * stop ∨ limit < pos + 8 + 4 * (stop - start)) :
    ¬ Res.IsErr ((applySpans diff limit (mirrorCheck size limit) (MirrorRange.copy ⟨sfd, 0, size⟩)
      (rounds + 1) pos).exec one).1 := by
  have hok : mirrorCheck size limit pos start stop = .ok () := if_neg hcheck
  by_cases hslice : pos + 8 + 4 * (stop - start) ≤ diff.length
  · have hlen : ((diff.drop (pos + 8)).take (4 * (stop - start))).length = 4 * (stop - start) := by
      rw [length_take, length_drop]
      omega
    by_cases hin : 4 * stop ≤ size
    · -- the bytes that trail are taken for contents of the span
      rw [applySpans_span hpos hheader hok hslice (exec_copy (Nat.zero_le _) (by dsimp only; omega) one),
        applySpans_done (by omega)]
      exact Res.not_isErr_ok _
    · rw [applySpans, if_pos hpos, hheader.1, ofExcept_ok_bind, hheader.2, ofExcept_ok_bind,
        hok, ofExcept_ok_bind, slice_of_le ⟨Nat.le_add_right _ _, hslice⟩, ofExcept_ok_bind,
        Nat.add_sub_cancel_left]
      unfold MirrorRange.copy
      rw [checkedSub_of_le (Nat.zero_le _), ofExcept_ok_bind,
        show assert _ _ = _ from if_neg (by rw [decide_eq_true_eq, hlen]; dsimp only; omega)]
      exact Res.not_isErr_panic _
  · rw [applySpans, if_pos hpos, hheader.1, ofExcept_ok_bind, hheader.2, ofExcept_ok_bind,
      hok, ofExcept_ok_bind, show slice _ _ _ = _ from if_neg fun h => hslice h.2]
    exact Res.not_isErr_panic _

/-- Both computations end and make the same mirror, or both return an error. -/
def EndAlike (sfd : SfdRef) (both one : Res Unit × List (Loc × UInt8)) : Prop :=
  (∃ both' one', both = (.ok (), both') ∧ one = (.ok (), one') ∧ Synced sfd both' one') ∨
    Res.IsErr both.1 ∧ Res.IsErr one.1

/-- The first computation panics, or it alone returns an error. -/
def EndApart (both one : Res Unit × List (Loc × UInt8)) : Prop :=
  ¬ Res.Clean both.1 ∨ Res.IsErr both.1 ∧ ¬ Res.IsErr one.1

/-- The loops end alike from the positions that are judged alike, and from no others. -/
theorem loops_cases (hlimit : limit ≤ diff.length) (rounds pos : Nat)
    (hrounds : diff.length ≤ pos + rounds) (h : Synced sfd both one) :
    JudgedAlike diff limit size pos ∧ EndAlike sfd
        ((fileLoop diff limit size sfd rounds pos).exec both)
        ((mirrorLoop diff limit size sfd rounds pos).exec one) ∨
      ¬ JudgedAlike diff limit size pos ∧ EndApart
        ((fileLoop diff limit size sfd rounds pos).exec both)
        ((mirrorLoop diff limit size sfd rounds pos).exec one) := by
  induction rounds generalizing pos both one with
  | zero => exact .inl ⟨.done (by omega), .inl ⟨both, one, rfl, rfl, h⟩⟩
  | succ rounds ih =>
    by_cases hpos : pos < limit
    swap
    · exact .inl ⟨.done (by omega), .inl ⟨both, one, applySpans_done (by omega),
        applySpans_done (by omega), h⟩⟩
    by_cases hfits : pos + 8 ≤ diff.length
    swap
    · exact .inr ⟨fun hj => hfits (hj.header hpos), .inl (applySpans_short hpos (by omega))⟩
    obtain ⟨start, stop, hheader⟩ := exists_header hfits
    by_cases hrej : stop ≤ start ∨ size < stop ∨ limit < pos + 4 * (stop - start)
    · left
      refine ⟨.rejected hpos hheader hrej, .inr ⟨applySpans_rejected hpos hheader ?_,
        applySpans_rejected hpos hheader ?_⟩⟩
      · unfold fileCheck
        rw [if_pos (by omega)]
        exact Res.isErr_fail _
      · unfold mirrorCheck
        rw [if_pos hrej]
        exact Res.isErr_fail _
    by_cases hvalid : 4 * stop ≤ size ∧ pos + 8 + 4 * (stop - start) ≤ limit
    · -- both appliers write the span and go on
      have hlen : ((diff.drop (pos + 8)).take (4 * (stop - start))).length = 4 * (stop - start) := by
        rw [length_take, length_drop]
        omega
      have hwrite := @exec_fileWrite sfd size (start * 4)
        ((diff.drop (pos + 8)).take (4 * (stop - start))) (by rw [hlen]; omega) both
      have hsynced := h.append fun mem inMirror =>
        Synced.contents_writesAt_both mem true inMirror (start * 4)
          ((diff.drop (pos + 8)).take (4 * (stop - start)))
      have hcopy := @exec_copy ⟨sfd, 0, size⟩ (start * 4)
        ((diff.drop (pos + 8)).take (4 * (stop - start))) (Nat.zero_le _)
        (by rw [hlen]; dsimp only; omega) one
      have hfile : (fileLoop diff limit size sfd (rounds + 1) pos).exec both = _ :=
        applySpans_span hpos hheader (if_neg (by omega)) (by omega) hwrite
      have hmirror : (mirrorLoop diff limit size sfd (rounds + 1) pos).exec one = _ :=
        applySpans_span hpos hheader (if_neg hrej) (by omega) hcopy
      rw [hfile, hmirror]
      have hsame : JudgedAlike diff limit size pos ↔
          JudgedAlike diff limit size (pos + 8 + 4 * (stop - start)) := by
        constructor
        · intro hj
          rcases hj.at_header hpos hheader with hrej' | ⟨-, -, hnext⟩
          · exact absurd hrej' hrej
          · exact hnext
        · exact .valid hpos hheader (by omega) hvalid.1 hvalid.2
      rw [hsame]
      exact ih _ (by omega) hsynced
    · right
      refine ⟨fun hj => ?_, .inr ⟨applySpans_rejected hpos hheader ?_,
        mirrorLoop_not_isErr hpos hheader hrej (by omega)⟩⟩
      · rcases hj.at_header hpos hheader with hrej' | ⟨h₁, h₂, -⟩
        · exact hrej hrej'
        · exact hvalid ⟨h₁, h₂⟩
      · unfold fileCheck
        rw [if_pos (by omega)]
        exact Res.isErr_fail _

end Loops

/-! ## Agreement -/

/-- The appliers agree on a diff for a buffer of `size` bytes that is mirrored as a whole. -/
structure AppliersAgree (diff : List UInt8) (ntrailing size : Nat) : Prop where
  clean : ∀ sfd, Res.Clean ((applyDiff diff ntrailing size ⟨sfd, 0, size⟩).exec []).1 ∧
    Res.Clean ((applyDiffOne diff ntrailing ⟨sfd, 0, size⟩).exec []).1
  isErr : ∀ sfd, Res.IsErr ((applyDiffOne diff ntrailing ⟨sfd, 0, size⟩).exec []).1 ↔
    Res.IsErr ((applyDiff diff ntrailing size ⟨sfd, 0, size⟩).exec []).1
  mirror : ∀ sfd ws ws', (applyDiff diff ntrailing size ⟨sfd, 0, size⟩).exec [] = (.ok (), ws) →
    (applyDiffOne diff ntrailing ⟨sfd, 0, size⟩).exec [] = (.ok (), ws') →
    ∀ mem, contents (writeAll mem ws) sfd true = contents (writeAll mem ws') sfd true
  mapping : ∀ sfd ws ws', (applyDiff diff ntrailing size ⟨sfd, 0, size⟩).exec [] = (.ok (), ws) →
    (applyDiffOne diff ntrailing ⟨sfd, 0, size⟩).exec [] = (.ok (), ws') →
    ∀ mem, (∀ x < size, contents mem sfd true x = contents mem sfd false x) →
      ∀ x < size, contents (writeAll mem ws) sfd true x = contents (writeAll mem ws) sfd false x

section Agreement

variable {diff : List UInt8} {ntrailing size : Nat} {sfd : SfdRef}

/-- The tail that `apply_diff_one` writes. -/
theorem exec_mirrorTail {tail : List UInt8} (hlen : tail.length = ntrailing) (hsize : ntrailing ≤ size)
    (log : List (Loc × UInt8)) :
    (if 0 < ntrailing then MirrorRange.copy ⟨sfd, 0, size⟩ (size - ntrailing) tail
      else pure () : Writer Unit).exec log =
        (.ok (), log ++ writesAt sfd true (size - ntrailing) tail) := by
  by_cases hpos : 0 < ntrailing
  · rw [if_pos hpos, exec_copy (Nat.zero_le _) (by dsimp only; omega)]
  · obtain rfl : tail = [] := length_eq_zero_iff.mp (by omega)
    rw [if_neg hpos]
    simp [writesAt]

/-- The rest of the appliers keeps how their loops ended. -/
theorem appliers_cases (hle : ntrailing ≤ diff.length) (hsize : ntrailing ≤ size)
    (hmod : (diff.length - ntrailing) % 4 = 0) (sfd : SfdRef) :
    JudgedAlike diff (diff.length - ntrailing) size 0 ∧ EndAlike sfd
        ((applyDiff diff ntrailing size ⟨sfd, 0, size⟩).exec [])
        ((applyDiffOne diff ntrailing ⟨sfd, 0, size⟩).exec []) ∨
      ¬ JudgedAlike diff (diff.length - ntrailing) size 0 ∧ EndApart
        ((applyDiff diff ntrailing size ⟨sfd, 0, size⟩).exec [])
        ((applyDiffOne diff ntrailing ⟨sfd, 0, size⟩).exec []) := by
  have hlen : (diff.drop (diff.length - ntrailing)).length = ntrailing := by
    rw [length_drop]
    omega
  rw [applyDiff_eq hle hsize hmod, applyDiffOne_eq hle hsize hmod]
  rcases @loops_cases diff (diff.length - ntrailing) size sfd [] [] (Nat.sub_le _ _) diff.length 0
    (Nat.le_add_left _ _) (.nil sfd) with ⟨hj, hend⟩ | ⟨hj, hend⟩
  · refine .inl ⟨hj, ?_⟩
    rcases hend with ⟨both, one, hboth, hone, hsynced⟩ | ⟨⟨msg, hboth⟩, ⟨msg', hone⟩⟩
    · obtain ⟨both', hrun, hsynced'⟩ := @exec_fileTail sfd size both one (size - ntrailing)
        (diff.drop (diff.length - ntrailing)) 0 (by omega) hsynced
      refine .inl ⟨both', _, ?_, ?_, hsynced'⟩
      · rw [exec_bind, hboth]
        exact hrun
      · rw [exec_bind, hone]
        exact exec_mirrorTail hlen hsize one
    · exact .inr ⟨⟨msg, exec_bind_error hboth _⟩, ⟨msg', exec_bind_error hone _⟩⟩
  · refine .inr ⟨hj, ?_⟩
    rcases hend with hpanic | ⟨⟨msg, hboth⟩, hone⟩
    · left
      intro hclean
      refine hpanic fun e he => hclean e (exec_bind_error he _)
    · refine .inr ⟨⟨msg, exec_bind_error hboth _⟩, ?_⟩
      cases hrun : (mirrorLoop diff (diff.length - ntrailing) size sfd diff.length 0).exec [] with
      | mk x log =>
        rw [hrun] at hone
        cases x with
        | error e =>
          rw [exec_bind_error (congrArg Prod.fst hrun)]
          rintro ⟨msg', heq⟩
          cases heq
          exact hone ⟨msg', rfl⟩
        | ok _ =>
          rw [exec_bind, hrun]
          dsimp only
          rw [exec_mirrorTail hlen hsize]
          exact Res.not_isErr_ok _

end Agreement

/-- The two appliers agree on a diff if and only if every span up to the first that is not valid is
judged alike. -/
theorem appliers_agree_iff (diff : List UInt8) (ntrailing size : Nat) (hle : ntrailing ≤ diff.length)
    (hsize : ntrailing ≤ size) (hmod : (diff.length - ntrailing) % 4 = 0) :
    AppliersAgree diff ntrailing size ↔ JudgedAlike diff (diff.length - ntrailing) size 0 := by
  constructor
  · intro hagree
    rcases appliers_cases hle hsize hmod 0 with ⟨hj, -⟩ | ⟨-, hpanic | ⟨herr, hone⟩⟩
    · exact hj
    · exact absurd (hagree.clean 0).1 hpanic
    · exact absurd ((hagree.isErr 0).mpr herr) hone
  · intro hj
    have hend : ∀ sfd, EndAlike sfd ((applyDiff diff ntrailing size ⟨sfd, 0, size⟩).exec [])
        ((applyDiffOne diff ntrailing ⟨sfd, 0, size⟩).exec []) := by
      intro sfd
      rcases appliers_cases hle hsize hmod sfd with ⟨-, hend⟩ | ⟨hnot, -⟩
      · exact hend
      · exact absurd hj hnot
    -- two runs that return have made the same mirror
    have hsynced : ∀ sfd ws ws',
        (applyDiff diff ntrailing size ⟨sfd, 0, size⟩).exec [] = (.ok (), ws) →
        (applyDiffOne diff ntrailing ⟨sfd, 0, size⟩).exec [] = (.ok (), ws') → Synced sfd ws ws' := by
      intro sfd ws ws' hws hws'
      rcases hend sfd with ⟨both, one, hboth, hone, hsynced⟩ | ⟨herr, -⟩
      · rw [hboth] at hws
        rw [hone] at hws'
        cases hws
        cases hws'
        exact hsynced
      · rw [hws] at herr
        exact absurd herr (Res.not_isErr_ok _)
    refine ⟨fun sfd => ?_, fun sfd => ?_,
      fun sfd ws ws' hws hws' => (hsynced sfd ws ws' hws hws').mirror,
      fun sfd ws ws' hws hws' mem hmem x hx => (hsynced sfd ws ws' hws hws').mapping mem x (hmem x hx)⟩
    · rcases hend sfd with ⟨both, one, hboth, hone, -⟩ | ⟨hboth, hone⟩
      · rw [hboth, hone]
        exact ⟨.ok _, .ok _⟩
      · exact ⟨hboth.clean, hone.clean⟩
    · rcases hend sfd with ⟨both, one, hboth, hone, -⟩ | ⟨hboth, hone⟩
      · rw [hboth, hone]
      · exact iff_of_true hone hboth

/-- One word and a byte that trails. -/
def wordAndByte : List UInt8 := [0, 0, 0, 0, 1, 0, 0, 0, 1, 2, 3, 4, 9]

theorem appliers_agree_wordAndByte :
    1 ≤ wordAndByte.length ∧ (wordAndByte.length - 1) % 4 = 0 ∧ AppliersAgree wordAndByte 1 5 := by
  refine ⟨by decide, by decide, (appliers_agree_iff wordAndByte 1 5 (by decide) (by decide)
    (by decide)).mpr (@JudgedAlike.valid _ _ _ 0 0 1 (by decide) ⟨rfl, rfl⟩ (by decide) (by decide)
    (by decide) (.done (by decide)))⟩

/-- A header that is cut off, for which both appliers panic; a span of two words for a buffer of one
word, for which only `apply_diff_one` panics; and a span over the end of the body, which
`apply_diff_one` completes with the bytes that trail. -/
theorem appliers_disagree :
    ((applyDiff [0, 0, 0, 0] 0 4 ⟨0, 0, 4⟩).exec []).1 =
        .error (.panic "range end index out of range for slice") ∧
      ((applyDiffOne [0, 0, 0, 0] 0 ⟨0, 0, 4⟩).exec []).1 =
        .error (.panic "range end index out of range for slice") ∧
      ((applyDiff [0, 0, 0, 0, 2, 0, 0, 0, 1, 2, 3, 4, 5, 6, 7, 8] 0 4 ⟨0, 0, 4⟩).exec []).1 =
        .error (.err "Copy interval invalid") ∧
      ((applyDiffOne [0, 0, 0, 0, 2, 0, 0, 0, 1, 2, 3, 4, 5, 6, 7, 8] 0 ⟨0, 0, 4⟩).exec []).1 =
        .error (.panic "range end index out of range for slice") ∧
      ((applyDiff [0, 0, 0, 0, 2, 0, 0, 0, 1, 2, 3, 4, 5, 6, 7, 8] 4 8 ⟨0, 0, 8⟩).exec []).1 =
        .error (.err "Copy interval invalid") ∧
      ((applyDiffOne [0, 0, 0, 0, 2, 0, 0, 0, 1, 2, 3, 4, 5, 6, 7, 8] 4 ⟨0, 0, 8⟩).exec []).1 =
        .ok () := by
  decide +kernel

end Waypipe
