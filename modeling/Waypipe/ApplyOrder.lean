import Waypipe.Updates

/-!
# The order in which updates are applied

Workers decompress updates in any order and apply them concurrently.  Updates still start to be
applied in the order in which they were received: those that have been started are always the first
`k` of them (`Ordered`).  One that is being applied does not overlap with any that has been started
after it, so its writes can be moved in front of theirs, and the memory is what the writes made so
far give when they are performed in the order of the updates (`Contents`).
-/

namespace Waypipe

open Transition Writes List

namespace TaskSet

theorem mem_insertApply {a t : ApplyTask} {l : List ApplyTask} :
    a ∈ insertApply t l ↔ a = t ∨ a ∈ l := mem_orderedInsert _

theorem mem_insertInProgress {e f : Nat × (Nat × Nat)} {l : List (Nat × (Nat × Nat))} :
    e ∈ insertInProgress f l ↔ e = f ∨ e ∈ l := mem_orderedInsert _

/-- A task with a new sequence number takes its place among the others. -/
theorem pairwise_insertApply {t : ApplyTask} {l : List ApplyTask}
    (hl : l.Pairwise fun a b => a.sequence < b.sequence) (hnew : ∀ a ∈ l, a.sequence ≠ t.sequence) :
    (insertApply t l).Pairwise fun a b => a.sequence < b.sequence := by
  induction l with
  | nil => exact pairwise_singleton _ t
  | cons b l ih =>
    obtain ⟨hb, hl⟩ := pairwise_cons.mp hl
    have hbt : b.sequence ≠ t.sequence := hnew b mem_cons_self
    unfold insertApply
    rw [orderedInsert_cons]
    split
    · next hle =>
      refine pairwise_cons.mpr ⟨fun a ha => ?_, pairwise_cons.mpr ⟨hb, hl⟩⟩
      rcases mem_cons.mp ha with rfl | ha
      · omega
      · have := hb a ha
        omega
    · next hle =>
      refine pairwise_cons.mpr ⟨fun a ha => ?_, ih hl fun a ha => ?_⟩
      · rcases mem_insertApply.mp ha with rfl | ha
        · omega
        · exact hb a ha
      · exact hnew a (mem_cons_of_mem b ha)

end TaskSet

namespace Workers

variable {κ : Type} {n : Nat} {work : Work} {s t : Workers κ n} {k q : Nat} {w v : Fin n}
  {a b : TaskSet.ApplyTask}

theorem setWorker_workers {state x : Worker κ} :
    (s.setWorker w state).workers v = x ↔ v = w ∧ state = x ∨ v ≠ w ∧ s.workers v = x := by
  show Function.update s.workers w state v = x ↔ _
  by_cases h : v = w
  · subst h
    simp
  · simp [h]

/-- Worker `w` applies the update `a`. -/
def Applying (s : Workers κ n) (w : Fin n) (a : TaskSet.ApplyTask) : Prop :=
  ∃ left, s.workers w = .applying a left

section SetWorker

variable {state : Worker κ}

theorem applying_setWorker (hbefore : ∀ a left, s.workers w ≠ .applying a left)
    (hafter : ∀ a left, state ≠ .applying a left) (v : Fin n) (a : TaskSet.ApplyTask)
    (left : List (Loc × UInt8)) :
    (s.setWorker w state).workers v = .applying a left ↔ s.workers v = .applying a left := by
  rw [setWorker_workers]
  constructor
  · rintro (⟨-, hv⟩ | ⟨-, hv⟩)
    · exact absurd hv (hafter a left)
    · exact hv
  · intro hv
    refine .inr ⟨?_, hv⟩
    rintro rfl
    exact hbefore a left hv

theorem applying_of_setWorker (h : (s.setWorker w state).Applying v b) :
    v = w ∧ (∃ left, state = .applying b left) ∨ v ≠ w ∧ s.Applying v b := by
  obtain ⟨left, hv⟩ := h
  exact (setWorker_workers.mp hv).imp (And.imp_right fun hs => ⟨left, hs⟩)
    (And.imp_right fun hv => ⟨left, hv⟩)

theorem Applying.setWorker (h : s.Applying v b) (hne : v ≠ w) :
    (s.setWorker w state).Applying v b :=
  h.imp fun _ hv => setWorker_workers.mpr (.inr ⟨hne, hv⟩)

theorem decompressing_of_setWorker (hafter : ∀ q t, state ≠ .decompressing q t) {x : DecompTask}
    (h : (s.setWorker w state).workers v = .decompressing q x) :
    s.workers v = .decompressing q x := by
  rcases setWorker_workers.mp h with ⟨-, hv⟩ | ⟨-, hv⟩
  · exact absurd hv (hafter q x)
  · exact hv

end SetWorker

/-- The first `k` updates have been started, and no others. -/
structure Ordered (work : Work) (s : Workers κ n) (k : Nat) : Prop where
  queue : s.tasks.decompress = s.received.drop s.tasks.lastSeqno
  seqno_le : s.tasks.lastSeqno ≤ s.received.length
  started_le : k ≤ s.tasks.lastSeqno
  decompressing : ∀ w q t, s.workers w = .decompressing q t →
    q ∈ s.tasks.inProgressDecomp ∧ s.received[q]? = some t
  decompressing_one : ∀ w v q t u, s.workers w = .decompressing q t →
    s.workers v = .decompressing q u → w = v
  inProgressDecomp : ∀ q ∈ s.tasks.inProgressDecomp, k ≤ q ∧ q < s.tasks.lastSeqno
  sorted : s.tasks.apply.Pairwise fun a b => a.sequence < b.sequence
  apply : ∀ a ∈ s.tasks.apply, k ≤ a.sequence ∧ a.sequence < s.tasks.lastSeqno ∧
    a.sequence ∉ s.tasks.inProgressDecomp ∧ work.update s.received a.sequence = some a
  covered : ∀ q, k ≤ q → q < s.tasks.lastSeqno →
    q ∈ s.tasks.inProgressDecomp ∨ ∃ a ∈ s.tasks.apply, a.sequence = q
  applying : ∀ w a, s.Applying w a → a.sequence < k ∧
    work.update s.received a.sequence = some a ∧ (a.sequence, a.region) ∈ s.tasks.inProgressApply
  applying_one : ∀ w v a b, s.Applying w a → s.Applying v b → a.sequence = b.sequence → w = v
  inProgressApply : ∀ e ∈ s.tasks.inProgressApply, ∃ w a, s.Applying w a ∧
    e = (a.sequence, a.region)
  clear : ∀ w a, s.Applying w a → ∀ q b, a.sequence < q → q < k →
    work.update s.received q = some b → a.overlaps b = false
  finished : ∀ q < k, (∃ w a, s.Applying w a ∧ a.sequence = q) ∨
    ∃ a ∈ s.applied, work.update s.received q = some a

theorem ordered_start (memory : Loc → UInt8) :
    Ordered work (start memory : Workers κ n) 0 where
  queue := rfl
  seqno_le := Nat.le_refl 0
  started_le := Nat.le_refl 0
  decompressing w q t h := by cases h
  decompressing_one w v q t u h := by cases h
  inProgressDecomp q h := by cases h
  sorted := .nil
  apply a h := by cases h
  covered q _ h := absurd h (Nat.not_lt_zero q)
  applying w a h := by cases h with | intro left h => cases h
  applying_one w v a b h := by cases h with | intro left h => cases h
  inProgressApply e h := by cases h
  clear w a h := by cases h with | intro left h => cases h
  finished q h := absurd h (Nat.not_lt_zero q)

namespace Ordered

variable (h : Ordered work s k)

include h

/-- The update that a task to apply stands for. -/
theorem update_of_lt (hq : q < k) : ∃ a, work.update s.received q = some a := by
  rcases h.finished q hq with ⟨w, a, ha, rfl⟩ | ⟨a, -, ha⟩
  · exact ⟨a, (h.applying w a ha).2.1⟩
  · exact ⟨a, ha⟩

/-- Everything that is being applied came before everything that waits. -/
theorem inProgress_lt : ∀ a ∈ s.tasks.apply, ∀ e ∈ s.tasks.inProgressApply, e.1 < a.sequence := by
  intro a ha e he
  obtain ⟨w, b, hb, rfl⟩ := h.inProgressApply e he
  have := (h.applying w b hb).1
  have := (h.apply a ha).1
  show b.sequence < a.sequence
  omega

theorem receive (t : DecompTask) :
    Ordered work { s with
      tasks := { s.tasks with decompress := s.tasks.decompress ++ [t] }
      received := s.received ++ [t] } k := by
  have hle := h.seqno_le
  have hkeep : ∀ q, q < s.tasks.lastSeqno →
      work.update (s.received ++ [t]) q = work.update s.received q :=
    fun q hq => Work.update_receive (by omega) t
  have hk := h.started_le
  exact
    { queue := by
        show s.tasks.decompress ++ [t] = (s.received ++ [t]).drop s.tasks.lastSeqno
        rw [h.queue, drop_append_of_le_length hle]
      seqno_le := by
        show s.tasks.lastSeqno ≤ (s.received ++ [t]).length
        rw [length_append]
        omega
      started_le := h.started_le
      decompressing := fun w q u hw => by
        obtain ⟨hq, hget⟩ := h.decompressing w q u hw
        refine ⟨hq, ?_⟩
        rw [getElem?_append_left (List.getElem?_eq_some_iff.mp hget).1]
        exact hget
      decompressing_one := h.decompressing_one
      inProgressDecomp := h.inProgressDecomp
      sorted := h.sorted
      apply := fun a ha => by
        obtain ⟨hka, hlt, hnot, hup⟩ := h.apply a ha
        exact ⟨hka, hlt, hnot, (hkeep _ hlt).trans hup⟩
      covered := h.covered
      applying := fun w a ha => by
        obtain ⟨hlt, hup, hin⟩ := h.applying w a ha
        exact ⟨hlt, (hkeep _ (by omega)).trans hup, hin⟩
      applying_one := h.applying_one
      inProgressApply := h.inProgressApply
      clear := fun w a ha q b hq hqk hb =>
        h.clear w a ha q b hq hqk ((hkeep q (by omega)).symm.trans hb)
      finished := fun q hq => by
        rcases h.finished q hq with hw | ⟨a, ha, hup⟩
        · exact .inl hw
        · exact .inr ⟨a, ha, (hkeep q (by omega)).trans hup⟩ }

/-- A step that changes nothing but states of workers, and keeps which updates are being applied. -/
theorem congr (htasks : t.tasks = s.tasks) (hreceived : t.received = s.received)
    (hdone : t.applied = s.applied)
    (hdecomp : ∀ w q x, t.workers w = .decompressing q x →
      q ∈ s.tasks.inProgressDecomp ∧ s.received[q]? = some x)
    (hone : ∀ w v q x y, t.workers w = .decompressing q x → t.workers v = .decompressing q y → w = v)
    (happlying : ∀ v a, t.Applying v a ↔ s.Applying v a) : Ordered work t k := by
  obtain ⟨tasks, workers, _, received, applied⟩ := t
  subst htasks hreceived hdone
  exact
    { h with
      decompressing := hdecomp
      decompressing_one := hone
      applying := fun v a hv => h.applying v a ((happlying v a).mp hv)
      applying_one := fun v u a b hv hu =>
        h.applying_one v u a b ((happlying v a).mp hv) ((happlying u b).mp hu)
      inProgressApply := fun e he => by
        obtain ⟨v, a, hv, rfl⟩ := h.inProgressApply e he
        exact ⟨v, a, (happlying v a).mpr hv, rfl⟩
      clear := fun v a hv => h.clear v a ((happlying v a).mp hv)
      finished := fun q hq => by
        rcases h.finished q hq with ⟨v, a, hv, hseq⟩ | hdone
        · exact .inl ⟨v, a, (happlying v a).mpr hv, hseq⟩
        · exact .inr hdone }

theorem congr_of_decompressing (htasks : t.tasks = s.tasks) (hreceived : t.received = s.received)
    (hdone : t.applied = s.applied)
    (hdecomp : ∀ {v q x}, t.workers v = .decompressing q x → s.workers v = .decompressing q x)
    (happlying : ∀ v a, t.Applying v a ↔ s.Applying v a) : Ordered work t k :=
  h.congr htasks hreceived hdone (fun v q x hv => h.decompressing v q x (hdecomp hv))
    (fun v u q x y hv hu => h.decompressing_one v u q x y (hdecomp hv) (hdecomp hu)) happlying

/-- A worker changes to a state in which it neither decompresses nor applies anything new. -/
theorem setIdle {state : Worker κ} (hbefore : ∀ a left, s.workers w ≠ .applying a left)
    (hafter : ∀ q t, state ≠ .decompressing q t) (hafter' : ∀ a left, state ≠ .applying a left) :
    Ordered work (s.setWorker w state) k :=
  h.congr_of_decompressing rfl rfl rfl (decompressing_of_setWorker hafter) fun v a =>
    exists_congr (applying_setWorker hbefore hafter' v a)

theorem popDecomp {x : DecompTask} {rest : List DecompTask}
    (hidle : s.workers w = .idle) (hqueue : s.tasks.decompress = x :: rest) :
    Ordered work { s.setWorker w (.decompressing s.tasks.lastSeqno x) with
      tasks := { s.tasks with
        decompress := rest
        lastSeqno := s.tasks.lastSeqno + 1
        inProgressDecomp := s.tasks.lastSeqno :: s.tasks.inProgressDecomp } } k := by
  have hdrop : s.received.drop s.tasks.lastSeqno = x :: rest := h.queue.symm.trans hqueue
  have hget : s.received[s.tasks.lastSeqno]? = some x := by
    rw [← head?_drop, hdrop]
    rfl
  have hlt : s.tasks.lastSeqno < s.received.length := (List.getElem?_eq_some_iff.mp hget).1
  have hk := h.started_le
  -- no worker had the new number
  have hnew : ∀ v t, s.workers v ≠ .decompressing s.tasks.lastSeqno t := by
    intro v t hv
    have := (h.inProgressDecomp _ (h.decompressing v _ t hv).1).2
    omega
  have hpopped : Ordered work { s with tasks := { s.tasks with
      decompress := rest
      lastSeqno := s.tasks.lastSeqno + 1
      inProgressDecomp := s.tasks.lastSeqno :: s.tasks.inProgressDecomp } } k :=
    { h with
      queue := by
        show rest = s.received.drop (s.tasks.lastSeqno + 1)
        rw [← tail_drop, hdrop]
        rfl
      seqno_le := hlt
      started_le := Nat.le_succ_of_le hk
      decompressing := fun v q t hv => (h.decompressing v q t hv).imp_left (mem_cons_of_mem _)
      inProgressDecomp := fun q hq => by
        show k ≤ q ∧ q < s.tasks.lastSeqno + 1
        rcases mem_cons.mp hq with rfl | hq
        · omega
        · have := h.inProgressDecomp q hq
          omega
      apply := fun a ha => by
        obtain ⟨hka, hlt, hnot, hup⟩ := h.apply a ha
        refine ⟨hka, Nat.lt_succ_of_lt hlt, ?_, hup⟩
        intro hin
        rcases mem_cons.mp hin with heq | hin
        · omega
        · exact hnot hin
      covered := fun q hq hqlt => by
        by_cases hlast : q = s.tasks.lastSeqno
        · exact .inl (by rw [hlast]; exact mem_cons_self)
        · have hqlt' : q < s.tasks.lastSeqno + 1 := hqlt
          rcases h.covered q hq (by omega) with hin | hin
          · exact .inl (mem_cons_of_mem _ hin)
          · exact .inr hin }
  refine hpopped.congr rfl rfl rfl (fun v q t hv => ?_) (fun v u q t t' hv hu => ?_) fun v a =>
    exists_congr (applying_setWorker (fun _ _ => by rw [hidle]; nofun) (by exact fun _ _ => nofun) v a)
  · rcases setWorker_workers.mp hv with ⟨-, hv⟩ | ⟨-, hv⟩
    · cases hv
      exact ⟨mem_cons_self, hget⟩
    · exact hpopped.decompressing v q t hv
  · rcases setWorker_workers.mp hv with ⟨hvw, hvx⟩ | ⟨-, hvx⟩
    · cases hvx
      rcases setWorker_workers.mp hu with ⟨huw, -⟩ | ⟨-, hux⟩
      · exact hvw.trans huw.symm
      · exact absurd hux (hnew u t')
    · rcases setWorker_workers.mp hu with ⟨-, hux⟩ | ⟨-, hux⟩
      · cases hux
        exact absurd hvx (hnew v t)
      · exact h.decompressing_one v u q t t' hvx hux

theorem decompressed {t : DecompTask} (hw : s.workers w = .decompressing q t)
    (ha : work.decompress q t = .ok a) :
    Ordered work { s.setWorker w .idle with tasks := s.tasks.decompDone q a } k := by
  have hidle : Ordered work (s.setWorker w .idle) k :=
    h.setIdle (fun _ _ => by rw [hw]; nofun) (fun _ _ => nofun) (fun _ _ => nofun)
  obtain ⟨hq, hget⟩ := h.decompressing w q t hw
  have hseq : a.sequence = q := work.sequence_eq q t a ha
  have hup : work.update s.received a.sequence = some a := by
    rw [hseq]
    simp only [Work.update, hget, Option.bind_some, ha]
    rfl
  have hrange := h.inProgressDecomp q hq
  exact
    { hidle with
      decompressing := fun v p u hv => by
        obtain ⟨hp, hu⟩ := hidle.decompressing v p u hv
        refine ⟨mem_filter.mpr ⟨hp, ?_⟩, hu⟩
        rcases setWorker_workers.mp hv with ⟨-, hvx⟩ | ⟨hne, hvx⟩
        · cases hvx
        · have hpq : p ≠ q := by
            rintro rfl
            exact hne (h.decompressing_one v w p u t hvx hw)
          simpa using hpq
      inProgressDecomp := fun p hp => h.inProgressDecomp p (mem_filter.mp hp).1
      sorted := TaskSet.pairwise_insertApply h.sorted fun b hb heq => by
        refine (h.apply b hb).2.2.1 ?_
        rw [heq, hseq]
        exact hq
      apply := fun b hb => by
        rcases TaskSet.mem_insertApply.mp hb with rfl | hb
        · refine ⟨by omega, ?_, ?_, hup⟩
          · show b.sequence < s.tasks.lastSeqno
            omega
          · simp [TaskSet.decompDone, hseq]
        · obtain ⟨hkb, hlt, hnot, hupb⟩ := h.apply b hb
          exact ⟨hkb, hlt, fun hin => hnot (mem_filter.mp hin).1, hupb⟩
      covered := fun p hp hplt => by
        by_cases hpq : p = q
        · exact .inr ⟨a, TaskSet.mem_insertApply.mpr (.inl rfl), hseq.trans hpq.symm⟩
        · rcases h.covered p hp hplt with hin | ⟨b, hb, hbp⟩
          · exact .inl (mem_filter.mpr ⟨hin, by simpa using hpq⟩)
          · exact .inr ⟨b, TaskSet.mem_insertApply.mpr (.inr hb), hbp⟩ }

/-- The task that is taken to be applied is the next one in the order in which they were received,
and what overlaps with it among those before it has been applied. -/
theorem popApply_next {tasks : TaskSet κ} (hpop : s.tasks.popApply = .ok (some (a, tasks))) :
    a.sequence = k ∧ ∀ v b, s.Applying v b → b.overlaps a = false := by
  obtain ⟨rest, happly, hdecomp, hclear, -⟩ := TaskSet.popApply_eq_some hpop
  have ha : a ∈ s.tasks.apply := by rw [happly]; exact mem_cons_self
  obtain ⟨hka, hlt, -, -⟩ := h.apply a ha
  refine ⟨?_, fun v b hv => hclear _ (h.applying v b hv).2.2⟩
  -- the update `k` is decompressed, or it is not behind `a`
  rcases h.covered k (Nat.le_refl k) (by omega) with hin | ⟨b, hb, hbk⟩
  · have := hdecomp k hin
    omega
  · rw [happly] at hb
    rcases mem_cons.mp hb with rfl | hb
    · exact hbk
    · have hsorted := h.sorted
      rw [happly] at hsorted
      have := (pairwise_cons.mp hsorted).1 b hb
      omega

theorem popApply {tasks : TaskSet κ} {left : List (Loc × UInt8)} (hidle : s.workers w = .idle)
    (hpop : s.tasks.popApply = .ok (some (a, tasks))) :
    Ordered work { s.setWorker w (.applying a left) with tasks } (k + 1) := by
  obtain ⟨hak, hclear⟩ := h.popApply_next hpop
  obtain ⟨rest, happly, -, -, rfl⟩ := TaskSet.popApply_eq_some hpop
  have ha : a ∈ s.tasks.apply := by rw [happly]; exact mem_cons_self
  obtain ⟨-, hlt, hnot, hup⟩ := h.apply a ha
  have hsorted := h.sorted
  rw [happly] at hsorted
  obtain ⟨hafter, hrest⟩ := pairwise_cons.mp hsorted
  have hmem : ∀ b ∈ rest, b ∈ s.tasks.apply := fun b hb => by
    rw [happly]
    exact mem_cons_of_mem a hb
  have hold : ∀ v b, s.Applying v b → (s.setWorker w (.applying a left)).Applying v b := by
    rintro v b ⟨l, hv⟩
    refine Applying.setWorker ⟨l, hv⟩ ?_
    rintro rfl
    rw [hidle] at hv
    cases hv
  have hnew : (s.setWorker w (.applying a left)).Applying w a :=
    ⟨left, setWorker_workers.mpr (.inl ⟨rfl, rfl⟩)⟩
  have hcases : ∀ v b, (s.setWorker w (.applying a left)).Applying v b →
      v = w ∧ b = a ∨ s.Applying v b := by
    intro v b hv
    rcases applying_of_setWorker hv with ⟨hvw, l, hvx⟩ | ⟨-, hvx⟩
    · cases hvx
      exact .inl ⟨hvw, rfl⟩
    · exact .inr hvx
  have hdecomp : ∀ {v q t}, (s.setWorker w (.applying a left)).workers v = .decompressing q t →
      s.workers v = .decompressing q t :=
    decompressing_of_setWorker (by exact fun _ _ => nofun)
  exact
    { queue := h.queue
      seqno_le := h.seqno_le
      started_le := by
        show k + 1 ≤ s.tasks.lastSeqno
        omega
      decompressing := fun v q t hv => h.decompressing v q t (hdecomp hv)
      decompressing_one := fun v u q t t' hv hu =>
        h.decompressing_one v u q t t' (hdecomp hv) (hdecomp hu)
      inProgressDecomp := fun q hq => by
        have hqk := h.inProgressDecomp q hq
        have hne : q ≠ a.sequence := by
          rintro rfl
          exact hnot hq
        show k + 1 ≤ q ∧ q < s.tasks.lastSeqno
        omega
      sorted := hrest
      apply := fun b hb => by
        obtain ⟨-, hblt, hbnot, hbup⟩ := h.apply b (hmem b hb)
        have := hafter b hb
        exact ⟨by omega, hblt, hbnot, hbup⟩
      covered := fun q hq hqlt => by
        rcases h.covered q (by omega) hqlt with hin | ⟨b, hb, hbq⟩
        · exact .inl hin
        · rw [happly] at hb
          rcases mem_cons.mp hb with rfl | hb
          · omega
          · exact .inr ⟨b, hb, hbq⟩
      applying := fun v b hv => by
        rcases hcases v b hv with ⟨-, rfl⟩ | hv
        · exact ⟨by omega, hup, TaskSet.mem_insertInProgress.mpr (.inl rfl)⟩
        · obtain ⟨hbk, hbup, hin⟩ := h.applying v b hv
          exact ⟨by omega, hbup, TaskSet.mem_insertInProgress.mpr (.inr hin)⟩
      applying_one := fun v u b c hv hu hseq => by
        rcases hcases v b hv with ⟨hvw, hba⟩ | hvx
        · rcases hcases u c hu with ⟨huw, -⟩ | hux
          · exact hvw.trans huw.symm
          · have := (h.applying u c hux).1
            rw [hba] at hseq
            omega
        · rcases hcases u c hu with ⟨-, hca⟩ | hux
          · have := (h.applying v b hvx).1
            rw [hca] at hseq
            omega
          · exact h.applying_one v u b c hvx hux hseq
      inProgressApply := fun e he => by
        rcases TaskSet.mem_insertInProgress.mp he with rfl | he
        · exact ⟨w, a, hnew, rfl⟩
        · obtain ⟨v, b, hv, rfl⟩ := h.inProgressApply e he
          exact ⟨v, b, hold v b hv, rfl⟩
      clear := fun v b hv q c hbq hqk hc => by
        rcases hcases v b hv with ⟨-, rfl⟩ | hv
        · omega
        · by_cases hqk' : q = k
          · have hca : c = a := by
              have hc' : work.update s.received q = some c := hc
              rw [hqk', ← hak, hup] at hc'
              exact (Option.some.inj hc').symm
            rw [hca]
            exact hclear v b hv
          · exact h.clear v b hv q c hbq (by omega) hc
      finished := fun q hq => by
        by_cases hqk : q = k
        · exact .inl ⟨w, a, hnew, hak.trans hqk.symm⟩
        · rcases h.finished q (by omega) with ⟨v, b, hv, hseq⟩ | hdone
          · exact .inl ⟨v, b, hold v b hv, hseq⟩
          · exact .inr hdone }

theorem written {before left : List (Loc × UInt8)} (hw : s.workers w = .applying a before)
    (memory : Loc → UInt8) :
    Ordered work { s.setWorker w (.applying a left) with memory } k := by
  refine h.congr_of_decompressing rfl rfl rfl
    (decompressing_of_setWorker (w := w) (by exact fun _ _ => nofun)) fun v b => ?_
  constructor
  · intro hv
    rcases applying_of_setWorker (w := w) hv with ⟨rfl, l, hvx⟩ | ⟨-, hvx⟩
    · cases hvx
      exact ⟨before, hw⟩
    · exact hvx
  · rintro ⟨l, hv⟩
    by_cases hvw : v = w
    · subst hvw
      rw [hw] at hv
      cases hv
      exact ⟨left, setWorker_workers.mpr (.inl ⟨rfl, rfl⟩)⟩
    · exact ⟨l, setWorker_workers.mpr (.inr ⟨hvw, hv⟩)⟩

theorem applied (hw : s.workers w = .applying a []) :
    Ordered work { s.setWorker w .idle with
      tasks := s.tasks.applyDone a
      applied := s.applied ++ [a] } k := by
  have haw : s.Applying w a := ⟨[], hw⟩
  have hcases : ∀ v b, (s.setWorker w .idle).Applying v b → v ≠ w ∧ s.Applying v b := by
    intro v b hv
    rcases applying_of_setWorker hv with ⟨-, l, hvx⟩ | hvx
    · cases hvx
    · exact hvx
  have hdecomp : ∀ {v q t}, (s.setWorker w .idle).workers v = .decompressing q t →
      s.workers v = .decompressing q t :=
    decompressing_of_setWorker (by exact fun _ _ => nofun)
  exact
    { h with
      decompressing := fun v q t hv => h.decompressing v q t (hdecomp hv)
      decompressing_one := fun v u q t t' hv hu =>
        h.decompressing_one v u q t t' (hdecomp hv) (hdecomp hu)
      applying := fun v b hv => by
        obtain ⟨hne, hv⟩ := hcases v b hv
        obtain ⟨hlt, hup, hin⟩ := h.applying v b hv
        refine ⟨hlt, hup, mem_filter.mpr ⟨hin, ?_⟩⟩
        have hseq : b.sequence ≠ a.sequence := fun heq => hne (h.applying_one v w b a hv haw heq)
        simp [hseq]
      applying_one := fun v u b c hv hu =>
        h.applying_one v u b c (hcases v b hv).2 (hcases u c hu).2
      inProgressApply := fun e he => by
        obtain ⟨he, hne⟩ := mem_filter.mp he
        obtain ⟨v, b, hv, rfl⟩ := h.inProgressApply e he
        refine ⟨v, b, hv.setWorker ?_, rfl⟩
        rintro rfl
        obtain ⟨l, hl⟩ := hv
        rw [hw] at hl
        cases hl
        simp at hne
      clear := fun v b hv => h.clear v b (hcases v b hv).2
      finished := fun q hq => by
        rcases h.finished q hq with ⟨v, b, hv, hseq⟩ | ⟨b, hb, hup⟩
        · by_cases hvw : v = w
          · subst hvw
            obtain ⟨l, hl⟩ := hv
            rw [hw] at hl
            cases hl
            refine .inr ⟨a, mem_append_right _ (mem_singleton_self a), ?_⟩
            rw [← hseq]
            exact (h.applying v a haw).2.1
          · exact .inl ⟨v, b, hv.setWorker hvw, hseq⟩
        · exact .inr ⟨b, mem_append_left _ hb, hup⟩ }

end Ordered

/-! ## The memory -/

variable {memory : Loc → UInt8} {p : Nat → List (Loc × UInt8)}

/-- Update `q` has written `p q` so far, and the memory is what these writes give in the order of
the updates. -/
structure Contents (work : Work) (memory : Loc → UInt8) (s : Workers κ n) (k : Nat)
    (p : Nat → List (Loc × UInt8)) : Prop where
  received : ∀ t ∈ s.received, work.Inside t
  memory_eq : s.memory = inOrder memory k p
  applying : ∀ w a left, s.workers w = .applying a left → p a.sequence ++ left = work.writes a
  finished : ∀ q < k, ∀ a, work.update s.received q = some a →
    (∀ w b, s.Applying w b → b.sequence ≠ q) → p q = work.writes a

/-- If no other worker applies update `q`, and neither does this one, then none does. -/
theorem not_applying {state : Worker κ} {before : List (Loc × UInt8)}
    (hw : s.workers w = .applying a before)
    (hqa : q ≠ a.sequence) (hno : ∀ v b, (s.setWorker w state).Applying v b → b.sequence ≠ q) :
    ∀ v b, s.Applying v b → b.sequence ≠ q := by
  rintro v b ⟨left, hv⟩
  by_cases hvw : v = w
  · subst hvw
    rw [hw] at hv
    cases hv
    exact Ne.symm hqa
  · exact hno v b ⟨left, setWorker_workers.mpr (.inr ⟨hvw, hv⟩)⟩

namespace Contents

variable (hc : Contents work memory s k p)

include hc

theorem writes_inside (ha : work.update s.received q = some a) :
    ∀ v ∈ work.writes a, a.regionStart ≤ v.1.offset ∧ v.1.offset < a.regionEnd := by
  obtain ⟨x, hx, hdecomp⟩ := Work.update_eq_some ha
  exact hc.received x hx q a hdecomp

/-- A step that does not change the memory, nor which updates are being applied and how far. -/
theorem congr (hmem : t.memory = s.memory)
    (happlying : ∀ w a left, t.workers w = .applying a left ↔ s.workers w = .applying a left)
    (hinside : ∀ x ∈ t.received, work.Inside x)
    (hreceived : ∀ q < k, work.update t.received q = work.update s.received q) :
    Contents work memory t k p where
  received := hinside
  memory_eq := hmem.trans hc.memory_eq
  applying w a left hw := hc.applying w a left ((happlying w a left).mp hw)
  finished q hq a ha hno := by
    rw [hreceived q hq] at ha
    refine hc.finished q hq a ha fun w b hb => hno w b ?_
    obtain ⟨left, hb⟩ := hb
    exact ⟨left, (happlying w b left).mpr hb⟩

variable (h : Ordered work s k)

include h

/-- What an update has written lies in its region. -/
theorem inside (hq : q < k) (ha : work.update s.received q = some a) :
    ∀ v ∈ p q, a.regionStart ≤ v.1.offset ∧ v.1.offset < a.regionEnd := by
  intro v hv
  refine hc.writes_inside ha v ?_
  by_cases hrunning : ∃ w b, s.Applying w b ∧ b.sequence = q
  · obtain ⟨w, b, ⟨left, hb⟩, rfl⟩ := hrunning
    have hba : b = a := Option.some.inj ((h.applying w b ⟨left, hb⟩).2.1.symm.trans ha)
    subst hba
    rw [← hc.applying w b left hb]
    exact mem_append_left left hv
  · rw [← hc.finished q hq a ha fun w b hb heq => hrunning ⟨w, b, hb, heq⟩]
    exact hv

theorem popApply (hidle : s.workers w = .idle) (hak : a.sequence = k) (tasks : TaskSet κ) :
    Contents work memory { s.setWorker w (.applying a (work.writes a)) with tasks } (k + 1)
      (Function.update p k []) where
  received := hc.received
  memory_eq := by
    rw [inOrder_succ, Function.update_self]
    show s.memory = inOrder memory k (Function.update p k [])
    rw [hc.memory_eq]
    exact inOrder_congr memory fun i hi => (Function.update_of_ne (by omega) _ _).symm
  applying v b left hv := by
    rcases setWorker_workers.mp hv with ⟨-, hvx⟩ | ⟨-, hvx⟩
    · cases hvx
      rw [hak, Function.update_self]
      rfl
    · have hlt := (h.applying v b ⟨left, hvx⟩).1
      rw [Function.update_of_ne (by omega)]
      exact hc.applying v b left hvx
  finished q hq b hb hno := by
    have hqk : q ≠ k := by
      rintro rfl
      exact hno w a ⟨_, setWorker_workers.mpr (.inl ⟨rfl, rfl⟩)⟩ hak
    rw [Function.update_of_ne hqk]
    refine hc.finished q (by omega) b hb fun v c hv => ?_
    obtain ⟨left, hvx⟩ := hv
    refine hno v c ⟨left, setWorker_workers.mpr (.inr ⟨?_, hvx⟩)⟩
    rintro rfl
    rw [hidle] at hvx
    cases hvx

/-- A worker writes a byte: no update that was received later has written there. -/
theorem written {v : Loc × UInt8} {left : List (Loc × UInt8)}
    (hw : s.workers w = .applying a (v :: left)) :
    Contents work memory { s.setWorker w (.applying a left) with memory := write s.memory v } k
      (Function.update p a.sequence (p a.sequence ++ [v])) := by
  obtain ⟨hak, hup, -⟩ := h.applying w a ⟨_, hw⟩
  have hwrites := hc.applying w a _ hw
  have hv : v ∈ work.writes a := by
    rw [← hwrites]
    exact mem_append_right _ mem_cons_self
  have hlater : ∀ j, a.sequence < j → j < k → ∀ u ∈ p j, u.1 ≠ v.1 := by
    intro j haj hj u hu heq
    obtain ⟨b, hb⟩ := h.update_of_lt hj
    have hu' := hc.inside h hj hb u hu
    rw [heq] at hu'
    have hover : a.overlaps b = true := intervalOverlaps_of_mem (hc.writes_inside hup v hv) hu'
    rw [h.clear w a ⟨_, hw⟩ j b haj hj hb] at hover
    cases hover
  exact
    { received := hc.received
      memory_eq := by
        show write s.memory v = _
        rw [inOrder_write memory p v hak hlater, hc.memory_eq]
      applying := fun u b l hu => by
        rcases setWorker_workers.mp hu with ⟨-, hux⟩ | ⟨hne, hux⟩
        · cases hux
          rw [Function.update_self, append_assoc]
          exact hwrites
        · have hseq : b.sequence ≠ a.sequence := fun heq =>
            hne (h.applying_one u w b a ⟨l, hux⟩ ⟨_, hw⟩ heq)
          rw [Function.update_of_ne hseq]
          exact hc.applying u b l hux
      finished := fun q hq b hb hno => by
        have hqa : q ≠ a.sequence := fun heq =>
          hno w a ⟨left, setWorker_workers.mpr (.inl ⟨rfl, rfl⟩)⟩ heq.symm
        rw [Function.update_of_ne hqa]
        exact hc.finished q hq b hb (not_applying hw hqa hno) }

/-- A worker is done with an update: all of it has been written. -/
theorem applied (hw : s.workers w = .applying a []) :
    Contents work memory { s.setWorker w .idle with
      tasks := s.tasks.applyDone a
      applied := s.applied ++ [a] } k p where
  received := hc.received
  memory_eq := hc.memory_eq
  applying v b left hv := by
    rcases setWorker_workers.mp hv with ⟨-, hvx⟩ | ⟨-, hvx⟩
    · cases hvx
    · exact hc.applying v b left hvx
  finished q hq b hb hno := by
    by_cases hqa : q = a.sequence
    · have hup := (h.applying w a ⟨_, hw⟩).2.1
      have hba : b = a := Option.some.inj (hb.symm.trans (by rw [hqa]; exact hup))
      rw [hba, hqa, ← hc.applying w a [] hw, append_nil]
    · exact hc.finished q hq b hb (not_applying hw hqa hno)

end Contents

/-! ## Runs -/

/-- Some number of updates has been started, in order, and, as long as they are known to stay inside
their regions, each has written a part of what it writes. -/
def InOrder (inside : Prop) (work : Work) (memory : Loc → UInt8) (s : Workers κ n) : Prop :=
  ∃ k, Ordered work s k ∧ (inside → ∃ p, Contents work memory s k p)

variable {inside : Prop}

theorem inOrder_start : InOrder inside work memory (start memory : Workers κ n) :=
  ⟨0, ordered_start memory, fun _ => ⟨fun _ => [], {
    received := fun x h => by cases h
    memory_eq := rfl
    applying := fun _ _ _ h => by cases h
    finished := fun q h => absurd h (Nat.not_lt_zero q) }⟩⟩

section Steps

variable (h : InOrder inside work memory s)

include h

theorem InOrder.setIdle {state : Worker κ} (hbefore : ∀ a left, s.workers w ≠ .applying a left)
    (hafter : ∀ q t, state ≠ .decompressing q t) (hafter' : ∀ a left, state ≠ .applying a left) :
    InOrder inside work memory (s.setWorker w state) := by
  obtain ⟨k, ho, hc⟩ := h
  refine ⟨k, ho.setIdle hbefore hafter hafter', fun hin => (hc hin).imp fun p hc => ?_⟩
  exact hc.congr rfl (applying_setWorker hbefore hafter') hc.received fun _ _ => rfl

theorem inOrder_pop (hstep : s.popStep work w = some t) : InOrder inside work memory t := by
  have hidle' (hidle : s.workers w = .idle) (a : TaskSet.ApplyTask) (left : List (Loc × UInt8)) :
      s.workers w ≠ .applying a left := by
    rw [hidle]
    nofun
  unfold popStep at hstep
  split at hstep
  · next a tasks hidle hpop =>
    cases hstep
    obtain ⟨k, ho, hc⟩ := h
    obtain ⟨b, ⟨⟩, happly⟩ | ⟨_, _, ⟨⟩, -⟩ | ⟨_, _, ⟨⟩, -⟩ := TaskSet.popTask_eq_some hpop
    refine ⟨k + 1, ho.popApply hidle happly, fun hin => ?_⟩
    obtain ⟨p, hc⟩ := hc hin
    exact ⟨_, hc.popApply ho hidle (ho.popApply_next happly).1 tasks⟩
  · next q x tasks hidle hpop =>
    cases hstep
    obtain ⟨k, ho, hc⟩ := h
    obtain ⟨_, ⟨⟩, -⟩ | ⟨y, rest, ⟨⟩, hqueue, rfl⟩ | ⟨_, _, ⟨⟩, -⟩ := TaskSet.popTask_eq_some hpop
    refine ⟨k, ho.popDecomp hidle hqueue, fun hin => (hc hin).imp fun p hc => ?_⟩
    refine hc.congr rfl ?_ hc.received fun _ _ => rfl
    exact applying_setWorker (hidle' hidle) fun _ _ => nofun
  · next x tasks hidle hpop =>
    cases hstep
    obtain ⟨_, ⟨⟩, -⟩ | ⟨_, _, ⟨⟩, -⟩ | ⟨y, rest, ⟨⟩, -, rfl⟩ := TaskSet.popTask_eq_some hpop
    obtain ⟨k, ho, hc⟩ : InOrder inside work memory (s.setWorker w (.constructing x)) :=
      h.setIdle (hidle' hidle) (fun _ _ => nofun) fun _ _ => nofun
    exact ⟨k, { ho with }, fun hin => (hc hin).imp fun p hc => { hc with }⟩
  · cases hstep

theorem inOrder_decompressed (hstep : s.decompressedStep work w = some t) :
    InOrder inside work memory t := by
  unfold decompressedStep at hstep
  split at hstep
  · next q x hw =>
    have hbefore : ∀ a left, s.workers w ≠ .applying a left := fun _ _ => by rw [hw]; nofun
    split at hstep
    · next a ha =>
      cases hstep
      obtain ⟨k, ho, hc⟩ := h
      refine ⟨k, ho.decompressed hw ha, fun hin => (hc hin).imp fun p hc => ?_⟩
      refine hc.congr rfl ?_ hc.received fun _ _ => rfl
      exact applying_setWorker hbefore fun _ _ => nofun
    · cases hstep
      exact h.setIdle hbefore (fun _ _ => nofun) fun _ _ => nofun
  · cases hstep

theorem inOrder_step {e : WorkersEvent κ n}
    (hinside : inside → ∀ x, e = .receive x → work.Inside x) (hstep : s.step work e = some t) :
    InOrder inside work memory t := by
  cases e with
  | receive x =>
    cases hstep
    obtain ⟨k, ho, hc⟩ := h
    refine ⟨k, ho.receive x, fun hin => (hc hin).imp fun p hc => ?_⟩
    refine hc.congr rfl (fun _ _ _ => Iff.rfl) ?_ fun q hq => ?_
    · exact forall_mem_append.mpr ⟨hc.received, forall_mem_singleton.mpr (hinside hin x rfl)⟩
    · have := ho.started_le
      have := ho.seqno_le
      exact Work.update_receive (by omega) x
  | receiveConstruct x =>
    cases hstep
    obtain ⟨k, ho, hc⟩ := h
    refine ⟨k, { ho with }, fun hin => (hc hin).imp fun p hc => ?_⟩
    exact hc.congr rfl (fun _ _ _ => Iff.rfl) hc.received fun _ _ => rfl
  | pop w => exact inOrder_pop h hstep
  | decompressed w => exact inOrder_decompressed h hstep
  | write w =>
    obtain ⟨k, ho, hc⟩ := h
    simp only [step, writeStep] at hstep
    split at hstep
    · next a v left hw =>
      cases hstep
      refine ⟨k, ho.written hw _, fun hin => ?_⟩
      obtain ⟨p, hc⟩ := hc hin
      exact ⟨_, hc.written ho hw⟩
    · cases hstep
  | applied w =>
    obtain ⟨k, ho, hc⟩ := h
    simp only [step, appliedStep] at hstep
    split at hstep
    · next a hw =>
      cases hstep
      exact ⟨k, ho.applied hw, fun hin => (hc hin).imp fun p hc => hc.applied ho hw⟩
    · cases hstep
  | constructed w =>
    simp only [step, constructedStep] at hstep
    split at hstep
    · next x hw =>
      cases hstep
      exact h.setIdle (fun _ _ => by rw [hw]; nofun) (fun _ _ => nofun) fun _ _ => nofun
    · cases hstep

end Steps

theorem inOrder_run {es : List (WorkersEvent κ n)}
    (hrun : run (step work) (start memory) es = some s) :
    InOrder (∀ x, .receive x ∈ es → work.Inside x) work memory s := by
  have halong : Along (step work) (fun _ e => (∀ x, .receive x ∈ es → work.Inside x) →
      ∀ x, e = .receive x → work.Inside x) (start memory : Workers κ n) es :=
    Along.of_forall_mem fun e he hin x hx => hin x (hx ▸ he)
  exact run_invariant (fun _ _ _ h hin hstep => inOrder_step h hin hstep) inOrder_start halong hrun

section InOrder

variable (h : InOrder inside work memory s)

include h

/-- Two workers never apply overlapping updates at the same time. -/
theorem InOrder.disjoint
    (hw : s.Applying w a) (hv : s.Applying v b) (hne : w ≠ v) : a.overlaps b = false := by
  obtain ⟨k, ho, -⟩ := h
  obtain ⟨hak, haup, -⟩ := ho.applying w a hw
  obtain ⟨hbk, hbup, -⟩ := ho.applying v b hv
  rcases Nat.lt_trichotomy a.sequence b.sequence with hlt | heq | hlt
  · exact ho.clear w a hw _ b hlt hbk hbup
  · exact absurd (ho.applying_one w v a b hw hv heq) hne
  · unfold TaskSet.ApplyTask.overlaps
    rw [intervalOverlaps_comm]
    exact ho.clear v b hv _ a hlt hak haup

/-- When an update starts, all that were received before it are decompressed, and those that overlap
with it are applied. -/
theorem InOrder.starts {tasks : TaskSet κ}
    (hpop : s.tasks.popTask = .ok (some (.apply b, tasks))) :
    work.update s.received b.sequence = some b ∧ ∀ q < b.sequence,
      ∃ a, work.update s.received q = some a ∧ (a.overlaps b = true → a ∈ s.applied) := by
  obtain ⟨k, ho, -⟩ := h
  obtain ⟨c, ⟨⟩, happly⟩ | ⟨_, _, ⟨⟩, -⟩ | ⟨_, _, ⟨⟩, -⟩ := TaskSet.popTask_eq_some hpop
  obtain ⟨hbk, hclear⟩ := ho.popApply_next happly
  obtain ⟨rest, hb, -⟩ := TaskSet.popApply_eq_some happly
  refine ⟨(ho.apply b (by rw [hb]; exact mem_cons_self)).2.2.2, fun q hq => ?_⟩
  rcases ho.finished q (by omega) with ⟨w, a, hw, rfl⟩ | ⟨a, ha, hup⟩
  · refine ⟨a, (ho.applying w a hw).2.1, fun hover => ?_⟩
    rw [hclear w a hw] at hover
    cases hover
  · exact ⟨a, hup, fun _ => ha⟩

theorem InOrder.popTask_returns : ∃ r, s.tasks.popTask = .ok r := by
  obtain ⟨k, ho, -⟩ := h
  exact TaskSet.popTask_returns ho.inProgress_lt

/-- When everything is done, the memory is as if the updates had been applied one by one. -/
theorem InOrder.serial (hin : inside) (hquiet : s.Quiet) :
    s.memory = work.applyInOrder 0 s.received memory := by
  obtain ⟨k, ho, hc⟩ := h
  obtain ⟨p, hc⟩ := hc hin
  obtain ⟨hqueue, hdecomp, happly, hprogress⟩ := hquiet
  have hlast : s.tasks.lastSeqno = s.received.length := by
    have := ho.queue
    rw [hqueue] at this
    have := drop_eq_nil_iff.mp this.symm
    have := ho.seqno_le
    omega
  have hk : k = s.received.length := by
    by_contra hne
    have := ho.started_le
    rcases ho.covered k (Nat.le_refl k) (by omega) with hin | ⟨a, ha, -⟩
    · rw [hdecomp] at hin
      cases hin
    · rw [happly] at ha
      cases ha
  rw [Work.applyInOrder_eq, hc.memory_eq, ← hk]
  refine inOrder_congr memory fun q hq => ?_
  obtain ⟨a, ha⟩ := ho.update_of_lt hq
  rw [ha]
  refine hc.finished q hq a ha fun w b hb => ?_
  have hin := (ho.applying w b hb).2.2
  rw [hprogress] at hin
  cases hin

end InOrder

/-- Applying updates is serialisable.  In every state that a run reaches, two workers never apply
overlapping updates at once; an update that is about to start is one that was received, everything
received before it is decompressed and, where it overlaps, applied; `popTask` does not fail; and if
the updates only write inside their regions and nothing is left to do, the memory is as after
applying all updates one by one in the order in which they were received. -/
theorem apply_serialisable (work : Work) (memory : Loc → UInt8) (es : List (WorkersEvent κ n))
    (s : Workers κ n) (hrun : run (step work) (start memory) es = some s) :
    (∀ w v a b, s.Applying w a → s.Applying v b → w ≠ v → a.overlaps b = false) ∧
    (∀ b tasks, s.tasks.popTask = .ok (some (.apply b, tasks)) →
      work.update s.received b.sequence = some b ∧ ∀ q < b.sequence,
        ∃ a, work.update s.received q = some a ∧ (a.overlaps b = true → a ∈ s.applied)) ∧
    (∃ r, s.tasks.popTask = .ok r) ∧
    ((∀ x, .receive x ∈ es → work.Inside x) → s.Quiet →
      s.memory = work.applyInOrder 0 s.received memory) := by
  have h := inOrder_run hrun
  exact ⟨fun w v a b hw hv hne => h.disjoint hw hv hne, fun b tasks hpop => h.starts hpop,
    h.popTask_returns, h.serial⟩

/-- A `BufferFill` message for a file of eight bytes. -/
def fillTask (start : Nat) (data : List UInt8) : DecompTask where
  msgView := u32le ((16 + data.length) * 2 ^ 5 + WmsgType.bufferFill.code) ++ i32le 1 ++
    u32le start ++ u32le (start + data.length) ++ data
  fileSize := 8
  compression := .none
  target := .file 0 false

/-- Two overlapping updates.  The second is decompressed first, and has to wait. -/
def overlappingEvents : List (WorkersEvent Unit 2) :=
  [.receive (fillTask 0 [1, 2, 3, 4]), .receive (fillTask 2 [5, 6, 7, 8]), .pop 0, .pop 1,
    .decompressed 1, .decompressed 0, .pop 0, .write 0] ++ replicate 7 (.write 0) ++
    [.applied 0, .pop 1] ++ replicate 8 (.write 1) ++ [.applied 1]

theorem fillTask_inside {start : Nat} {data : List UInt8}
    (h : ∀ q, TaskSet.runDecompTask .stored q (fillTask start data) = .ok {
      sequence := q
      remoteId := 1
      data
      isDiffType := false
      ntrailing := 0
      target := .shm 0 8 false
      regionStart := start
      regionEnd := start + data.length }) : (shmWork .stored).Inside (fillTask start data) := by
  refine shmWork_inside fun q a ha => ?_
  cases (h q).symm.trans ha
  exact ⟨fun _ => Nat.le_refl _, nofun⟩

/-- With these updates, all is done at the end, and the memory is as required. -/
theorem apply_serialisable_overlapping :
    ∃ s, run (step (shmWork .stored)) (start fun _ => 0) overlappingEvents = some s ∧ s.Quiet ∧
      s.memory = (shmWork .stored).applyInOrder 0 s.received fun _ => 0 := by
  have hsome : ((run (step (shmWork .stored)) (start fun _ => 0) overlappingEvents).map
      fun s => decide s.Quiet) = some true := by decide +kernel
  obtain ⟨s, hrun, hquiet⟩ := Option.map_eq_some_iff.mp hsome
  have hquiet := of_decide_eq_true hquiet
  refine ⟨s, hrun, hquiet, ?_⟩
  refine (apply_serialisable (shmWork .stored) _ overlappingEvents s hrun).2.2.2 ?_ hquiet
  intro x hx
  simp only [overlappingEvents, mem_append, mem_cons, mem_replicate,
    WorkersEvent.receive.injEq, reduceCtorEq, not_mem_nil, and_false, or_false] at hx
  rcases hx with rfl | rfl
  · exact fillTask_inside fun q => rfl
  · exact fillTask_inside fun q => rfl

end Workers

end Waypipe
