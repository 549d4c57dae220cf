import Waypipe.Instance
import Waypipe.Tracking.HandlerMoves

/-!
# What happens to descriptors

`GlobEvent` is one thing that the main thread does to the tracked state: it translates a Wayland
message, processes a message about a descriptor, collects the updates of a descriptor, or notices
that something is complete.  The queues that a message is translated with are part of the event, and
are arbitrary.

Whatever the event, the heap of descriptors changes in steps of a few kinds (`heap_of_perform`).
-/

namespace Waypipe

open Wayland LeBytes Eff

variable (sys : System)
variable {rid : Rid} {msg : List UInt8} {s sfd : ShadowFd} {d : ShadowFdDmabuf} {r : SfdRef}
  {Q : ShadowFd → Prop} {onlyHere : Bool} {size : Nat}

/-! ## Kinds of changes -/

/-- Data of a descriptor that is new, whichever side made it. -/
inductive ShadowFdVariant.Fresh : ShadowFdVariant → Prop
  | file {f : ShadowFdFile}
      (hwrite : f.readonly = false → f.damage = .intervals [] ∧ f.bufferSize < 2 ^ 31) :
      Fresh (.file f)
  | dmabuf {d : ShadowFdDmabuf} (hreleases : d.releases = []) : Fresh (.dmabuf d)
  | timeline {t : ShadowFdTimeline} (hreleases : t.releases = []) : Fresh (.timeline t)
  | pipe (p : ShadowFdPipe) : Fresh (.pipe p)

theorem NewData.fresh {data : ShadowFdVariant} (h : NewData data) : data.Fresh := by
  cases h with
  | file _ _ _ hwrite => exact .file hwrite
  | dmabuf _ _ hreleases => exact .dmabuf hreleases
  | timeline hreleases => exact .timeline hreleases
  | pipe p => exact .pipe p

/-- How the data of one descriptor can change. -/
inductive DataStep : ShadowFdVariant → ShadowFdVariant → Prop
  | damage {f : ShadowFdFile} {dmg damage} (hdmg : ShmDamage dmg)
      (hadd : f.damage.add dmg = .ok damage) : DataStep (.file f) (.file { f with damage })
  | resize {f : ShadowFdFile} {size remote core} (hlt : size < 2 ^ 31) : DataStep (.file f)
        (.file { f with bufferSize := size, remoteBufsize := remote, core })
  | apply {f : ShadowFdFile} {pending core} :
      DataStep (.file f) (.file { f with pendingApplyTasks := pending, core })
  | collect {f : ShadowFdFile} {remote core damage}
      (hdamage : damage = f.damage ∨ damage = .intervals []) : DataStep (.file f)
        (.file { f with remoteBufsize := remote, core, damage })
  | dmabuf {d d' : ShadowFdDmabuf} (hreleases : d'.releases = d.releases) :
      DataStep (.dmabuf d) (.dmabuf d')
  | timeline {t t' : ShadowFdTimeline} (hreleases : t'.releases = t.releases) :
      DataStep (.timeline t) (.timeline t')
  | pipe (p p' : ShadowFdPipe) : DataStep (.pipe p) (.pipe p')

theorem SfdEvolves.dataStep {x y : ShadowFdVariant} (h : SfdEvolves x y) : DataStep x y := by
  cases h with
  | file hdmg hadd => exact .damage hdmg hadd
  | dmabuf => exact .dmabuf rfl
  | timeline => exact .timeline rfl

/-- A change of the heap.  `fresh` is what is known about the release points of commits. -/
inductive HeapStep (fresh : Prop) : List ShadowFd → List ShadowFd → Prop
  | add {l : List ShadowFd} {s : ShadowFd} (hs : s.data.Fresh) : HeapStep fresh l (l ++ [s])
  | data {l : List ShadowFd} {r s onlyHere data}
      (hr : l[r]? = some s) (h : DataStep s.data data) :
      HeapStep fresh l (l.set r { s with onlyHere, data })
  /-- A commit records the release point of a buffer with the timeline and with the buffer. -/
  | release {l : List ShadowFd} {buf timeline sfd tsfd d} {d' : ShadowFdDmabuf}
      {t pt} (hr : l[buf]? = some sfd)
      (hd : sfd.data = .dmabuf d) (htl : l[timeline]? = some tsfd) (ht : tsfd.data = .timeline t)
      (hfresh : fresh → (tsfd.remoteId, pt) ∉ d.releases.map (·.1))
      (hd' : d'.releases = d.releases.filter (·.1 ≠ (tsfd.remoteId, pt)) ++
        [((tsfd.remoteId, pt), timeline)]) :
      HeapStep fresh l ((l.set timeline { tsfd with data := .timeline { t with
        releases := t.releases ++ [(pt, buf)] } }).set buf { sfd with data := .dmabuf d' })
  /-- A point of a timeline has been reached. -/
  | prune {g g' : Globals} {timeline tsfd t current releases}
      (htl : g.sfds[timeline]? = some tsfd) (ht : tsfd.data = .timeline t)
      (hrun : (pruneReleases t.releases current tsfd.remoteId).run g = .ok (releases, g')) :
      HeapStep fresh g.sfds (g'.sfds.set timeline
        { tsfd with data := .timeline { t with releases } })

/-- Any number of changes of the heap. -/
abbrev HeapSteps (fresh : Prop) : List ShadowFd → List ShadowFd → Prop :=
  Relation.ReflTransGen (HeapStep fresh)

/-- Descriptors stay where they are, with their ids. -/
def Kept (l l' : List ShadowFd) : Prop :=
  ∀ (r : SfdRef) (s : ShadowFd), l[r]? = some s → ∃ s', l'[r]? = some s' ∧ s'.remoteId = s.remoteId

section Kept

open Post (bind_iff lift_iff pure_iff throw_iff)

variable {l l' l'' : List ShadowFd}

theorem Kept.refl : Kept l l := fun _ s hs => ⟨s, hs, rfl⟩

theorem Kept.trans (h : Kept l l') (h' : Kept l' l'') : Kept l l'' := by
  intro r s hs
  obtain ⟨s', hs', hid⟩ := h r s hs
  obtain ⟨s'', hs'', hid'⟩ := h' r s' hs'
  exact ⟨s'', hs'', hid'.trans hid⟩

theorem Kept.set (onlyHere : Bool) (data : ShadowFdVariant) (hr : l[r]? = some s) :
    Kept l (l.set r { s with onlyHere, data }) := by
  intro r' s' hs'
  by_cases hne : r = r'
  · subst hne
    cases hr.symm.trans hs'
    have hlt := (List.getElem?_eq_some_iff.mp hr).1
    exact ⟨_, List.getElem?_set_self hlt, rfl⟩
  · exact ⟨s', (List.getElem?_set_ne hne).trans hs', rfl⟩

/-- Objects and tables stay as they are. -/
structure SameTables (g g' : Globals) : Prop where
  objects : g'.objects = g.objects
  side : g'.onDisplaySide = g.onDisplaySide
  map : g'.map = g.map

/-- Pruning changes the release points of DMABUFs only. -/
theorem pruneReleases_post {g : Globals} {releases : List (Nat × SfdRef)} {current : Nat} :
    Post (pruneReleases releases current rid) g fun _ g' => SameTables g g' ∧ Kept g.sfds g'.sfds ∧
      ∀ (r : SfdRef) (s : ShadowFd), g.sfds[r]? = some s → (∀ d, s.data ≠ .dmabuf d) →
        g'.sfds[r]? = some s := by
  unfold pruneReleases
  refine bind_iff.mpr (Post.mono (Post.forM (I := fun g' => SameTables g g' ∧
    Kept g.sfds g'.sfds ∧ ∀ (r : SfdRef) (s : ShadowFd), g.sfds[r]? = some s →
      (∀ d, s.data ≠ .dmabuf d) → g'.sfds[r]? = some s) ?_ ?_) ?_)
  · rintro ⟨pt, buf⟩ _ g' ⟨hsame, hkept, hothers⟩
    unfold dropRelease
    simp only [bind_iff, post_readSfd]
    intro s hs
    split
    · rename_i d hd
      simp only [bind_iff, lift_iff, post_putSfdData]
      intro _ _ s' hs'
      cases hs.symm.trans hs'
      refine ⟨⟨hsame.1, hsame.2, hsame.3⟩, hkept.trans (.set _ _ hs), fun r x hx hnot => ?_⟩
      have hne : buf ≠ r := by
        rintro rfl
        cases hs.symm.trans (hothers _ x hx hnot)
        exact hnot d hd
      exact (List.getElem?_set_ne hne).trans (hothers r x hx hnot)
    · exact throw_iff.mpr trivial
  · exact ⟨⟨rfl, rfl, rfl⟩, .refl, fun r s hs _ => hs⟩
  · exact fun _ g' h => pure_iff.mpr h

theorem HeapStep.kept {fresh : Prop} (h : HeapStep fresh l l') : Kept l l' := by
  cases h with
  | add hs =>
    intro r s hs
    have hlt := (List.getElem?_eq_some_iff.mp hs).1
    exact ⟨s, (List.getElem?_append_left hlt).trans hs, rfl⟩
  | data hr h => exact .set _ _ hr
  | @release _ buf timeline sfd tsfd d d' t pt hr hd htl ht hfresh hd' =>
    refine (Kept.set tsfd.onlyHere (.timeline { t with releases := t.releases ++ [(pt, buf)] })
      htl).trans (.set sfd.onlyHere (.dmabuf d') ?_)
    have hne : timeline ≠ buf := by
      rintro rfl
      cases hr.symm.trans htl
      rw [hd] at ht
      cases ht
    exact (List.getElem?_set_ne hne).trans hr
  | @prune g g' timeline tsfd t current releases htl ht hrun =>
    obtain ⟨_, hkept, hothers⟩ := pruneReleases_post releases g' hrun
    refine hkept.trans (.set tsfd.onlyHere (.timeline { t with releases }) ?_)
    exact hothers timeline tsfd htl fun d hd => by rw [ht] at hd; cases hd

theorem kept_of_heapSteps {fresh : Prop} (h : HeapSteps fresh l l') : Kept l l' := by
  induction h with
  | refl => exact .refl
  | tail _ hstep ih => exact ih.trans hstep.kept

end Kept

/-! ## The table of descriptors -/

variable (g : Globals)

/-- The table refers to descriptors by their ids. -/
def Globals.MapOk : Prop :=
  ∀ rid r, g.map.lookup rid = some r → ∃ s, g.sfds[r]? = some s ∧ s.remoteId = rid

/-- Entries of the table are old ones, or are right. -/
def MapGrows (g g' : Globals) : Prop :=
  ∀ rid r, g'.map.lookup rid = some r → g.map.lookup rid = some r ∨
    ∃ s, g'.sfds[r]? = some s ∧ s.remoteId = rid

section MapGrows

variable {g g' g'' : Globals}

theorem MapGrows.of_eq (h : g'.map = g.map) : MapGrows g g' := fun _ _ hr => Or.inl (h ▸ hr)

theorem MapGrows.trans (h : MapGrows g g') (h' : MapGrows g' g'') (hkept : Kept g'.sfds g''.sfds) :
    MapGrows g g'' := by
  intro rid r hr
  obtain hr' | hr' := h' rid r hr
  · obtain hr'' | ⟨s, hs, hid⟩ := h rid r hr'
    · exact Or.inl hr''
    · obtain ⟨s', hs', hid'⟩ := hkept r s hs
      exact Or.inr ⟨s', hs', hid'.trans hid⟩
  · exact Or.inr hr'

theorem MapGrows.insert (hsfds : g'.sfds = g.sfds ++ [s])
    (hmap : g'.map = g.map.insert rid g.sfds.length) (hid : s.remoteId = rid) : MapGrows g g' := by
  intro rid' r hr
  rw [hmap] at hr
  by_cases hne : rid' = rid
  · subst hne
    rw [AList.lookup_insert] at hr
    cases hr
    refine Or.inr ⟨s, ?_, hid⟩
    rw [hsfds, List.getElem?_concat_length]
  · rw [AList.lookup_insert_ne hne] at hr
    exact Or.inl hr

theorem MapGrows.erase (hmap : g'.map = g.map.erase rid) : MapGrows g g' := by
  intro rid' r hr
  rw [hmap] at hr
  by_cases hne : rid' = rid
  · subst hne
    rw [AList.lookup_erase] at hr
    cases hr
  · rw [AList.lookup_erase_ne hne] at hr
    exact Or.inl hr

theorem Globals.MapOk.mono (hok : g.MapOk) (hkept : Kept g.sfds g'.sfds) (h : MapGrows g g') :
    g'.MapOk := by
  intro rid r hr
  obtain hr' | hr' := h rid r hr
  · obtain ⟨s, hs, hid⟩ := hok rid r hr'
    obtain ⟨s', hs', hid'⟩ := hkept r s hs
    exact ⟨s', hs', hid'.trans hid⟩
  · exact hr'

end MapGrows

/-! ## Wayland messages -/

section Messages

variable {fresh : Prop} {m : Targets} {c c' : Ctx}

theorem HeapSteps.of_eq {l l' : List ShadowFd} (h : l' = l) : HeapSteps fresh l l' := h ▸ .refl

theorem HeapStep.of_eq {l l' l'' : List ShadowFd} (h : HeapStep fresh l l') (heq : l'' = l') :
    HeapSteps fresh l l'' := heq ▸ .single h

theorem heap_of_move (h : Move m c c') : HeapSteps fresh c.glob.sfds c'.glob.sfds := by
  cases h with
  | write | insert | popFd | pass | take => exact .refl
  | state h => exact .of_eq h.sfds
  | update | sendTable => exact .of_eq (Globals.setExtra_sfds ..)
  | @created g out t id bufId p r sfd d d' b hid hx hp hr hd hev hnew hb hshm =>
    have hstep : HeapStep fresh g.sfds (g.sfds.set r { sfd with data := .dmabuf d' }) :=
      .data hr (hd ▸ hev.dataStep)
    exact hstep.of_eq (by simp [Globals.setSfd, Ctx.glob, Globals.withObject])
  | evolve hr hev => exact .single (.data hr hev.dataStep)
  | resize _ _ hr hf _ hlt => exact .single (.data hr (hf ▸ .resize hlt))
  | create hdata => exact .single (.add hdata.fresh)
  | createTable _ _ hfile =>
    exact (HeapStep.add hfile.fresh).of_eq (by simp [Globals.created, Ctx.glob]; rfl)

theorem mapGrows_of_move (h : Move m c c') : MapGrows c.glob c'.glob := by
  cases h with
  | state h => exact .of_eq h.map
  | update | sendTable => exact .of_eq (Globals.setExtra_map ..)
  | created =>
    refine .of_eq ?_
    simp [Globals.setSfd, Ctx.glob, Globals.withObject]
  | create => exact .insert rfl rfl rfl
  | createTable => exact .insert (Globals.setExtra_sfds ..) (Globals.setExtra_map ..) rfl
  | _ => exact .of_eq rfl

theorem mapGrows_of_moves (h : Moves m c c') : MapGrows c.glob c'.glob := by
  induction h with
  | refl => exact .of_eq rfl
  | tail _ hmove ih =>
    exact ih.trans (mapGrows_of_move hmove) (kept_of_heapSteps (heap_of_move hmove : HeapSteps True _ _))

theorem heap_of_moves (h : Moves m c c') : HeapSteps fresh c.glob.sfds c'.glob.sfds := by
  induction h with
  | refl => exact .refl
  | tail _ hmove ih => exact ih.trans (heap_of_move hmove)

/-- What a commit of the surface `id` is about: the DMABUF, and the key of the release point. -/
def Globals.commitKey (id : ObjId) : Option (ShadowFdDmabuf × (Rid × Nat)) := do
  let surf ← (← g.extra? id).wlSurface?
  let (pt, timeline) ← surf.releasePt
  let buf ← attachedBuffer g surf
  match (← g.sfds[buf.sfd]?).data with
  | .dmabuf d => return (d, (← g.sfds[timeline]?).remoteId, pt)
  | _ => none

/-- The release point of a commit, if it has one, is not one that the buffer waits for already. -/
def Globals.FreshCommit (id : ObjId) : Prop :=
  ∀ k ∈ g.commitKey id, k.2 ∉ k.1.releases.map (·.1)

instance (g : Globals) (id : ObjId) : Decidable (g.FreshCommit id) :=
  match h : g.commitKey id with
  | none => isTrue (by simp [Globals.FreshCommit, h])
  | some k => decidable_of_iff (k.2 ∉ k.1.releases.map (·.1)) (by simp [Globals.FreshCommit, h])

theorem heap_of_committed {id : ObjId} (h : Committed id c c') :
    HeapSteps (c.glob.FreshCommit id) c.glob.sfds c'.glob.sfds := by
  cases h with
  | @mk surf buf sfd d d₁ d₂ g out hsurf hbuf hr hd hev hrel =>
    have hreleases : d₁.releases = d.releases := by cases hev; rfl
    have hkeep {x : ShadowFdDmabuf} : (x.committed c.glob.onDisplaySide).releases = x.releases := by
      unfold ShadowFdDmabuf.committed
      split <;> rfl
    generalize hrp : surf.releasePt = rp at hrel
    cases hrel with
    | unset =>
      change HeapSteps _ _ ((c.glob.takenPoints id surf).sfds.set _ _)
      rw [Globals.takenPoints_sfds]
      exact .single (.data hr (hd ▸ DataStep.dmabuf (hkeep.trans hreleases)))
    | @set pt timeline tsfd t htl ht =>
      rw [Globals.takenPoints_sfds] at htl
      have hfresh : c.glob.FreshCommit id → (tsfd.remoteId, pt) ∉ d.releases.map (·.1) := by
        intro h
        refine h (d, tsfd.remoteId, pt) ?_
        simp only [Globals.commitKey, hsurf, WpExtra.wlSurface?, hrp, hbuf, hr, hd, htl,
          Option.bind_eq_bind, Option.bind_some]
        rfl
      change HeapSteps _ _ (((c.glob.takenPoints id surf).sfds.set _ _).set _ _)
      rw [Globals.takenPoints_sfds]
      refine .single (.release hr hd htl ht hfresh (hkeep.trans ?_))
      rw [← hreleases]

theorem mapGrows_of_committed {id : ObjId} (h : Committed id c c') : MapGrows c.glob c'.glob := by
  cases h with
  | @mk surf buf sfd d d₁ d₂ g out hsurf hbuf hr hd hev hrel =>
    refine .of_eq (Eq.trans (b := (c.glob.takenPoints id surf).map) ?_ (Globals.setExtra_map ..))
    exact hrel.map_eq

/-- What a message does to the heap. -/
theorem heap_of_processed (h : Processed m c c') :
    HeapSteps (∀ id ∈ m.commit, c.glob.FreshCommit id) c.glob.sfds c'.glob.sfds := by
  cases h with
  | moves h => exact heap_of_moves h
  | erase _ h hplain =>
    have hmoves : HeapSteps (∀ id ∈ m.commit, c.glob.FreshCommit id) _ _ := heap_of_moves h
    exact hmoves
  | @commit id c₁ _ hid h h' =>
    rw [hid]
    refine Relation.ReflTransGen.trans ?_ (heap_of_moves h')
    simpa using heap_of_committed h

theorem mapGrows_of_processed (h : Processed m c c') :
    MapGrows c.glob c'.glob := by
  cases h with
  | moves h => exact mapGrows_of_moves h
  | erase _ h hplain =>
    have hmoves := mapGrows_of_moves h
    exact hmoves
  | commit _ h h' =>
    have hmap : MapGrows c.glob _ := mapGrows_of_committed h
    exact hmap.trans (mapGrows_of_moves h') (kept_of_heapSteps (heap_of_moves h' : HeapSteps True _ _))

end Messages

/-! ## Messages about descriptors -/

/-- What is done with descriptors alone. -/
structure Heaps (fresh : Prop) (g g' : Globals) : Prop where
  steps : HeapSteps fresh g.sfds g'.sfds
  objects : g'.objects = g.objects
  side : g'.onDisplaySide = g.onDisplaySide
  map : MapGrows g g'

section SfdMsg

open Post (bind_iff ite_iff lift_iff map_iff pure_iff throw_iff)

variable {fresh : Prop} {g : Globals} {alive : SfdRef → Bool}

omit sys in
theorem Heaps.refl : Heaps fresh g g := ⟨.refl, rfl, rfl, .of_eq rfl⟩

omit sys in
theorem Heaps.data {data : ShadowFdVariant} (hr : g.sfds[r]? = some s) (h : DataStep s.data data) :
    Heaps fresh g (g.setSfd r { s with data }) :=
  ⟨.single (.data hr h), rfl, rfl, .of_eq rfl⟩

omit sys in
/-- Rule for descriptors that are looked up by their id. -/
theorem post_requireSfd {missing : String} {P : SfdRef → Globals → Prop}
    (h : ∀ r, g.map.lookup rid = some r → P r g) : Post (requireSfd alive rid missing) g P := by
  unfold requireSfd getSfd
  simp only [bind_iff, post_getGlob, pure_iff, lift_iff, orErr_eq_ok, Option.filter_eq_some_iff]
  exact fun r hr => h r hr.1

omit sys in
theorem openSfd_heaps {data : ShadowFdVariant} (h : data.Fresh) :
    Post (openSfd rid data) g fun _ => Heaps fresh g := by
  unfold openSfd
  simp only [bind_iff, post_addSfd, post_modifyGlob, pure_iff]
  exact ⟨.single (.add h), rfl, rfl, .insert rfl rfl rfl⟩

omit sys in
theorem readI32_lt {start : Nat} {n : Int} (h : readI32 msg start = .ok n) :
    n < 2 ^ 31 := by
  obtain ⟨w, hw, h⟩ := Res.bind_eq_ok.mp h
  cases h
  obtain ⟨v, hv, hw⟩ := Res.bind_eq_ok.mp hw
  cases hw
  have hlen : v.length ≤ 4 := by
    unfold slice at hv
    split at hv
    · cases hv
      simp only [List.length_take, List.length_drop]
      omega
    · cases hv
  have hlt : leNat v < 256 ^ 4 := (leNat_lt v).trans_le (Nat.pow_le_pow_right (by decide) hlen)
  unfold toI32
  split <;> omega

theorem openFile_heaps :
    Post (openFile sys rid msg) g fun _ => Heaps fresh g := by
  unfold openFile
  simp only [bind_iff, lift_iff]
  intro size hsize fd _ _ _ _ _ mapping _
  refine (openSfd_heaps (.file fun _ => ⟨rfl, ?_⟩)).mono fun _ _ h => pure_iff.mpr h
  have := readI32_lt hsize
  show size.toNat < 2 ^ 31
  omega

theorem extendTo_step {data data' : ShadowFdFile} {newSize : Nat} (hlt : newSize < 2 ^ 31)
    (h : extendTo sys data newSize = .ok data') : DataStep (.file data) (.file data') := by
  unfold extendTo at h
  split at h
  · cases h
  · split at h
    · cases h
      rename_i hsize
      have hresize : DataStep (.file data)
          (.file { data with
            bufferSize := data.bufferSize
            remoteBufsize := data.remoteBufsize
            core := data.core }) :=
        .resize (hsize ▸ hlt)
      exact hresize
    · split at h
      · cases h
      · obtain ⟨_, _, h⟩ := Res.bind_eq_ok.mp h
        obtain ⟨core, _, h⟩ := Res.bind_eq_ok.mp h
        cases h
        exact .resize hlt

theorem extendFile_heaps :
    Post (extendFile sys alive rid msg) g fun _ => Heaps fresh g := by
  unfold extendFile
  simp only [post_guard, bind_iff, lift_iff]
  intro size hsize _
  refine post_requireSfd fun r _ => ?_
  simp only [post_readSfd]
  intro s hs
  split
  · rename_i data hdata
    simp only [bind_iff, lift_iff, post_putSfdData_of hs]
    intro data' hdata'
    have hlt : size.toNat < 2 ^ 31 := by
      have := readI32_lt hsize
      omega
    exact .data hs (hdata ▸ extendTo_step sys hlt hdata')
  · simp

theorem bufferUpdate_heaps {typ : WmsgType} {allow : Bool} :
    Post (bufferUpdate sys alive typ allow rid msg) g fun _ => Heaps fresh g := by
  unfold bufferUpdate
  refine bind_iff.mpr (post_requireSfd fun r _ => ?_)
  simp only [bind_iff, post_getGlob, post_readSfd]
  intro s hs
  split
  · rename_i d hd
    simp only [bind_iff, lift_iff, post_putSfdData_of hs, pure_iff]
    rintro ⟨d', target⟩ hupdate
    have hreleases : d'.releases = d.releases := by
      unfold updateDmabuf at hupdate
      dsimp only at hupdate
      split at hupdate
      · cases hupdate
        rfl
      · obtain ⟨_, _, hupdate⟩ := Res.bind_eq_ok.mp hupdate
        cases hupdate
        rfl
    exact .data hs (hd ▸ .dmabuf hreleases)
  · rename_i f hf
    simp only [ite_iff, lift_iff, fail_eq_ok, false_implies, implies_true, true_and,
      bind_iff, post_putSfdData_of hs, pure_iff]
    exact fun _ core _ => .data hs (hf ▸ .apply)
  · simp

omit sys in
theorem receivedDmabuf_releases {buf : DmabufImpl} {mirror : Option Nat} {drmFormat : Nat}
    {stride : Option Nat} {planes : List AddDmabufPlane} {video : Bool}
    (h : receivedDmabuf buf mirror drmFormat stride planes video = .ok d) : d.releases = [] := by
  obtain ⟨_, _, h⟩ := Res.bind_eq_ok.mp h
  cases h
  rfl

theorem openDMABUF_heaps :
    Post (openDMABUF sys rid msg) g fun _ => Heaps fresh g := by
  unfold openDMABUF
  simp only [bind_iff, lift_iff, post_getGlob]
  intro _ _ _ _ _ _ _ _ _ _ p _ _ _ d hd
  exact (openSfd_heaps (.dmabuf (receivedDmabuf_releases hd))).mono fun _ _ h => pure_iff.mpr h

theorem openDMAVidDstV2_heaps :
    Post (openDMAVidDstV2 sys rid msg) g fun _ => Heaps fresh g := by
  unfold openDMAVidDstV2
  simp only [bind_iff, lift_iff, post_getGlob]
  intro _ _ _ _ _ _ _ _ _ _ p _ _ _ q _ d hd _ _
  exact (openSfd_heaps (.dmabuf (receivedDmabuf_releases hd))).mono fun _ _ h => pure_iff.mpr h

omit sys in
theorem sendDMAVidPacket_heaps :
    Post (sendDMAVidPacket alive rid msg) g fun _ => Heaps fresh g := by
  unfold sendDMAVidPacket
  refine bind_iff.mpr (post_requireSfd fun r _ => ?_)
  simp only [bind_iff, post_readSfd, post_getGlob]
  intro s hs
  split
  · rename_i d dev hd
    simp only [post_guard]
    intro _
    split
    · simp only [bind_iff, post_putSfdData_of hs, pure_iff]
      exact .data hs (hd ▸ .dmabuf rfl)
    · exact throw_iff.mpr trivial
  · simp

theorem openTimeline_heaps :
    Post (openTimeline sys rid msg) g fun _ => Heaps fresh g := by
  unfold openTimeline
  simp only [bind_iff, post_getGlob]
  split
  · simp only [bind_iff, lift_iff]
    intro _ _ fd _
    exact (openSfd_heaps (.timeline rfl)).mono fun _ _ h => pure_iff.mpr h
  · simp

theorem openPipe_heaps {intoChannel : Bool} :
    Post (openPipe sys rid intoChannel) g fun _ => Heaps fresh g := by
  unfold openPipe
  simp only [bind_iff, lift_iff]
  rintro ⟨pipeR, pipeW⟩ _
  refine Post.mono (P := fun _ => Heaps fresh g) (openSfd_heaps (.pipe _)) fun r g' h => ?_
  exact post_modifyGlob.mpr ⟨h.steps, h.objects, h.side, h.map⟩

omit sys in
theorem pipeTransfer_heaps :
    Post (pipeTransfer alive rid msg) g fun _ => Heaps fresh g := by
  unfold pipeTransfer getSfd
  simp only [bind_iff, post_getGlob, pure_iff]
  split
  · exact pure_iff.mpr .refl
  · simp only [bind_iff, post_readSfd]
    intro s hs
    split
    · rename_i p hp
      simp only [ite_iff, pure_iff]
      refine ⟨fun _ => .refl, fun _ => ?_⟩
      split
      · exact (post_putSfdData_of hs).mpr (.data hs (hp ▸ .pipe _ _))
      · simp
    · simp

omit sys in
theorem pipeShutdown_heaps {writeEnd : Bool} :
    Post (pipeShutdown alive rid writeEnd) g fun _ => Heaps fresh g := by
  unfold pipeShutdown getSfd
  simp only [bind_iff, post_getGlob, pure_iff]
  split
  · exact pure_iff.mpr .refl
  · simp only [bind_iff, post_readSfd]
    intro s hs
    split
    · rename_i p hp
      simp only [bind_iff, lift_iff, post_putSfdData_of hs]
      intro delete _
      have hstep :
          Heaps fresh g (g.setSfd _ { s with data := .pipe { p with channelClosed := true } }) :=
        .data hs (hp ▸ .pipe _ _)
      simp only [ite_iff, pure_iff]
      refine ⟨fun _ => ?_, fun _ => hstep⟩
      unfold removePipe
      simp only [bind_iff, post_getGlob, lift_iff, post_modifyGlob]
      exact fun _ _ => ⟨hstep.steps, hstep.objects, hstep.side, .erase rfl⟩
    · simp

omit sys in
/-- Pruning followed by writing the shorter list back. -/
theorem prune_heaps (fresh : Prop) {t : ShadowFdTimeline} {current : Nat} (hs : g.sfds[r]? = some s)
    (ht : s.data = .timeline t) :
    Post (pruneReleases t.releases current s.remoteId) g fun releases g' =>
      g'.sfds[r]? = some s ∧
        Heaps fresh g (g'.setSfd r { s with data := .timeline { t with releases } }) := by
  intro releases g' hrun
  obtain ⟨hsame, _, hothers⟩ := pruneReleases_post releases g' hrun
  refine ⟨hothers r s hs fun d hd => ?_, .single (.prune hs ht hrun), hsame.objects, hsame.side,
    .of_eq hsame.map⟩
  rw [ht] at hd
  cases hd

theorem signalTimeline_heaps (hok : g.MapOk) :
    Post (signalTimeline sys alive rid msg) g fun _ => Heaps fresh g := by
  unfold signalTimeline
  refine bind_iff.mpr (post_requireSfd fun r hr => ?_)
  simp only [bind_iff, post_readSfd]
  intro s hs
  obtain ⟨s', hs', rfl⟩ := hok rid r hr
  cases hs.symm.trans hs'
  split
  · rename_i t ht
    simp only [bind_iff, post_getGlob, post_guard, lift_iff]
    intro _ pt _
    refine (prune_heaps fresh hs ht).mono ?_
    rintro releases g' ⟨hs', hheaps⟩
    simp only [post_putSfdData_of hs']
    exact fun _ _ => hheaps
  · simp

/-- The messages from the other instance change the heap and the table only. -/
theorem processSfdMsg_heaps {typ : WmsgType} (hok : g.MapOk) :
    Post (processSfdMsg sys alive typ msg) g fun _ => Heaps fresh g := by
  have hnoTask {m : GlobAct Unit} (h : Post m g fun _ => Heaps fresh g) :
      Post (noTask m) g fun _ => Heaps fresh g := by
    unfold noTask
    exact bind_iff.mpr (h.mono fun _ _ hg => pure_iff.mpr hg)
  unfold processSfdMsg
  simp only [post_guard, bind_iff, lift_iff]
  intro _ rid _
  split
  · exact hnoTask (openFile_heaps sys)
  · exact hnoTask (extendFile_heaps sys)
  · exact map_iff.mpr (bufferUpdate_heaps sys)
  · exact map_iff.mpr (bufferUpdate_heaps sys)
  · exact hnoTask (openDMABUF_heaps sys)
  · exact hnoTask (openDMAVidDstV2_heaps sys)
  · exact map_iff.mpr sendDMAVidPacket_heaps
  · exact hnoTask (openTimeline_heaps sys)
  · exact hnoTask (signalTimeline_heaps sys hok)
  · exact hnoTask (openPipe_heaps sys)
  · exact hnoTask (openPipe_heaps sys)
  · exact hnoTask pipeTransfer_heaps
  · exact hnoTask pipeShutdown_heaps
  · exact hnoTask pipeShutdown_heaps
  · exact throw_iff.mpr trivial

/-! ## Completions -/

omit sys in
theorem applyDone_heaps :
    Post (applyDone rid) g fun _ => Heaps fresh g := by
  unfold applyDone
  simp only [bind_iff, post_getGlob, lift_iff, post_readSfd]
  intro r _ s hs
  split
  · rename_i f hf
    simp only [bind_iff, lift_iff, post_putSfdData_of hs]
    intro n _
    have hstep : DataStep (.file f) (.file { f with pendingApplyTasks := n, core := f.core }) := .apply
    exact .data hs (hf ▸ hstep)
  · rename_i d hd
    simp only [bind_iff, lift_iff, post_putSfdData_of hs]
    intro n _
    exact .data hs (hd ▸ .dmabuf rfl)
  · exact throw_iff.mpr trivial

theorem vulkanApplied_heaps :
    Post (vulkanApplied sys rid) g fun _ => Heaps fresh g := by
  unfold vulkanApplied
  simp only [bind_iff, post_getGlob]
  split
  · unfold completeApply
    simp only [bind_iff, post_getGlob, lift_iff, post_readSfd]
    intro r _ s hs
    split
    · rename_i d hd
      simp only [bind_iff, ite_iff, lift_iff, fail_eq_ok, false_implies,
        implies_true, true_and, post_getGlob, post_putSfdData_of hs]
      refine fun _ => ⟨fun _ _ _ => signalTimelineAcquires_post sys ?_, fun _ => ?_⟩
      · exact (post_putSfdData_of hs).mpr (.data hs (hd ▸ .dmabuf rfl))
      · exact .data hs (hd ▸ .dmabuf rfl)
    · exact throw_iff.mpr trivial
  · exact throw_iff.mpr trivial

omit sys in
theorem timelineReached_heaps {current : Nat} :
    Post (timelineReached r current) g fun _ => Heaps fresh g := by
  unfold timelineReached
  simp only [bind_iff, post_readSfd]
  intro s hs
  split
  · rename_i t ht
    split
    · exact pure_iff.mpr .refl
    · simp only [bind_iff, ite_iff, pure_iff, lift_iff]
      refine ⟨fun _ => .refl, fun _ => (prune_heaps fresh hs ht).mono ?_⟩
      rintro releases g' ⟨hs', hheaps⟩
      simp only [post_putSfdData_of hs']
      exact fun _ _ _ _ => hheaps
  · exact pure_iff.mpr .refl

end SfdMsg

/-! ## Collecting updates -/

section Collect

open Ends (bind_iff ite_iff modify_iff pure_iff throw_iff)

variable {env : CollectEnv} {s : Collecting}

@[simp] theorem ends_liftRes {α : Type} {x : Res α} {Q : α → Collecting → Prop} :
    Ends (liftRes x) s Q ↔ ∀ a, x = .ok a → Q a s := Ends.ofExcept_iff

theorem ends_liftErr {α : Type} {x : Except String α} {Q : α → Collecting → Prop}
    (h : ∀ a, Q a s) : Ends (liftErr x) s Q := Ends.ofExcept_iff.mpr fun a _ => h a

/-- The descriptor is all that matters. -/
theorem ends_pushVectors {vs : List (List UInt8)} (h : Q s.sfd) :
    Ends (pushVectors vs) s fun _ t => Q t.sfd := modify_iff.mpr h

theorem ends_queueTask {task : WorkTask} (h : Q s.sfd) :
    Ends (queueTask task) s fun _ t => Q t.sfd := modify_iff.mpr h

@[simp] theorem ends_setSfd {f : ShadowFd → ShadowFd} {Q : Unit → Collecting → Prop} :
    Ends (setSfd f) s Q ↔ Q () { s with sfd := f s.sfd } := modify_iff

/-- The file after it has been looked at. -/
def FileCollected (f : ShadowFdFile) (sfd sfd' : ShadowFd) : Prop :=
  sfd'.remoteId = sfd.remoteId ∧ ∃ (remote : Nat) (core : Option ShadowFdFileCore) (damage : Damage),
    (damage = f.damage ∨ damage = .intervals []) ∧
      sfd'.data = .file { f with remoteBufsize := remote, core, damage }

section File

variable {f : ShadowFdFile} (hid : s.sfd.remoteId = sfd.remoteId) (hf : s.sfd.data = .file f)
include hid hf

theorem announceOpen_ends :
    Ends (announceOpen rid onlyHere f) s fun f' t => t.sfd.remoteId = sfd.remoteId ∧
      t.sfd.data = .file f' ∧ ∃ remote, f' = { f with remoteBufsize := remote } := by
  unfold announceOpen
  simp only [ite_iff, bind_iff, ends_liftRes, pure_iff]
  refine ⟨fun _ msg _ => modify_iff.mpr ?_, fun _ => ⟨hid, hf, f.remoteBufsize, rfl⟩⟩
  exact ends_setSfd.mpr ⟨hid, rfl, f.bufferSize, rfl⟩

theorem announceExtend_ends :
    Ends (announceExtend rid f) s fun f' t => t.sfd.remoteId = sfd.remoteId ∧
      t.sfd.data = .file f' ∧ ∃ remote, f' = { f with remoteBufsize := remote } := by
  unfold announceExtend setFile
  simp only [ite_iff, bind_iff, ends_liftRes, pure_iff]
  refine ⟨fun _ _ _ msg _ => modify_iff.mpr ?_, fun _ => ⟨hid, hf, f.remoteBufsize, rfl⟩⟩
  exact ends_setSfd.mpr ⟨hid, rfl, f.bufferSize, rfl⟩

omit hid hf in
theorem constructFillTransfers_ends {mapping : List UInt8} (h : Q s.sfd) :
    Ends (constructFillTransfers env rid size mapping) s fun _ t => Q t.sfd := by
  refine Ends.forM (I := fun t : Collecting => Q t.sfd) (fun i _ t ht => ?_) h
  unfold constructFillTransfer
  simp only [bind_iff, ends_liftRes]
  intro _ _ _ _ _ _ _ _
  exact ends_pushVectors ht

theorem collectFile_ends :
    Ends (collectFile env rid onlyHere f) s fun _ t => FileCollected f sfd t.sfd := by
  unfold collectFile
  refine bind_iff.mpr ((announceOpen_ends hid hf).mono ?_)
  rintro _ s₁ ⟨hid₁, hf₁, remote₁, rfl⟩
  refine bind_iff.mpr ((announceExtend_ends hid₁ hf₁).mono ?_)
  rintro _ s₂ ⟨hid₂, hf₂, remote₂, rfl⟩
  have hdone : FileCollected f sfd s₂.sfd := ⟨hid₂, remote₂, f.core, f.damage, Or.inl rfl, hf₂⟩
  simp only [ite_iff, bind_iff, pure_iff]
  refine ⟨fun _ => ?_, fun _ => ?_⟩
  · unfold collectReadonly
    simp only [ite_iff, pure_iff]
    refine ⟨fun _ => ?_, fun _ => hdone⟩
    split
    · exact throw_iff.mpr trivial
    · exact constructFillTransfers_ends hdone
  · unfold collectDamage
    simp only [ite_iff, bind_iff, ends_liftRes, pure_iff]
    refine ⟨fun _ => hdone, fun _ p _ => ?_⟩
    unfold unwrapFor setFile
    simp only [ite_iff, throw_iff, pure_iff, implies_true, true_and, ends_setSfd]
    intro _
    refine (Ends.forM (I := fun t : Collecting => t.sfd.remoteId = sfd.remoteId)
      (fun part _ t ht => ?_) hid₂).mono fun _ t ht => ?_
    · unfold diffTaskFor
      simp only [bind_iff, ends_liftRes]
      exact fun _ _ => ends_queueTask (Q := (·.remoteId = _)) ht
    · exact ⟨ht, _, _, _, Or.inr rfl, rfl⟩

end File

/-- What collecting does to a DMABUF: nothing, or it takes the damage and the acquire points. -/
inductive Drained (d : ShadowFdDmabuf) : ShadowFdDmabuf → Prop
  | idle (hdamage : d.damage.toIntervals (d.buf.nominalSize d.viewRowStride) = []) : Drained d d
  | drained {d' : ShadowFdDmabuf}
      (hdamage : d.damage.toIntervals (d.buf.nominalSize d.viewRowStride) ≠ [])
      (hdamage' : d'.damage = .intervals []) (hacquires : d'.acquires = [])
      (hreleases : d'.releases = d.releases)
      (hpending : d'.pendingApplyTasks = d.pendingApplyTasks) (hbuf : d'.buf = d.buf) : Drained d d'

def DmabufCollected (d : ShadowFdDmabuf) (sfd sfd' : ShadowFd) : Prop :=
  sfd'.remoteId = sfd.remoteId ∧ ∃ d', sfd'.data = .dmabuf d' ∧ Drained d d'

theorem importSemaphore_ends {syncFile : Bool} (h : Q s.sfd) :
    Ends (importSemaphore env syncFile) s fun _ t => Q t.sfd := by
  unfold importSemaphore
  simp only [ite_iff, pure_iff]
  exact ⟨fun _ => ends_liftErr fun _ => h, fun _ => h⟩

theorem openDmabuf_ends (hid : s.sfd.remoteId = sfd.remoteId) (hd : s.sfd.data = .dmabuf d) :
    Ends (openDmabuf env rid onlyHere d) s fun _ t =>
      t.sfd.remoteId = sfd.remoteId ∧ t.sfd.data = .dmabuf d := by
  unfold openDmabuf openDmabufMsg
  simp only [ite_iff, bind_iff, ends_liftRes, pure_iff, ends_setSfd]
  refine ⟨fun _ slice _ => ⟨fun _ => ?_, fun _ header _ => ?_⟩, fun _ => ⟨hid, hd⟩⟩
  · split
    · exact throw_iff.mpr trivial
    · simp only [bind_iff, ends_liftRes]
      exact fun _ _ => ends_pushVectors (Q := fun x => x.remoteId = _ ∧ x.data = _) ⟨hid, hd⟩
  · exact ends_pushVectors (Q := fun x => x.remoteId = _ ∧ x.data = _) ⟨hid, hd⟩

/-- Only the id of the descriptor matters for what follows. -/
theorem drainAcquires_ends (h : Q s.sfd) :
    Ends (drainAcquires env d) s fun _ t => Q t.sfd := by
  unfold drainAcquires
  simp only [ite_iff, pure_iff, throw_iff, implies_true, and_true]
  exact fun _ => h

theorem collectVideo_ends (hid : s.sfd.remoteId = sfd.remoteId) (hd : s.sfd.data = .dmabuf d) :
    Ends (collectVideo env rid d) s fun _ t => DmabufCollected d sfd t.sfd := by
  unfold collectVideo
  simp only [ite_iff, List.isEmpty_iff, pure_iff]
  refine ⟨fun hnone => ⟨hid, d, hd, .idle hnone⟩, fun hsome => ?_⟩
  refine bind_iff.mpr ((drainAcquires_ends (Q := (·.remoteId = _)) hid).mono
    fun acquires s₁ hid₁ => ?_)
  unfold setDmabuf
  simp only [bind_iff, ends_setSfd]
  refine ends_liftErr fun sync => ?_
  refine Ends.mono (P := fun _ t => t.sfd.remoteId = sfd.remoteId)
    (importSemaphore_ends (Q := (·.remoteId = _)) (by exact hid₁))
    fun _ s₂ hid₂ => ?_
  refine Ends.mono (P := fun _ t => DmabufCollected d sfd t.sfd) (ends_queueTask ?_)
    fun _ _ h => pure_iff.mpr h
  exact ⟨hid₂, _, rfl, .drained hsome rfl rfl rfl rfl rfl⟩

theorem readPixels_ends (h : Q s.sfd) :
    Ends (readPixels env d size) s fun _ t => Q t.sfd := by
  unfold readPixels
  split
  · exact ends_liftErr fun _ => h
  · exact pure_iff.mpr h

section Queue

variable {d₀ : ShadowFdDmabuf} {syncFile : Bool} {acquires : List (Nat × SfdRef)}
  (hid : s.sfd.remoteId = sfd.remoteId)
  (hdrained : ∀ d', d'.acquires = d.acquires → d'.releases = d.releases → d'.buf = d.buf →
    d'.pendingApplyTasks = d.pendingApplyTasks → d'.damage = .intervals [] → Drained d₀ d')
include hid hdrained

theorem queueFill_ends {copied : List UInt8} :
    Ends (queueFill env rid d syncFile acquires copied size) s fun _ t =>
      DmabufCollected d₀ sfd t.sfd := by
  unfold queueFill setDmabuf
  simp only [bind_iff, ends_setSfd]
  refine Ends.mono (P := fun _ t => t.sfd.remoteId = sfd.remoteId)
    (Ends.forM (I := fun t : Collecting => t.sfd.remoteId = sfd.remoteId)
      (fun i _ t ht => ?_) (by exact hid)) fun _ t ht => ⟨ht, _, rfl, hdrained _ rfl rfl rfl rfl rfl⟩
  unfold fillTaskFor
  simp only [bind_iff, ends_liftRes]
  intro _ _ _ _
  split
  · refine bind_iff.mpr ((importSemaphore_ends (Q := (·.remoteId = _)) ht).mono
      fun _ u hu => ends_queueTask (Q := (·.remoteId = _)) hu)
  · exact ends_queueTask (Q := (·.remoteId = _)) ht

theorem queueDiff_ends {damaged : List (Nat × Nat)} :
    Ends (queueDiff env rid d syncFile acquires damaged size) s fun _ t =>
      DmabufCollected d₀ sfd t.sfd := by
  unfold queueDiff setDmabuf unwrapFor
  simp only [bind_iff, ends_liftRes, ite_iff, throw_iff, implies_true,
    true_and, pure_iff, ends_setSfd]
  intro p _ _
  refine Ends.mono (P := fun _ t => t.sfd.remoteId = sfd.remoteId)
    (Ends.forM (I := fun t : Collecting => t.sfd.remoteId = sfd.remoteId)
      (fun part _ t ht => ?_) hid) fun _ t ht => ⟨ht, _, rfl, hdrained _ rfl rfl rfl rfl rfl⟩
  unfold diffDmabufTaskFor
  simp only [bind_iff, ends_liftRes]
  intro _ _
  split
  · refine bind_iff.mpr ((importSemaphore_ends (Q := (·.remoteId = _)) ht).mono
      fun _ u hu => ends_queueTask (Q := (·.remoteId = _)) hu)
  · exact throw_iff.mpr trivial

end Queue

theorem collectPixels_ends (hid : s.sfd.remoteId = sfd.remoteId) (hd : s.sfd.data = .dmabuf d) :
    Ends (collectPixels env rid d) s fun _ t => DmabufCollected d sfd t.sfd := by
  unfold collectPixels
  simp only [ite_iff, List.isEmpty_iff, pure_iff]
  refine ⟨fun hnone => ⟨hid, d, hd, .idle hnone⟩, fun hsome => ?_⟩
  refine bind_iff.mpr ((drainAcquires_ends (Q := (·.remoteId = _)) hid).mono
    fun acquires s₁ hid₁ => ?_)
  unfold setDmabuf
  simp only [bind_iff, ends_setSfd]
  refine ends_liftErr fun sync => ?_
  refine Ends.mono (P := fun _ t => t.sfd.remoteId = sfd.remoteId)
    (readPixels_ends (Q := (·.remoteId = _)) (by exact hid₁))
    fun copied s₂ hid₂ => ?_
  simp only [ite_iff, bind_iff, pure_iff]
  refine ⟨fun _ => queueFill_ends hid₂ ?_, fun _ => queueDiff_ends hid₂ ?_⟩
  · exact fun d' h₁ h₂ h₃ h₄ h₅ => .drained hsome h₅ h₁ h₂ h₄ h₃
  · exact fun d' h₁ h₂ h₃ h₄ h₅ => .drained hsome h₅ h₁ h₂ h₄ h₃

/-- What collecting does to the descriptor it looks at. -/
inductive Collected (sfd : ShadowFd) : ShadowFd → Prop
  | file {f sfd'} (hf : sfd.data = .file f) (h : FileCollected f sfd sfd') : Collected sfd sfd'
  | dmabuf {d sfd'} (hd : sfd.data = .dmabuf d) (h : DmabufCollected d sfd sfd') : Collected sfd sfd'
  | timeline {t onlyHere} (ht : sfd.data = .timeline t) :
      Collected sfd { sfd with onlyHere }
  | pipe {p p' onlyHere} (hp : sfd.data = .pipe p) :
      Collected sfd { sfd with onlyHere, data := .pipe p' }

theorem collectPipe_ends {p : ShadowFdPipe} (hp : sfd.data = .pipe p) (hsfd : s.sfd = sfd) :
    Ends (collectPipe rid onlyHere p) s fun _ t => Collected sfd t.sfd := by
  have hpipe {x : ShadowFd} {p' : ShadowFdPipe} (hid : x.remoteId = sfd.remoteId)
      (hx : x.data = .pipe p') : Collected sfd x := by
    have heq : x = { sfd with onlyHere := x.onlyHere, data := .pipe p' } := by
      rw [← hid, ← hx]
    rw [heq]
    exact .pipe hp
  subst hsfd
  unfold collectPipe
  refine bind_iff.mpr (Ends.mono (P := fun _ t =>
    t.sfd.remoteId = s.sfd.remoteId ∧ t.sfd.data = .pipe p) ?_ ?_)
  · unfold announcePipe
    rw [ite_iff]
    refine ⟨fun _ => ?_, fun _ => pure_iff.mpr ⟨rfl, hp⟩⟩
    simp only [bind_iff, ends_liftRes]
    exact fun msg _ => modify_iff.mpr (ends_setSfd.mpr ⟨rfl, hp⟩)
  rintro _ s₁ ⟨hid₁, hp₁⟩
  refine bind_iff.mpr (Ends.mono (P := fun _ t => Collected s.sfd t.sfd) ?_ ?_)
  · unfold transferPipe
    split
    · simp only [ite_iff, bind_iff, ends_liftRes, pure_iff]
      refine ⟨fun _ header _ => modify_iff.mpr (ends_setSfd.mpr ?_), fun _ => ?_⟩
      · exact hpipe hid₁ rfl
      · exact hpipe hid₁ hp₁
    · exact pure_iff.mpr (hpipe hid₁ hp₁)
  · intro _ s₂ h₂
    simp only [ite_iff, bind_iff, ends_liftRes, pure_iff]
    exact ⟨fun _ msg _ => ends_pushVectors h₂, fun _ => h₂⟩

theorem collectUpdates_ends : Ends (collectUpdates env) s fun _ t => Collected s.sfd t.sfd := by
  unfold collectUpdates
  refine bind_iff.mpr (Ends.get_iff.mpr ?_)
  dsimp only
  split
  · rename_i f hf
    exact (collectFile_ends rfl hf).mono fun _ _ h => .file hf h
  · rename_i d hd
    refine Ends.mono (P := fun _ t => DmabufCollected d s.sfd t.sfd) ?_
      fun _ _ h => .dmabuf hd h
    unfold collectDmabuf
    split
    · exact throw_iff.mpr trivial
    · refine bind_iff.mpr ((openDmabuf_ends rfl hd).mono ?_)
      rintro _ s₁ ⟨hid₁, hd₁⟩
      simp only [ite_iff]
      exact ⟨fun _ => collectVideo_ends hid₁ hd₁, fun _ => collectPixels_ends hid₁ hd₁⟩
  · rename_i t ht
    unfold collectTimeline
    simp only [ite_iff, bind_iff, ends_liftRes, pure_iff]
    refine ⟨fun _ header _ => modify_iff.mpr (ends_setSfd.mpr ?_), fun _ => ?_⟩
    · exact .timeline ht
    · exact @Collected.timeline s.sfd t s.sfd.onlyHere ht
  · rename_i p hp
    exact collectPipe_ends hp rfl

/-- Collecting is one change of the heap. -/
theorem Collected.heapStep {fresh : Prop} {l : List ShadowFd} {sfd' : ShadowFd}
    (h : Collected sfd sfd') (hr : l[r]? = some sfd) : HeapStep fresh l (l.set r sfd') := by
  have hset {data : ShadowFdVariant} (hid : sfd'.remoteId = sfd.remoteId)
      (hdata : sfd'.data = data) (hstep : DataStep sfd.data data) : HeapStep fresh l (l.set r sfd') := by
    have heq : sfd' = { sfd with onlyHere := sfd'.onlyHere, data } := by
      rw [← hid, ← hdata]
    rw [heq]
    exact .data hr hstep
  cases h with
  | file hf h =>
    obtain ⟨hid, remote, core, damage, hdamage, hdata⟩ := h
    exact hset hid hdata (hf ▸ .collect hdamage)
  | dmabuf hd h =>
    obtain ⟨hid, d', hdata, hdrained⟩ := h
    refine hset hid hdata (hd ▸ .dmabuf ?_)
    cases hdrained with
    | idle => rfl
    | drained _ _ _ hreleases => exact hreleases
  | @timeline t onlyHere ht => exact .data hr (ht ▸ .timeline rfl)
  | pipe hp => exact .data hr (hp ▸ .pipe _ _)

end Collect

/-! ## Runs -/

/-- One thing that the main thread does to the tracked state. -/
inductive GlobEvent where
  /-- A Wayland message is translated, with the given output and queues of descriptors. -/
  | message (msg : WaylandMsg) (out : Output) (transl : Transl)
  /-- A message about a descriptor, when the given ones are alive. -/
  | sfdMsg (alive : SfdRef → Bool) (typ : WmsgType) (msg : List UInt8)
  /-- The updates of a descriptor are collected. -/
  | collect (env : CollectEnv) (r : SfdRef) (queue : TransferQueue)
  | applyDone (rid : Rid)
  | vulkanDone (rid : Rid)
  | timelineReady (r : SfdRef) (current : Nat)
  /-- Entries of the tables are dropped. -/
  | forget (map fresh : List Rid) (pipes : SfdRef → Bool)

namespace Globals

def forget (map fresh : List Rid) (pipes : SfdRef → Bool) : Globals :=
  { g with
    map := map.foldl (fun m rid => m.erase rid) g.map
    fresh := fresh.foldl (fun m rid => m.erase rid) g.fresh
    pipes := g.pipes.filter pipes }

def perform : GlobEvent → Res Globals
  | .message msg out transl => do return (← processWayMsg sys msg ⟨⟨g, out⟩, transl⟩).2.glob
  | .sfdMsg alive typ msg => do return (← (processSfdMsg sys alive typ msg).run g).2
  | .collect env r queue => do
    let sfd ← g.sfd r
    let (keep, c) := Eff.exec (collectUpdates env) { sfd, queue, tasks := [] }
    let _ ← keep
    return g.setSfd r c.sfd
  | .applyDone rid => do return (← (Waypipe.applyDone rid).run g).2
  | .vulkanDone rid => do return (← (vulkanApplied sys rid).run g).2
  | .timelineReady r current => do return (← (timelineReached r current).run g).2
  | .forget map fresh pipes => .ok (g.forget map fresh pipes)

def step (e : GlobEvent) : Option Globals := (g.perform sys e).toOption

/-- A message that commits a surface gives the buffer a release point that it does not wait for
already. -/
def FreshRelease : GlobEvent → Prop
  | .message msg out transl => ∀ id ∈ (targetsOf msg ⟨⟨g, out⟩, transl⟩).commit, g.FreshCommit id
  | _ => True

instance (g : Globals) : (e : GlobEvent) → Decidable (g.FreshRelease e)
  | .message msg out transl => match h : (targetsOf msg ⟨⟨g, out⟩, transl⟩).commit with
    | none => isTrue (by simp [FreshRelease, h])
    | some id => decidable_of_iff (g.FreshCommit id) (by simp [FreshRelease, h])
  | .sfdMsg .. | .collect .. | .applyDone .. | .vulkanDone .. | .timelineReady .. | .forget .. =>
    isTrue trivial

variable {sys} {g g' : Globals} {e : GlobEvent}

theorem lookup_foldl_erase {m : AList fun _ : Rid => SfdRef} {rids : List Rid}
    (h : (rids.foldl (fun m rid => m.erase rid) m).lookup rid = some r) :
    m.lookup rid = some r := by
  induction rids generalizing m with
  | nil => exact h
  | cons x rids ih =>
    have hm := ih h
    by_cases hx : rid = x
    · subst hx
      rw [AList.lookup_erase] at hm
      cases hm
    · rwa [AList.lookup_erase_ne hx] at hm

/-- What an event does to the heap and to the table. -/
theorem heap_of_perform (hok : g.MapOk) (h : g.perform sys e = .ok g') :
    HeapSteps (g.FreshRelease e) g.sfds g'.sfds ∧ MapGrows g g' := by
  have hheaps {h : Heaps (g.FreshRelease e) g g'} :
      HeapSteps (g.FreshRelease e) g.sfds g'.sfds ∧ MapGrows g g' := ⟨h.steps, h.map⟩
  cases e with
  | message msg out transl =>
    obtain ⟨⟨p, c⟩, hmsg, h⟩ := Res.bind_eq_ok.mp h
    cases h
    have hprocessed := processWayMsg_processed sys hmsg
    exact ⟨heap_of_processed hprocessed, mapGrows_of_processed hprocessed⟩
  | sfdMsg alive typ msg =>
    obtain ⟨⟨task, g₁⟩, hmsg, h⟩ := Res.bind_eq_ok.mp h
    cases h
    exact @hheaps (processSfdMsg_heaps sys hok task _ hmsg)
  | collect env r queue =>
    obtain ⟨sfd, hsfd, h⟩ := Res.bind_eq_ok.mp h
    obtain ⟨keep, hkeep, h⟩ := Res.bind_eq_ok.mp h
    cases h
    have hends : Ends (collectUpdates env) { sfd, queue, tasks := [] }
        fun _ t => Collected sfd t.sfd := collectUpdates_ends
    have hcollected := hends keep _ (Prod.ext hkeep rfl)
    exact ⟨.single (hcollected.heapStep (orPanic_eq_ok.mp hsfd)), .of_eq rfl⟩
  | applyDone rid =>
    obtain ⟨⟨_, g₁⟩, hdone, h⟩ := Res.bind_eq_ok.mp h
    cases h
    exact @hheaps (applyDone_heaps _ _ hdone)
  | vulkanDone rid =>
    obtain ⟨⟨_, g₁⟩, hdone, h⟩ := Res.bind_eq_ok.mp h
    cases h
    exact @hheaps (vulkanApplied_heaps sys _ _ hdone)
  | timelineReady r current =>
    obtain ⟨⟨_, g₁⟩, hdone, h⟩ := Res.bind_eq_ok.mp h
    cases h
    exact @hheaps (timelineReached_heaps _ _ hdone)
  | forget map fresh pipes =>
    cases h
    exact ⟨.refl, fun rid r hr => Or.inl (lookup_foldl_erase hr)⟩

end Globals

end Waypipe
