import Waypipe.Descriptors
import Waypipe.Tracking.Retries

/-!
# Release points

A timeline keeps the list of the buffers that wait for its points, and each buffer keeps a map of
the points that it waits for.  A buffer that is committed twice for the same point is in the list
twice, but only once in the map: the entry is gone when the second one is looked for, and the
connection ends.  As long as no commit repeats a point that the buffer waits for, the entries on both
sides belong together one to one (`release_points_paired`).
-/

namespace Waypipe

open Wayland LeBytes Transition List

variable {buf : SfdRef} {tsfd : ShadowFd} {t : ShadowFdTimeline} {pt : Nat}

/-! ## Entries of buffers and timelines -/

/-- The release points that a buffer waits for. -/
def releasesAt (l : List ShadowFd) (buf : SfdRef) : List ((Rid × Nat) × SfdRef) :=
  match l[buf]? with
  | some { data := .dmabuf d, .. } => d.releases
  | _ => []

/-- The entries of timelines and buffers belong together. -/
structure Paired (l : List ShadowFd) : Prop where
  /-- A buffer waits for a point once. -/
  keys : ∀ buf, ((releasesAt l buf).map (·.1)).Nodup
  /-- The entries of buffers name timelines, by their ids. -/
  timeline : ∀ buf, ∀ e ∈ releasesAt l buf, ∃ tsfd t,
    l[e.2]? = some tsfd ∧ tsfd.data = .timeline t ∧ tsfd.remoteId = e.1.1
  /-- The list of a timeline has as many entries for a buffer and a point as the map of the
  buffer. -/
  count : ∀ (tl : SfdRef) (tsfd : ShadowFd) (t : ShadowFdTimeline), l[tl]? = some tsfd →
    tsfd.data = .timeline t → ∀ pt buf,
      t.releases.count (pt, buf) = (releasesAt l buf).count ((tsfd.remoteId, pt), tl)

section releasesAt

variable {l l' : List ShadowFd} {buf r tl : SfdRef} {s sfd tsfd : ShadowFd}

theorem releasesAt_of_dmabuf {d : ShadowFdDmabuf} (hs : l[buf]? = some s) (hd : s.data = .dmabuf d) :
    releasesAt l buf = d.releases := by
  obtain ⟨rid, onlyHere, data⟩ := s
  subst hd
  simp [releasesAt, hs]

theorem releasesAt_of_other (hs : l[buf]? = some s) (hd : ∀ d, s.data ≠ .dmabuf d) :
    releasesAt l buf = [] := by
  obtain ⟨rid, onlyHere, data⟩ := s
  cases data with
  | dmabuf d => exact absurd rfl (hd d)
  | file | pipe | timeline => simp [releasesAt, hs]

theorem releasesAt_of_none (hs : l[buf]? = none) : releasesAt l buf = [] := by
  simp [releasesAt, hs]

theorem releasesAt_congr (h : l'[buf]? = l[buf]?) : releasesAt l' buf = releasesAt l buf := by
  simp [releasesAt, h]

/-- An entry is one of a DMABUF. -/
theorem dmabuf_of_mem_releasesAt {e : (Rid × Nat) × SfdRef} (he : e ∈ releasesAt l buf) :
    ∃ s d, l[buf]? = some s ∧ s.data = .dmabuf d ∧ d.releases = releasesAt l buf := by
  cases hs : l[buf]? with
  | none =>
    rw [releasesAt_of_none hs] at he
    cases he
  | some s =>
    by_cases hd : ∃ d, s.data = .dmabuf d
    · obtain ⟨d, hd⟩ := hd
      exact ⟨s, d, rfl, hd, (releasesAt_of_dmabuf hs hd).symm⟩
    · rw [releasesAt_of_other hs fun d h => hd ⟨d, h⟩] at he
      cases he

theorem releasesAt_set_self {d : ShadowFdDmabuf} (hlt : buf < l.length) (hd : s.data = .dmabuf d) :
    releasesAt (l.set buf s) buf = d.releases :=
  releasesAt_of_dmabuf (getElem?_set_self hlt) hd

theorem releasesAt_set_ne (h : r ≠ buf) : releasesAt (l.set r s) buf = releasesAt l buf :=
  releasesAt_congr (getElem?_set_ne h)

/-- Data that is no DMABUF has no entries, before and after. -/
theorem releasesAt_set_other (hs : l[r]? = some s) (hd : ∀ d, s.data ≠ .dmabuf d)
    (hd' : ∀ d, sfd.data ≠ .dmabuf d) : releasesAt (l.set r sfd) buf = releasesAt l buf := by
  by_cases hne : r = buf
  · subst hne
    have hlt := (List.getElem?_eq_some_iff.mp hs).1
    rw [releasesAt_of_other hs hd, releasesAt_of_other (getElem?_set_self hlt) hd']
  · exact releasesAt_set_ne hne

end releasesAt

/-! ## Pruning -/

/-- The entries for the points `ps` of the timeline `rid` are gone, and nothing else is. -/
structure Dropped (rid : Rid) (ps : List (Nat × SfdRef)) (l l' : List ShadowFd) : Prop where
  length : l'.length = l.length
  releases : ∀ buf, releasesAt l' buf =
    (releasesAt l buf).filter fun e => ¬(e.1.1 = rid ∧ (e.1.2, buf) ∈ ps)
  timeline : ∀ (r : SfdRef) (s : ShadowFd) (t : ShadowFdTimeline), s.data = .timeline t →
    (l'[r]? = some s ↔ l[r]? = some s)

section Dropped

variable {rid : Rid} {g : Globals}

theorem Dropped.nil {l : List ShadowFd} : Dropped rid [] l l :=
  ⟨rfl, fun _ => by simp, fun _ _ _ _ => Iff.rfl⟩

theorem Dropped.cons {p : Nat × SfdRef} {ps : List (Nat × SfdRef)} {l l' l'' : List ShadowFd}
    (h : Dropped rid [p] l l') (h' : Dropped rid ps l' l'') : Dropped rid (p :: ps) l l'' where
  length := h'.length.trans h.length
  releases := by
    intro buf
    rw [h'.releases, h.releases, filter_filter]
    refine filter_congr fun e _ => ?_
    by_cases hid : e.1.1 = rid
    · simp [hid, Bool.and_comm]
    · simp [hid]
  timeline := fun r s t ht => (h'.timeline r s t ht).trans (h.timeline r s t ht)

/-- Dropping an entry that is there. -/
theorem dropRelease_yields (hmem : (rid, pt) ∈ (releasesAt g.sfds buf).map (·.1)) :
    Yields (dropRelease rid pt buf) g fun _ g' => Dropped rid [(pt, buf)] g.sfds g'.sfds := by
  obtain ⟨e, he, hkey⟩ := mem_map.mp hmem
  obtain ⟨s, d, hs, hd, hreleases⟩ := dmabuf_of_mem_releasesAt he
  have hlt := (List.getElem?_eq_some_iff.mp hs).1
  have hfind : (d.releases.find? (·.1 = (rid, pt))).isSome := by
    rw [find?_isSome]
    exact ⟨e, hreleases ▸ he, by simpa using hkey⟩
  obtain ⟨x, hx⟩ := Option.isSome_iff_exists.mp hfind
  unfold dropRelease
  refine Yields.bind_iff.mpr (yields_readSfd.mpr ⟨s, hs, ?_⟩)
  rw [hd]
  refine Yields.bind_iff.mpr (Yields.lift_iff.mpr ⟨x, orPanic_eq_ok.mpr hx, ?_⟩)
  unfold putSfdData putSfd
  refine Yields.bind_iff.mpr (yields_readSfd.mpr ⟨s, hs, yields_modifyGlob.mpr ⟨?_, ?_, ?_⟩⟩)
  · exact length_set
  · intro buf'
    by_cases hne : buf = buf'
    · subst hne
      change releasesAt (g.sfds.set buf _) buf = _
      rw [releasesAt_set_self hlt rfl, ← hreleases]
      refine filter_congr fun e _ => ?_
      obtain ⟨⟨rid', pt'⟩, tl⟩ := e
      simp
    · change releasesAt (g.sfds.set buf _) buf' = _
      rw [releasesAt_set_ne hne]
      refine (filter_eq_self.mpr fun e _ => ?_).symm
      simp [Ne.symm hne]
  · intro r s' t ht
    by_cases hne : buf = r
    · subst hne
      change (g.sfds.set buf _)[buf]? = _ ↔ _
      rw [getElem?_set_self hlt, hs]
      constructor
      · intro h
        cases h
        cases ht
      · intro h
        cases h
        rw [hd] at ht
        cases ht
    · change (g.sfds.set buf _)[r]? = _ ↔ _
      rw [getElem?_set_ne hne]

/-- The loop over the points that have been reached. -/
theorem dropReleases_yields {ps : List (Nat × SfdRef)} (hnodup : ps.Nodup)
    (hmem : ∀ p ∈ ps, (rid, p.1) ∈ (releasesAt g.sfds p.2).map (·.1)) :
    Yields (ps.forM fun (pt, buf) => dropRelease rid pt buf) g fun _ g' =>
      Dropped rid ps g.sfds g'.sfds := by
  induction ps generalizing g with
  | nil => exact Yields.pure_iff.mpr .nil
  | cons p ps ih =>
    obtain ⟨hp, hnodup⟩ := nodup_cons.mp hnodup
    show Yields
      (dropRelease rid p.1 p.2 >>= fun _ => ps.forM fun (pt, buf) => dropRelease rid pt buf) g _
    refine Yields.bind_iff.mpr ((dropRelease_yields (hmem p mem_cons_self)).mono ?_)
    intro _ g₁ hdropped
    refine (ih hnodup fun q hq => ?_).mono fun _ g₂ h => hdropped.cons h
    -- what is dropped first is not one of the others
    obtain ⟨e, he, hkey⟩ := mem_map.mp (hmem q (mem_cons_of_mem _ hq))
    refine mem_map.mpr ⟨e, ?_, hkey⟩
    rw [hdropped.releases]
    refine mem_filter.mpr ⟨he, ?_⟩
    have hne : q ≠ p := fun h => hp (h ▸ hq)
    have hpt : e.1.2 = q.1 := by rw [hkey]
    simp only [hpt, mem_singleton, Prod.mk.eta, hne, and_false, not_false_eq_true, decide_true]

end Dropped

/-! ## What a change of the heap keeps -/

section Paired

variable {l l' : List ShadowFd} {fresh : Prop}

/-- Changes that leave release points as they are. -/
theorem Paired.congr (h : Paired l) (hkept : Kept l l')
    (hreleases : ∀ buf, releasesAt l' buf = releasesAt l buf)
    (htimeline : ∀ (r : SfdRef) (s : ShadowFd) (t : ShadowFdTimeline), l[r]? = some s →
      s.data = .timeline t → ∃ s' t', l'[r]? = some s' ∧ s'.data = .timeline t')
    (hback : ∀ (r : SfdRef) (s' : ShadowFd) (t' : ShadowFdTimeline), l'[r]? = some s' →
      s'.data = .timeline t' → (∃ s t, l[r]? = some s ∧ s.data = .timeline t ∧
        t'.releases = t.releases) ∨ l[r]? = none ∧ t'.releases = []) : Paired l' where
  keys := fun buf => hreleases buf ▸ h.keys buf
  timeline := by
    intro buf e he
    rw [hreleases] at he
    obtain ⟨s, t, hs, ht, hid⟩ := h.timeline buf e he
    obtain ⟨s', t', hs', ht'⟩ := htimeline _ s t hs ht
    obtain ⟨s'', hs'', hid'⟩ := hkept _ s hs
    cases hs'.symm.trans hs''
    exact ⟨s', t', hs', ht', hid'.trans hid⟩
  count := by
    intro tl s' t' hs' ht' pt buf
    rw [hreleases]
    obtain ⟨s, t, hs, ht, heq⟩ | ⟨hnone, hempty⟩ := hback tl s' t' hs' ht'
    · obtain ⟨s'', hs'', hid⟩ := hkept tl s hs
      cases hs'.symm.trans hs''
      rw [heq, hid, h.count tl s t hs ht]
    · -- a timeline that is new has no entries anywhere
      rw [hempty, count_nil]
      refine (count_eq_zero.mpr fun he => ?_).symm
      obtain ⟨s, t, hs, _⟩ := h.timeline buf _ he
      cases hnone.symm.trans hs

theorem Paired.add {s : ShadowFd} (h : Paired l) (hs : s.data.Fresh) : Paired (l ++ [s]) := by
  have hold {r : SfdRef} {s' : ShadowFd} (hr : l[r]? = some s') : (l ++ [s])[r]? = some s' := by
    rw [getElem?_append_left (List.getElem?_eq_some_iff.mp hr).1, hr]
  refine h.congr (fun r s' hr => ⟨s', hold hr, rfl⟩) ?_
    (fun r s' t hr ht => ⟨s', t, hold hr, ht⟩) ?_
  · intro buf
    by_cases hlt : buf < l.length
    · exact releasesAt_congr (getElem?_append_left hlt)
    · rw [releasesAt_of_none (getElem?_eq_none (Nat.not_lt.mp hlt))]
      cases hget : (l ++ [s])[buf]? with
      | none => exact releasesAt_of_none hget
      | some s' =>
        have hs' : s' = s := by
          rw [getElem?_append_right (Nat.not_lt.mp hlt)] at hget
          exact mem_singleton.mp (mem_of_getElem? hget)
        subst hs'
        by_cases hd : ∃ d, s'.data = .dmabuf d
        · obtain ⟨d, hd⟩ := hd
          rw [releasesAt_of_dmabuf hget hd]
          rw [hd] at hs
          cases hs with
          | dmabuf hreleases => exact hreleases
        · exact releasesAt_of_other hget fun d h => hd ⟨d, h⟩
  · intro r s' t' hr ht'
    by_cases hlt : r < l.length
    · rw [getElem?_append_left hlt] at hr
      exact .inl ⟨s', t', hr, ht', rfl⟩
    · rw [getElem?_append_right (Nat.not_lt.mp hlt)] at hr
      have hs' : s' = s := mem_singleton.mp (mem_of_getElem? hr)
      subst hs'
      rw [ht'] at hs
      cases hs with
      | timeline hreleases =>
        exact .inr ⟨getElem?_eq_none (Nat.not_lt.mp hlt), hreleases⟩

theorem Paired.data {r : SfdRef} {s : ShadowFd} {onlyHere : Bool} {data : ShadowFdVariant}
    (h : Paired l) (hr : l[r]? = some s) (hstep : DataStep s.data data) :
    Paired (l.set r { s with onlyHere, data }) := by
  have hlt := (List.getElem?_eq_some_iff.mp hr).1
  refine h.congr (.set onlyHere data hr) ?_ ?_ ?_
  · intro buf
    by_cases hd : ∃ d, s.data = .dmabuf d
    · obtain ⟨d, hd⟩ := hd
      by_cases hne : r = buf
      · subst hne
        rw [hd] at hstep
        cases hstep with
        | @dmabuf _ d' hreleases =>
          rw [releasesAt_set_self hlt rfl, releasesAt_of_dmabuf hr hd]
          exact hreleases
      · exact releasesAt_set_ne hne
    · refine releasesAt_set_other hr (fun d h => hd ⟨d, h⟩) fun d' hd' => ?_
      change data = .dmabuf d' at hd'
      rw [hd'] at hstep
      generalize hx : s.data = x at hstep
      cases hstep with
      | dmabuf _ => exact hd ⟨_, hx⟩
  · intro r' s' t hr' ht
    by_cases hne : r = r'
    · subst hne
      cases hr.symm.trans hr'
      rw [ht] at hstep
      cases hstep with
      | timeline _ => exact ⟨_, _, getElem?_set_self hlt, rfl⟩
    · exact ⟨s', t, (getElem?_set_ne hne).trans hr', ht⟩
  · intro r' s' t' hr' ht'
    refine .inl ?_
    by_cases hne : r = r'
    · subst hne
      rw [getElem?_set_self hlt] at hr'
      cases hr'
      change data = .timeline t' at ht'
      rw [ht'] at hstep
      generalize hx : s.data = x at hstep
      cases hstep with
      | timeline hreleases => exact ⟨s, _, hr, hx, hreleases⟩
    · rw [getElem?_set_ne hne] at hr'
      exact ⟨s', t', hr', ht', rfl⟩

/-- An entry that the buffer does not have is recorded on both sides. -/
theorem Paired.recorded {timeline : SfdRef} {tsfd' : ShadowFd} {t' : ShadowFdTimeline}
    (h : Paired l) (htl : l[timeline]? = some tsfd) (ht : tsfd.data = .timeline t)
    (hfresh : (tsfd.remoteId, pt) ∉ (releasesAt l buf).map (·.1))
    (htl' : l'[timeline]? = some tsfd') (ht' : tsfd'.data = .timeline t')
    (hid : tsfd'.remoteId = tsfd.remoteId) (hreleases : t'.releases = t.releases ++ [(pt, buf)])
    (hself : releasesAt l' buf = releasesAt l buf ++ [((tsfd.remoteId, pt), timeline)])
    (hothers : ∀ buf', buf ≠ buf' → releasesAt l' buf' = releasesAt l buf')
    (hget : ∀ (r : SfdRef) (s : ShadowFd) (x : ShadowFdTimeline), timeline ≠ r →
      s.data = .timeline x → (l'[r]? = some s ↔ l[r]? = some s)) : Paired l' := by
  constructor
  · intro buf'
    by_cases hbuf : buf = buf'
    · subst hbuf
      rw [hself, map_append, map_singleton]
      refine nodup_append'.mpr ⟨h.keys buf, nodup_singleton _, ?_⟩
      rwa [disjoint_singleton]
    · rw [hothers buf' hbuf]
      exact h.keys buf'
  · intro buf' e he
    have hold : e ∈ releasesAt l buf' ∨ e = ((tsfd.remoteId, pt), timeline) := by
      by_cases hbuf : buf = buf'
      · subst hbuf
        rw [hself] at he
        simpa using he
      · rw [hothers buf' hbuf] at he
        exact .inl he
    obtain hold | rfl := hold
    · obtain ⟨s₁, t₁, hs₁, ht₁, hid₁⟩ := h.timeline buf' e hold
      by_cases hne : timeline = e.2
      · rw [← hne] at hs₁ ⊢
        cases htl.symm.trans hs₁
        exact ⟨tsfd', t', htl', ht', hid.trans hid₁⟩
      · exact ⟨s₁, t₁, (hget e.2 s₁ t₁ hne ht₁).mpr hs₁, ht₁, hid₁⟩
    · exact ⟨tsfd', t', htl', ht', hid⟩
  · intro tl s₁ t₁ hs₁ ht₁ pt' buf'
    by_cases hne : timeline = tl
    · subst hne
      cases htl'.symm.trans hs₁
      cases ht'.symm.trans ht₁
      rw [hreleases, count_append, h.count timeline tsfd t htl ht pt' buf', hid]
      by_cases hbuf : buf = buf'
      · subst hbuf
        rw [hself, count_append]
        by_cases hpt : pt = pt' <;> simp [hpt]
      · rw [hothers buf' hbuf]
        simp [hbuf]
    · rw [h.count tl s₁ t₁ ((hget tl s₁ t₁ hne ht₁).mp hs₁) ht₁]
      by_cases hbuf : buf = buf'
      · subst hbuf
        rw [hself, count_append]
        simp [hne]
      · rw [hothers buf' hbuf]

theorem Paired.release {timeline : SfdRef} {sfd : ShadowFd} {d d' : ShadowFdDmabuf} (h : Paired l)
    (hr : l[buf]? = some sfd) (hd : sfd.data = .dmabuf d) (htl : l[timeline]? = some tsfd)
    (ht : tsfd.data = .timeline t) (hfresh : (tsfd.remoteId, pt) ∉ d.releases.map (·.1))
    (hd' : d'.releases = d.releases.filter (·.1 ≠ (tsfd.remoteId, pt)) ++
      [((tsfd.remoteId, pt), timeline)]) :
    Paired ((l.set timeline { tsfd with data := .timeline { t with
      releases := t.releases ++ [(pt, buf)] } }).set buf { sfd with data := .dmabuf d' }) := by
  have hne : timeline ≠ buf := by
    rintro rfl
    cases hr.symm.trans htl
    rw [hd] at ht
    cases ht
  have hlt := (List.getElem?_eq_some_iff.mp hr).1
  have htlt := (List.getElem?_eq_some_iff.mp htl).1
  refine h.recorded htl ht (by rwa [releasesAt_of_dmabuf hr hd])
    ((getElem?_set_ne hne.symm).trans (getElem?_set_self htlt)) rfl rfl rfl ?_ ?_ ?_
  · -- nothing is replaced in the map
    rw [releasesAt_set_self (by rwa [length_set]) rfl, hd', releasesAt_of_dmabuf hr hd,
      filter_eq_self.mpr fun e he => ?_]
    simp only [ne_eq, decide_not, Bool.not_eq_true', decide_eq_false_iff_not]
    exact fun heq => hfresh (mem_map.mpr ⟨e, he, heq⟩)
  · intro buf' hbuf
    rw [releasesAt_set_ne hbuf]
    refine releasesAt_set_other htl (fun d hd => ?_) fun d hd => ?_
    · rw [ht] at hd
      cases hd
    · cases hd
  · intro r s x hr' hx
    by_cases hbuf : buf = r
    · subst hbuf
      rw [getElem?_set_self (by rwa [length_set]), hr]
      constructor
      · intro heq
        cases heq
        cases hx
      · intro heq
        cases heq
        rw [hd] at hx
        cases hx
    · rw [getElem?_set_ne hbuf, getElem?_set_ne hr']

/-- The points of a timeline that are in its list are in the maps of the buffers. -/
theorem Paired.mem_iff {tl : SfdRef} (h : Paired l) (htl : l[tl]? = some tsfd)
    (ht : tsfd.data = .timeline t) :
    (pt, buf) ∈ t.releases ↔ ((tsfd.remoteId, pt), tl) ∈ releasesAt l buf := by
  rw [← count_pos_iff, h.count tl tsfd t htl ht, count_pos_iff]

/-- The list of a timeline has no entry twice. -/
theorem Paired.nodup {tl : SfdRef} (h : Paired l) (htl : l[tl]? = some tsfd)
    (ht : tsfd.data = .timeline t) : t.releases.Nodup := by
  rw [nodup_iff_count_le_one]
  rintro ⟨pt, buf⟩
  rw [h.count tl tsfd t htl ht]
  exact nodup_iff_count_le_one.mp (h.keys buf).of_map _

/-- A key names one timeline. -/
theorem Paired.timeline_unique {e e' : (Rid × Nat) × SfdRef} (h : Paired l)
    (he : e ∈ releasesAt l buf) (he' : e' ∈ releasesAt l buf) (hkey : e.1 = e'.1) : e = e' :=
  inj_on_of_nodup_map (h.keys buf) he he' hkey

/-- The lists after a point `current` of the timeline `tl` has been reached. -/
structure Pruned (tl : SfdRef) (current : Nat) (l l' : List ShadowFd) : Prop where
  /-- The timeline waits for later points only. -/
  list : ∀ (tsfd : ShadowFd) (t : ShadowFdTimeline), l'[tl]? = some tsfd →
    tsfd.data = .timeline t → ∀ r ∈ t.releases, current < r.1
  /-- So do the buffers. -/
  maps : ∀ buf, ∀ e ∈ releasesAt l' buf, e.2 = tl → current < e.1.2
  /-- What waits for later points, or for other timelines, still does. -/
  others : ∀ buf, ∀ e ∈ releasesAt l buf, (e.2 = tl → current < e.1.2) → e ∈ releasesAt l' buf

section prune

variable {tl : SfdRef} {tsfd : ShadowFd} {t : ShadowFdTimeline} {current : Nat}

/-- The entries that go are those of the timeline with points up to `current`. -/
theorem Paired.dropped_iff (h : Paired l) (htl : l[tl]? = some tsfd) (ht : tsfd.data = .timeline t)
    {e : (Rid × Nat) × SfdRef} (he : e ∈ releasesAt l buf) :
    (e.1.1 = tsfd.remoteId ∧ (e.1.2, buf) ∈ t.releases.filter (fun r => r.1 ≤ current)) ↔
      (e.2 = tl ∧ e.1.2 ≤ current) := by
  obtain ⟨⟨rid, pt⟩, tl'⟩ := e
  simp only [mem_filter, decide_eq_true_eq, h.mem_iff htl ht]
  constructor
  · rintro ⟨rfl, hmem, hle⟩
    cases h.timeline_unique he hmem rfl
    exact ⟨rfl, hle⟩
  · rintro ⟨rfl, hle⟩
    obtain ⟨s, x, hs, _, hid⟩ := h.timeline buf _ he
    cases htl.symm.trans hs
    cases hid
    exact ⟨rfl, he, hle⟩

/-- What is left on both sides when a timeline has dropped the points up to `current`. -/
theorem Paired.pruned (h : Paired l) (htl : l[tl]? = some tsfd) (ht : tsfd.data = .timeline t)
    (hdropped : Dropped tsfd.remoteId (t.releases.filter fun r => r.1 ≤ current) l l') :
    Paired (l'.set tl { tsfd with data := .timeline { t with
      releases := t.releases.filter fun r => current < r.1 } }) ∧
    Pruned tl current l (l'.set tl { tsfd with data := .timeline { t with
      releases := t.releases.filter fun r => current < r.1 } }) := by
  have htl' := (hdropped.timeline tl tsfd t ht).mpr htl
  have hlt := (List.getElem?_eq_some_iff.mp htl').1
  have hreleases (buf : SfdRef) : releasesAt (l'.set tl { tsfd with data := .timeline { t with
      releases := t.releases.filter fun r => current < r.1 } }) buf =
      (releasesAt l buf).filter fun e => ¬(e.2 = tl ∧ e.1.2 ≤ current) := by
    rw [releasesAt_set_other htl', hdropped.releases]
    · refine filter_congr fun e he => ?_
      rw [decide_eq_decide, h.dropped_iff htl ht he]
    · intro d hd
      rw [ht] at hd
      cases hd
    · intro d hd
      cases hd
  refine ⟨⟨?_, ?_, ?_⟩, ⟨?_, ?_, ?_⟩⟩
  · intro buf
    rw [hreleases]
    exact (h.keys buf).sublist (filter_sublist.map _)
  · intro buf e he
    rw [hreleases] at he
    obtain ⟨s, x, hs, hx, hid⟩ := h.timeline buf e (mem_of_mem_filter he)
    by_cases hne : tl = e.2
    · rw [← hne] at hs ⊢
      cases htl.symm.trans hs
      exact ⟨_, _, getElem?_set_self hlt, rfl, hid⟩
    · exact ⟨s, x, (getElem?_set_ne hne).trans ((hdropped.timeline _ s x hx).mpr hs), hx, hid⟩
  · intro tl' s x hs hx pt buf
    rw [hreleases]
    by_cases hne : tl = tl'
    · subst hne
      rw [getElem?_set_self hlt] at hs
      cases hs
      cases hx
      by_cases hpt : current < pt
      · rw [count_filter (by simpa using hpt), count_filter (by simpa using hpt)]
        exact h.count tl tsfd t htl ht pt buf
      · rw [count_eq_zero.mpr (by simp [hpt]), count_eq_zero.mpr (by simp; omega)]
    · rw [getElem?_set_ne hne] at hs
      rw [count_filter (by simp [Ne.symm hne])]
      exact h.count tl' s x ((hdropped.timeline _ s x hx).mp hs) hx pt buf
  · intro s x hs hx r hmem
    rw [getElem?_set_self hlt] at hs
    cases hs
    cases hx
    simpa using (mem_filter.mp hmem).2
  · intro buf e he htl'
    rw [hreleases] at he
    have hnot : ¬(e.2 = tl ∧ e.1.2 ≤ current) := of_decide_eq_true (mem_filter.mp he).2
    exact Nat.lt_of_not_le fun hle => hnot ⟨htl', hle⟩
  · intro buf e he hlater
    rw [hreleases]
    refine mem_filter.mpr ⟨he, decide_eq_true fun hgone => ?_⟩
    exact absurd hgone.2 (Nat.not_le.mpr (hlater hgone.1))

end prune

/-- Pruning finds every entry that it looks for. -/
theorem pruneReleases_yields {g : Globals} {tl : SfdRef} (h : Paired g.sfds)
    (htl : g.sfds[tl]? = some tsfd) (ht : tsfd.data = .timeline t) (current : Nat) :
    Yields (pruneReleases t.releases current tsfd.remoteId) g fun releases g' =>
      releases = (t.releases.filter fun r => current < r.1) ∧
        Dropped tsfd.remoteId (t.releases.filter fun r => r.1 ≤ current) g.sfds g'.sfds := by
  unfold pruneReleases
  refine Yields.bind_iff.mpr ((dropReleases_yields ((h.nodup htl ht).filter _) ?_).mono ?_)
  · rintro ⟨pt, buf⟩ hp
    have hmem := (h.mem_iff htl ht).mp (mem_of_mem_filter hp)
    exact mem_map.mpr ⟨_, hmem, rfl⟩
  · intro _ g' hdropped
    exact Yields.pure_iff.mpr ⟨rfl, hdropped⟩

theorem Paired.heapStep (h : Paired l) (hstep : HeapStep fresh l l') (hfresh : fresh) : Paired l' := by
  cases hstep with
  | add hs => exact h.add hs
  | data hr hdata => exact h.data hr hdata
  | release hr hd htl ht hnew hd' => exact h.release hr hd htl ht (hnew hfresh) hd'
  | @prune g g' tl tsfd t current releases htl ht hrun =>
    obtain ⟨releases', g₁, hrun', heq, hdropped⟩ := pruneReleases_yields h htl ht current
    rw [hrun] at hrun'
    cases hrun'
    subst heq
    exact (h.pruned htl ht hdropped).1

theorem Paired.heapSteps (h : Paired l) (hsteps : HeapSteps fresh l l') (hfresh : fresh) :
    Paired l' := by
  induction hsteps with
  | refl => exact h
  | tail _ hstep ih => exact ih.heapStep hstep hfresh

end Paired

/-! ## Runs -/

section Runs

variable {sys : System} {g g' : Globals} {e : GlobEvent}

/-- Entries belong together, and the table of descriptors is right. -/
def Globals.Bookkept (g : Globals) : Prop := Paired g.sfds ∧ g.MapOk

theorem Globals.start_bookkept (side : Bool) (opts : Options) : (Globals.start side opts).Bookkept := by
  refine ⟨⟨fun _ => nodup_nil, fun _ _ he => (nomatch he), fun _ _ _ hs => (nomatch hs)⟩, ?_⟩
  intro rid r hr
  cases hr

theorem Globals.Bookkept.step (h : g.Bookkept) (hfresh : g.FreshRelease e)
    (hstep : g.step sys e = some g') : g'.Bookkept := by
  obtain ⟨hsteps, hmap⟩ := Globals.heap_of_perform h.2 (Res.toOption_eq_some.mp hstep)
  exact ⟨h.1.heapSteps hsteps hfresh, h.2.mono (kept_of_heapSteps hsteps) hmap⟩

end Runs

/-- In every run whose commits repeat no release point that the buffer waits for, the entries of
timelines and buffers belong together one to one; so when any point of a timeline is reached, every
entry is found, and what remains on both sides are the later points. -/
theorem release_points_paired (sys : System) (side : Bool) (opts : Options) (es : List GlobEvent)
    (g : Globals)
    (hfresh : Transition.Along (Globals.step sys) Globals.FreshRelease (.start side opts) es)
    (hrun : Transition.run (Globals.step sys) (.start side opts) es = some g) :
    Paired g.sfds ∧ ∀ (tl : SfdRef) (tsfd : ShadowFd) (t : ShadowFdTimeline) (current : Nat),
      g.sfds[tl]? = some tsfd → tsfd.data = .timeline t →
      ∃ releases g', (pruneReleases t.releases current tsfd.remoteId).run g = .ok (releases, g') ∧
        Pruned tl current g.sfds
          (g'.sfds.set tl { tsfd with data := .timeline { t with releases } }) := by
  have hinv : g.Bookkept := run_invariant (P := Globals.Bookkept)
    (fun _ _ _ h hC hstep => h.step hC hstep) (Globals.start_bookkept side opts) hfresh hrun
  refine ⟨hinv.1, fun tl tsfd t current htl ht => ?_⟩
  obtain ⟨releases, g', hprune, rfl, hdropped⟩ := pruneReleases_yields hinv.1 htl ht current
  exact ⟨_, g', hprune, (hinv.1.pruned htl ht hdropped).2⟩

/-! ## Commits of one buffer -/

/-- A system with a Vulkan device that can create anything. -/
def vulkanSystem : System :=
  { System.headless with
    setupVulkanInstance := fun _ => .ok (some {
      hasDevice := fun _ => true, deviceSupportsTimelineImportExport := fun _ => true })
    setupVulkanDevice := fun _ _ _ => .ok (some {
      device := 0, supportedModifiers := fun _ => [0], supportsTimelineImportExport := true })
    vulkanCreateDmabuf := fun _ width height _ _ _ => .ok (.vulkan width height 4,
      [{ fd := 9, planeIdx := 0, offset := 0, stride := 4 * width, modifier := 0 }])
    vulkanCreateTimeline := fun _ _ => .ok 10
    signalTimelinePt := fun _ _ => .ok () }

/-- An application makes a surface, with a sync object for it; the DMABUF interface is object 4. -/
def surfaceRequests : List WaylandMsg :=
  [.make 1 1 (.obj 2),
    bindMsg .wlCompositor 3,
    bindMsg .zwpLinuxDmabufV1 4,
    bindMsg .wpLinuxDrmSyncobjManagerV1 5,
    .make 3 0 (.obj 6),
    .make 5 1 (.obj 9 ++ .obj 6)]

/-- A buffer with 4 by 4 pixels. -/
def dmabufOpened (rid : Rid) : List UInt8 :=
  u32le (76 * 2 ^ 5 + WmsgType.openDMABUF.code) ++ i32le rid ++ u32le 64 ++ u32le 4 ++ u32le 4 ++
    u32le 0x34325258 ++ replicate 20 0 ++ u32le 16 ++ replicate 28 0

def timelineOpened (rid : Rid) : List UInt8 :=
  u32le (16 * 2 ^ 5 + WmsgType.openTimeline.code) ++ i32le rid ++ u64le 0

/-- The buffer is object 8. -/
def bufferRequests : List WaylandMsg :=
  [.make 4 1 (.obj 7),
    .make 7 3 (.obj 8 ++ .i32 4 ++ .i32 4 ++ .u32 0x34325258 ++ .u32 0)]

/-- The timeline is object 10; the request comes with one descriptor. -/
def timelineRequest : WaylandMsg := .make 5 (2 ^ 11 + 2) (.obj 10)

/-- The buffer is committed, with the given points of the timeline. -/
def commitRequests (acquire release : Nat) : List WaylandMsg :=
  [.make 6 1 (.obj 8 ++ .i32 0 ++ .i32 0),
    .make 9 1 (.obj 10 ++ .u32 0 ++ .u32 acquire),
    .make 9 2 (.obj 10 ++ .u32 0 ++ .u32 release),
    .make 6 6 .empty]

/-- Messages that are translated with the given descriptors of the channel at hand. -/
def channelEvents (sfds : List SfdRef) (msgs : List WaylandMsg) : List GlobEvent :=
  msgs.map fun msg => .message msg (.empty BUFFER_SIZE) (.fromChannel sfds [])

/-- Commits with different points. -/
def laterCommits : List GlobEvent :=
  channelEvents [] surfaceRequests ++
    [.sfdMsg (fun _ => true) .openDMABUF (dmabufOpened 1),
      .sfdMsg (fun _ => true) .openTimeline (timelineOpened 2)] ++
    channelEvents [0] bufferRequests ++ channelEvents [1] [timelineRequest] ++
    channelEvents [] (commitRequests 1 2 ++ commitRequests 3 4)

theorem release_points_paired_commits :
    ∃ g, Transition.run (Globals.step vulkanSystem) (.start true gpuOptions) laterCommits =
      some g ∧ releasesAt g.sfds 0 = [((2, 2), 1), ((2, 4), 1)] ∧ Paired g.sfds := by
  have hdecided : Transition.Along (Globals.step vulkanSystem) Globals.FreshRelease
      (.start true gpuOptions) laterCommits ∧
      (run (Globals.step vulkanSystem) (.start true gpuOptions) laterCommits).map
        (fun g => releasesAt g.sfds 0) = some [((2, 2), 1), ((2, 4), 1)] := by decide +kernel
  obtain ⟨hfresh, hreleases⟩ := hdecided
  obtain ⟨g, hrun, hreleases⟩ := Option.map_eq_some_iff.mp hreleases
  exact ⟨g, hrun, hreleases, (release_points_paired vulkanSystem true gpuOptions laterCommits g
    hfresh hrun).1⟩

/-- The buffer is committed twice for the same points. -/
def sameCommits : List InstanceEvent :=
  [.chanRead (.protocol surfaceRequests), .chanRead (.sfd .openDMABUF (dmabufOpened 1)),
    .chanRead (.sfd .openTimeline (timelineOpened 2)), .chanRead (.injectRIDs [1, 2]),
    .chanRead (.protocol (bufferRequests ++ timelineRequest :: commitRequests 1 2 ++
      commitRequests 1 2)), .processChannel, .wayWrite]

/-- When the point is reached, the entry of the buffer is gone before the second entry of the
timeline is looked at. -/
theorem same_commits_panic :
    (Transition.run (Instance.step vulkanSystem .plain) (.start true gpuOptions) sameCommits).bind
      (fun s => s.failure vulkanSystem .plain (.timelineReady 2 2)) =
        some (.panic UNWRAP_NONE) := by
  decide +kernel

end Waypipe
