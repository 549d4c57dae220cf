import Waypipe.Lib.Loops
import Waypipe.Lib.Records
import Waypipe.Tracking.Dmabuf
import Mathlib.Data.List.Dedup

/-!
# Format tables

The formats of a DMABUF feedback are sent as a table of format and modifier pairs, and the tranches as
indices into the table.  Reading a tranche through the table gives the pairs it was made from
(`processDmabufFeedback_spec`).  On the application side the tranches are rebuilt with the modifiers that
are supported there: every format goes to the first tranche that lists it (`rebuildFormatTable_spec`).
-/

namespace Waypipe

open LeBytes List

variable {values : List (Nat × Nat)} {used : List DmabufTranche}

/-! ## The table -/

/-- The order of the entries of a table. -/
def PairBefore (a b : Nat × Nat) : Prop := a.1 < b.1 ∨ (a.1 = b.1 ∧ a.2 < b.2)

/-- Formats are 32-bit numbers and modifiers 64-bit numbers. -/
def PairFits (f : Nat × Nat) : Prop := f.1 < 2 ^ 32 ∧ f.2 < 2 ^ 64

instance (f : Nat × Nat) : Decidable (PairFits f) := inferInstanceAs (Decidable (_ ∧ _))

section Table

variable {tranches : List DmabufTranche}

theorem formatIndex_perm (tranches : List DmabufTranche) :
    (formatIndex tranches).Perm ((tranches.flatMap (·.values)).dedup) := mergeSort_perm _ _

theorem mem_formatIndex {f : Nat × Nat} :
    f ∈ formatIndex tranches ↔ ∃ t ∈ tranches, f ∈ t.values := by
  rw [(formatIndex_perm tranches).mem_iff, mem_dedup, mem_flatMap]

theorem formatIndex_pairwise (tranches : List DmabufTranche) :
    (formatIndex tranches).Pairwise PairBefore := by
  have hnodup : (formatIndex tranches).Nodup :=
    (formatIndex_perm tranches).nodup_iff.mpr (nodup_dedup _)
  have hsorted : (formatIndex tranches).Pairwise fun a b =>
      (decide (a.1 < b.1) || (a.1 == b.1 && decide (a.2 ≤ b.2))) = true := by
    apply pairwise_mergeSort
    · intro a b c
      simp only [Bool.or_eq_true, decide_eq_true_eq, Bool.and_eq_true, beq_iff_eq]
      omega
    · intro a b
      simp only [Bool.or_eq_true, decide_eq_true_eq, Bool.and_eq_true, beq_iff_eq]
      omega
  refine (hsorted.and hnodup).imp ?_
  rintro ⟨f, m⟩ ⟨f', m'⟩ ⟨hle, hne⟩
  simp only [Bool.or_eq_true, decide_eq_true_eq, Bool.and_eq_true, beq_iff_eq] at hle
  rcases hle with hlt | ⟨rfl, hle⟩
  · exact .inl hlt
  · refine .inr ⟨rfl, Nat.lt_of_le_of_ne hle ?_⟩
    rintro rfl
    exact hne rfl

/-- One entry of a table. -/
def tableEntry (f : Nat × Nat) : List UInt8 := u32le f.1 ++ u32le 0 ++ u64le f.2

theorem parseFormatTable_entries {index : List (Nat × Nat)} (hfits : ∀ f ∈ index, PairFits f) :
    parseFormatTable (index.flatMap tableEntry) = index := by
  have hread := map_range_flatMap (l := index) (f := tableEntry) (k := 16)
    (g := fun bytes => (leNat (bytes.take 4), leNat ((bytes.drop 8).take 8))) (h := id) (by decide)
    (fun f _ => by simp [tableEntry]) (fun f hf rest => by
      obtain ⟨h₁, h₂⟩ := hfits f hf
      have htake : (tableEntry f ++ rest).take 4 = u32le f.1 := by
        unfold tableEntry
        rw [append_assoc, append_assoc, take_left' (length_u32le _)]
      have hdrop : ((tableEntry f ++ rest).drop 8).take 8 = u64le f.2 := by
        unfold tableEntry
        rw [append_assoc, drop_left' (by simp), take_left' (length_u64le _)]
      show (leNat ((tableEntry f ++ rest).take 4), leNat (((tableEntry f ++ rest).drop 8).take 8)) = f
      rw [htake, hdrop, u32le, u64le, leNat_leBytes_of_lt h₁, leNat_leBytes_of_lt h₂])
  rw [map_id] at hread
  unfold parseFormatTable
  refine Eq.trans ?_ hread
  apply map_congr_left
  intro i _
  rw [drop_drop]

theorem formatIndices_indices {index : List (Nat × Nat)} (hlen : index.length ≤ 65535)
    (hmem : ∀ f ∈ values, f ∈ index) :
    formatIndices (values.flatMap fun f => leBytes 2 (index.idxOf f)) = values.map index.idxOf := by
  refine map_range_flatMap (g := fun bytes => leNat (bytes.take 2)) (by decide)
    (fun f _ => length_leBytes 2 _) fun f hf rest => ?_
  have hlt := idxOf_lt_length_of_mem (hmem f hf)
  show leNat ((leBytes 2 (index.idxOf f) ++ rest).take 2) = _
  rw [take_left' (length_leBytes 2 _), leNat_leBytes_of_lt (by omega)]

/-- A tranche is read through a table as the pairs it was made from. -/
structure ReadsAs (table : List (Nat × Nat)) (t n : DmabufTranche) : Prop where
  same : n = { t with indices := n.indices }
  lookup : (formatIndices n.indices).map (fun idx => table[idx]?) = t.values.map some
  /-- What the handler of `tranche_formats` does on the application side. -/
  select : ∀ g : Globals, g.onDisplaySide = false →
    ((formatIndices n.indices).mapM (selectPair g table)).map flatten = .ok t.values

theorem selectPair_mapM {g : Globals} (hside : g.onDisplaySide = false) {table : List (Nat × Nat)}
    {indices : List Nat}
    (h : indices.map (fun idx => table[idx]?) = values.map some) :
    (indices.mapM (selectPair g table)).map flatten = .ok values := by
  induction indices generalizing values with
  | nil =>
    cases values with
    | nil => rfl
    | cons v values => cases h
  | cons idx indices ih =>
    cases values with
    | nil => cases h
    | cons v values =>
      obtain ⟨hidx, hrest⟩ := List.cons.inj h
      have hpair : selectPair g table idx = .ok [v] := by
        have hidx : table[idx]? = some v := hidx
        unfold selectPair
        dsimp only
        rw [hidx, orErr, Res.ok_bind, hside]
        rfl
      have ih := ih hrest
      rw [mapM_cons, hpair, Res.ok_bind]
      cases hmap : indices.mapM (selectPair g table) with
      | error e =>
        rw [hmap] at ih
        cases ih
      | ok pairs =>
        rw [hmap] at ih
        have hflat : pairs.flatten = values := Except.ok.inj ih
        show Except.ok ([v] ++ pairs.flatten) = Except.ok (v :: values)
        rw [hflat]
        rfl

/-- With at most 65535 distinct pairs there is a table in strictly increasing order, through which every
tranche is read as its pairs. -/
theorem processDmabufFeedback_spec (hfits : ∀ t ∈ tranches, ∀ f ∈ t.values, PairFits f)
    (hlen : ((tranches.flatMap (·.values)).dedup).length ≤ 65535) :
    ∃ table new, processDmabufFeedback tranches = .ok (table, new) ∧
      (parseFormatTable table).Pairwise PairBefore ∧
      List.Forall₂ (ReadsAs (parseFormatTable table)) tranches new := by
  have hlen' : (formatIndex tranches).length ≤ 65535 := (formatIndex_perm tranches).length_eq ▸ hlen
  have htable : parseFormatTable ((formatIndex tranches).flatMap tableEntry) = formatIndex tranches := by
    apply parseFormatTable_entries
    intro f hf
    obtain ⟨t, ht, hft⟩ := mem_formatIndex.mp hf
    exact hfits t ht f hft
  refine ⟨_, _, if_neg (by omega), ?_, ?_⟩
  · show (parseFormatTable ((formatIndex tranches).flatMap tableEntry)).Pairwise PairBefore
    rw [htable]
    exact formatIndex_pairwise tranches
  · show List.Forall₂ (ReadsAs (parseFormatTable ((formatIndex tranches).flatMap tableEntry))) tranches _
    rw [htable, forall₂_map_right_iff, forall₂_same]
    intro t ht
    have hmem : ∀ f ∈ t.values, f ∈ formatIndex tranches := fun f hf => mem_formatIndex.mpr ⟨t, ht, hf⟩
    have hlookup : (formatIndices (t.values.flatMap fun f =>
        leBytes 2 ((formatIndex tranches).idxOf f))).map (fun idx => (formatIndex tranches)[idx]?) =
          t.values.map some := by
      rw [formatIndices_indices hlen' hmem, map_map]
      apply map_congr_left
      intro f hf
      exact getElem?_idxOf (hmem f hf)
    exact ⟨rfl, hlookup, fun g hside => selectPair_mapM hside hlookup⟩

end Table

/-! ## Rebuilt tranches -/

/-- The modifiers that are supported here for a format. -/
def localModifiers (dev : DmabufDevice) (format : Nat) : List Nat :=
  (dmabufDevModifierList dev format).toOption.getD []

/-- A format with all its modifiers. -/
def withModifiers (dev : DmabufDevice) (format : Nat) : List (Nat × Nat) :=
  (localModifiers dev format).map fun m => (format, m)

def DmabufTranche.formats (t : DmabufTranche) : List Nat := t.values.map (·.1)

section Rebuild

variable {dev : DmabufDevice}

theorem localModifiers_of_ok {format : Nat} {mods : List Nat}
    (h : dmabufDevModifierList dev format = .ok mods) : localModifiers dev format = mods := by
  unfold localModifiers
  rw [h]
  rfl

theorem filter_withModifiers (format f : Nat) :
    (withModifiers dev format).filter (fun v => v.1 = f) =
      if format = f then withModifiers dev f else [] := by
  unfold withModifiers
  rw [filter_map]
  split
  · next h =>
    subst h
    rw [filter_eq_self.mpr (by simp)]
  · next h =>
    rw [filter_eq_nil_iff.mpr fun m _ => by simpa using h]
    rfl

/-- One round of the loop over the pairs of a tranche. -/
def placeFormat (dev : DmabufDevice) (acc : List Nat × List (Nat × Nat)) (v : Nat × Nat) :
    Res (List Nat × List (Nat × Nat)) :=
  if acc.1.contains v.1 then do
    let mods ← dmabufDevModifierList dev v.1
    return (acc.1.filter (· ≠ v.1), acc.2 ++ mods.map fun m => (v.1, m))
  else return acc

theorem placeFormat_eq_ok {acc acc' : List Nat × List (Nat × Nat)} {v : Nat × Nat}
    (h : placeFormat dev acc v = .ok acc') :
    (v.1 ∈ acc.1 ∧ acc' = (acc.1.filter (· ≠ v.1), acc.2 ++ withModifiers dev v.1)) ∨
      (v.1 ∉ acc.1 ∧ acc' = acc) := by
  unfold placeFormat at h
  split at h
  · next hmem =>
    left
    obtain ⟨mods, hmods, h⟩ := Res.bind_eq_ok.mp h
    cases h
    refine ⟨by simpa using hmem, ?_⟩
    unfold withModifiers
    rw [localModifiers_of_ok hmods]
  · next hmem =>
    right
    cases h
    exact ⟨by simpa using hmem, rfl⟩

/-- After some pairs: the formats that are left are those that were not among them, and those among them
have been placed. -/
theorem placeFormats_spec {acc acc' : List Nat × List (Nat × Nat)}
    (h : values.foldlM (placeFormat dev) acc = .ok acc') :
    (∀ f, f ∈ acc'.1 ↔ f ∈ acc.1 ∧ f ∉ values.map (·.1)) ∧
      ∀ f, acc'.2.filter (fun v => v.1 = f) = acc.2.filter (fun v => v.1 = f) ++
        if f ∈ acc.1 ∧ f ∈ values.map (·.1) then withModifiers dev f else [] := by
  induction values generalizing acc with
  | nil =>
    cases h
    simp
  | cons v values ih =>
    rw [foldlM_cons] at h
    obtain ⟨mid, hstep, hrest⟩ := Res.bind_eq_ok.mp h
    obtain ⟨hleft, hplaced⟩ := ih hrest
    rcases placeFormat_eq_ok hstep with ⟨hmem, rfl⟩ | ⟨hmem, rfl⟩
    · constructor
      · intro f
        rw [hleft f]
        simp only [mem_filter, decide_eq_true_eq, map_cons, mem_cons, not_or]
        tauto
      · intro f
        rw [hplaced f, filter_append, filter_withModifiers, append_assoc]
        congr 1
        by_cases hf : v.1 = f
        · subst hf
          simp [hmem]
        · have hiff : (f ∈ acc.1.filter (· ≠ v.1) ∧ f ∈ values.map (·.1)) ↔
              (f ∈ acc.1 ∧ f ∈ (v :: values).map (·.1)) := by
            have hf' : f ≠ v.1 := fun h => hf h.symm
            simp only [mem_filter, decide_eq_true_eq, map_cons, mem_cons, hf', ne_eq,
              not_false_eq_true, and_true, false_or]
          rw [if_neg hf, nil_append]
          simp only [hiff]
    · constructor
      · intro f
        rw [hleft f]
        simp only [map_cons, mem_cons, not_or]
        constructor
        · rintro ⟨h₁, h₂⟩
          refine ⟨h₁, ?_, h₂⟩
          rintro rfl
          exact hmem h₁
        · rintro ⟨h₁, -, h₂⟩
          exact ⟨h₁, h₂⟩
      · intro f
        rw [hplaced f]
        have hiff : (f ∈ mid.1 ∧ f ∈ values.map (·.1)) ↔ (f ∈ mid.1 ∧ f ∈ (v :: values).map (·.1)) := by
          rw [map_cons, mem_cons]
          constructor
          · rintro ⟨h₁, h₂⟩
            exact ⟨h₁, .inr h₂⟩
          · rintro ⟨h₁, rfl | h₂⟩
            · exact absurd h₁ hmem
            · exact ⟨h₁, h₂⟩
        simp only [hiff]

/-- What a tranche contributes, when some formats are left to be placed. -/
def Contributes (dev : DmabufDevice) (left : List Nat) (t : DmabufTranche)
    (part : List (Nat × Nat)) : Prop :=
  ∀ f, part.filter (fun v => v.1 = f) =
    if f ∈ left ∧ f ∈ t.formats then withModifiers dev f else []

theorem rebuildTranche_spec {d : Nat} {left left' : List Nat} {t n : DmabufTranche}
    (h : rebuildTranche dev d left t = .ok (left', n)) :
    (∀ f, f ∈ left' ↔ f ∈ left ∧ f ∉ t.formats) ∧ Contributes dev left t n.values ∧
      n = { device := d, flags := 0, values := n.values, indices := [] } := by
  obtain ⟨⟨remote, values⟩, hfold, h⟩ := Res.bind_eq_ok.mp h
  cases h
  have hfold : t.values.foldlM (placeFormat dev) (left, []) = .ok (left', values) := hfold
  obtain ⟨hleft, hplaced⟩ := placeFormats_spec hfold
  exact ⟨hleft, hplaced, rfl⟩

/-- A new tranche of the main device. -/
def DmabufTranche.rebuilt (d : Nat) (values : List (Nat × Nat)) : DmabufTranche where
  device := d
  flags := 0
  values := values
  indices := []

/-- One round of the loop over the tranches. -/
def rebuildRound (dev : DmabufDevice) (d : Nat) (acc : List Nat × List DmabufTranche)
    (t : DmabufTranche) :
    Res (List Nat × List DmabufTranche) := do
  let (remote, n) ← rebuildTranche dev d acc.1 t
  return (remote, if n.values = [] then acc.2 else acc.2 ++ [n])

/-- The parts that the tranches contribute, each of the formats that the tranches before it do not
list. -/
def Rebuilt (dev : DmabufDevice) (left : List Nat) (used : List DmabufTranche)
    (parts : List (List (Nat × Nat))) : Prop :=
  parts.length = used.length ∧ ∀ i t part, used[i]? = some t → parts[i]? = some part → ∀ f,
    part.filter (fun v => v.1 = f) =
      if f ∈ left ∧ f ∈ t.formats ∧ ∀ s ∈ used.take i, f ∉ s.formats then withModifiers dev f else []

theorem rebuildRounds_spec {d : Nat} {acc acc' : List Nat × List DmabufTranche}
    (h : used.foldlM (rebuildRound dev d) acc = .ok acc') :
    ∃ parts, Rebuilt dev acc.1 used parts ∧
      acc'.2 = acc.2 ++ (parts.filter (· ≠ [])).map (.rebuilt d) := by
  induction used generalizing acc with
  | nil =>
    cases h
    exact ⟨[], ⟨rfl, fun i t part ht => by simp at ht⟩, by simp⟩
  | cons t used ih =>
    rw [foldlM_cons] at h
    obtain ⟨mid, hstep, hrest⟩ := Res.bind_eq_ok.mp h
    obtain ⟨⟨left', n⟩, hround, hmid⟩ := Res.bind_eq_ok.mp hstep
    obtain ⟨hleft, hpart, hn⟩ := rebuildTranche_spec hround
    cases hmid
    obtain ⟨parts, ⟨hlen, hparts⟩, hnew⟩ := ih hrest
    refine ⟨n.values :: parts, ⟨by simp [hlen], ?_⟩, ?_⟩
    · intro i s part hs hpart' f
      cases i with
      | zero =>
        cases hs
        cases hpart'
        rw [hpart f]
        simp
      | succ i =>
        rw [hparts i s part (by simpa using hs) (by simpa using hpart') f]
        have hiff : (f ∈ left' ∧ f ∈ s.formats ∧ ∀ u ∈ used.take i, f ∉ u.formats) ↔
            (f ∈ acc.1 ∧ f ∈ s.formats ∧ ∀ u ∈ (t :: used).take (i + 1), f ∉ u.formats) := by
          rw [hleft f, take_succ_cons, forall_mem_cons]
          tauto
        simp only [hiff]
    · rw [hnew]
      by_cases hempty : n.values = []
      · simp [hempty]
      · rw [if_neg hempty, filter_cons_of_pos (by simpa using hempty), map_cons, append_assoc]
        rw [singleton_append]
        congr 2

/-- Every rebuilt tranche is what one of the tranches of the main device contributes, and each
format goes, with all its local modifiers, to the first that lists it. -/
theorem rebuildFormatTable_spec {feedback : ObjZwpLinuxDmabufFeedback} {d : Nat}
    {new : List DmabufTranche}
    (hmain : feedback.mainDevice = some d) (h : rebuildFormatTable dev feedback = .ok new) :
    ∃ parts : List (List (Nat × Nat)), new = (parts.filter (· ≠ [])).map (.rebuilt d) ∧
      parts.length = (feedback.tranches.filter (·.device = d)).length ∧
      ∀ i t part, (feedback.tranches.filter (·.device = d))[i]? = some t → parts[i]? = some part →
        ∀ f, part.filter (fun v => v.1 = f) =
          if f ∈ t.formats ∧ ∀ s ∈ (feedback.tranches.filter (·.device = d)).take i, f ∉ s.formats
          then withModifiers dev f else [] := by
  have hused : feedback.tranches.filterM (fun t => onMainDevice feedback t) =
      .ok (feedback.tranches.filter (·.device = d)) := by
    refine Except.filterM_eq_ok fun t _ => ?_
    unfold onMainDevice
    rw [hmain]
    rfl
  unfold rebuildFormatTable at h
  rw [hused, Res.ok_bind] at h
  obtain ⟨⟨left, new'⟩, hfold, h⟩ := Res.bind_eq_ok.mp h
  rw [hmain] at hfold
  change foldlM (rebuildRound dev d) _ _ = _ at hfold
  obtain ⟨parts, ⟨hlen, hparts⟩, hnew⟩ := rebuildRounds_spec hfold
  have hresult : new = new' := by
    dsimp only at h
    split at h
    · cases h
    · cases h
      rfl
  refine ⟨parts, hresult.trans (by simpa using hnew), hlen, fun i t part ht hpart f => ?_⟩
  rw [hparts i t part ht hpart f]
  have hlisted : f ∈ t.formats → f ∈ (feedback.tranches.filter (·.device = d)).flatMap
      fun t => t.values.map (·.1) := fun hf =>
    mem_flatMap.mpr ⟨t, mem_of_getElem? ht, hf⟩
  have hiff : (f ∈ (feedback.tranches.filter (·.device = d)).flatMap (fun t => t.values.map (·.1)) ∧
      f ∈ t.formats ∧ ∀ s ∈ (feedback.tranches.filter (·.device = d)).take i, f ∉ s.formats) ↔
      (f ∈ t.formats ∧ ∀ s ∈ (feedback.tranches.filter (·.device = d)).take i, f ∉ s.formats) :=
    ⟨fun h => h.2, fun h => ⟨hlisted h.1, h⟩⟩
  simp only [hiff]

/-- A format that is listed is listed first somewhere. -/
theorem exists_first {f : Nat} (h : ∃ t ∈ used, f ∈ t.formats) :
    ∃ i t, used[i]? = some t ∧ f ∈ t.formats ∧ ∀ s ∈ used.take i, f ∉ s.formats := by
  induction used with
  | nil => simp at h
  | cons t used ih =>
    by_cases ht : f ∈ t.formats
    · exact ⟨0, t, rfl, ht, by simp⟩
    · have hrest : ∃ s ∈ used, f ∈ s.formats := by
        obtain ⟨s, hs, hf⟩ := h
        rcases mem_cons.mp hs with rfl | hs
        · exact absurd hf ht
        · exact ⟨s, hs, hf⟩
      obtain ⟨i, s, hs, hf, hfirst⟩ := ih hrest
      refine ⟨i + 1, s, by simpa using hs, hf, ?_⟩
      rw [take_succ_cons, forall_mem_cons]
      exact ⟨ht, hfirst⟩

/-- The parts have a format in one place: that of the first tranche that lists it. -/
theorem exists_unique_part {parts : List (List (Nat × Nat))}
    (hlen : parts.length = used.length)
    (hparts : ∀ i t part, used[i]? = some t → parts[i]? = some part → ∀ f,
      part.filter (fun v => v.1 = f) =
        if f ∈ t.formats ∧ ∀ s ∈ used.take i, f ∉ s.formats then withModifiers dev f else [])
    {f : Nat} (hlisted : ∃ t ∈ used, f ∈ t.formats) (hmods : localModifiers dev f ≠ []) :
    ∃! i : Nat, ∃ part : List (Nat × Nat), parts[i]? = some part ∧ f ∈ part.map (·.1) := by
  have hiff {part : List (Nat × Nat)} : f ∈ part.map (·.1) ↔ part.filter (fun v => v.1 = f) ≠ [] := by
    rw [mem_map, Ne, filter_eq_nil_iff]
    simp
  have hwith : withModifiers dev f ≠ [] := by simpa [withModifiers] using hmods
  obtain ⟨i, t, ht, hf, hfirst⟩ := exists_first hlisted
  have hi : i < parts.length := hlen ▸ (List.getElem?_eq_some_iff.mp ht).1
  refine ⟨i, ⟨parts[i], getElem?_eq_getElem hi, ?_⟩, ?_⟩
  · rw [hiff, hparts i t _ ht (getElem?_eq_getElem hi) f, if_pos ⟨hf, hfirst⟩]
    exact hwith
  · rintro j ⟨part, hj, hfj⟩
    have hjlt : j < used.length := hlen ▸ (List.getElem?_eq_some_iff.mp hj).1
    have hcond : f ∈ used[j].formats ∧ ∀ s ∈ used.take j, f ∉ s.formats := by
      by_contra hno
      rw [hiff, hparts j _ part (getElem?_eq_getElem hjlt) hj f, if_neg hno] at hfj
      exact hfj rfl
    -- the earlier of two first places would come before the other
    rcases Nat.lt_trichotomy j i with hlt | heq | hlt
    · exact absurd hcond.1 (hfirst _ (List.mem_take_iff_getElem.mpr ⟨j, by omega, rfl⟩))
    · exact heq
    · refine absurd hf (hcond.2 t (List.mem_take_iff_getElem.mpr ⟨i, by omega, ?_⟩))
      exact (List.getElem?_eq_some_iff.mp ht).2

end Rebuild

/-- Reading each tranche through the table gives its pairs; and the rebuilt tranches are what the
tranches of the main device contribute, where each format comes from the first that lists it, and
from no other. -/
theorem format_tables_exact :
    (∀ tranches : List DmabufTranche, (∀ t ∈ tranches, ∀ f ∈ t.values, PairFits f) →
      ((tranches.flatMap (·.values)).dedup).length ≤ 65535 →
      ∃ table new, processDmabufFeedback tranches = .ok (table, new) ∧
        (parseFormatTable table).Pairwise PairBefore ∧
        List.Forall₂ (ReadsAs (parseFormatTable table)) tranches new) ∧
    ∀ (dev : DmabufDevice) (feedback : ObjZwpLinuxDmabufFeedback) (d : Nat) (new : List DmabufTranche),
      feedback.mainDevice = some d → rebuildFormatTable dev feedback = .ok new →
      ∃ parts : List (List (Nat × Nat)), new = (parts.filter (· ≠ [])).map (.rebuilt d) ∧
        parts.length = (feedback.tranches.filter (·.device = d)).length ∧
        (∀ i t part, (feedback.tranches.filter (·.device = d))[i]? = some t → parts[i]? = some part →
          ∀ f, part.filter (fun v => v.1 = f) =
            if f ∈ t.formats ∧ ∀ s ∈ (feedback.tranches.filter (·.device = d)).take i, f ∉ s.formats
            then withModifiers dev f else []) ∧
        ∀ f, (∃ t ∈ feedback.tranches.filter (·.device = d), f ∈ t.formats) →
          localModifiers dev f ≠ [] →
            ∃! i : Nat, ∃ part : List (Nat × Nat), parts[i]? = some part ∧ f ∈ part.map (·.1) := by
  refine ⟨fun tranches hfits hlen => processDmabufFeedback_spec hfits hlen, ?_⟩
  intro dev feedback d new hmain h
  obtain ⟨parts, hnew, hlen, hparts⟩ := rebuildFormatTable_spec hmain h
  exact ⟨parts, hnew, hlen, hparts, fun f hlisted hmods => exists_unique_part hlen hparts hlisted hmods⟩

/-- Three tranches that share a format; one is for another device, and one format has no modifiers
here. -/
theorem format_tables_exact_shared :
    let tranches : List DmabufTranche :=
      [⟨0, [(2, 7), (1, 0)], [], 5⟩, ⟨0, [(2, 8)], [], 6⟩, ⟨0, [(2, 9), (3, 0)], [], 5⟩]
    (∃ table new, processDmabufFeedback tranches = .ok (table, new) ∧
      (parseFormatTable table).Pairwise PairBefore ∧
      List.Forall₂ (ReadsAs (parseFormatTable table)) tranches new) ∧
    ∃ parts : List (List (Nat × Nat)),
      [⟨0, [(2, 0), (2, 1)], [], 5⟩, ⟨0, [(3, 0), (3, 1)], [], 5⟩] =
        (parts.filter (· ≠ [])).map (DmabufTranche.rebuilt 5) ∧ parts.length = 2 := by
  intro tranches
  obtain ⟨hread, hrebuild⟩ := format_tables_exact
  refine ⟨hread tranches (by decide) (by decide), ?_⟩
  obtain ⟨parts, hnew, hlen, -⟩ := hrebuild (.gbm ⟨0, fun f => if f = 1 then [] else [0, 1]⟩)
    ⟨none, none, some 5, tranches, .empty, false, none⟩ 5
    [⟨0, [(2, 0), (2, 1)], [], 5⟩, ⟨0, [(3, 0), (3, 1)], [], 5⟩] rfl (by decide +kernel)
  exact ⟨parts, hnew, hlen⟩

end Waypipe
