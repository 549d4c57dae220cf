import Waypipe.Lib.Transition
import Waypipe.Tracking.FormatTables
import Waypipe.Tracking.PanicFree
import Waypipe.Tracking.Process

/-!
# Feedback about DMABUF formats

The events of a feedback object are collected until `done`, which sends them on with the formats that are
supported here.  What the events leave behind is taken for granted later: that a device has been set up
when formats are listed, that it exists, that the main device is known, and that a format is left.  A run
whose events are in this sense in order (`Orderly`) never panics, and the `done` that completes it writes
the whole batch (`feedback_orderly`).
-/

namespace Waypipe

open Wayland LeBytes Transition List
open Avoids (bind_iff ite_iff)

variable {P : Unit → Core → Prop} {sys : System} {id : ObjId} {g : Globals}
  {f : ObjZwpLinuxDmabufFeedback} {q : Request}

/-! ## Devices, descriptors and the system -/

theorem dmabufDevModifierList_of_ready {dev : DmabufDevice} (h : dev.isReady = true) (format : Nat) :
    dmabufDevModifierList dev format = .ok (localModifiers dev format) := by
  cases dev with
  | vulkan _ _ => rfl
  | gbm _ => rfl
  | _ => cases h

theorem dmabufDevGetId_of_ready {dev : DmabufDevice} (h : dev.isReady = true) :
    ∃ id, dmabufDevGetId dev = .ok id := by
  cases dev with
  | vulkan _ _ => exact ⟨_, rfl⟩
  | gbm _ => exact ⟨_, rfl⟩
  | _ => cases h

/-- The operations on files and devices fail with an `Err`, and a mapping has the size asked for. -/
structure System.Dependable (sys : System) : Prop where
  mapping : ∀ fd size readonly, (sys.externalMapping fd size readonly).Clean
  mapped : ∀ fd size readonly m, sys.externalMapping fd size readonly = .ok m → m.length = size
  mirror : ∀ size, (sys.newMirror size).Clean
  memfd : sys.memfdCreate.Clean
  fill : ∀ fd table, (sys.memfdFill fd table).Clean
  vulkan : ∀ inst device opts, (sys.setupVulkanDevice inst device opts).Clean

/-- Every file is mapped whole. -/
def Globals.FilesMapped (g : Globals) : Prop :=
  ∀ s ∈ g.sfds, ∀ f, s.data = .file f → ∃ core, f.core = some core ∧ f.bufferSize ≤ core.mapping.length

/-! ## Events -/

/-- An event for a feedback object, with the output buffer and the queues. -/
structure FeedbackEvent where
  msg : WaylandMsg
  out : Output
  transl : Transl

def FeedbackEvent.ctx (e : FeedbackEvent) (g : Globals) : Ctx := ⟨⟨g, e.out⟩, e.transl⟩

abbrev FeedbackEvent.opcode (e : FeedbackEvent) : Nat := WaylandMsg.opcode e.msg

/-- An event of the interface for the object, as the main loop passes it on: the descriptors in the
queues exist, there are not too many of them, and the buffer is not larger than a message. -/
structure FeedbackEvent.For (e : FeedbackEvent) (id : ObjId) (g : Globals) : Prop where
  object : e.msg.objectId = id
  isEvent : (e.ctx g).isReq = false
  opcode : e.opcode < 7
  outgoing : e.transl.outgoing.length ≤ MAX_OUTGOING_FDS
  queued : ∀ sfds fds, e.transl = .fromChannel sfds fds → ∀ r ∈ sfds, r < g.sfds.length
  capacity : e.out.capacity < 2 ^ 16

/-- A device that is still to be set up is not asked about a format: the first that is listed, if any,
is not in the table. -/
def FormatsLate (f : ObjZwpLinuxDmabufFeedback) (msg : WaylandMsg) : Prop :=
  ∀ fmts table idx rest, parseEvtZwpLinuxDmabufFeedbackV1TrancheFormats msg = .ok fmts →
    f.inputFormatTable = some table → fmts.length % 2 = 0 → formatIndices fmts = idx :: rest →
      table[idx]? = none

/-- A format table that is new gets a remote id. -/
def RidForTable (g : Globals) (f : ObjZwpLinuxDmabufFeedback) : Prop :=
  ∀ old table ts, feedbackTranches g f = .ok old → processDmabufFeedback old = .ok (table, ts) →
    f.outputFormatTable ≠ some table → g.RidLeft

/-- The conditions under which an event finds what it takes for granted. -/
structure Orderly (sys : System) (g : Globals) (f : ObjZwpLinuxDmabufFeedback) (e : FeedbackEvent) :
    Prop where
  /-- The contents of a format table have arrived. -/
  table : e.opcode = 1 → ∀ r sfds fds s file, e.transl = .fromChannel (r :: sfds) fds →
    g.sfds[r]? = some s → s.data = .file file → file.pendingApplyTasks = 0
  /-- The main device exists where it is used. -/
  main : e.opcode = 2 → g.onDisplaySide = true → ∀ inst, g.dmabufDevice = .vulkanSetup inst →
    ∀ arr dev, parseEvtZwpLinuxDmabufFeedbackV1MainDevice e.msg = .ok arr →
      parseDevArray arr = .ok dev → sys.setupVulkanDevice inst (some dev) g.opts ≠ .ok none
  /-- Formats of a table are listed when the device is set up. -/
  formats : e.opcode = 5 → g.dmabufDevice.isReady = false → FormatsLate f e.msg
  /-- A batch is done when the main device is known (application side) and a format is left (display
  side). -/
  known : e.opcode = 0 → f.processed = false → g.onDisplaySide = false →
    f.mainDevice.isSome = true ∨ f.tranches = []
  left : e.opcode = 0 → f.processed = false → g.onDisplaySide = true →
    ∃ t ∈ f.tranches, t.values ≠ []
  ids : e.opcode = 0 → f.processed = false → RidForTable g f

/-- What holds between the events: the object has its data, there is a device, and formats are known only
when it is set up. -/
structure FeedbackState (id : ObjId) (g : Globals) (f : ObjZwpLinuxDmabufFeedback) : Prop where
  object : g.objects.lookup id =
    some { objType := .zwpLinuxDmabufFeedbackV1, extra := .zwpDmabufFeedback f }
  device : g.dmabufDevice.isReady = true ∨
    (g.onDisplaySide = true ∧ ∃ inst, g.dmabufDevice = .vulkanSetup inst)
  files : g.FilesMapped
  unset : g.dmabufDevice.isReady = false →
    f.processed = false ∧ f.current.values = [] ∧ ∀ t ∈ f.tranches, t.values = []

section States

variable {f' : ObjZwpLinuxDmabufFeedback}

theorem FeedbackState.extra? (h : FeedbackState id g f) : g.extra? id = some (.zwpDmabufFeedback f) := by
  unfold Globals.extra?
  rw [h.object]
  rfl

theorem FeedbackState.setExtra (h : FeedbackState id g f)
    (hunset : g.dmabufDevice.isReady = false →
      f'.processed = false ∧ f'.current.values = [] ∧ ∀ t ∈ f'.tranches, t.values = []) :
    FeedbackState id (g.setExtra id (.zwpDmabufFeedback f')) f' := by
  rw [g.setExtra_of_lookup h.object]
  exact ⟨by simp, h.device, h.files, hunset⟩

/-- The object's data is what is looked up. -/
theorem FeedbackState.extraOf_eq (h : FeedbackState id g f) (msg : String) :
    g.extraOf id WpExtra.zwpDmabufFeedback? msg = .ok f :=
  Globals.extraOf_eq_ok.mpr ⟨_, h.extra?, rfl⟩

theorem FeedbackState.clean_extraOf (h : FeedbackState id g f) {msg : String}
    {P : ObjZwpLinuxDmabufFeedback → Globals → Prop} (hP : P f g) :
    Clean (extraOf id WpExtra.zwpDmabufFeedback? msg) g P := by
  refine Waypipe.clean_extraOf fun x a hkind hx => ?_
  rw [h.extra?] at hx
  cases hx
  cases hkind
  exact hP

end States

/-! ## Events that are held back -/

/-- What becomes of an event that is held back: it is done, without output. -/
def HeldBack (id : ObjId) (c : Ctx) (p : ProcMsg) (c' : Ctx) : Prop :=
  p = .done ∧ c'.core.out = c.core.out ∧ ∃ f', FeedbackState id c'.glob f'

section Held

variable {c : Ctx}

theorem parseDevArray_clean (arr : List UInt8) : (parseDevArray arr).Clean := by
  unfold parseDevArray
  dsimp only
  split
  · exact .ok _
  · exact .fail _

theorem selectPair_clean {g : Globals} (hdev : g.onDisplaySide = true → g.dmabufDevice.isReady = true)
    (table : List (Nat × Nat)) (idx : Nat) : (selectPair g table idx).Clean := by
  unfold selectPair
  refine (Res.Clean.orErr _ _).bind fun pair _ => ?_
  split
  · next hside =>
    unfold dmabufDevSupportsFormat
    rw [dmabufDevModifierList_of_ready (hdev hside)]
    exact .ok _
  · exact .ok _

variable (hstate : FeedbackState q.objectId c.glob f)

include hstate

theorem updateFeedback_clean {m : ObjZwpLinuxDmabufFeedback → GlobAct ObjZwpLinuxDmabufFeedback}
    (hm : Clean (m f) c.glob fun f' g' => FeedbackState q.objectId g' f ∧
      (g'.dmabufDevice.isReady = false →
      f'.processed = false ∧ f'.current.values = [] ∧ ∀ t ∈ f'.tranches, t.values = [])) :
    Handler.Clean (updateFeedback q m) c (HeldBack q.objectId c) := by
  refine .act ?_
  simp only [bind_iff]
  refine clean_act (hstate.clean_extraOf ?_)
  refine clean_act (hm.mono fun f' g' h => clean_act ?_)
  exact clean_setExtra.mpr ⟨rfl, rfl, f', h.1.setExtra h.2⟩

theorem mainDevice_clean (hsys : sys.Dependable)
    (hmain : c.glob.onDisplaySide = true → ∀ inst, c.glob.dmabufDevice = .vulkanSetup inst →
      ∀ arr dev, parseEvtZwpLinuxDmabufFeedbackV1MainDevice q.msg = .ok arr →
        parseDevArray arr = .ok dev →
        sys.setupVulkanDevice inst (some dev) c.glob.opts ≠ .ok none) :
    Handler.Clean (zwpLinuxDmabufFeedbackV1MainDevice sys q) c (HeldBack q.objectId c) := by
  refine updateFeedback_clean hstate ?_
  simp only [bind_iff]
  refine clean_lift .parseArgs fun arr harr => clean_lift (parseDevArray_clean arr) fun dev hdev => ?_
  simp only [clean_getGlob]
  split
  · next hside =>
    simp only [bind_iff]
    rcases hstate.device with hready | ⟨-, inst, hinst⟩
    · have hkeep : completeDmabufSetup sys c.glob.opts (some dev) c.glob.dmabufDevice =
          .ok c.glob.dmabufDevice := by
        unfold completeDmabufSetup
        split
        · next heq =>
          rw [heq] at hready
          cases hready
        · rfl
      rw [hkeep]
      refine clean_lift (.ok _) fun dev' hdev' => ?_
      cases hdev'
      exact ⟨hstate, fun h => by cases hready.symm.trans h⟩
    · rw [hinst]
      refine clean_lift ?_ fun dev' hdev' => ?_
      · unfold completeDmabufSetup
        refine (hsys.vulkan inst (some dev) c.glob.opts).bind fun o ho => ?_
        cases o with
        | none => exact absurd ho (hmain hside inst hinst arr dev harr hdev)
        | some vulk => exact .ok _
      · obtain ⟨o, -, h⟩ := Res.bind_eq_ok.mp hdev'
        obtain ⟨vulk, -, h⟩ := Res.bind_eq_ok.mp h
        cases h
        exact ⟨⟨hstate.object, .inl rfl, hstate.files, fun h => by cases h⟩, fun h => by cases h⟩
  · exact ⟨hstate, hstate.unset⟩

theorem trancheFlags_clean :
    Handler.Clean (zwpLinuxDmabufFeedbackV1TrancheFlags q) c (HeldBack q.objectId c) := by
  refine updateFeedback_clean hstate ?_
  simp only [bind_iff]
  exact clean_lift .parseArgs fun flags _ => ⟨hstate, hstate.unset⟩

theorem trancheTargetDevice_clean :
    Handler.Clean (zwpLinuxDmabufFeedbackV1TrancheTargetDevice q) c (HeldBack q.objectId c) := by
  refine updateFeedback_clean hstate ?_
  simp only [bind_iff]
  refine clean_lift .parseArgs fun arr _ => clean_lift (parseDevArray_clean arr) fun dev _ => ?_
  exact ⟨hstate, hstate.unset⟩

theorem trancheFormats_clean (hformats : c.glob.dmabufDevice.isReady = false → FormatsLate f q.msg) :
    Handler.Clean (zwpLinuxDmabufFeedbackV1TrancheFormats q) c (HeldBack q.objectId c) := by
  refine updateFeedback_clean hstate ?_
  simp only [bind_iff]
  refine clean_lift .parseArgs fun fmts hfmts => ?_
  simp only [ite_iff, bind_iff, clean_getGlob]
  refine ⟨fun _ => clean_lift (.fail _) fun _ h => (by cases h), fun heven => ⟨fun _ => ?_, fun _ => ?_⟩⟩
  · exact ⟨hstate, hstate.unset⟩
  · refine clean_lift (.orErr _ _) fun table htable => ?_
    cases hready : c.glob.dmabufDevice.isReady with
    | true =>
      refine clean_mapM (fun idx _ => selectPair_clean (fun _ => hready) table idx) fun pairs => ?_
      exact ⟨hstate, fun h => by cases hready.symm.trans h⟩
    | false =>
      cases hindices : formatIndices fmts with
      | nil => exact ⟨hstate, by simpa using hstate.unset⟩
      | cons idx rest =>
        have hnone := hformats hready fmts table idx rest hfmts (orErr_eq_ok.mp htable)
          (Decidable.not_not.mp heven) hindices
        obtain ⟨err, herr⟩ : ∃ err, selectPair c.glob table idx = fail err := by
          unfold selectPair
          rw [hnone]
          exact ⟨_, rfl⟩
        rw [mapM_cons, herr]
        exact bind_iff.mpr (clean_lift (.fail _) fun _ h => by cases h)

theorem trancheDone_clean :
    Handler.Clean (zwpLinuxDmabufFeedbackV1TrancheDone q) c (HeldBack q.objectId c) := by
  refine updateFeedback_clean hstate ?_
  refine ⟨hstate, fun hunset => ?_⟩
  obtain ⟨hprocessed, hcurrent, htranches⟩ := hstate.unset hunset
  exact ⟨hprocessed, rfl, forall_mem_append.mpr ⟨htranches, forall_mem_singleton.mpr hcurrent⟩⟩

end Held

/-! ## The format table -/

section Table

variable {c : Ctx}

/-- The contents of a file that is mapped whole are read, or an error is returned. -/
theorem readFormatTable_clean {g : Globals} {r : SfdRef} {s : ShadowFd} {tableSize : Nat}
    {P : List UInt8 → Globals → Prop} (hfiles : g.FilesMapped) (hs : g.sfds[r]? = some s)
    (h : ∀ data, P data g) : Clean (readFormatTable tableSize r) g P := by
  unfold readFormatTable
  refine bind_iff.mpr (clean_readSfd hs ?_)
  split
  · next file hfile =>
    obtain ⟨core, hcore, hle⟩ := hfiles s (mem_of_getElem? hs) file hfile
    simp only [ite_iff, bind_iff]
    refine ⟨fun _ => clean_lift (.fail _) fun _ h => (by cases h), fun hsize => ?_⟩
    have hfits : tableSize ≤ core.mapping.length := by
      rw [Decidable.not_not.mp hsize]
      exact hle
    rw [hcore]
    refine clean_lift (.ok core) fun core' hcore' => ?_
    cases hcore'
    unfold copyFromMapping
    rw [assert_of (by simpa using hfits)]
    exact clean_lift (.ok _) fun data _ => h data
  · exact clean_lift (.fail _) fun _ h => by cases h

theorem formatTable_clean (hstate : FeedbackState q.objectId c.glob f) (hsys : sys.Dependable)
    (hqueued : ∀ sfds fds, c.transl = .fromChannel sfds fds → ∀ r ∈ sfds, r < c.glob.sfds.length)
    (htable : ∀ r sfds fds s file, c.transl = .fromChannel (r :: sfds) fds →
      c.glob.sfds[r]? = some s → s.data = .file file → file.pendingApplyTasks = 0) :
    Handler.Clean (zwpLinuxDmabufFeedbackV1FormatTable sys q) c (HeldBack q.objectId c) := by
  have hset (data : List UInt8) : FeedbackState q.objectId (c.glob.setExtra q.objectId
      (.zwpDmabufFeedback { f with inputFormatTable := some (parseFormatTable data) }))
      { f with inputFormatTable := some (parseFormatTable data) } := hstate.setExtra hstate.unset
  have hlook : (lookExtra q.objectId WpExtra.zwpDmabufFeedback?
      "Expected object to have dmabuf_feedback data").run c = .ok f := hstate.extraOf_eq _
  refine .parsing .parseArgs fun tableSize _ => ?_
  refine .looking (by rw [hlook]; exact .ok f) fun f' hf' => ?_
  rw [hlook] at hf'
  cases hf'
  split
  · next hfrom =>
    refine .looking ?_ fun sfd hsfd => ?_
    · show Res.Clean (lookFrontSfd "Missing sfd" c)
      unfold lookFrontSfd
      split
      · exact .ok _
      · exact .fail _
    · obtain ⟨sfds, fds, htransl⟩ : ∃ sfds fds, c.transl = .fromChannel (sfd :: sfds) fds := by
        change lookFrontSfd "Missing sfd" c = .ok sfd at hsfd
        unfold lookFrontSfd at hsfd
        split at hsfd
        · next sfd' sfds fds htransl =>
          cases hsfd
          exact ⟨sfds, fds, htransl⟩
        · cases hsfd
      have hlt : sfd < c.glob.sfds.length := hqueued _ _ htransl sfd mem_cons_self
      have hs : c.glob.sfds[sfd]? = some c.glob.sfds[sfd] := getElem?_eq_getElem hlt
      refine .waits ?_ (fun _ => ?_) fun rid hwait => ?_
      · show Res.Clean (fileWait sfd c)
        unfold fileWait Globals.sfd
        rw [hs]
        refine Res.Clean.bind (.ok _) fun s _ => ?_
        unfold fileHasPendingApplyTasks
        split
        · exact .ok _
        · exact .fail _
      · refine .actFd (bind_iff.mpr (clean_popSfd fun sfd' sfds' fds' htransl' => ?_))
        rw [htransl] at htransl'
        cases htransl'
        refine clean_liftAct (bind_iff.mpr (clean_act ?_))
        refine readFormatTable_clean hstate.files hs fun data => clean_act ?_
        exact clean_setExtra.mpr ⟨rfl, rfl, _, hset data⟩
      · -- nothing is pending
        obtain ⟨s, file, hs, hfile, hidle⟩ := fileWait_eq_ok hwait
        cases hidle.mp (htable _ _ _ s file htransl hs hfile)
  · refine .actFd (bind_iff.mpr (clean_popFd fun fd fds rids _ => ?_))
    refine bind_iff.mpr (clean_lift (hsys.mapping fd tableSize true) fun mapping hmapping => ?_)
    have hfits : tableSize ≤ mapping.length := Nat.le_of_eq (hsys.mapped _ _ _ _ hmapping).symm
    unfold copyFromMapping
    rw [assert_of (by simpa using hfits)]
    refine bind_iff.mpr (clean_lift (.ok _) fun data _ => ?_)
    refine clean_liftAct (clean_act ?_)
    exact clean_setExtra.mpr ⟨rfl, rfl, _, hset data⟩

end Table

/-! ## The end of a batch -/

/-- The tranches that a `done` announces: those of the batch, when it has been processed. -/
def ObjZwpLinuxDmabufFeedback.Remaining (g : Globals) (f : ObjZwpLinuxDmabufFeedback)
    (ts : List DmabufTranche) : Prop :=
  if f.processed then ts = f.tranches
  else ∃ old table, feedbackTranches g f = .ok old ∧ processDmabufFeedback old = .ok (table, ts)

section Process

variable {dev : DmabufDevice}

theorem rebuildTranche_clean (hready : dev.isReady = true) (d : Nat) (remote : List Nat)
    (t : DmabufTranche) : (rebuildTranche dev d remote t).Clean := by
  unfold rebuildTranche
  refine (Res.Clean.foldlM fun acc v _ => ?_).bind fun _ _ => .ok _
  split
  · rw [dmabufDevModifierList_of_ready hready]
    exact .ok _
  · exact .ok _

theorem rebuildFormatTable_clean (hready : dev.isReady = true)
    (hknown : f.mainDevice.isSome = true ∨ f.tranches = []) : (rebuildFormatTable dev f).Clean := by
  obtain ⟨used, hused⟩ : ∃ used, f.tranches.filterM (fun t => onMainDevice f t) = .ok used := by
    rcases hknown with hmain | hnone
    · obtain ⟨d, hd⟩ := Option.isSome_iff_exists.mp hmain
      refine ⟨_, Except.filterM_eq_ok (p := (·.device = d)) fun t _ => ?_⟩
      unfold onMainDevice
      rw [hd]
      rfl
    · rw [hnone]
      exact ⟨[], rfl⟩
  unfold rebuildFormatTable
  rw [hused, Res.ok_bind]
  refine (Res.Clean.foldlM fun acc t _ => ?_).bind fun x _ => ?_
  · exact (rebuildTranche_clean hready _ _ t).bind fun _ _ => .ok _
  · dsimp only
    split
    · exact .fail _
    · exact .ok _

/-- The rebuilt tranches have formats. -/
theorem rebuildFormatTable_values {new : List DmabufTranche}
    (hknown : f.mainDevice.isSome = true ∨ f.tranches = []) (h : rebuildFormatTable dev f = .ok new) :
    ∃ t ∈ new, t.values ≠ [] := by
  have hnew : new ≠ [] := by
    unfold rebuildFormatTable at h
    obtain ⟨used, -, h⟩ := Res.bind_eq_ok.mp h
    obtain ⟨⟨left, new'⟩, -, h⟩ := Res.bind_eq_ok.mp h
    dsimp only at h
    split at h
    · cases h
    · next hne =>
      cases h
      exact hne
  rcases hknown with hmain | hnone
  · obtain ⟨d, hd⟩ := Option.isSome_iff_exists.mp hmain
    obtain ⟨parts, rfl, -⟩ := rebuildFormatTable_spec hd h
    obtain ⟨t, ht⟩ := exists_mem_of_ne_nil _ hnew
    obtain ⟨part, hpart, rfl⟩ := mem_map.mp ht
    exact ⟨_, ht, of_decide_eq_true (mem_filter.mp hpart).2⟩
  · unfold rebuildFormatTable at h
    rw [hnone] at h
    cases h

theorem feedbackTranches_clean (hstate : FeedbackState id g f)
    (hknown : g.onDisplaySide = false → f.mainDevice.isSome = true ∨ f.tranches = []) :
    (feedbackTranches g f).Clean := by
  unfold feedbackTranches
  split
  · exact .ok _
  · next hside =>
    have hside := Bool.eq_false_iff.mpr hside
    rcases hstate.device with hready | ⟨hdisplay, -⟩
    · exact rebuildFormatTable_clean hready (hknown hside)
    · rw [hside] at hdisplay
      cases hdisplay

theorem feedbackTranches_values {old : List DmabufTranche}
    (hknown : g.onDisplaySide = false → f.mainDevice.isSome = true ∨ f.tranches = [])
    (hleft : g.onDisplaySide = true → ∃ t ∈ f.tranches, t.values ≠ [])
    (h : feedbackTranches g f = .ok old) : ∃ t ∈ old, t.values ≠ [] := by
  unfold feedbackTranches at h
  split at h
  · next hside =>
    cases h
    exact hleft hside
  · next hside => exact rebuildFormatTable_values (hknown (Bool.eq_false_iff.mpr hside)) h

theorem processDmabufFeedback_clean (ts : List DmabufTranche) : (processDmabufFeedback ts).Clean := by
  unfold processDmabufFeedback
  dsimp only
  split
  · exact .fail _
  · exact .ok _

theorem processDmabufFeedback_length {old ts : List DmabufTranche} {table : List UInt8}
    (h : processDmabufFeedback old = .ok (table, ts)) (hvalues : ∃ t ∈ old, t.values ≠ []) :
    0 < table.length := by
  obtain ⟨t, ht, hne⟩ := hvalues
  obtain ⟨v, hv⟩ := exists_mem_of_ne_nil _ hne
  have hmem : v ∈ formatIndex old := mem_formatIndex.mpr ⟨t, ht, hv⟩
  unfold processDmabufFeedback at h
  dsimp only at h
  split at h
  · cases h
  · cases h
    refine length_pos_iff_ne_nil.mpr fun hnil => ?_
    have hentry := flatMap_eq_nil_iff.mp hnil v hmem
    have hlen := congrArg length hentry
    simp at hlen

/-- A new file is mapped whole. -/
theorem clean_translateShmFd (hsys : sys.Dependable) (hleft : g.RidLeft) {fd : Fd} {size : Nat}
    {defaultDamage readonce localOnly : Bool} {P : SfdRef → Globals → Prop}
    (h : ∀ s : ShadowFd, (∀ file, s.data = .file file →
        ∃ core, file.core = some core ∧ file.bufferSize ≤ core.mapping.length) →
      P g.sfds.length { g with
        maxLocalId := g.maxLocalId + g.maxLocalId.sign
        sfds := g.sfds ++ [s], map := g.map.insert s.remoteId g.sfds.length }) :
    Clean (translateShmFd sys fd size defaultDamage readonce localOnly) g P := by
  unfold translateShmFd
  refine bind_iff.mpr (clean_allocateRid hleft ?_)
  refine bind_iff.mpr (clean_lift (hsys.mapping _ _ _) fun mapping hmapping => ?_)
  refine bind_iff.mpr (clean_lift (hsys.mirror _) fun _ _ => clean_addSfd (h _ ?_))
  rintro file ⟨⟩
  exact ⟨_, rfl, Nat.le_of_eq (hsys.mapped _ _ _ _ hmapping).symm⟩

/-- A batch that has been processed. -/
structure BatchProcessed (id : ObjId) (g : Globals) (f : ObjZwpLinuxDmabufFeedback) (g' : Globals)
    (f' : ObjZwpLinuxDmabufFeedback) : Prop where
  state : FeedbackState id g' f'
  processed : f'.processed = true
  device : g'.dmabufDevice = g.dmabufDevice
  remaining : f.Remaining g f'.tranches

theorem queueFormatTable_clean (hsys : sys.Dependable) (hstate : FeedbackState q.objectId g f)
    (hready : g.dmabufDevice.isReady = true) {f' : ObjZwpLinuxDmabufFeedback}
    (hprocessed : f'.processed = true) (hremaining : f.Remaining g f'.tranches) {table : List UInt8}
    (htable : 0 < table.length) (hids : f'.outputFormatTable ≠ some table → g.RidLeft) :
    Clean (queueFormatTable sys q f' table) g fun _ g' =>
      ∃ f'', BatchProcessed q.objectId g f g' f'' := by
  have hdevice (x : Prop) (h : g.dmabufDevice.isReady = false) : x := nomatch hready.symm.trans h
  have hside {g' : Globals} (id : ObjId) (x : WpExtra) :
      (g'.setExtra id x).dmabufDevice = g'.dmabufDevice := by
    unfold Globals.setExtra
    split
    · rfl
    · rfl
  unfold queueFormatTable
  split
  · exact clean_setExtra.mpr ⟨f', hstate.setExtra (hdevice _), hprocessed, hside _ _, hremaining⟩
  · next hnew =>
    unfold newFormatTable
    simp only [bind_iff, clean_getGlob]
    refine clean_lift hsys.memfd fun fd _ => ?_
    rw [assert_of (by simpa using htable)]
    refine clean_lift (.ok ()) fun _ _ => clean_lift (hsys.fill fd table) fun _ _ => ?_
    refine clean_translateShmFd hsys (hids fun h => hnew h.symm) fun s hs => clean_setExtra.mpr ?_
    have hfiles : Globals.FilesMapped { g with
        maxLocalId := g.maxLocalId + g.maxLocalId.sign
        sfds := g.sfds ++ [s], map := g.map.insert s.remoteId g.sfds.length } :=
      forall_mem_append.mpr ⟨hstate.files, forall_mem_singleton.mpr hs⟩
    refine ⟨_, FeedbackState.setExtra ⟨hstate.object, hstate.device, hfiles, hstate.unset⟩
      (hdevice _), ?_,
      hside _ _, hremaining⟩
    exact hprocessed

theorem processFeedback_clean (hsys : sys.Dependable) (hstate : FeedbackState q.objectId g f)
    (hknown : f.processed = false → g.onDisplaySide = false → f.mainDevice.isSome = true ∨
      f.tranches = [])
    (hleft : f.processed = false → g.onDisplaySide = true → ∃ t ∈ f.tranches, t.values ≠ [])
    (hids : f.processed = false → RidForTable g f) :
    Clean (processFeedback sys q) g fun _ g' => ∃ f', BatchProcessed q.objectId g f g' f' := by
  unfold processFeedback
  refine bind_iff.mpr (hstate.clean_extraOf ?_)
  split
  · next hprocessed =>
    refine ⟨f, hstate, hprocessed, rfl, ?_⟩
    unfold ObjZwpLinuxDmabufFeedback.Remaining
    rw [if_pos hprocessed]
  · next hprocessed =>
    have hnot := Bool.eq_false_iff.mpr hprocessed
    -- a device that is not set up leaves no formats
    have hready : g.dmabufDevice.isReady = true := by
      by_contra hunset
      obtain ⟨-, -, hnone⟩ := hstate.unset (Bool.eq_false_iff.mpr hunset)
      rcases hstate.device with h | ⟨hside, -⟩
      · exact hunset h
      · obtain ⟨t, ht, hvalues⟩ := hleft hnot hside
        exact hvalues (hnone t ht)
    simp only [bind_iff, clean_getGlob]
    refine clean_lift (feedbackTranches_clean hstate (hknown hnot)) fun old hold => ?_
    refine clean_lift (processDmabufFeedback_clean old) fun new hnew => ?_
    refine queueFormatTable_clean hsys hstate hready rfl ?_ ?_ (hids hnot _ _ _ hold hnew)
    · unfold ObjZwpLinuxDmabufFeedback.Remaining
      rw [if_neg hprocessed]
      exact ⟨old, new.1, hold, hnew⟩
    · exact processDmabufFeedback_length hnew (feedbackTranches_values (hknown hnot) (hleft hnot) hold)

end Process

/-- The events are messages, and have been written in order. -/
def Wrote (out : Output) (events : List (Res Words)) (out' : Output) : Prop :=
  ∃ vs : List Words, events = vs.map .ok ∧ out'.data = out.data ++ vs.flatMap Words.bytes

theorem Wrote.refl (out : Output) : Wrote out [] out := ⟨[], rfl, by simp⟩

theorem Wrote.trans {out mid out' : Output} {ws ws' : List (Res Words)} (h : Wrote out ws mid)
    (h' : Wrote mid ws' out') : Wrote out (ws ++ ws') out' := by
  obtain ⟨vs, rfl, hmid⟩ := h
  obtain ⟨vs', rfl, hout⟩ := h'
  exact ⟨vs ++ vs', by simp, by rw [hout, hmid]; simp⟩

/-- The events of one tranche. -/
def trancheEvents (id : ObjId) (devId : Nat) (t : DmabufTranche) : List (Res Words) :=
  [writeEvtZwpLinuxDmabufFeedbackV1TrancheTargetDevice id (writeDevArray devId),
    writeEvtZwpLinuxDmabufFeedbackV1TrancheFlags id t.flags,
    writeEvtZwpLinuxDmabufFeedbackV1TrancheFormats id t.indices,
    writeEvtZwpLinuxDmabufFeedbackV1TrancheDone id]

/-- The events of a batch, after that of the format table. -/
def batchEvents (id : ObjId) (devId : Nat) (ts : List DmabufTranche) : List (Res Words) :=
  writeEvtZwpLinuxDmabufFeedbackV1MainDevice id (writeDevArray devId) ::
    ts.flatMap (trancheEvents id devId) ++ [writeEvtZwpLinuxDmabufFeedbackV1Done id]

/-- There is room for some bytes in a buffer that is not larger than a message. -/
def EventRoom (bytes : Nat) (out : Output) : Prop := bytes ≤ out.space ∧ out.space < 2 ^ 16

section Write

variable {c : Core} {devId rest : Nat}

theorem writeMsg_ok {forId length opcode : Nat} {tagFds : Bool} {args : Words}
    (hlen : 8 + args.bytes.length = length) (hop : opcode < 2 ^ 8) (hsmall : length < 2 ^ 16) :
    ∃ v, writeMsg forId length opcode tagFds args = .ok v ∧ v.bytes.length = length := by
  obtain ⟨v, hv⟩ : ∃ v, writeMsg forId length opcode tagFds args = .ok v :=
    writeMsg_isOk tagFds args hsmall hop
  exact ⟨v, hv, (writeMsg_eq_ok hv).trans hlen⟩

theorem writeArrayMsg_ok {forId opcode : Nat} {arr : List UInt8} (hop : opcode < 2 ^ 8)
    (hsmall : lengthOfArrayMsg arr.length < 2 ^ 16) :
    ∃ v, writeArrayMsg forId opcode arr = .ok v ∧ v.bytes.length = lengthOfArrayMsg arr.length :=
  writeMsg_ok (congrArg (8 + ·) (length_writeArray arr)) hop hsmall

/-- Write one event, when there is room for it and for what follows. -/
theorem clean_emitEvent {w : Res Words} {length : Nat} (rest : Nat)
    (hw : length < 2 ^ 16 → ∃ v, w = .ok v ∧ v.bytes.length = length)
    (hroom : EventRoom (length + rest) c.out)
    (h : ∀ out, Wrote c.out [w] out → EventRoom rest out → P () { c with out }) :
    Clean (emitMsg w) c P := by
  obtain ⟨hspace, hsmall⟩ := hroom
  obtain ⟨v, hv, hlen⟩ := hw (by omega)
  refine clean_emitMsg hv (by omega) fun out hout => h out ⟨[v], by simp [hv], ?_⟩ ?_
  · simpa using Output.write_data hout
  · unfold EventRoom
    rw [Output.space_of_write hout]
    omega

theorem length_writeDevArray (dev : Nat) : (writeDevArray dev).length = SIZEOF_DEV_T :=
  length_leBytes _ _

theorem writeTranche_clean {t : DmabufTranche}
    (hroom : EventRoom (trancheSpace t + rest) c.out)
    (h : ∀ advertised out, Wrote c.out (trancheEvents q.objectId devId t) out → EventRoom rest out →
      P () ⟨{ c.glob with advertisedModifiers := advertised }, out⟩) :
    Clean (writeTranche q devId t) c P := by
  unfold writeTranche
  have hadvertise : Clean (t.values.forM fun f => (advertise f.1 [f.2] : Act Unit)) c fun _ u =>
      ∃ advertised, u = ⟨{ c.glob with advertisedModifiers := advertised }, c.out⟩ := by
    refine Avoids.forM (I := fun _ (u : Core) => ∃ advertised, u =
      ⟨{ c.glob with advertisedModifiers := advertised }, c.out⟩) ?_ ⟨_, rfl⟩
    rintro v _ _ ⟨advertised, rfl⟩
    exact clean_act (clean_modifyGlob.mpr ⟨_, rfl⟩)
  refine bind_iff.mpr (hadvertise.mono ?_)
  rintro _ _ ⟨advertised, rfl⟩
  let flags := lengthEvtZwpLinuxDmabufFeedbackV1TrancheFlags
  let formats := lengthEvtZwpLinuxDmabufFeedbackV1TrancheFormats t.indices.length
  let done := lengthEvtZwpLinuxDmabufFeedbackV1TrancheDone
  have hroom : EventRoom (lengthOfArrayMsg (writeDevArray devId).length +
      (flags + (formats + (done + rest)))) c.out := by
    have heq : trancheSpace t + rest = lengthOfArrayMsg (writeDevArray devId).length +
        (flags + (formats + (done + rest))) := by
      rw [length_writeDevArray]
      unfold trancheSpace lengthEvtZwpLinuxDmabufFeedbackV1TrancheTargetDevice
      omega
    rw [← heq]
    exact hroom
  refine bind_iff.mpr (clean_emitEvent _ (writeArrayMsg_ok (by decide)) hroom fun out₁ h₁ hroom₁ => ?_)
  refine bind_iff.mpr (clean_emitEvent _ (writeMsg_ok rfl (by decide)) hroom₁ fun out₂ h₂ hroom₂ => ?_)
  refine bind_iff.mpr (clean_emitEvent _ (writeArrayMsg_ok (by decide)) hroom₂ fun out₃ h₃ hroom₃ => ?_)
  refine clean_emitEvent _ (writeMsg_ok rfl (by decide)) hroom₃ fun out₄ h₄ hroom₄ => ?_
  exact h advertised out₄ (h₁.trans (h₂.trans (h₃.trans h₄))) hroom₄

/-- The events of all tranches. -/
theorem writeTranches_clean {ts : List DmabufTranche}
    (hroom : EventRoom ((ts.map trancheSpace).sum + rest) c.out)
    (h : ∀ advertised out, Wrote c.out (ts.flatMap (trancheEvents q.objectId devId)) out →
      EventRoom rest out →
      P () ⟨{ c.glob with advertisedModifiers := advertised }, out⟩) :
    Clean (ts.forM fun t => writeTranche q devId t) c P := by
  -- by what has been written when some tranches are left
  refine (Avoids.forM (I := fun left (u : Core) => ∃ sent advertised out, ts = sent ++ left ∧
    Wrote c.out (sent.flatMap (trancheEvents q.objectId devId)) out ∧
    EventRoom ((left.map trancheSpace).sum + rest) out ∧
    u = ⟨{ c.glob with advertisedModifiers := advertised }, out⟩) ?_ ?_).mono ?_
  · rintro t left _ ⟨sent, advertised, out, rfl, hwrote, hroom, rfl⟩
    rw [map_cons, sum_cons, Nat.add_assoc] at hroom
    refine writeTranche_clean hroom fun advertised' out' hwrote' hroom' => ?_
    refine ⟨sent ++ [t], advertised', out', by simp, ?_, hroom', rfl⟩
    rw [flatMap_append]
    simpa using hwrote.trans hwrote'
  · exact ⟨[], _, _, rfl, .refl _, hroom, rfl⟩
  · rintro _ _ ⟨sent, advertised, out, rfl, hwrote, hroom, rfl⟩
    rw [append_nil] at h
    exact h advertised out hwrote (by simpa using hroom)

end Write

/-- The event of the format table, if there is a new one. -/
def tableEvents (id : ObjId) (fromChannel : Bool) (queued : Option (SfdRef × Nat)) : List (Res Words) :=
  (queued.map fun x => writeEvtZwpLinuxDmabufFeedbackV1FormatTable id (!fromChannel) x.2).toList

section Done

variable {c : Ctx}

/-- What a batch leaves behind: all of its events, and an object that is ready for the next. -/
def BatchSent (q : Request) (devId : Nat) (f : ObjZwpLinuxDmabufFeedback) (c c' : Ctx) : Prop :=
  Wrote c.core.out (tableEvents q.objectId q.fromChannel f.queuedFormatTable ++
      batchEvents q.objectId devId f.tranches) c'.core.out ∧
    ∃ f', FeedbackState q.objectId c'.glob f'

/-- What is written after the event of the format table. -/
def writeBatch (q : Request) (feedback : ObjZwpLinuxDmabufFeedback) : Act Unit := do
  let devId ← dmabufDevGetId (← getGlob).dmabufDevice
  emitMsg (writeEvtZwpLinuxDmabufFeedbackV1MainDevice q.objectId (writeDevArray devId))
  feedback.tranches.forM fun t => writeTranche q devId t
  emitMsg (writeEvtZwpLinuxDmabufFeedbackV1Done q.objectId)
  setExtra q.objectId (.zwpDmabufFeedback { feedback with
    queuedFormatTable := none
    processed := false
    tranches := []
    current := .empty })

theorem writeBatch_clean (core : Core) (hstate : FeedbackState q.objectId core.glob f) {devId : Nat}
    (hdev : dmabufDevGetId core.glob.dmabufDevice = .ok devId)
    (hroom : EventRoom (lengthOfArrayMsg (writeDevArray devId).length +
      ((f.tranches.map trancheSpace).sum +
      (lengthEvtZwpLinuxDmabufFeedbackV1Done + 0))) core.out) :
    Clean (writeBatch q f) core fun _ core' =>
      Wrote core.out (batchEvents q.objectId devId f.tranches) core'.out ∧
        ∃ f', FeedbackState q.objectId core'.glob f' := by
  refine bind_iff.mpr (clean_act (clean_getGlob.mpr ?_))
  rw [hdev]
  refine bind_iff.mpr (clean_res (.ok devId) fun devId' hdevId => ?_)
  cases hdevId
  refine bind_iff.mpr (clean_emitEvent _ (writeArrayMsg_ok (by decide)) hroom fun out₁ h₁ hroom₁ => ?_)
  refine bind_iff.mpr (writeTranches_clean hroom₁ fun advertised out₂ h₂ hroom₂ => ?_)
  refine bind_iff.mpr (clean_emitEvent _ (writeMsg_ok rfl (by decide)) hroom₂ fun out₃ h₃ _ => ?_)
  refine clean_act (clean_setExtra.mpr ⟨h₁.trans (h₂.trans h₃), _, FeedbackState.setExtra
    (f := f) ⟨hstate.object, hstate.device, hstate.files, hstate.unset⟩ fun _ => ?_⟩)
  exact ⟨rfl, rfl, fun t ht => by cases ht⟩

/-- The space is that of the parts. -/
theorem feedbackSpace_eq (devId : Nat) (f : ObjZwpLinuxDmabufFeedback) :
    feedbackSpace f =
      (if f.queuedFormatTable.isSome then lengthEvtZwpLinuxDmabufFeedbackV1FormatTable else 0) +
        (lengthOfArrayMsg (writeDevArray devId).length + ((f.tranches.map trancheSpace).sum +
          (lengthEvtZwpLinuxDmabufFeedbackV1Done + 0))) := by
  rw [length_writeDevArray]
  unfold feedbackSpace lengthEvtZwpLinuxDmabufFeedbackV1MainDevice
  omega

theorem writeFeedback_none (hqueued : f.queuedFormatTable = none) :
    writeFeedback q f = liftAct (writeBatch q f) := by
  unfold writeFeedback
  rw [hqueued]
  rfl

theorem writeFeedback_some {sfd : SfdRef} {size : Nat}
    (hqueued : f.queuedFormatTable = some (sfd, size)) :
    writeFeedback q f = (liftAct (emitMsg
      (writeEvtZwpLinuxDmabufFeedbackV1FormatTable q.objectId (!q.fromChannel) size)) >>= fun _ =>
        pushOut sfd >>= fun _ => liftAct (writeBatch q f)) := by
  unfold writeFeedback
  rw [hqueued]
  rfl

theorem writeFeedback_clean (hstate : FeedbackState q.objectId c.glob f) {devId : Nat}
    (hdev : dmabufDevGetId c.glob.dmabufDevice = .ok devId)
    (hroom : EventRoom (feedbackSpace f) c.core.out) :
    Clean (writeFeedback q f) c fun _ c' => BatchSent q devId f c c' := by
  rw [feedbackSpace_eq devId] at hroom
  unfold BatchSent tableEvents
  cases hqueued : f.queuedFormatTable with
  | none =>
    rw [hqueued, Option.isSome_none, if_neg Bool.false_ne_true, Nat.zero_add] at hroom
    rw [writeFeedback_none hqueued]
    refine clean_liftAct (Avoids.mono (writeBatch_clean c.core hstate hdev hroom) fun _ core' h => ?_)
    exact ⟨(Wrote.refl _).trans h.1, h.2⟩
  | some x =>
    rw [hqueued, Option.isSome_some, if_pos rfl] at hroom
    rw [writeFeedback_some hqueued]
    refine bind_iff.mpr (clean_liftAct ?_)
    refine clean_emitEvent _ (writeMsg_ok rfl (by decide)) hroom fun out₁ h₁ hroom₁ => ?_
    refine bind_iff.mpr (clean_pushOut.mpr (clean_liftAct ?_))
    refine (writeBatch_clean ⟨c.glob, out₁⟩ hstate hdev hroom₁).mono fun _ core' h => ?_
    exact ⟨h₁.trans h.1, h.2⟩

/-- What becomes of the end of a batch. -/
def Ended (q : Request) (g : Globals) (f : ObjZwpLinuxDmabufFeedback) (c : Ctx) (p : ProcMsg)
    (c' : Ctx) :
    Prop :=
  (∃ f', FeedbackState q.objectId c'.glob f') ∧
    ((∃ bytes fds, p = .needsSpace bytes fds ∧ c'.core.out = c.core.out) ∨
      (p = .done ∧ ∃ devId ts queued, dmabufDevGetId g.dmabufDevice = .ok devId ∧ f.Remaining g ts ∧
        Wrote c.core.out (tableEvents q.objectId q.fromChannel queued ++ batchEvents q.objectId devId ts)
          c'.core.out))

theorem done_clean (hsys : sys.Dependable) (hstate : FeedbackState q.objectId c.glob f)
    (hknown : f.processed = false → c.glob.onDisplaySide = false →
      f.mainDevice.isSome = true ∨ f.tranches = [])
    (hleft : f.processed = false → c.glob.onDisplaySide = true → ∃ t ∈ f.tranches, t.values ≠ [])
    (hids : f.processed = false → RidForTable c.glob f) (hcapacity : c.core.out.capacity < 2 ^ 16) :
    Handler.Clean (zwpLinuxDmabufFeedbackV1Done sys q) c (Ended q c.glob f c) := by
  refine .first ((processFeedback_clean hsys hstate hknown hleft hids).mono ?_)
  rintro _ g' ⟨f', hstate', hprocessed, hdevice, hremaining⟩
  have hlook : (lookExtra q.objectId WpExtra.zwpDmabufFeedback? "Unexpected object extra type").run
      (c.setGlob g') = .ok f' := hstate'.extraOf_eq _
  have hready : c.glob.dmabufDevice.isReady = true := by
    by_contra hunset
    have hunset' : g'.dmabufDevice.isReady = false := by
      rw [hdevice]
      exact Bool.eq_false_iff.mpr hunset
    have hnot := (hstate'.unset hunset').1
    rw [hprocessed] at hnot
    cases hnot
  obtain ⟨devId, hdevId⟩ := dmabufDevGetId_of_ready hready
  refine .looking (by rw [hlook]; exact .ok f') fun f'' hf'' => ?_
  rw [hlook] at hf''
  cases hf''
  refine .needs (fun hspace => .actFd ?_) ⟨⟨f', hstate'⟩, .inl ⟨_, _, rfl, rfl⟩⟩
  have hroom : EventRoom (feedbackSpace f') (c.setGlob g').core.out :=
    ⟨hspace.1, Nat.lt_of_le_of_lt (Nat.sub_le _ _) hcapacity⟩
  have hdevId' : dmabufDevGetId (c.setGlob g').glob.dmabufDevice = .ok devId := by
    rw [← hdevId]
    exact congrArg dmabufDevGetId hdevice
  refine Avoids.mono (writeFeedback_clean hstate' hdevId' hroom) fun _ c' h => ?_
  exact ⟨h.2, .inr ⟨rfl, devId, f'.tranches, f'.queuedFormatTable, hdevId, hremaining, h.1⟩⟩

end Done

/-! ## Runs -/

/-- The tracked state after an event, if it is processed without an error. -/
def feedbackStep (sys : System) (g : Globals) (e : FeedbackEvent) : Option Globals :=
  match processWayMsg sys e.msg (e.ctx g) with
  | .ok (_, c) => some c.glob
  | .error _ => none

/-- An event for the object, in order. -/
def FeedbackEvent.InOrder (sys : System) (id : ObjId) (g : Globals) (e : FeedbackEvent) : Prop :=
  e.For id g ∧ ∀ f, g.extra? id = some (.zwpDmabufFeedback f) → Orderly sys g f e

/-- What becomes of an event: it is done, or the end of a batch waits for space.  A batch that is done
writes the format table if it is new, one `main_device` and `done` event, and one group of events for
each of its tranches; nothing else is written. -/
structure FeedbackOutcome (id : ObjId) (g : Globals) (f : ObjZwpLinuxDmabufFeedback) (e : FeedbackEvent)
    (p : ProcMsg) (c' : Ctx) : Prop where
  state : ∃ f', FeedbackState id c'.glob f'
  noWait : ∀ rid, p ≠ .waitFor rid
  quiet : e.opcode ≠ 0 ∨ p ≠ .done → c'.core.out = e.out
  batch : e.opcode = 0 → p = .done → ∃ devId ts queued, dmabufDevGetId g.dmabufDevice = .ok devId ∧
    f.Remaining g ts ∧ Wrote e.out
      (tableEvents id e.transl.isFromChannel queued ++ batchEvents id devId ts) c'.core.out

section Runs

variable {e : FeedbackEvent}

theorem clean_of_heldBack {H : Handler} (hop : e.opcode ≠ 0)
    (h : Handler.Clean H (e.ctx g) (HeldBack id (e.ctx g))) :
    Handler.Clean H (e.ctx g) (FeedbackOutcome id g f e) := by
  refine h.mono ?_
  rintro p c' ⟨rfl, hout, hstate⟩
  exact ⟨hstate, fun rid h => (by cases h), fun _ => hout, fun h => absurd h hop⟩

theorem processFeedbackEvent_clean (hsys : sys.Dependable) (hstate : FeedbackState id g f)
    (hfor : e.For id g)
    (horder : Orderly sys g f e) :
    Handler.Clean (processWayMsg sys e.msg) (e.ctx g) (FeedbackOutcome id g f e) := by
  obtain ⟨hid, hevent, hop, hfds, hqueued, hcapacity⟩ := hfor
  subst hid
  obtain ⟨meth, hmeth⟩ : ∃ meth, WaylandInterface.method .zwpLinuxDmabufFeedbackV1 (.event e.opcode) =
      some meth := by
    have hall : ∀ n < 7, (WaylandInterface.method .zwpLinuxDmabufFeedbackV1 (.event n)).isSome := by
      decide +kernel
    exact Option.isSome_iff_exists.mp (hall _ hop)
  have hrun :=
    processWayMsg_of_method sys (methodOf_event (c := e.ctx g) hstate.object hevent hmeth) hfds
  generalize hq : requestOf e.msg (e.ctx g) meth = q at hrun
  have hid : q.objectId = e.msg.objectId := by rw [← hq]; rfl
  have hmsg : q.msg = e.msg := by rw [← hq]; rfl
  have hfrom : q.fromChannel = e.transl.isFromChannel := by rw [← hq]; rfl
  rw [← hid] at hstate ⊢
  unfold Handler.Clean
  rw [hrun]
  change Handler.Clean (handlerOf sys .zwpLinuxDmabufFeedbackV1 (.event e.opcode) q) _ _
  have hcases : e.opcode = 0 ∨ e.opcode = 1 ∨ e.opcode = 2 ∨ e.opcode = 3 ∨ e.opcode = 4 ∨ e.opcode = 5 ∨
      e.opcode = 6 := by omega
  rcases hcases with hop | hop | hop | hop | hop | hop | hop
  · rw [hop]
    refine (done_clean (c := e.ctx g) hsys hstate (horder.known hop) (horder.left hop) (horder.ids hop)
      hcapacity).mono ?_
    rintro p c' ⟨hstate', ⟨bytes, fds, rfl, hout⟩ | ⟨rfl, devId, ts, queued, hdev, hts, hwrote⟩⟩
    · exact ⟨hstate', fun rid h => (by cases h), fun _ => hout, fun _ h => by cases h⟩
    · rw [hfrom] at hwrote
      refine ⟨hstate', fun rid h => (by cases h), ?_, fun _ _ => ⟨devId, ts, queued, hdev, hts, hwrote⟩⟩
      rintro (h | h)
      · exact absurd hop h
      · exact absurd rfl h
  · rw [hop]
    exact clean_of_heldBack (by omega) (formatTable_clean hstate hsys hqueued (horder.table hop))
  · rw [hop]
    refine clean_of_heldBack (by omega) (mainDevice_clean hstate hsys ?_)
    rw [hmsg]
    exact horder.main hop
  · rw [hop]
    exact clean_of_heldBack (by omega) (trancheDone_clean hstate)
  · rw [hop]
    exact clean_of_heldBack (by omega) (trancheTargetDevice_clean hstate)
  · rw [hop]
    refine clean_of_heldBack (by omega) (trancheFormats_clean hstate ?_)
    rw [hmsg]
    exact horder.formats hop
  · rw [hop]
    exact clean_of_heldBack (by omega) (trancheFlags_clean hstate)

theorem feedbackStep_state (hsys : sys.Dependable) {t : Globals} (hstate : ∃ f, FeedbackState id g f)
    (hin : e.InOrder sys id g) (hstep : feedbackStep sys g e = some t) : ∃ f, FeedbackState id t f := by
  obtain ⟨f, hstate⟩ := hstate
  have hclean := processFeedbackEvent_clean hsys hstate hin.1 (hin.2 f hstate.extra?)
  unfold feedbackStep at hstep
  unfold Handler.Clean at hclean
  cases hrun : processWayMsg sys e.msg (e.ctx g) with
  | error err =>
    rw [hrun] at hstep
    cases hstep
  | ok x =>
    rw [hrun] at hclean hstep
    cases hstep
    exact hclean.state

/-- However many events have been processed, when they were in order, the next that is in order does not
panic either, and becomes what it should. -/
theorem feedback_orderly (sys : System) (id : ObjId) (g g' : Globals) (f f' : ObjZwpLinuxDmabufFeedback)
    (es : List FeedbackEvent) (e : FeedbackEvent) (hsys : sys.Dependable) (hstart : FeedbackState id g f)
    (halong : Along (feedbackStep sys) (fun g e => e.InOrder sys id g) g es)
    (hrun : run (feedbackStep sys) g es = some g') (hin : e.InOrder sys id g')
    (hdata : g'.extra? id = some (.zwpDmabufFeedback f')) :
    Handler.Clean (processWayMsg sys e.msg) (e.ctx g') (FeedbackOutcome id g' f' e) := by
  obtain ⟨f'', hstate⟩ := run_invariant (P := fun g => ∃ f, FeedbackState id g f)
    (fun _ _ _ hstate hin hstep => feedbackStep_state hsys hstate hin hstep) ⟨f, hstart⟩ halong hrun
  rw [hstate.extra?] at hdata
  cases hdata
  exact processFeedbackEvent_clean hsys hstate hin.1 (hin.2 f' hstate.extra?)

end Runs

/-! ## Runs in and out of order -/

/-- A new feedback object 3, with a device. -/
def Globals.withFeedback (onDisplaySide : Bool) (dev : DmabufDevice) (sfds : List ShadowFd) : Globals :=
  { Globals.start onDisplaySide .plain with
    dmabufDevice := dev
    sfds := sfds
    objects := AList.singleton 3 { objType := .zwpLinuxDmabufFeedbackV1, extra := .zwpDmabufFeedback {
      inputFormatTable := none
      outputFormatTable := none
      mainDevice := none
      tranches := []
      processed := false
      queuedFormatTable := none
      current := .empty } } }

variable (fromChannel : Bool)

/-- An event for object 3 from the compositor or from the channel, with one descriptor at hand. -/
def FeedbackEvent.make (opcode : Nat) (args : Words) : FeedbackEvent where
  msg := .make 3 opcode args
  out := .empty 4096
  transl := if fromChannel then .fromChannel [0] [] else .fromWayland [0] []

namespace FeedbackEvent

def done : FeedbackEvent := make fromChannel 0 .empty

def formatTable : FeedbackEvent := make fromChannel 1 (.u32 16)

def mainDevice : FeedbackEvent :=
  make fromChannel 2 (.array (writeDevArray 7))

def trancheDone : FeedbackEvent := make fromChannel 3 .empty

def trancheFormats : FeedbackEvent :=
  make fromChannel 5 (.array [0, 0])

/-- On the display side, with a device, only the end of a batch can be out of order. -/
theorem inOrder_of_display {sys : System} {g : Globals} {e : FeedbackEvent}
    (h : g.onDisplaySide = true ∧ g.dmabufDevice.isReady = true ∧ e.msg.objectId = 3 ∧ e.opcode < 7 ∧
      e.transl.isFromChannel = false ∧ e.transl.outgoing.length ≤ MAX_OUTGOING_FDS ∧
        e.out.capacity < 2 ^ 16)
    (hdone : e.opcode = 0 → g.RidLeft ∧
      ∀ f, g.extra? 3 = some (.zwpDmabufFeedback f) → ∃ t ∈ f.tranches, t.values ≠ []) :
    e.InOrder sys 3 g := by
  obtain ⟨hside, hready, hid, hop, hfrom, hfds, hcapacity⟩ := h
  refine ⟨⟨hid, ?_, hop, hfds, ?_, hcapacity⟩, fun f hf => ⟨?_, ?_, ?_, ?_, ?_, ?_⟩⟩
  · show (g.onDisplaySide == e.transl.isFromChannel) = false
    rw [hside, hfrom]
    rfl
  · intro sfds fds htransl
    rw [htransl] at hfrom
    cases hfrom
  · intro _ r sfds fds s file htransl
    rw [htransl] at hfrom
    cases hfrom
  · intro _ _ inst hinst
    rw [hinst] at hready
    cases hready
  · intro _ hunset
    rw [hready] at hunset
    cases hunset
  · intro _ _ happ
    rw [hside] at happ
    cases happ
  · exact fun h _ _ => (hdone h).2 f hf
  · exact fun h _ _ _ _ _ _ _ => (hdone h).1

end FeedbackEvent

open FeedbackEvent in
/-- A batch with one format, up to its end. -/
theorem feedback_orderly_batch : ∃ g f,
    run (feedbackStep .headless) (.withFeedback true (.gbm ⟨7, fun _ => [0]⟩) [])
      [mainDevice false, formatTable false, trancheFormats false, trancheDone false] = some g ∧
    f.tranches.map (·.values) = [[(0, 0)]] ∧
    Handler.Clean (processWayMsg .headless (done false).msg) ((done false).ctx g)
      (FeedbackOutcome 3 g f (done false)) := by
  have hsys : System.headless.Dependable :=
    ⟨fun _ _ _ => .ok _, fun _ _ _ _ h => (by cases h; simp), fun _ => .ok _, .ok _, fun _ _ => .ok _,
      fun _ _ _ => .ok _⟩
  have hstart : FeedbackState 3 (.withFeedback true (.gbm ⟨7, fun _ => [0]⟩) []) _ :=
    ⟨rfl, .inl rfl, fun _ h => (by cases h), fun h => by cases h⟩
  have hend : ((run (feedbackStep .headless) (.withFeedback true (.gbm ⟨7, fun _ => [0]⟩) [])
      [mainDevice false, formatTable false, trancheFormats false, trancheDone false]).bind fun g =>
        ((g.extra? 3).bind WpExtra.zwpDmabufFeedback?).map fun f =>
          (g.onDisplaySide && g.dmabufDevice.isReady && decide g.RidLeft, f.tranches.map (·.values))) =
        some (true, [[(0, 0)]]) := by decide +kernel
  obtain ⟨g, hrun, hend⟩ := Option.bind_eq_some_iff.mp hend
  obtain ⟨f, hf, hend⟩ := Option.map_eq_some_iff.mp hend
  obtain ⟨x, hx, hkind⟩ := Option.bind_eq_some_iff.mp hf
  simp only [Prod.mk.injEq, Bool.and_eq_true, decide_eq_true_eq] at hend
  obtain ⟨⟨⟨hside, hready⟩, hids⟩, htranches⟩ := hend
  have hdata : g.extra? 3 = some (.zwpDmabufFeedback f) := by
    cases x with
    | zwpDmabufFeedback f' =>
      cases hkind
      exact hx
    | _ => cases hkind
  have halong : Along (feedbackStep .headless) (fun g e => e.InOrder .headless 3 g)
      (.withFeedback true (.gbm ⟨7, fun _ => [0]⟩) [])
      [mainDevice false, formatTable false, trancheFormats false, trancheDone false] := by
    have hcheck : Along (feedbackStep .headless) (fun g e => (g.onDisplaySide = true ∧
        g.dmabufDevice.isReady = true ∧ e.msg.objectId = 3 ∧ e.opcode < 7 ∧
        e.transl.isFromChannel = false ∧ e.transl.outgoing.length ≤ MAX_OUTGOING_FDS ∧
        e.out.capacity < 2 ^ 16) ∧ e.opcode ≠ 0) (.withFeedback true (.gbm ⟨7, fun _ => [0]⟩) [])
        [mainDevice false, formatTable false, trancheFormats false, trancheDone false] := by
      decide +kernel
    exact hcheck.mono fun g e h => inOrder_of_display h.1 fun h0 => absurd h0 h.2
  refine ⟨g, f, hrun, htranches, feedback_orderly .headless 3 _ g _ f _ (done false) hsys hstart
    halong hrun
    (inOrder_of_display ⟨hside, hready, by decide +kernel⟩ fun _ => ⟨hids, ?_⟩) hdata⟩
  rintro f' hf'
  rw [hdata] at hf'
  cases hf'
  cases hts : f.tranches with
  | nil =>
    rw [hts] at htranches
    cases htranches
  | cons t ts =>
    rw [hts] at htranches
    refine ⟨t, mem_cons_self, fun hnil => ?_⟩
    have hfirst : t.values = [(0, 0)] := (List.cons.inj htranches).1
    rw [hnil] at hfirst
    cases hfirst

/-- An instance on which every device is said to exist. -/
def vulkanInstance : VulkanInstance where
  hasDevice _ := true
  deviceSupportsTimelineImportExport _ := false

/-- A table from the channel that is still being filled. -/
def pendingTable : ShadowFd where
  remoteId := -1
  onlyHere := true
  data := .file {
    bufferSize := 16
    remoteBufsize := 16
    readonly := false
    damage := .intervals []
    core := some { memMirror := [], mapping := replicate 16 0, shared := 0 }
    fd := 0
    pendingApplyTasks := 1 }

/-- The result of an event after others. -/
def resultAfter (g : Globals) (es : List FeedbackEvent) (e : FeedbackEvent) : Option (Res ProcMsg) :=
  (run (feedbackStep .headless) g es).map fun g => (processWayMsg .headless e.msg (e.ctx g)).map Prod.fst

open FeedbackEvent in
/-- A main device that does not exist, formats before the main device, a batch without a main device, a
batch without formats, a table for which no remote id is left, and a format table whose contents have not
arrived. -/
theorem feedback_out_of_order :
    resultAfter (.withFeedback true (.vulkanSetup vulkanInstance) []) [] (mainDevice false) =
      some (.error (.panic "Vulkan device existence should already have been checked")) ∧
    resultAfter (.withFeedback true (.vulkanSetup vulkanInstance) []) [formatTable false]
      (trancheFormats false) = some (.error (.panic UNREACHABLE)) ∧
    resultAfter (.withFeedback false (.gbm ⟨7, fun _ => [0]⟩) []) [trancheDone true] (done true) =
      some (.error (.panic UNWRAP_NONE)) ∧
    resultAfter (.withFeedback true (.gbm ⟨7, fun _ => [0]⟩) []) [mainDevice false] (done false) =
      some (.error (.panic "sz > 0")) ∧
    resultAfter { Globals.withFeedback true (.gbm ⟨7, fun _ => [0]⟩) [] with maxLocalId := 2 ^ 31 - 1 }
      [mainDevice false, formatTable false, trancheFormats false, trancheDone false] (done false) =
        some (.error (.panic UNWRAP_NONE)) ∧
    resultAfter (.withFeedback false (.gbm ⟨7, fun _ => [0]⟩) [pendingTable]) [] (formatTable true) =
      some (.ok (.waitFor (-1))) := by
  decide +kernel

end Waypipe
