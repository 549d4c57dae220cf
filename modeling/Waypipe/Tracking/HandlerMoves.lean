import Waypipe.Tracking.Moves
import Waypipe.Tracking.HandlerForms

/-!
# The moves of all handlers

Whatever becomes of a message, what it does to the tracked state and the queues is a sequence of
moves (`processWayMsg_processed`).  Most handlers look an object up, write output and update or insert
one object; the others have lemmas of their own for their parts.
-/

namespace Waypipe

open Wayland Handler List
open Post (bind_iff ite_iff lift_iff pure_iff throw_iff)

variable {sig : List WaylandArgument} {rel : Option (Nat × SfdRef)} {intf : WaylandInterface}

variable (sys : System) (q : Request)
variable {m : Targets} {g : Globals} {core : Core} {id : ObjId} {msg : WaylandMsg} {buf : SfdRef}
  {fd : Fd} {t : Transl} {version : Nat}

/-- The handler does nothing but moves. -/
def Handler.Moving (h : Handler) (m : Targets) (c : Ctx) : Prop :=
  h.Ensures c fun _ c' => Moves m c c'

/-- What the handler does is what a message can do. -/
def Handler.Processes (h : Handler) (m : Targets) (c : Ctx) : Prop :=
  h.Ensures c fun _ c' => Processed m c c'

namespace Handler.Moving

variable {α : Type} {k : Handler} {c : Ctx}

theorem processes (h : k.Moving m c) : k.Processes m c :=
  fun p c' hrun => .moves (h p c' hrun)

theorem drop : Moving .drop m c := Ensures.drop_iff.mpr .stay

theorem act {a : Act Unit} (h : Post a c.core fun _ core => Moves m c { c with core }) :
    Moving (.act a) m c := Ensures.act_iff.mpr h

theorem actFd {a : FdAct Unit} (h : Post a c fun _ c' => Moves m c c') : Moving (.actFd a) m c :=
  Ensures.actFd_iff.mpr h

theorem looking {r : Look α} {k : α → Handler} (h : ∀ a, r.run c = .ok a → Moving (k a) m c) :
    Moving (.looking r k) m c := Ensures.looking_iff.mpr h

theorem parsing {x : Res α} {k : α → Handler} (h : ∀ a, x = .ok a → Moving (k a) m c) :
    Moving (.parsing x k) m c := Ensures.parsing_iff.mpr h

theorem needs {bytes fds : Nat} (h : Moving k m c) : Moving (.needs bytes fds k) m c :=
  Ensures.needs_iff.mpr ⟨fun _ => h, fun _ => .stay⟩

theorem waits {r : Look (Option Rid)} (h : r.run c = .ok none → Moving k m c) :
    Moving (.waits r k) m c := Ensures.waits_iff.mpr ⟨h, fun _ _ => .stay⟩

theorem first {a : GlobAct Unit}
    (h : Post a c.glob fun _ g => Moves m c (c.setGlob g) ∧ Moving k m (c.setGlob g)) :
    Moving (.first a k) m c :=
  Ensures.first_iff.mpr (h.mono fun _ _ hg p c' hrun => hg.1.trans (hg.2 p c' hrun))

end Handler.Moving

/-! ## Arguments -/

section Arguments

theorem parseReqWlShmCreatePool_lt {poolId : Nat} {size : Int}
    (h : parseReqWlShmCreatePool msg = .ok (poolId, size)) : size < 2 ^ 31 := by
  refine parseArgs_post (P := fun a : Nat × Int => a.2 < 2 ^ 31) ?_ h
  simp only [bind_iff, pure_iff]
  exact post_parseU32 fun _ _ _ => post_parseI32 fun _ _ hi => hi

theorem parseReqWlShmPoolResize_lt {size : Int} (h : parseReqWlShmPoolResize msg = .ok size) :
    size < 2 ^ 31 :=
  parseArgs_post (P := fun i : Int => i < 2 ^ 31) (post_parseI32 fun _ _ hi => hi) h

theorem parseReqWlShmPoolCreateBuffer_lt {id format : Nat} {offset width height stride : Int}
    (h : parseReqWlShmPoolCreateBuffer msg = .ok (id, offset, width, height, stride, format)) :
    offset < 2 ^ 31 := by
  refine parseArgs_post (P := fun a : Nat × Int × Int × Int × Int × Nat => a.2.1 < 2 ^ 31) ?_ h
  simp only [bind_iff, pure_iff]
  refine post_parseU32 fun _ _ _ => post_parseI32 fun _ _ hi => ?_
  refine post_parseI32 fun _ _ _ => post_parseI32 fun _ _ _ => post_parseI32 fun _ _ _ => ?_
  exact post_parseU32 fun _ _ _ => hi

/-- The first argument of the message is the id of an object that it creates. -/
def FirstNew (m : Targets) (msg : WaylandMsg) : Prop :=
  Post parseObj (msg.bytes.drop 8) fun id _ => id ∈ m.new

namespace FirstNew

variable {α : Type} {a : α}

theorem one (h : FirstNew m msg) (hid : parseOneObj msg = .ok id) : id ∈ m.new :=
  parseArgs_post (P := fun id => id ∈ m.new) h hid

theorem parsed {k : Nat → ArgParser α} {f : α → Nat} (h : FirstNew m msg)
    (hk : ∀ id rest, Post (k id) rest fun a _ => f a = id)
    (ha : parseArgs (parseObj >>= k) msg = .ok a) : f a ∈ m.new :=
  parseArgs_post (P := fun a => f a ∈ m.new)
    (bind_iff.mpr (h.mono fun id rest hid => (hk id rest).mono fun _ _ hf => hf ▸ hid)) ha

theorem parsed_map {k : Nat → ArgParser α} {f : α → Nat} (h : FirstNew m msg)
    (hk : ∀ id rest, Post (k id) rest fun a _ => f a = id)
    (hid : (parseArgs (parseObj >>= k) msg).map f = .ok id) : id ∈ m.new := by
  cases ha : parseArgs (parseObj >>= k) msg with
  | error => rw [ha] at hid; cases hid
  | ok a =>
    rw [ha] at hid
    cases hid
    exact h.parsed hk ha

theorem two {id' : ObjId} (h : FirstNew m msg) (hids : parseTwoObjs msg = .ok (id, id')) :
    id ∈ m.new := h.parsed (f := Prod.fst) (fun _ _ => by simp) hids

/-- The signature says so. -/
theorem of_sig
    (h : newIds (.newId intf :: sig) (msg.bytes.drop 8) ⊆ m.new) : FirstNew m msg := by
  intro id rest hid
  refine h ?_
  have hread : argNewIds (.newId intf) (msg.bytes.drop 8) = .ok ([id], rest) := by
    exact StateT.run_bind_eq_ok.mpr ⟨id, rest, hid, rfl⟩
  rw [newIds, hread]
  exact mem_cons_self

end FirstNew

end Arguments

/-! ## New descriptors -/

section Translate

variable {g : Globals} {P : SfdRef → Globals → Prop}

theorem post_translateShmFd {size : Nat} {defaultDamage readonce localOnly : Bool}
    (h : ∀ f : ShadowFdFile,
      ((readonce = false → defaultDamage = false ∧ size < 2 ^ 31) → NewData (.file f)) →
      f.fd = fd → f.readonly = readonce →
      f.bufferSize = size → P g.sfds.length (g.created
        { remoteId := g.maxLocalId, onlyHere := !localOnly, data := .file f })) :
    Post (translateShmFd sys fd size defaultDamage readonce localOnly) g P := by
  unfold translateShmFd
  refine bind_iff.mpr (post_allocateRid ?_)
  simp only [bind_iff, lift_iff, post_addSfd]
  intro mapping _ _ _
  refine h _ (fun hwrite => .file rfl rfl ?_ fun hread => ?_) rfl rfl rfl
  · rintro core ⟨⟩
    rfl
  · obtain ⟨rfl, hsize⟩ := hwrite hread
    exact ⟨rfl, hsize⟩

theorem post_translateDmabufFd {width height drmFormat : Nat} {planes : List AddDmabufPlane}
    {waylandId : ObjId}
    (h : ∀ d : ShadowFdDmabuf, NewData (.dmabuf d) → P g.sfds.length (g.created
      { remoteId := g.maxLocalId, onlyHere := true, data := .dmabuf d })) :
    Post (translateDmabufFd sys width height drmFormat planes waylandId) g P := by
  unfold translateDmabufFd
  refine bind_iff.mpr (post_allocateRid ?_)
  simp only [bind_iff, lift_iff, post_getGlob, post_addSfd]
  intro plane _ buf _
  exact h _ (.dmabuf rfl rfl rfl)

theorem post_translateTimeline {objectId : ObjId}
    (h : ∀ t : ShadowFdTimeline, t.timeline = fd → NewData (.timeline t) → P g.sfds.length (g.created
      { remoteId := g.maxLocalId, onlyHere := true, data := .timeline t })) :
    Post (translateTimeline sys fd objectId) g P := by
  unfold translateTimeline
  refine bind_iff.mpr (post_allocateRid ?_)
  simp only [bind_iff, post_getGlob]
  split
  · simp only [bind_iff, lift_iff, post_addSfd]
    intro _ _
    exact h _ rfl (.timeline rfl)
  · exact throw_iff.mpr trivial

theorem post_translatePipeFd {readingFromChannel : Bool}
    (h : ∀ p : ShadowFdPipe, p.fd = fd → P g.sfds.length (g.created
      { remoteId := g.maxLocalId, onlyHere := true, data := .pipe p })) :
    Post (translatePipeFd fd readingFromChannel) g P := by
  unfold translatePipeFd
  refine bind_iff.mpr (post_allocateRid ?_)
  simp only [bind_iff, post_addSfd, post_modifyGlob, pure_iff]
  exact h _ rfl

end Translate

/-! ## Messages with descriptors -/

section Pass

variable {c : Ctx}

/-- A descriptor that is passed on and not kept. -/
theorem passFd_moves (missing : String) (translate : Fd → GlobAct SfdRef)
    (htranslate : ∀ fd g (P : SfdRef → Globals → Prop), (∀ data, NewData data →
      P g.sfds.length (g.created { remoteId := g.maxLocalId, onlyHere := true, data })) →
        Post (translate fd) g P) :
    Post (do
      let _ ← passFd missing (fun _ => return) fun fd => do translate fd
      liftAct (copyMsgTagFd q.msg q.fromChannel)) c fun _ c' => Moves m c c' := by
  obtain ⟨⟨g, out⟩, t⟩ := c
  simp only [bind_iff, post_passFd, pure_iff, post_liftAct, post_act]
  refine ⟨fun r rs fds ht => ?_, fun fd fds rids ht => ?_⟩
  · subst ht
    exact post_copyMsgTagFd fun _ => Move.pass.moves.tail .write
  · subst ht
    refine htranslate fd g _ fun data hdata => post_copyMsgTagFd fun _ => ?_
    exact (Move.popFd.moves.tail (.create hdata)).tail .write

theorem fixedFile_moves {fileSz : Nat} : (fixedFile sys q fileSz).Moving m c := by
  have hpass := passFd_moves q (m := m) (c := c) "Missing fd"
    (fun fd => translateShmFd sys fd fileSz true true false) fun _ _ _ h =>
      post_translateShmFd sys fun _ hf _ _ _ => h _ (hf (by simp))
  unfold fixedFile
  split
  · exact .looking fun _ _ => .waits fun _ => .actFd hpass
  · exact .actFd hpass

theorem transferSelection_moves : (transferSelection q).Moving m c :=
  .needs (.actFd (passFd_moves q _ (fun fd => translatePipeFd fd true)
    fun _ _ _ h => post_translatePipeFd fun p _ => h _ (.pipe p)))

/-- On the application side a pool is always for a file that can be written. -/
theorem wlShmCreatePool_moves (hfirst : FirstNew m q.msg) (hreq : c.isReq = true) :
    (wlShmCreatePool sys q).Moving m c := by
  obtain ⟨⟨g, out⟩, t⟩ := c
  refine .needs (.actFd ?_)
  simp only [bind_iff, lift_iff]
  rintro ⟨poolId, size⟩ hparse
  have hid : poolId ∈ m.new := hfirst.parsed (f := Prod.fst) (fun _ _ => by simp) hparse
  simp only [post_guard, bind_iff, post_passFd, pure_iff, post_liftAct, post_act, post_insertNewObject]
  intro hneg
  refine ⟨fun r rs fds ht hnew => ?_, fun fd fds rids ht => ?_⟩
  · subst ht
    have hside : g.onDisplaySide = true := by simpa [Ctx.isReq, Transl.isFromChannel] using hreq
    refine post_copyMsgTagFd fun _ => ((Relation.ReflTransGen.single .pass).tail
      (.insert hid hnew ⟨mem_append_right _ mem_cons_self, fun h => ?_⟩)).tail .write
    rw [hside] at h
    cases h
  · subst ht
    have hsize : size.toNat < 2 ^ 31 := by
      have := parseReqWlShmCreatePool_lt hparse
      omega
    refine post_translateShmFd sys fun f hf _ hread _ hnew => post_copyMsgTagFd fun _ => ?_
    refine (((Relation.ReflTransGen.single .popFd).tail (.create (hf fun _ => ⟨rfl, hsize⟩))).tail
      (.insert hid hnew ⟨mem_append_right _ mem_cons_self, fun _ => ?_⟩)).tail .write
    exact ⟨_, f, List.getElem?_concat_length, rfl, hread⟩

theorem importTimeline_moves (hfirst : FirstNew m q.msg) :
    (wpLinuxDrmSyncobjManagerV1ImportTimeline sys q).Moving m c := by
  obtain ⟨⟨g, out⟩, t⟩ := c
  refine .needs (.actFd ?_)
  simp only [bind_iff, lift_iff, post_passFd, post_liftAct, post_act, post_insertNewObject]
  intro newId hid
  have hid := hfirst.one hid
  refine ⟨fun r rs fds ht => ?_, fun fd fds rids ht => ?_⟩
  · subst ht
    unfold nameTimeline
    simp only [bind_iff, post_readSfd]
    intro sfd hsfd
    split
    · rename_i d hd
      simp only [post_putSfdData_of hsfd]
      intro hnew
      refine post_copyMsgTagFd fun _ => ?_
      refine ((Move.pass.moves.tail (.evolve hsfd ?_)).tail
        (.insert hid hnew (mem_append_right _ mem_cons_self))).tail .write
      rw [hd]
      exact .timeline d newId
    · simp
  · subst ht
    refine post_translateTimeline sys fun d _ hd hnew => post_copyMsgTagFd fun _ => ?_
    exact ((Move.popFd.moves.tail (.create hd)).tail
      (.insert hid hnew (mem_append_right _ mem_cons_self))).tail .write

end Pass

/-! ## Pools and surfaces -/

section Core

variable {c : Ctx}

theorem wlShmPoolCreateBuffer_moves (hfirst : FirstNew m q.msg) :
    (wlShmPoolCreateBuffer q).Moving m c := by
  obtain ⟨⟨g, out⟩, t⟩ := c
  refine .needs (.act ?_)
  simp only [bind_iff, post_copyMsg, post_res]
  rintro out' - ⟨bufferId, offset, width, height, stride, format⟩ hparse
  simp only [post_guardAct, bind_iff, post_act, post_extraOf, WpExtra.wlShmPool?_eq_some,
    post_readSfd]
  rintro hsize hoffset hstride _ pool rfl hpool sfd -
  have haccepted : ObjWlBufferShm.Accepted
      { width := max width 0, height := max height 0, format, offset, stride } := by
    have hlt := parseReqWlShmPoolCreateBuffer_lt hparse
    constructor
    all_goals dsimp only
    all_goals omega
  split
  · simp only [post_guardAct, bind_iff, pure_iff, post_res, post_act, post_getGlob,
      post_insertNewObject, post_modifyGlob]
    intro small _ _ hnew
    have hinsert (b : ObjWlBuffer) (hb : b.sfd = pool.buffer) (hshm : ∀ i ∈ b.shmInfo, i.Accepted) :
        Moves m ⟨⟨g, out⟩, t⟩
          ⟨⟨g.withObject bufferId { objType := .wlBuffer, extra := .wlBuffer b }, out'⟩, t⟩ :=
      .insert (hfirst.parsed (f := Prod.fst) (fun _ _ => by simp) hparse) hnew
        ⟨Or.inr ⟨q.objectId, pool, hpool, hb.symm⟩, hshm⟩
    refine (hinsert _ rfl ?_).tail (.state ⟨rfl, rfl, rfl, rfl, rfl, rfl, rfl⟩)
    rintro info ⟨⟩
    exact haccepted
  · simp

/-- The core of a file is extended only when no task refers to it. -/
theorem updateCoreForNewSize_eq_ok {size : Nat} {core : Option ShadowFdFileCore}
    {core' : ShadowFdFileCore} (h : updateCoreForNewSize sys fd size core = .ok core') :
    ∃ inner, core = some inner ∧ inner.shared = 0 ∧ core'.shared = 0 := by
  obtain ⟨mapping, _, h⟩ := Res.bind_eq_ok.mp h
  obtain ⟨inner, hinner, h⟩ := Res.bind_eq_ok.mp h
  split at h
  · cases h
  · rename_i hshared
    obtain ⟨_, _, h⟩ := Res.bind_eq_ok.mp h
    obtain ⟨_, _, h⟩ := Res.bind_eq_ok.mp h
    cases h
    exact ⟨inner, orPanic_eq_ok.mp hinner, Decidable.not_not.mp hshared, rfl⟩

theorem wlShmPoolResize_moves : (wlShmPoolResize sys q).Moving m c := by
  obtain ⟨⟨g, out⟩, t⟩ := c
  refine .needs (.looking fun pool hlook => .waits fun hwait => .act ?_)
  have hpool : g.extra? q.objectId = some (.wlShmPool pool) := by simpa using hlook
  simp only [bind_iff, post_copyMsg, post_act, post_getGlob, ite_iff, pure_iff, post_res]
  refine fun out' _ => ⟨fun _ => .write, fun hside size hparse => ?_⟩
  unfold resizePool
  simp only [post_guardAct, bind_iff, post_act, post_readSfd]
  intro _ sfd hsfd
  have hlt : size.toNat < 2 ^ 31 := by
    have := parseReqWlShmPoolResize_lt hparse
    omega
  split
  · rename_i f hf
    simp only [post_guardAct, bind_iff, post_res, post_act, post_putSfdData_of hsfd]
    intro hsize core' hcore'
    obtain ⟨core, hcore, hfree, hfree'⟩ := updateCoreForNewSize_eq_ok sys hcore'
    obtain ⟨sfd₀, f₀, hsfd₀, hf₀, hidle⟩ := fileWait_eq_ok hwait
    cases hsfd.symm.trans hsfd₀
    cases hf.symm.trans hf₀
    exact Move.write.moves.tail (.resize (Bool.eq_false_iff.mpr hside) hpool
      hsfd hf (Nat.le_of_not_lt hsize) hlt (hidle.mpr rfl) hcore hfree hfree')
  · exact pure_iff.mpr .write

theorem wlSurfaceDestroy_moves : (wlSurfaceDestroy q).Moving m c := by
  obtain ⟨⟨g, out⟩, t⟩ := c
  refine .needs (.act ?_)
  simp only [bind_iff, post_copyMsg, post_act, post_extraOf, WpExtra.wlSurface?_eq_some,
    post_setExtra]
  rintro out' - _ surf rfl hsurf
  have hfirst : Moves m ⟨⟨g, out⟩, t⟩ ⟨⟨g.setExtra q.objectId
      (.wlSurface { surf with viewportId := none }), out'⟩, t⟩ :=
    Move.write.moves.tail (.update hsurf (by simp +contextual))
  split
  · exact pure_iff.mpr hfirst
  · simp only [bind_iff, post_act, post_getGlob]
    split
    · exact pure_iff.mpr hfirst
    · rename_i extra hextra
      simp only [bind_iff, post_res, orErr_eq_ok, WpExtra.wpViewport?_eq_some, post_act,
        post_setExtra]
      rintro viewport rfl
      exact hfirst.tail (.update hextra (Or.inr rfl))

/-- Changes of the surface of a viewport. -/
theorem modifyViewportSurface_moves {c₀ : Ctx} {surface : Option ObjId}
    {f : ObjWlSurface → ObjWlSurface} (hstart : Moves m c₀ ⟨core, c.transl⟩)
    (hpoints : ∀ s, (f s).acquirePt = s.acquirePt ∧ (f s).releasePt = s.releasePt)
    (hviewport : ∀ s, (f s).viewportId = s.viewportId ∨ (f s).viewportId = none) :
    Post (modifyViewportSurface surface f) core fun _ core' => Moves m c₀ ⟨core', c.transl⟩ := by
  unfold modifyViewportSurface
  split
  · exact pure_iff.mpr hstart
  · simp only [bind_iff, post_act, post_getGlob]
    split
    · exact pure_iff.mpr hstart
    · rename_i extra hextra
      simp only [bind_iff, post_res, orErr_eq_ok, WpExtra.wlSurface?_eq_some, post_act,
        post_setExtra]
      rintro surf rfl
      refine hstart.tail (.update hextra ⟨hviewport surf, fun r hr => Or.inl ?_⟩)
      rwa [(hpoints surf).1, (hpoints surf).2] at hr

theorem wpViewportDestroy_moves : (wpViewportDestroy q).Moving m c := by
  obtain ⟨⟨g, out⟩, t⟩ := c
  refine .needs (.act ?_)
  simp only [bind_iff, post_copyMsg, post_act, post_extraOf, WpExtra.wpViewport?_eq_some,
    post_setExtra]
  rintro out' - _ viewport rfl hviewport
  refine modifyViewportSurface_moves (c := ⟨⟨g, out⟩, t⟩) ?_ (fun _ => ⟨rfl, rfl⟩)
    fun _ => Or.inr rfl
  exact Move.write.moves.tail (.update hviewport (Or.inr rfl))

theorem wpViewportSetDestination_moves : (wpViewportSetDestination q).Moving m c := by
  obtain ⟨⟨g, out⟩, t⟩ := c
  refine .needs (.act ?_)
  simp only [bind_iff, post_copyMsg, post_res]
  rintro out' - ⟨w, h⟩ -
  simp only [post_guardAct, bind_iff, post_act, post_extraOf, WpExtra.wpViewport?_eq_some]
  rintro - _ viewport rfl -
  exact modifyViewportSurface_moves (c := ⟨⟨g, out⟩, t⟩) (.single .write) (fun _ => ⟨rfl, rfl⟩)
    fun _ => Or.inl rfl

theorem wpViewportSetSource_moves : (wpViewportSetSource q).Moving m c := by
  obtain ⟨⟨g, out⟩, t⟩ := c
  refine .needs (.act ?_)
  simp only [bind_iff, post_copyMsg, post_res]
  rintro out' - ⟨x, y, w, h⟩ -
  simp only [post_guardAct, bind_iff, post_act, post_extraOf, WpExtra.wpViewport?_eq_some]
  rintro - _ viewport rfl -
  exact modifyViewportSurface_moves (c := ⟨⟨g, out⟩, t⟩) (.single .write) (fun _ => ⟨rfl, rfl⟩)
    fun _ => Or.inl rfl

/-! ## Commits -/

theorem post_addRelease {timeline : SfdRef} {pt : Nat} {y : ShadowFdDmabuf}
    {P : ShadowFdDmabuf → Core → Prop}
    (h : ∀ y' g, Released core.glob buf y (some (pt, timeline)) y' g → P y' ⟨g, core.out⟩) :
    Post (addRelease buf pt timeline y) core P := by
  unfold addRelease
  simp only [bind_iff, post_act, post_readSfd]
  intro tsfd htsfd
  split
  · rename_i d hdata
    simp only [bind_iff, post_act, post_putSfdData_of htsfd, pure_iff]
    exact h _ _ (.set htsfd hdata)
  · exact throw_iff.mpr trivial

theorem post_addPoints {surf : ObjWlSurface} {y : ShadowFdDmabuf} {P : ShadowFdDmabuf → Core → Prop}
    (h : ∀ y' g, Released core.glob buf { y with acquires := y.acquires ++ surf.acquirePt.toList }
      surf.releasePt y' g → P y' ⟨g, core.out⟩) :
    Post (addPoints buf surf y) core P := by
  unfold addPoints
  dsimp only
  split
  · rename_i hrel
    refine pure_iff.mpr (h _ _ ?_)
    rw [hrel]
    exact .unset
  · rename_i pt timeline hrel
    rw [hrel] at h
    exact post_addRelease h

theorem Released.objects_eq {g' : Globals} {d d' : ShadowFdDmabuf}
    (h : Released g buf d rel d' g') : g'.objects = g.objects := by
  cases h <;> rfl

theorem Released.map_eq {g' : Globals} {d d' : ShadowFdDmabuf}
    (h : Released g buf d rel d' g') : g'.map = g.map := by
  cases h <;> rfl

/-- The buffer itself is written after its timeline. -/
theorem Released.buf_eq {g' : Globals} {d d' d₀ : ShadowFdDmabuf} {sfd : ShadowFd}
    (h : Released g buf d rel d' g') (hr : g.sfds[buf]? = some sfd)
    (hd : sfd.data = .dmabuf d₀) : g'.sfds[buf]? = some sfd := by
  cases h with
  | unset => exact hr
  | @set pt timeline tsfd t htl ht =>
    have hne : timeline ≠ buf := by
      rintro rfl
      cases hr.symm.trans htl
      rw [hd] at ht
      cases ht
    exact (List.getElem?_set_ne hne).trans hr

theorem signalTimelineAcquires_post {acquires : List (Nat × SfdRef)} {P : Unit → Globals → Prop}
    (h : P () g) : Post (signalTimelineAcquires sys acquires) g P := by
  unfold signalTimelineAcquires
  refine (Post.forM (I := fun g' => g' = g) (fun x _ g' hg' => ?_) rfl).mono fun _ _ hg' => hg' ▸ h
  simp only [bind_iff, post_readSfd]
  intro sfd _
  split
  · simpa using fun _ _ => hg'
  · exact throw_iff.mpr trivial

/-- What a commit does: with a DMABUF, its points are handed over first. -/
def Commits (m : Targets) (id : ObjId) (c c' : Ctx) : Prop :=
  Moves m c c' ∨ ∃ c₁, Committed id c c₁ ∧ Moves m c₁ c'

theorem Commits.processed {c c' : Ctx} (hid : m.commit = some id) (h : Commits m id c c') :
    Processed m c c' := by
  obtain h | ⟨c₁, h, h'⟩ := h
  · exact .moves h
  · exact .commit hid h h'

theorem takePoints_post : Post (takePoints id) core fun surf core' =>
    core.glob.extra? id = some (.wlSurface surf) ∧
      core' = ⟨core.glob.takenPoints id surf, core.out⟩ := by
  unfold takePoints
  simp only [bind_iff, post_act, post_extraOf, WpExtra.wlSurface?_eq_some, post_res,
    post_setExtra, pure_iff]
  rintro _ surf rfl hsurf - -
  exact ⟨hsurf, rfl⟩

theorem takenPoints_moves {out out' : Output} {surf : ObjWlSurface}
    (hsurf : g.extra? id = some (.wlSurface surf)) :
    Moves m ⟨⟨g, out⟩, t⟩ ⟨⟨g.takenPoints id surf, out'⟩, t⟩ :=
  .update ⟨_, hsurf, Or.inl rfl, by simp⟩

/-- A surface is not a buffer, so taking its points does not change what is attached. -/
theorem attachedBuffer_takenPoints {surf : ObjWlSurface}
    (hsurf : g.extra? id = some (.wlSurface surf)) :
    attachedBuffer (g.takenPoints id surf) surf = attachedBuffer g surf := by
  unfold attachedBuffer Globals.takenPoints
  cases surf.attachedBufferId with
  | none => rfl
  | some bufId =>
    by_cases hid : bufId = id
    · subst hid
      simp [g.extra?_setExtra hsurf, hsurf, WpExtra.wlBuffer?]
    · simp [Globals.extra?_setExtra_ne hid]

theorem commitOnDisplaySide_commits (hside : core.glob.onDisplaySide = true) :
    Post (commitOnDisplaySide sys q) core fun _ core' =>
      Commits m q.objectId ⟨core, t⟩ ⟨core', t⟩ := by
  unfold commitOnDisplaySide
  refine bind_iff.mpr (takePoints_post.mono ?_)
  rintro surf _ ⟨hsurf, rfl⟩
  have htaken : Moves m ⟨core, t⟩ ⟨⟨core.glob.takenPoints q.objectId surf, core.out⟩, t⟩ :=
    takenPoints_moves hsurf
  simp only [bind_iff, post_act, post_getGlob, attachedBuffer_takenPoints hsurf]
  split
  · exact pure_iff.mpr (Or.inl htaken)
  · rename_i buf hbuf
    simp only [bind_iff, post_act, post_readSfd, Globals.takenPoints_sfds]
    intro sfd hsfd
    split
    · rename_i y hy
      simp only [bind_iff, post_res]
      rintro - -
      refine post_addPoints fun y' g hrel => ?_
      have hsfd' := hrel.buf_eq (by simpa using hsfd) hy
      have hcommitted : Committed q.objectId ⟨core, t⟩ ⟨⟨g.setSfd buf.sfd
          { sfd with data := .dmabuf (y'.committed core.glob.onDisplaySide) }, core.out⟩, t⟩ :=
        .mk hsurf hbuf hsfd hy (.dmabuf y _ _ _) hrel
      rw [hside] at hcommitted
      simp only [ite_iff, bind_iff, post_act, post_putSfdData]
      refine ⟨fun hzero => signalTimelineAcquires_post sys fun s hs => Or.inr ⟨_, ?_, .refl⟩,
        fun hzero s hs => Or.inr ⟨_, ?_, .refl⟩⟩
      · cases hsfd'.symm.trans hs
        rwa [ShadowFdDmabuf.committed, if_pos ⟨rfl, hzero⟩] at hcommitted
      · cases hsfd'.symm.trans hs
        rwa [ShadowFdDmabuf.committed, if_neg fun h => hzero h.2] at hcommitted
    · exact pure_iff.mpr (Or.inl htaken)

theorem commitOnApplicationSide_commits (hside : core.glob.onDisplaySide = false) :
    Post (commitOnApplicationSide q) core fun _ core' =>
      Commits m q.objectId ⟨core, t⟩ ⟨core', t⟩ := by
  unfold commitOnApplicationSide
  refine bind_iff.mpr (takePoints_post.mono ?_)
  rintro surf _ ⟨hsurf, rfl⟩
  have htaken : Moves m ⟨core, t⟩ ⟨⟨core.glob.takenPoints q.objectId surf, core.out⟩, t⟩ :=
    takenPoints_moves hsurf
  have hlast {c : Ctx} {core₂ : Core} (h : Commits m q.objectId c ⟨core₂, t⟩) {surf : ObjWlSurface}
      (hsurf : core₂.glob.extra? q.objectId = some (.wlSurface surf)) (history : DamageHistory) :
      Commits m q.objectId c ⟨⟨core₂.glob.setExtra q.objectId
        (.wlSurface { surf with damageHistory := history }), core₂.out⟩, t⟩ := by
    have hmove : Move m ⟨core₂, t⟩ ⟨⟨core₂.glob.setExtra q.objectId
        (.wlSurface { surf with damageHistory := history }), core₂.out⟩, t⟩ :=
      .update hsurf ⟨Or.inl rfl, fun r hr => Or.inl hr⟩
    obtain h | ⟨c₁, h, h'⟩ := h
    · exact Or.inl (h.tail hmove)
    · exact Or.inr ⟨c₁, h, h'.tail hmove⟩
  simp only [bind_iff, post_act, post_getGlob, attachedBuffer_takenPoints hsurf]
  split
  · rename_i buf hbuf
    simp only [bind_iff, post_act, post_readSfd, post_res, pure_iff, post_extraOf,
      WpExtra.wlSurface?_eq_some, post_setExtra]
    intro sfd hsfd size _
    rw [Globals.takenPoints_sfds] at hsfd
    refine Post.mono (P := fun _ core' => Commits m q.objectId ⟨core, t⟩ ⟨core', t⟩) ?_ ?_
    · unfold damageBuffer
      simp only [bind_iff, post_act, post_readSfd, Globals.takenPoints_sfds]
      rintro sfd' hsfd'
      cases hsfd.symm.trans hsfd'
      split
      · rename_i y hy
        simp only [bind_iff, post_res, post_act, post_putSfdData, Globals.takenPoints_sfds]
        intro damage hdamage sfd' hsfd'
        cases hsfd.symm.trans hsfd'
        exact Or.inl (htaken.tail (.evolve (by simpa using hsfd)
          (hy ▸ .file (.commit _ _ _) hdamage)))
      · rename_i y hy
        simp only [bind_iff, post_res]
        intro damage _
        refine post_addPoints fun y' g hrel => ?_
        simp only [post_act, post_putSfdData]
        intro s hs
        cases (hrel.buf_eq (by simpa using hsfd) hy).symm.trans hs
        have hcommitted : Committed q.objectId ⟨core, t⟩ ⟨⟨g.setSfd buf.sfd
            { sfd with data := .dmabuf (y'.committed core.glob.onDisplaySide) }, core.out⟩, t⟩ :=
          .mk hsurf hbuf hsfd hy (.dmabuf y _ _ _) hrel
        rw [hside, ShadowFdDmabuf.committed, if_neg fun h => by cases h.1] at hcommitted
        exact Or.inr ⟨_, hcommitted, .refl⟩
      · exact throw_iff.mpr trivial
    · rintro _ core₂ hdamage _ surf' rfl hsurf'
      exact hlast hdamage hsurf' _
  · simp only [bind_iff, post_act, pure_iff, post_extraOf, WpExtra.wlSurface?_eq_some,
      post_setExtra]
    rintro _ surf' rfl hsurf'
    exact hlast (Or.inl htaken) hsurf' _

/-- Output that is written first makes no difference. -/
theorem Commits.written {out out' : Output} {c' : Ctx} (h : Commits m id ⟨⟨g, out'⟩, t⟩ c') :
    Commits m id ⟨⟨g, out⟩, t⟩ c' := by
  obtain h | ⟨c₁, h, h'⟩ := h
  · exact Or.inl (Move.write.moves.trans h)
  · cases h with
    | mk hsurf hbuf hr hd hev hrel => exact Or.inr ⟨_, .mk hsurf hbuf hr hd hev hrel, h'⟩

theorem wlSurfaceCommit_processes (hid : m.commit = some q.objectId) :
    (wlSurfaceCommit sys q).Processes m c := by
  obtain ⟨⟨g, out⟩, t⟩ := c
  refine Ensures.needs_iff.mpr ⟨fun _ => ?_, fun _ => .moves .stay⟩
  refine Ensures.parsing_iff.mpr fun _ _ => Ensures.looking_iff.mpr fun surf _ => ?_
  refine Ensures.waits_iff.mpr ⟨fun _ => ?_, fun _ _ => .moves .stay⟩
  refine Ensures.act_iff.mpr ?_
  simp only [bind_iff, post_copyMsg, post_act, post_getGlob, ite_iff]
  intro out' _
  refine ⟨fun hside => ?_, fun hside => ?_⟩
  · exact (commitOnDisplaySide_commits sys q hside).mono fun _ _ h => h.written.processed hid
  · exact (commitOnApplicationSide_commits q (Bool.eq_false_iff.mpr hside)).mono
      fun _ _ h => h.written.processed hid

end Core

/-! ## DMABUFs -/

section Dmabuf

variable {c : Ctx}

theorem setSyncPoint_moves {point : Res (Nat × Nat × Nat)}
    {update : Nat × SfdRef → ObjWlSurface → ObjWlSurface}
    (hviewport : ∀ pt s, (update pt s).viewportId = s.viewportId)
    (hpoints : ∀ pt s, ∀ r ∈ (update pt s).acquirePt.toList ++ (update pt s).releasePt.toList,
      r ∈ s.acquirePt.toList ++ s.releasePt.toList ∨ r = pt) :
    (setSyncPoint q point update).Moving m c := by
  obtain ⟨⟨g, out⟩, t⟩ := c
  refine .needs (.act ?_)
  simp only [bind_iff, post_res]
  rintro ⟨timelineId, ptHi, ptLo⟩ -
  simp only [post_act, post_extraOf, WpExtra.wpDrmSyncobjSurface?_eq_some,
    post_getGlob, orErr_eq_ok, WpExtra.wpDrmSyncobjTimeline?_eq_some,
    WpExtra.wlSurface?_eq_some, post_setExtra, post_copyMsg]
  rintro _ s rfl - _ htimeline timeline rfl _ hsurf surf rfl out' -
  refine (Relation.ReflTransGen.single (.update hsurf ⟨Or.inl (hviewport _ _), fun r hr => ?_⟩)).tail
    .write
  rcases hpoints _ _ r hr with hr | rfl
  · exact Or.inl hr
  · exact Or.inr ⟨timelineId, timeline, htimeline, rfl⟩

theorem setAcquirePoint_moves : (wpLinuxDrmSyncobjSurfaceV1SetAcquirePoint q).Moving m c :=
  setSyncPoint_moves q (fun _ _ => rfl) fun pt s r hr => by
    simp only [Option.toList_some, mem_append, mem_singleton] at hr ⊢
    rcases hr with rfl | hr
    · exact Or.inr rfl
    · exact Or.inl (Or.inr hr)

theorem setReleasePoint_moves : (wpLinuxDrmSyncobjSurfaceV1SetReleasePoint q).Moving m c :=
  setSyncPoint_moves q (fun _ _ => rfl) fun pt s r hr => by
    simp only [Option.toList_some, mem_append, mem_singleton] at hr ⊢
    rcases hr with hr | rfl
    · exact Or.inl (Or.inl hr)
    · exact Or.inr rfl

theorem advertise_same {format : Nat} {modifiers : List Nat} :
    Post (advertise format modifiers) g fun _ g' => SameTracked g g' :=
  post_modifyGlob.mpr ⟨rfl, rfl, rfl, rfl, rfl, rfl, rfl⟩

theorem writeModifiers_same {format : Nat} {mods : List Nat} :
    Post (writeModifiers q format mods) core fun _ core' => core'.glob = core.glob := by
  unfold writeModifiers
  refine Post.forM (I := fun core' : Core => core'.glob = core.glob) (fun m _ core' h => ?_) rfl
  simpa using fun _ _ _ _ => h

theorem zwpLinuxDmabufV1Modifier_moves : (zwpLinuxDmabufV1Modifier q).Moving m c := by
  obtain ⟨⟨g, out⟩, t⟩ := c
  refine .parsing fun ⟨format, modHi, modLo⟩ _ => .looking fun side _ => ?_
  split
  · refine .looking fun supported _ => ?_
    split
    · refine .needs (.act ?_)
      simp only [bind_iff, post_act]
      refine advertise_same.mono fun _ g' hsame => post_copyMsg.mpr fun out' _ => ?_
      exact .state (c := ⟨⟨g, out⟩, t⟩) hsame
    · exact .drop
  · refine .looking fun d hd => ?_
    have hd : g.extra? q.objectId = some (.zwpDmabuf d) := by simpa using hd
    split
    · exact .drop
    · refine .first (post_setExtra.mpr ⟨.single (.update hd trivial), ?_⟩)
      refine .looking fun mods _ => .needs (.act ?_)
      simp only [bind_iff, post_act]
      refine advertise_same.mono fun _ g' hsame => (writeModifiers_same q).mono ?_
      rintro _ ⟨g'', out'⟩ rfl
      exact .state (c := Ctx.setGlob ⟨⟨g, out⟩, t⟩ _) hsame

theorem zwpLinuxBufferParamsV1Add_moves : (zwpLinuxBufferParamsV1Add q).Moving m c := by
  obtain ⟨⟨g, out⟩, t⟩ := c
  refine .actFd ?_
  simp only [bind_iff, lift_iff]
  rintro ⟨planeIdx, offset, stride, modifierHi, modifierLo⟩ -
  simp only [post_liftAct, post_act, post_extraOf, WpExtra.zwpDmabufParams?_eq_some,
    ite_iff, pure_iff, bind_iff, post_popFd, post_setExtra]
  rintro _ p rfl hp
  refine ⟨fun _ => .refl, fun _ fd fds rids ht => ?_⟩
  subst ht
  exact Move.popFd.moves.tail (.update hp (Or.inl rfl))

/-- What is done with a descriptor that has been passed on. -/
def Follows (m : Targets) (after : SfdRef → GlobAct Unit) : Prop :=
  ∀ (c : Ctx) (r : SfdRef), r ∈ c.transl.outgoing →
    Post (after r) c.glob fun _ g => Moves m c (c.setGlob g)

theorem insertDmabufBuffer_follows {bufferId : ObjId} (hid : bufferId ∈ m.new) :
    Follows m fun r => insertDmabufBuffer bufferId r := by
  intro c r hr
  unfold insertDmabufBuffer
  simp only [bind_iff, post_getGlob, post_insertNewObject, post_modifyGlob]
  intro hnew
  have hinsert (b : ObjWlBuffer) (hb : b.sfd = r) (hshm : ∀ i ∈ b.shmInfo, i.Accepted) : Moves m c
      (c.setGlob (c.glob.withObject bufferId { objType := .wlBuffer, extra := .wlBuffer b })) :=
    .insert hid hnew ⟨Or.inl (hb ▸ hr), hshm⟩
  exact (hinsert _ rfl (by simp)).tail (.state ⟨rfl, rfl, rfl, rfl, rfl, rfl, rfl⟩)

theorem setParamsDmabuf_moves {dmabuf : Option SfdRef}
    (hdmabuf : dmabuf = none ∨ ∃ r ∈ c.transl.outgoing, dmabuf = some r) :
    Post (setParamsDmabuf id dmabuf) c.glob fun _ g => Moves m c (c.setGlob g) := by
  unfold setParamsDmabuf
  simp only [bind_iff, post_extraOf, WpExtra.zwpDmabufParams?_eq_some, post_setExtra]
  rintro _ p rfl hp
  exact .update ⟨_, hp, Or.inr hdmabuf⟩

theorem setParamsDmabuf_follows : Follows m fun r => setParamsDmabuf id (some r) :=
  fun _ r hr => setParamsDmabuf_moves (Or.inr ⟨r, hr, rfl⟩)

theorem createFromChannel_moves {data : ShadowFdDmabuf} {after : SfdRef → GlobAct Unit}
    (hafter : Follows m after) : (createFromChannel q data after).Moving m c := by
  obtain ⟨⟨g, out⟩, t⟩ := c
  refine .needs (.actFd ?_)
  simp only [bind_iff, post_liftAct]
  refine Post.mono (Post.forM (I := fun core => core.glob = g) (fun plane _ core h => ?_) rfl) ?_
  · simpa using fun _ _ _ _ => h
  · rintro _ ⟨g', out'⟩ hg
    obtain rfl : g' = g := hg
    simp only [post_copyMsg, post_popSfd, post_pushOut, post_act]
    rintro out'' - r rs fds rfl
    have hpass : Moves m ⟨⟨g', out⟩, .fromChannel (r :: rs) fds⟩
        ⟨⟨g', out''⟩, .fromChannel rs (fds ++ [r])⟩ := Move.pass.moves.tail .write
    exact (hafter ⟨⟨g', out''⟩, .fromChannel rs (fds ++ [r])⟩ r
      (mem_append_right _ mem_cons_self)).mono fun _ _ h => hpass.trans h

theorem createFromWayland_moves {params : ObjZwpLinuxDmabufParams} {width height drmFormat : Nat}
    {waylandId : ObjId} {create : Res Words} {after : SfdRef → GlobAct Unit}
    (ht : c.transl.isFromChannel = false)
    (hparams : c.glob.extra? q.objectId = some (.zwpDmabufParams params)) (hafter : Follows m after) :
    (createFromWayland sys q params width height drmFormat waylandId create after).Moving m c := by
  obtain ⟨⟨g, out⟩, _ | ⟨fds, rids⟩⟩ := c
  · cases ht
  · refine .needs (.actFd ?_)
    simp only [bind_iff, post_liftAct, post_act, post_setExtra]
    refine post_translateDmabufFd sys fun d hd => ?_
    simp only [post_pushOut, post_res, post_emitMsg]
    intro _ _ _ _ _ _ _ _ out' _
    have hplanes : Moves m ⟨⟨g, out⟩, .fromWayland fds rids⟩ ⟨⟨g.setExtra q.objectId
        (.zwpDmabufParams { params with planes := [] }), out⟩, .fromWayland fds rids⟩ :=
      .single (.update hparams (Or.inl rfl))
    exact (hafter _ _ (mem_append_right _ mem_cons_self)).mono fun _ _ h =>
      ((hplanes.tail (.create hd)).tail .write).trans h

theorem parseCreateImmed_new {bufferId width height drmFormat flags : Nat} (hfirst : FirstNew m msg)
    (h : parseCreateImmed msg = .ok (bufferId, width, height, drmFormat, flags)) :
    bufferId ∈ m.new := by
  obtain ⟨⟨id, w, h', format, flags'⟩, hargs, h⟩ := Res.bind_eq_ok.mp h
  have hid : id ∈ m.new := hfirst.parsed (f := Prod.fst) (fun _ _ => by simp) hargs
  dsimp only at h
  split at h
  · cases h
  · split at h
    · cases h
    · cases h
      exact hid

theorem zwpLinuxBufferParamsV1CreateImmed_moves (hfirst : FirstNew m q.msg)
    (hq : q.fromChannel = c.transl.isFromChannel) :
    (zwpLinuxBufferParamsV1CreateImmed sys q).Moving m c := by
  refine .looking fun params hparams =>
    .parsing fun ⟨bufferId, width, height, drmFormat, flags⟩ hargs => ?_
  have hid := parseCreateImmed_new hfirst hargs
  have hparams : c.glob.extra? q.objectId = some (.zwpDmabufParams params) := by
    simpa using hparams
  dsimp only
  split
  · refine .looking fun ⟨r, d⟩ hlook => .first (post_putSfdData.mpr fun sfd hsfd => ?_)
    refine ⟨.evolve hsfd ?_, createFromChannel_moves q (insertDmabufBuffer_follows hid)⟩
    obtain ⟨_, _, sfd', _, hsfd', hd⟩ := lookFrontDmabuf_front hlook
    cases hsfd.symm.trans hsfd'
    rw [hd]
    exact .dmabuf d _ _ bufferId
  · rename_i hfrom
    exact createFromWayland_moves sys q (hq ▸ Bool.eq_false_iff.mpr hfrom) hparams
      (insertDmabufBuffer_follows hid)

theorem zwpLinuxBufferParamsV1Create_moves (hq : q.fromChannel = c.transl.isFromChannel) :
    (zwpLinuxBufferParamsV1Create sys q).Moving m c := by
  refine .looking fun params hparams => .parsing fun ⟨width, height, drmFormat, flags⟩ _ => ?_
  have hparams : c.glob.extra? q.objectId = some (.zwpDmabufParams params) := by
    obtain ⟨p, hp, hparams⟩ := Res.bind_eq_ok.mp hparams
    split at hparams
    · cases hparams
    · cases hparams
      simpa using hp
  dsimp only
  split
  · exact .looking fun ⟨r, d⟩ hlook => createFromChannel_moves q setParamsDmabuf_follows
  · rename_i hfrom
    exact createFromWayland_moves sys q (hq ▸ Bool.eq_false_iff.mpr hfrom) hparams
      setParamsDmabuf_follows

theorem zwpLinuxBufferParamsV1Failed_moves : (zwpLinuxBufferParamsV1Failed q).Moving m c := by
  refine .needs (.act ?_)
  simp only [bind_iff, post_copyMsg, post_act]
  intro out _
  have hcopy : Moves m c ⟨⟨c.core.glob, out⟩, c.transl⟩ := .write
  exact (setParamsDmabuf_moves (c := ⟨⟨c.core.glob, out⟩, c.transl⟩) (Or.inl rfl)).mono
    fun _ _ h => hcopy.trans h

theorem zwpLinuxBufferParamsV1Created_moves (hfirst : FirstNew m q.msg) :
    (zwpLinuxBufferParamsV1Created q).Moving m c := by
  obtain ⟨⟨g, out⟩, t⟩ := c
  refine .needs (.act ?_)
  unfold insertDmabufBuffer
  simp only [bind_iff, post_copyMsg, post_act, post_res, post_extraOf,
    WpExtra.zwpDmabufParams?_eq_some, post_setExtra, orErr_eq_ok, post_readSfd,
    Globals.setExtra_sfds]
  rintro out' - bufId hid _ p rfl hp r hr sfd hsfd
  split
  · rename_i d hd
    simp only [bind_iff, post_act, post_putSfdData_of ((Globals.setExtra_sfds ..).symm ▸ hsfd),
      post_getGlob, post_insertNewObject, post_modifyGlob]
    intro hnew
    have hcreated (b : ObjWlBuffer) (hb : b.sfd = r) (hshm : b.shmInfo = none) :
        Moves m ⟨⟨g, out⟩, t⟩ ⟨⟨((g.setExtra q.objectId
        (.zwpDmabufParams { p with dmabuf := none })).setSfd r
          { sfd with data := .dmabuf { d with debugWaylandId := bufId } }).withObject bufId
            { objType := .wlBuffer, extra := .wlBuffer b }, out'⟩, t⟩ :=
      Move.write.moves.tail
        (.created (hfirst.one hid) hp hr hsfd hd (.dmabuf d _ _ bufId) hnew hb hshm)
    exact (hcreated _ rfl rfl).tail (.state ⟨rfl, rfl, rfl, rfl, rfl, rfl, rfl⟩)
  · simp

/-! ## Format feedback -/

theorem insertFeedback_moves {feedbackId : Res Nat}
    (hid : ∀ id, feedbackId = .ok id → id ∈ m.new) : (insertFeedback q feedbackId).Moving m c := by
  refine .needs (.act ?_)
  simp only [bind_iff, post_copyMsg, post_res, post_act, post_insertNewObject]
  exact fun out _ id hnewId hnew => .insert (hid id hnewId) hnew ⟨rfl, rfl⟩

theorem setFormatTable_moves {f : ObjZwpLinuxDmabufFeedback} {tableData : List UInt8}
    (hf : c.glob.extra? q.objectId = some (.zwpDmabufFeedback f)) :
    Post (setFormatTable q f tableData) c.glob fun _ g => Moves m c (c.setGlob g) :=
  post_setExtra.mpr (.update ⟨_, hf, rfl⟩)

theorem zwpLinuxDmabufFeedbackV1FormatTable_moves :
    (zwpLinuxDmabufFeedbackV1FormatTable sys q).Moving m c := by
  obtain ⟨⟨g, out⟩, t⟩ := c
  refine .parsing fun tableSize _ => .looking fun f hlook => ?_
  have hf : g.extra? q.objectId = some (.zwpDmabufFeedback f) := by simpa using hlook
  split
  · refine .looking fun r hr => .waits fun hwait => .actFd ?_
    obtain ⟨sfd, file, hsfd, hfile, hidle⟩ := fileWait_eq_ok hwait
    unfold readFormatTable
    simp only [bind_iff, post_popSfd, post_liftAct, post_act]
    rintro r' rs fds rfl
    obtain rfl : r' = r := by cases hr; rfl
    have htake : Moves m ⟨⟨g, out⟩, .fromChannel (r' :: rs) fds⟩ ⟨⟨g, out⟩, .fromChannel rs fds⟩ :=
      .single (.take hsfd hfile (hidle.mpr rfl))
    simp only [post_readSfd]
    intro sfd' hsfd'
    cases hsfd.symm.trans hsfd'
    rw [hfile]
    simp only [post_guard, bind_iff, lift_iff]
    intro _ core _ table _
    exact (setFormatTable_moves q (c := ⟨⟨g, out⟩, .fromChannel rs fds⟩) hf).mono fun _ _ h =>
      htake.trans h
  · refine .actFd ?_
    simp only [bind_iff, post_popFd, lift_iff, post_liftAct, post_act]
    rintro fd fds rids rfl _ - _ -
    exact (setFormatTable_moves q (c := ⟨⟨g, out⟩, .fromWayland fds rids⟩) hf).mono fun _ _ h =>
      Move.popFd.moves.trans h

/-- The events that are held back change the data of the feedback object only, apart from the
device. -/
theorem updateFeedback_moves {f : ObjZwpLinuxDmabufFeedback → GlobAct ObjZwpLinuxDmabufFeedback}
    (hf : ∀ x, Post (f x) c.glob fun x' g => SameTracked c.glob g ∧
      x'.queuedFormatTable = x.queuedFormatTable) : (updateFeedback q f).Moving m c := by
  obtain ⟨⟨g, out⟩, t⟩ := c
  refine .act ?_
  simp only [bind_iff, post_act, post_extraOf, WpExtra.zwpDmabufFeedback?_eq_some, post_setExtra]
  rintro _ x rfl hx
  refine (hf x).mono ?_
  rintro x' g' ⟨hsame, htable⟩
  refine (Move.moves (.state hsame)).tail (.update (x := .zwpDmabufFeedback x) ?_ htable)
  unfold Globals.extra?
  rw [hsame.objects]
  exact hx

theorem zwpLinuxDmabufFeedbackV1MainDevice_moves :
    (zwpLinuxDmabufFeedbackV1MainDevice sys q).Moving m c := by
  refine updateFeedback_moves q fun x => ?_
  simp only [bind_iff, lift_iff, post_getGlob, ite_iff, post_modifyGlob, pure_iff]
  intro _ _ _ _
  exact ⟨fun _ _ _ => ⟨⟨rfl, rfl, rfl, rfl, rfl, rfl, rfl⟩, trivial⟩, fun _ => ⟨.rfl, trivial⟩⟩

theorem zwpLinuxDmabufFeedbackV1TrancheFormats_moves :
    (zwpLinuxDmabufFeedbackV1TrancheFormats q).Moving m c := by
  refine updateFeedback_moves q fun x => ?_
  simp only [bind_iff, lift_iff, post_getGlob, ite_iff, pure_iff, fail_eq_ok,
    false_implies, implies_true, true_and]
  intro _ _ _
  refine ⟨fun _ => ⟨.rfl, trivial⟩, fun _ _ _ => ?_⟩
  refine (Post.mapM (I := fun g => g = c.glob) (fun idx _ g hg => ?_) rfl).mono ?_
  · exact lift_iff.mpr fun _ _ => hg
  · rintro _ _ rfl
    exact ⟨.rfl, trivial⟩

/-- The first part of the `done` event: nothing more, or a format table is made. -/
theorem processFeedback_moves :
    Post (processFeedback sys q) c.glob fun _ g => Moves m c (c.setGlob g) := by
  obtain ⟨⟨g, out⟩, t⟩ := c
  unfold processFeedback
  simp only [bind_iff, post_extraOf, WpExtra.zwpDmabufFeedback?_eq_some, ite_iff,
    pure_iff, post_getGlob, lift_iff]
  rintro _ f rfl hf
  refine ⟨fun _ => .refl, fun hfirst tranches _ new _ => ?_⟩
  unfold queueFormatTable
  simp only [ite_iff, post_setExtra]
  refine ⟨fun _ => .single (.update hf rfl), fun _ => ?_⟩
  unfold newFormatTable
  simp only [bind_iff, lift_iff, post_getGlob]
  intro fd _ _ hpos _ _
  refine post_translateShmFd sys fun file hfile _ hread hsize => post_setExtra.mpr ?_
  rw [Bool.not_not]
  refine .single (.createTable hf (Bool.eq_false_iff.mpr hfirst) (hfile (by simp)) hread ?_ rfl)
  rw [hsize]
  exact of_decide_eq_true (assert_eq_ok.mp hpos)

theorem writeTranche_same {devId : Nat} {tr : DmabufTranche} :
    Post (writeTranche q devId tr) core fun _ core' => SameTracked core.glob core'.glob := by
  unfold writeTranche
  refine bind_iff.mpr (Post.mono (Post.forM
    (I := fun core' : Core => SameTracked core.glob core'.glob) (fun f _ core' h => ?_) .rfl) ?_)
  · exact post_act.mpr (advertise_same.mono fun _ _ h' => h.trans h')
  · intro _ core' h
    simpa using fun _ _ _ _ _ _ _ _ _ _ _ _ _ _ _ _ => h

/-- The second part: the table that is queued is sent, and the state is reset. -/
theorem writeFeedback_moves {f : ObjZwpLinuxDmabufFeedback}
    (hf : c.glob.extra? q.objectId = some (.zwpDmabufFeedback f)) :
    Post (writeFeedback q f) c fun _ c' => Moves m c c' := by
  obtain ⟨⟨g, out⟩, t⟩ := c
  have hbatch (core : Core) (hcore : core.glob = g) (t' : Transl)
      (h : ∀ g' out' f', SameTracked g g' → f'.queuedFormatTable = none →
        Moves m ⟨⟨g, out⟩, t⟩ ⟨⟨g'.setExtra q.objectId (.zwpDmabufFeedback f'), out'⟩, t'⟩) :
      Post (do
        let devId ← dmabufDevGetId (← getGlob).dmabufDevice
        emitMsg (writeEvtZwpLinuxDmabufFeedbackV1MainDevice q.objectId (writeDevArray devId))
        f.tranches.forM fun t => writeTranche q devId t
        emitMsg (writeEvtZwpLinuxDmabufFeedbackV1Done q.objectId)
        setExtra q.objectId (.zwpDmabufFeedback { f with
          queuedFormatTable := none
          processed := false
          tranches := []
          current := .empty }) : Act Unit) core fun _ core' => Moves m ⟨⟨g, out⟩, t⟩ ⟨core', t'⟩ := by
    simp only [bind_iff, post_act, post_getGlob, post_res, post_emitMsg]
    intro devId _ _ _ out₁ _
    refine Post.mono (Post.forM (I := fun core' : Core => SameTracked g core'.glob)
      (fun tr _ core' hsame => (writeTranche_same q).mono fun _ _ h' => hsame.trans h') ?_) ?_
    · exact hcore ▸ .rfl
    · intro _ core' hsame _ _ out₂ _
      exact post_setExtra.mpr (h _ _ _ hsame rfl)
  have hx {g' : Globals} (hsame : SameTracked g g') :
      g'.extra? q.objectId = some (.zwpDmabufFeedback f) := by
    unfold Globals.extra?
    rw [hsame.objects]
    exact hf
  unfold writeFeedback
  split
  · rename_i hnone
    refine bind_iff.mpr (pure_iff.mpr (post_liftAct.mpr ?_))
    refine hbatch ⟨g, out⟩ rfl t fun g' out' f' hsame hf' => ?_
    exact ((Move.moves (.state hsame)).tail .write).tail
      (.update (hx hsame) (hf'.trans hnone.symm))
  · rename_i r size hsome
    refine bind_iff.mpr (post_liftAct.mpr (post_emitMsg.mpr fun _ _ out₀ _ => ?_))
    refine bind_iff.mpr (post_pushOut.mpr (post_liftAct.mpr ?_))
    refine hbatch ⟨g, out₀⟩ rfl (t.push r) fun g' out' f' hsame hf' => ?_
    exact ((Move.moves (.state hsame)).tail .write).tail
      (.sendTable (hx hsame) hsome hf')

theorem zwpLinuxDmabufFeedbackV1Done_moves : (zwpLinuxDmabufFeedbackV1Done sys q).Moving m c := by
  refine .first ((processFeedback_moves sys q).mono fun _ g h => ⟨h, ?_⟩)
  refine .looking fun f hf => .needs (.actFd (writeFeedback_moves q ?_))
  simpa using hf

end Dmabuf

/-! ## Screen capture -/

section Capture

variable {c : Ctx}

/-- A request that only creates an object. -/
theorem createObject_moves {newId : Res Nat} {objType : WaylandInterface} {x : WpExtra}
    (hid : ∀ id, newId = .ok id → id ∈ m.new) (hx : ∀ c', NewExtra m c' x) :
    (createObject q newId objType x).Moving m c := by
  refine .needs (.act ?_)
  simp only [bind_iff, post_res, post_act, post_insertNewObject, post_copyMsg]
  exact fun id hnewId hnew out _ => .insert (hid id hnewId) hnew (hx c)

theorem updateSession_moves
    {f : ObjExtImageCopyCaptureSession → Res ObjExtImageCopyCaptureSession}
    (hf : ∀ x x', f x = .ok x' → x'.frameList = x.frameList) : (updateSession q f).Moving m c := by
  refine .needs (.act ?_)
  simp only [bind_iff, post_act, post_getGlob, ite_iff, pure_iff, post_extraOf,
    WpExtra.extImageCopyCaptureSession?_eq_some, post_res, post_setExtra]
  refine ⟨fun _ => .stay, ?_⟩
  rintro - _ x rfl hx x' hx'
  exact .update ⟨_, hx, fun _ h => hf x x' hx' ▸ h⟩

theorem sessionDmabufDevice_moves : (extImageCopyCaptureSessionV1DmabufDevice q).Moving m c := by
  refine updateSession_moves q fun x x' h => ?_
  obtain ⟨_, _, h⟩ := Res.bind_eq_ok.mp h
  obtain ⟨_, _, h⟩ := Res.bind_eq_ok.mp h
  cases h
  rfl

theorem sessionDmabufFormat_moves : (extImageCopyCaptureSessionV1DmabufFormat q).Moving m c := by
  refine updateSession_moves q fun x x' h => ?_
  obtain ⟨⟨fmt, modifiers⟩, _, h⟩ := Res.bind_eq_ok.mp h
  cases h
  split <;> rfl

theorem setupCaptureDevice_same {mainDevice : Nat} :
    Post (setupCaptureDevice sys mainDevice) g fun _ g' => SameTracked g g' := by
  unfold setupCaptureDevice
  simp only [bind_iff, post_getGlob]
  split
  · simp only [bind_iff, lift_iff, post_modifyGlob]
    exact fun _ _ _ _ => ⟨rfl, rfl, rfl, rfl, rfl, rfl, rfl⟩
  · simp only [bind_iff, lift_iff, post_modifyGlob]
    exact fun _ _ _ _ => ⟨rfl, rfl, rfl, rfl, rfl, rfl, rfl⟩
  · exact pure_iff.mpr .rfl

theorem prepareCapture_same :
    Post (prepareCapture sys q) g fun _ g' => SameTracked g g' := by
  unfold prepareCapture
  simp only [bind_iff, post_extraOf, WpExtra.extImageCopyCaptureSession?_eq_some]
  rintro _ d rfl -
  split
  · exact pure_iff.mpr .rfl
  · refine bind_iff.mpr ((setupCaptureDevice_same sys).mono fun _ _ h => ?_)
    simp only [bind_iff, post_getGlob, lift_iff]
    exact fun _ _ => h

theorem writeCaptureFormat_same {f : Nat × List Nat} :
    Post (writeCaptureFormat q f) core fun _ core' => SameTracked core.glob core'.glob := by
  unfold writeCaptureFormat
  simp only [bind_iff, post_act, post_getGlob, post_res]
  intro mods _
  refine advertise_same.mono fun _ _ h => ?_
  simp only [ite_iff, pure_iff, post_emitMsg]
  exact ⟨fun _ => h, fun _ _ _ _ _ => h⟩

theorem writeCaptureConstraints_same {d : ObjExtImageCopyCaptureSession} :
    Post (writeCaptureConstraints q d) core fun _ core' => SameTracked core.glob core'.glob := by
  unfold writeCaptureConstraints
  simp only [bind_iff, post_act, post_getGlob, post_res, post_emitMsg]
  intro devId _ _ _ out _
  refine Post.mono (Post.forM (I := fun core' : Core => SameTracked core.glob core'.glob)
    (fun f _ core' h => (writeCaptureFormat_same q).mono fun _ _ h' => h.trans h') .rfl) ?_
  intro _ core' h
  simp only [ite_iff, pure_iff]
  refine ⟨fun _ => Post.forM (I := fun core' : Core => SameTracked core.glob core'.glob)
    (fun f _ core'' h' => post_act.mpr (post_modifyGlob.mpr ?_)) h, fun _ => h⟩
  exact h'.trans ⟨rfl, rfl, rfl, rfl, rfl, rfl, rfl⟩

theorem extImageCopyCaptureSessionV1Done_moves :
    (extImageCopyCaptureSessionV1Done sys q).Moving m c := by
  refine .first ((prepareCapture_same sys q).mono fun _ g hsame => ⟨.state hsame, ?_⟩)
  refine .looking fun d hlook => .looking fun space _ => .needs (.act ?_)
  have hd : (c.setGlob g).glob.extra? q.objectId = some (.extImageCopyCaptureSession d) := by
    simpa using hlook
  have hlast (g' : Globals) (hg' : SameTracked g g') (out : Output)
      (d' : ObjExtImageCopyCaptureSession) (hd' : d'.frameList = d.frameList) :
      Moves m (c.setGlob g) ⟨⟨g'.setExtra q.objectId (.extImageCopyCaptureSession d'), out⟩,
        c.transl⟩ := by
    have hx : g'.extra? q.objectId = some (.extImageCopyCaptureSession d) := by
      unfold Globals.extra?
      rw [hg'.objects]
      exact hd
    exact ((Move.moves (.state hg')).tail .write).tail (.update hx fun _ h => hd' ▸ h)
  simp only [bind_iff, ite_iff, post_emitMsg, post_act, post_setExtra]
  refine ⟨fun _ => (writeCaptureConstraints_same q).mono fun _ core' h => ?_, fun _ => ?_⟩
  · exact fun _ _ out _ => hlast _ h _ _ rfl
  · exact fun _ _ out _ => hlast _ .rfl _ _ rfl

theorem orphanFrame_moves {modifiers : List (Nat × Nat)} :
    Post (orphanFrame modifiers id) c.glob fun _ g => Moves m c (c.setGlob g) := by
  unfold orphanFrame
  simp only [bind_iff, post_getGlob, lift_iff, orPanic_eq_ok, orErr_eq_ok,
    WpExtra.extImageCopyCaptureFrame?_eq_some, post_setExtra]
  rintro _ hframe frame rfl
  exact .update ⟨_, hframe, Or.inr rfl, fun b hb => Or.inl hb⟩

theorem extImageCopyCaptureSessionV1Destroy_moves :
    (extImageCopyCaptureSessionV1Destroy q).Moving m c := by
  refine .needs (.act ?_)
  simp only [bind_iff, post_copyMsg, post_act, post_extraOf,
    WpExtra.extImageCopyCaptureSession?_eq_some, post_setExtra]
  rintro out - _ d rfl hd
  refine Post.forM (I := fun core => Moves m c ⟨core, c.transl⟩) (fun id _ core h => ?_) ?_
  · exact post_act.mpr (orphanFrame_moves (c := ⟨core, c.transl⟩).mono fun _ _ h' => h.trans h')
  · exact .update ⟨_, hd, nil_subset _⟩

theorem extImageCopyCaptureFrameV1Destroy_moves :
    (extImageCopyCaptureFrameV1Destroy q).Moving m c := by
  obtain ⟨⟨g, out⟩, t⟩ := c
  refine .needs (.act ?_)
  simp only [bind_iff, post_copyMsg, post_act, post_extraOf,
    WpExtra.extImageCopyCaptureFrame?_eq_some, post_setExtra]
  rintro out' - _ frame rfl hframe
  have hfirst : Moves m ⟨⟨g, out⟩, t⟩ ⟨⟨g.setExtra q.objectId
      (.extImageCopyCaptureFrame { frame with captureSession := none }), out'⟩, t⟩ :=
    .update (c := ⟨⟨g, out⟩, t⟩) ⟨_, hframe, Or.inr rfl, fun b hb => Or.inl hb⟩
  split
  · exact pure_iff.mpr hfirst
  · simp only [bind_iff, post_act, post_getGlob, post_res, orPanic_eq_ok, orErr_eq_ok,
      WpExtra.extImageCopyCaptureSession?_eq_some, post_setExtra]
    rintro _ hd d rfl
    exact hfirst.tail (.update hd (erase_subset))

theorem lookupCaptureBuffer_post {request : String} :
    Post (lookupCaptureBuffer id request) g fun b g' => g' = g ∧ FromBuffer g b := by
  unfold lookupCaptureBuffer
  simp only [post_guard, bind_iff, lift_iff, post_getGlob, orErr_eq_ok,
    WpExtra.wlBuffer?_eq_some, pure_iff]
  rintro - _ hb b rfl
  exact ⟨trivial, id, b, hb, rfl⟩

theorem screencopyFrameCopy_moves {buffer : Res Nat} : (screencopyFrameCopy q buffer).Moving m c := by
  refine .needs (.act ?_)
  simp only [bind_iff, post_copyMsg, post_res, post_act]
  intro out _ id _
  refine lookupCaptureBuffer_post.mono ?_
  rintro b _ ⟨rfl, hb⟩
  simp only [post_extraOf, WpExtra.zwlrScreencopyFrame?_eq_some, post_setExtra]
  rintro _ frame rfl hframe
  refine .update ⟨_, hframe, fun b' hb' => ?_⟩
  cases hb'
  exact hb

theorem extImageCopyCaptureFrameV1AttachBuffer_moves :
    (extImageCopyCaptureFrameV1AttachBuffer q).Moving m c := by
  refine .needs (.act ?_)
  simp only [bind_iff, post_copyMsg, post_res, post_act]
  intro out _ id _
  refine lookupCaptureBuffer_post.mono ?_
  rintro b _ ⟨rfl, hb⟩
  simp only [post_extraOf, WpExtra.extImageCopyCaptureFrame?_eq_some, post_setExtra]
  rintro _ frame rfl hframe
  refine .update ⟨_, hframe, Or.inl rfl, fun b' hb' => Or.inr ?_⟩
  cases hb'
  exact hb

theorem frameHasDmabuf_post {frame : ObjExtImageCopyCaptureFrame} :
    Post (frameHasDmabuf frame) g fun _ g' => g' = g := by
  unfold frameHasDmabuf
  split
  · exact pure_iff.mpr rfl
  · simp only [bind_iff, post_readSfd]
    intro sfd _
    split <;> exact pure_iff.mpr rfl

theorem extImageCopyCaptureFrameV1Capture_moves :
    (extImageCopyCaptureFrameV1Capture q).Moving m c := by
  refine .needs (.act ?_)
  simp only [bind_iff, post_copyMsg, post_act, post_getGlob, ite_iff, pure_iff,
    post_extraOf, WpExtra.extImageCopyCaptureFrame?_eq_some]
  refine fun out _ => ⟨fun _ => .write, ?_⟩
  rintro - _ frame rfl -
  refine frameHasDmabuf_post.mono ?_
  rintro b _ rfl
  refine ⟨fun _ => .write, fun _ => ?_⟩
  split
  · exact pure_iff.mpr .write
  · simp only [bind_iff, post_act, post_getGlob, post_res, pure_iff]
    exact fun _ _ _ _ => .write

theorem finishFrame_moves {r : SfdRef} {shmInfo : Option ObjWlBufferShm} :
    Post (finishFrame sys r shmInfo) c.glob fun _ g => Moves m c (c.setGlob g) ∧
      ∀ id, g.extra? id = c.glob.extra? id := by
  unfold finishFrame
  simp only [bind_iff, post_getGlob, post_readSfd]
  intro sfd hsfd
  split
  · rename_i y hy
    simp only [ite_iff, bind_iff, lift_iff, post_putSfdData_of hsfd, pure_iff]
    refine ⟨fun _ _ _ interval hinterval damage hdamage => ?_, fun _ => ⟨.stay, fun _ => trivial⟩⟩
    exact ⟨.evolve hsfd (hy ▸ .file (.entire hinterval) hdamage), fun _ => rfl⟩
  · rename_i y hy
    simp only [ite_iff, post_putSfdData_of hsfd, lift_iff]
    refine ⟨fun _ => ?_, fun _ _ _ => ⟨.stay, fun _ => trivial⟩⟩
    exact ⟨.evolve hsfd (hy ▸ .dmabuf y _ _ _), fun _ => rfl⟩
  · simp only [ite_iff, lift_iff, fail_eq_ok, false_implies, implies_true, true_and,
      pure_iff, and_true]
    exact fun _ => .stay

theorem clearFrame_moves :
    Post (clearFrame id) c.glob fun _ g => Moves m c (c.setGlob g) := by
  unfold clearFrame
  simp only [bind_iff, post_extraOf, WpExtra.extImageCopyCaptureFrame?_eq_some, post_setExtra]
  rintro _ frame rfl hframe
  exact .update ⟨_, hframe, Or.inl rfl, fun b hb => by cases hb⟩

theorem zwlrScreencopyFrameV1Ready_moves : (zwlrScreencopyFrameV1Ready sys q).Moving m c := by
  obtain ⟨⟨g, out⟩, t⟩ := c
  refine .needs (.looking fun ⟨r, shmInfo⟩ hlook => .waits fun _ => .act ?_)
  obtain ⟨frame, hframe, _⟩ := Res.bind_eq_ok.mp hlook
  have hframe : g.extra? q.objectId = some (.zwlrScreencopyFrame frame) := by simpa using hframe
  simp only [bind_iff, post_res, post_act, post_getGlob]
  rintro stamp - ⟨secHi, secLo, nsec⟩ -
  simp only [post_emitMsg, post_setExtra]
  intro _ _ out' _
  refine (finishFrame_moves sys (m := m) (c := ⟨⟨g, out'⟩, t⟩)).mono ?_
  rintro _ g' ⟨hfinish, hsame⟩
  refine (Move.write.moves.trans hfinish).tail
    (.update ((hsame q.objectId).trans hframe) fun b hb => by cases hb)

theorem extImageCopyCaptureFrameV1Ready_moves :
    (extImageCopyCaptureFrameV1Ready sys q).Moving m c := by
  obtain ⟨⟨g, out⟩, t⟩ := c
  refine .needs (.looking fun ⟨r, shmInfo⟩ hlook => .waits fun _ => .act ?_)
  simp only [bind_iff, post_copyMsg, post_act]
  intro out' _
  refine (finishFrame_moves sys (m := m) (c := ⟨⟨g, out'⟩, t⟩)).mono ?_
  rintro _ g' ⟨hfinish, -⟩
  exact (clearFrame_moves (c := ⟨⟨g', out'⟩, t⟩)).mono fun _ _ h =>
    (Move.write.moves.trans hfinish).trans h

theorem extImageCopyCaptureFrameV1Failed_moves : (extImageCopyCaptureFrameV1Failed q).Moving m c := by
  obtain ⟨⟨g, out⟩, t⟩ := c
  refine .needs (.act ?_)
  simp only [bind_iff, post_copyMsg, post_act]
  exact fun out' _ => (clearFrame_moves (c := ⟨⟨g, out'⟩, t⟩)).mono fun _ _ h =>
    Move.write.moves.trans h

end Capture

/-! ## Icons, clocks and the registry -/

section Others

variable {c : Ctx}

theorem xdgToplevelIconV1AddBuffer_moves : (xdgToplevelIconV1AddBuffer q).Moving m c := by
  refine .needs (.looking fun b _ => .waits fun _ => .act ?_)
  simp only [bind_iff, post_copyMsg, post_act, post_getGlob, ite_iff, pure_iff, post_readSfd]
  refine fun out _ => ⟨fun _ => .write, fun _ sfd hsfd => ?_⟩
  split
  · rename_i y hy
    simp only [bind_iff, post_res, post_act, post_putSfdData_of hsfd]
    intro _ _ interval hinterval damage hdamage
    exact .evolve hsfd (hy ▸ .file (.entire hinterval) hdamage)
  · simp

theorem wpPresentationClockId_moves : (wpPresentationClockId q).Moving m c := by
  refine .needs (.act ?_)
  have hlast (out : Output) (g : Globals) (h : SameTracked c.core.glob g) :
      Moves m c ⟨⟨g, out⟩, c.transl⟩ := .state h
  simp only [bind_iff, post_res, post_act, post_getGlob]
  intro clockId _
  split
  · simp only [bind_iff, post_act, post_modifyGlob, post_copyMsg]
    exact fun out _ => hlast out _ ⟨rfl, rfl, rfl, rfl, rfl, rfl, rfl⟩
  · simp only [post_guardAct, bind_iff, post_act, post_modifyGlob, post_copyMsg]
    exact fun _ out _ => hlast out _ ⟨rfl, rfl, rfl, rfl, rfl, rfl, rfl⟩

theorem setupDeviceForGlobal_same :
    Post (setupDeviceForGlobal sys) g fun _ g' => SameTracked g g' := by
  unfold setupDeviceForGlobal setDevice
  simp only [bind_iff, post_getGlob, ite_iff, lift_iff, post_modifyGlob, pure_iff]
  exact ⟨fun _ _ _ _ _ _ _ => ⟨rfl, rfl, rfl, rfl, rfl, rfl, rfl⟩, fun _ => .rfl⟩

theorem chooseDevice_same {lightSetup : Bool} :
    Post (chooseDevice sys lightSetup) g fun _ g' => SameTracked g g' := by
  unfold chooseDevice setDevice
  simp only [bind_iff, post_getGlob, ite_iff, lift_iff, post_modifyGlob, pure_iff]
  exact ⟨fun _ _ _ _ _ _ _ => ⟨rfl, rfl, rfl, rfl, rfl, rfl, rfl⟩, fun _ => .rfl⟩

theorem completeDevice_same {lightSetup : Bool} :
    Post (completeDevice sys lightSetup) g fun _ g' => SameTracked g g' := by
  unfold completeDevice setDevice
  simp only [bind_iff, post_getGlob, ite_iff, lift_iff, post_modifyGlob, pure_iff]
  exact ⟨fun _ _ _ _ _ => ⟨rfl, rfl, rfl, rfl, rfl, rfl, rfl⟩, fun _ => .rfl⟩

theorem setupDeviceForBind_same :
    Post (setupDeviceForBind sys version) g fun _ g' => SameTracked g g' := by
  unfold setupDeviceForBind requireDevice
  simp only [bind_iff, post_getGlob]
  refine (chooseDevice_same sys).mono fun _ g₁ h₁ => (completeDevice_same sys).mono fun _ g₂ h₂ => ?_
  simp only [ite_iff, lift_iff, fail_eq_ok, false_implies, implies_true, true_and, pure_iff]
  exact fun _ => h₁.trans h₂

theorem forwardGlobal_moves {name : Nat} {intf : List UInt8} :
    (forwardGlobal q name intf version).Moving m c := by
  refine .needs (.act ?_)
  simp only [post_emitMsg]
  exact fun _ _ _ _ => .write

theorem globalDmabuf_moves {name : Nat} : (globalDmabuf sys q name version).Moving m c := by
  refine .first ((setupDeviceForGlobal_same sys).mono fun _ g hsame => ⟨.state hsame, ?_⟩)
  refine .looking fun unavailable _ => ?_
  split
  · exact .drop
  · refine .looking fun replay hreplay => .needs (.act ?_)
    obtain ⟨reg, hreg, _⟩ := Res.bind_eq_ok.mp hreplay
    have hreg : (c.setGlob g).glob.extra? q.objectId = some (.wlRegistry reg) := by simpa using hreg
    unfold replaySyncobjManagers
    simp only [bind_iff, post_emitMsg, post_act, post_getGlob, post_res, post_setExtra,
      ite_iff, pure_iff]
    intro _ _ out _ supported _
    have hset (out : Output) : Moves m (c.setGlob g) ⟨⟨g.setExtra q.objectId
        (.wlRegistry { syncobjManagerReplay := [] }), out⟩, c.transl⟩ := .update ⟨_, hreg, trivial⟩
    refine ⟨fun _ => ?_, fun _ => hset out⟩
    refine (Post.forM (I := fun core : Core => core.glob = g.setExtra q.objectId
      (.wlRegistry { syncobjManagerReplay := [] })) (fun x _ core h => ?_) rfl).mono ?_
    · simpa using fun _ _ _ _ => h
    · rintro _ ⟨_, out'⟩ rfl
      exact hset out'

theorem globalSyncobjManager_moves {name : Nat} :
    (globalSyncobjManager sys q name version).Moving m c := by
  refine .looking fun unknown _ => ?_
  split
  · refine .first ?_
    unfold storeSyncobjManager
    simp only [bind_iff, post_extraOf, WpExtra.registryData?_eq_some, post_setExtra]
    rintro _ reg rfl hreg
    exact ⟨.update ⟨_, hreg, trivial⟩, forwardGlobal_moves q⟩
  · refine .looking fun usable _ => ?_
    split
    · exact forwardGlobal_moves q
    · exact .drop

theorem wlRegistryGlobal_moves : (wlRegistryGlobal sys q).Moving m c := by
  refine .parsing fun ⟨name, intf, version⟩ _ => ?_
  dsimp only
  split
  · exact .drop
  · split
    · exact globalDmabuf_moves sys q
    · split
      · exact globalSyncobjManager_moves sys q
      · exact forwardGlobal_moves q

/-- The state with more objects, which have no extra data. -/
def Registered (m : Targets) (c : Ctx) (g : Globals) : Prop :=
  Moves m c (c.setGlob g) ∧ PlainNew c.glob g

theorem PlainNew.rfl : PlainNew g g :=
  fun id x hnone hsome => by rw [hnone] at hsome; cases hsome

theorem Registered.rfl : Registered m c c.glob := ⟨.stay, .rfl⟩

theorem Registered.insert (h : Registered m c g) (hid : id ∈ m.new)
    (hnew : g.objects.lookup id = none) :
    Registered m c (g.withObject id { objType := intf, extra := .none }) := by
  refine ⟨h.1.tail (.insert hid hnew trivial), fun id' x hnone hsome => ?_⟩
  by_cases hne : id' = id
  · subst hne
    simpa [Globals.extra?, Globals.withObject, eq_comm] using hsome
  · refine h.2 id' x hnone ?_
    simpa [Globals.extra?, Globals.withObject, AList.lookup_insert_ne hne] using hsome

theorem insertGenericObject_registers {name : List UInt8} (h : Registered m c g) (hid : id ∈ m.new) :
    Post (insertGenericObject id name) g fun _ g' => Registered m c g' := by
  unfold insertGenericObject
  simp only [bind_iff, post_getGlob, ite_iff, lift_iff, fail_eq_ok, false_implies,
    implies_true, true_and]
  intro hnew
  split
  · exact pure_iff.mpr h
  · exact post_modifyGlob.mpr (h.insert hid (Option.not_isSome_iff_eq_none.mp hnew))

theorem liftParse_eq_ok {α : Type} {x : Except String α} {a : α} :
    liftParse x = .ok a ↔ x = .ok a := by
  cases x <;> simp [liftParse, fail]

theorem newIds_cons {op : WaylandArgument} {tail rest : List UInt8}
    {ids : List ObjId} (h : argNewIds op tail = .ok (ids, rest)) :
    newIds (op :: sig) tail = ids ++ newIds sig rest := by
  rw [newIds, h]

/-- Registering an argument reads it as its kind says, and creates no other objects. -/
theorem registerArgument_registers {op : WaylandArgument} {tail : List UInt8} (h : Registered m c g)
    (hids : ∀ ids rest, argNewIds op tail = .ok (ids, rest) → ids ⊆ m.new) :
    Post (registerArgument op tail) g fun rest g' =>
      Registered m c g' ∧ ∃ ids, argNewIds op tail = .ok (ids, rest) := by
  cases op with
  | uint | int | fixed | fd => exact pure_iff.mpr ⟨h, [], rfl⟩
  | object | genericObject | optionalString | array =>
    simp only [registerArgument, bind_iff, lift_iff, pure_iff, liftParse_eq_ok]
    exact fun a ha => ⟨h, [], StateT.run_bind_eq_ok.mpr ⟨a.1, a.2, ha, rfl⟩⟩
  | newId intf =>
    simp only [registerArgument, bind_iff, lift_iff, post_insertNewObject, pure_iff, liftParse_eq_ok]
    intro a ha hnew
    have hread : argNewIds (.newId intf) tail = .ok ([a.1], a.2) :=
      StateT.run_bind_eq_ok.mpr ⟨a.1, a.2, ha, rfl⟩
    exact ⟨h.insert (hids _ _ hread mem_cons_self) hnew, _, hread⟩
  | genericNewId =>
    simp only [registerArgument, bind_iff, lift_iff, pure_iff, liftParse_eq_ok]
    intro a ha name _ b hb d hd
    have hread : argNewIds .genericNewId tail = .ok ([d.1], d.2) :=
      StateT.run_bind_eq_ok.mpr ⟨a.1, a.2, ha, StateT.run_bind_eq_ok.mpr
        ⟨b.1, b.2, hb, StateT.run_bind_eq_ok.mpr ⟨d.1, d.2, hd, rfl⟩⟩⟩
    exact (insertGenericObject_registers h (hids _ _ hread mem_cons_self)).mono
      fun _ _ h => ⟨h, _, hread⟩
  | string =>
    simp only [registerArgument, bind_iff, lift_iff, pure_iff, liftParse_eq_ok]
    exact fun a ha _ _ => ⟨h, [], StateT.run_bind_eq_ok.mpr ⟨a.1, a.2, ha, rfl⟩⟩

theorem registerArguments_registers {tail : List UInt8}
    (h : Registered m c g) (hids : newIds sig tail ⊆ m.new) :
    Post (sig.foldlM (fun tail op => registerArgument op tail) tail) g
      fun _ g' => Registered m c g' := by
  induction sig generalizing tail g with
  | nil => exact pure_iff.mpr h
  | cons op sig ih =>
    rw [foldlM_cons]
    refine bind_iff.mpr ((registerArgument_registers h fun ids rest hread => ?_).mono ?_)
    · rw [newIds_cons hread] at hids
      exact (append_subset.mp hids).1
    · rintro rest g' ⟨h', ids, hread⟩
      rw [newIds_cons hread] at hids
      exact ih h' (append_subset.mp hids).2

theorem wlDisplayDeleteId_processes
    (hid : ∀ id, parseEvtWlDisplayDeleteId q.msg = .ok id → m.removed = some id) :
    (wlDisplayDeleteId q).Processes m c := by
  refine Ensures.needs_iff.mpr ⟨fun _ => Ensures.act_iff.mpr ?_, fun _ => .moves .stay⟩
  simp only [bind_iff, post_res, post_guardAct, post_act, post_removeObject, post_copyMsg]
  exact fun id h _ _ _ => .erase (hid id h) .stay .rfl

theorem wlCallbackDone_processes (hid : m.removed = some q.objectId) :
    (wlCallbackDone q).Processes m c := by
  refine Ensures.needs_iff.mpr ⟨fun _ => Ensures.act_iff.mpr ?_, fun _ => .moves .stay⟩
  simp only [bind_iff, post_copyMsg, post_act, post_removeObject]
  exact fun _ _ => .erase hid .stay .rfl

/-- The default handler creates what the signature names, and removes the object of a destructor. -/
theorem defaultProcWayMsg_processes (hids : newIds q.meth.sig (q.msg.bytes.drop 8) ⊆ m.new)
    (hid : q.meth.destructor && (!q.isReq || isServerObject q.objectId) → m.removed = some q.objectId) :
    (defaultProcWayMsg q).Processes m c := by
  refine Ensures.needs_iff.mpr ⟨fun _ => Ensures.act_iff.mpr ?_, fun _ => .moves .stay⟩
  unfold registerGenericNewIds processDestructor
  simp only [bind_iff, post_act, pure_iff]
  refine (registerArguments_registers .rfl hids).mono fun _ g h => ?_
  simp only [ite_iff, bind_iff, post_getGlob, lift_iff, post_removeObject, pure_iff, post_copyMsg]
  exact ⟨fun hdestructor _ _ out _ => .erase (hid hdestructor) h.1 h.2,
    fun _ out _ => .moves (h.1.tail .write)⟩

/-- The object of `wl_registry.bind` is the one that its signature names. -/
theorem parseReqWlRegistryBind_new {global oid : Nat} {name : List UInt8}
    (hids : newIds [.uint, .genericNewId] (msg.bytes.drop 8) ⊆ m.new)
    (h : parseReqWlRegistryBind msg = .ok (global, name, version, oid)) : oid ∈ m.new := by
  refine parseArgs_post (P := fun a : Nat × List UInt8 × Nat × Nat => a.2.2.2 ∈ m.new) ?_ h
  simp only [bind_iff, pure_iff]
  intro n r₁ h₁ s r₂ h₂ v r₃ h₃ id r₄ h₄
  obtain ⟨o, r, ho, hs⟩ := StateT.run_bind_eq_ok.mp h₂
  have hr : r = r₂ := by
    cases o with
    | none => cases hs
    | some _ => cases hs; rfl
  have hskip : argNewIds .uint (msg.bytes.drop 8) = .ok ([], r₁) := by
    show Except.ok ([], skipU32 _) = _
    rw [skipU32, show parseU32 _ = _ from h₁]
  have hread : argNewIds .genericNewId r₁ = .ok ([id], r₄) :=
    StateT.run_bind_eq_ok.mpr ⟨o, r, ho, StateT.run_bind_eq_ok.mpr
      ⟨v, r₃, hr ▸ h₃, StateT.run_bind_eq_ok.mpr ⟨id, r₄, h₄, rfl⟩⟩⟩
  rw [newIds_cons hskip, newIds_cons hread] at hids
  exact hids mem_cons_self

theorem wlRegistryBind_processes (hsig : q.meth.sig = [.uint, .genericNewId])
    (hdestructor : q.meth.destructor = false) (hids : newIds q.meth.sig (q.msg.bytes.drop 8) ⊆ m.new) :
    (wlRegistryBind sys q).Processes m c := by
  refine Ensures.parsing_iff.mpr fun ⟨_, name, version, oid⟩ hargs => ?_
  dsimp only
  split
  · refine Moving.processes (.first ((setupDeviceForBind_same sys).mono fun _ g hsame =>
      ⟨.state hsame, .needs (.act ?_)⟩))
    simp only [bind_iff, post_copyMsg, post_act, post_insertNewObject]
    exact fun out _ hnew => .insert (parseReqWlRegistryBind_new (hsig ▸ hids) hargs) hnew trivial
  · exact defaultProcWayMsg_processes q hids (by simp [hdestructor])

theorem passTagged_moves {out : Output} {n : Nat} {rs fds : List SfdRef} (hn : n ≤ rs.length) :
    Moves m ⟨⟨g, out⟩, .fromChannel rs fds⟩
      ⟨⟨g, out⟩, .fromChannel (rs.drop n) (fds ++ rs.take n)⟩ := by
  induction n with
  | zero => simp
  | succ n ih =>
    have hdrop : rs.drop n = rs[n] :: rs.drop (n + 1) := drop_eq_getElem_cons hn
    refine (ih (Nat.le_of_succ_le hn)).tail ?_
    rw [hdrop, take_add_one, List.getElem?_eq_getElem hn, Option.toList_some, ← append_assoc]
    exact .pass

theorem procUnknownWayMsg_moves : (procUnknownWayMsg msg).Moving m c := by
  refine .looking fun fromChannel hfrom => ?_
  split
  · refine .needs (.waits fun hwait => .actFd ?_)
    unfold passTagged
    simp only [bind_iff, Post.modify_iff, post_liftAct, post_emit]
    intro out _
    obtain ⟨⟨g, out₀⟩, t⟩ := c
    cases t with
    | fromWayland fds rids => exact .single .write
    | fromChannel rs fds =>
      refine (passTagged_moves (Nat.le_of_not_lt fun hlt => ?_)).tail .write
      have h : (if rs.length < tagFds msg then fail "Missing sfd" else _) = .ok none := hwait
      rw [if_pos hlt] at h
      cases h
  · exact .needs (.act (post_copyMsg.mpr fun _ _ => .write))

/-! ## All messages -/

/-- The handlers that create one object and write output, and do nothing else. -/
def creatingHandlers : List (Request → Handler) :=
  [wlDisplayGetRegistry, wlCompositorCreateSurface, wpLinuxDrmSyncobjManagerV1GetSurface,
    zwpLinuxDmabufV1CreateParams, zwlrGammaControlManagerV1GetGammaControl]

theorem creatingHandlers_moves :
    ∀ h ∈ creatingHandlers, ∀ m, FirstNew m q.msg → (h q).Moving m c := by
  have hone (m : Targets) (hfirst : FirstNew m q.msg) (id : ObjId) (h : parseOneObj q.msg = .ok id) :
      id ∈ m.new := hfirst.one h
  have htwo (m : Targets) (hfirst : FirstNew m q.msg) (id : ObjId) (id' : ObjId)
      (h : parseTwoObjs q.msg = .ok (id, id')) : id ∈ m.new := hfirst.two h
  unfold creatingHandlers Moving
  simp only [forall_mem_cons]
  refine ⟨?_, ?_, ?_, ?_, ?_, fun _ h => absurd h not_mem_nil⟩
  · simp +contextual [wlDisplayGetRegistry, parseReqWlDisplayGetRegistry, hone]
  · simp +contextual [wlCompositorCreateSurface, parseReqWlCompositorCreateSurface, hone]
  · simp +contextual [wpLinuxDrmSyncobjManagerV1GetSurface,
      parseReqWpLinuxDrmSyncobjManagerV1GetSurface, htwo]
  · simp +contextual [zwpLinuxDmabufV1CreateParams, parseReqZwpLinuxDmabufV1CreateParams, hone]
  · simp +contextual [zwlrGammaControlManagerV1GetGammaControl,
      parseReqZwlrGammaControlManagerV1GetGammaControl, htwo]

/-- A viewport is made for the surface that the request names. -/
theorem wpViewporterGetViewport_moves (hfirst : FirstNew m q.msg)
    (hsurface : ∀ id s, parseReqWpViewporterGetViewport q.msg = .ok (id, s) → m.surface = some s) :
    (wpViewporterGetViewport q).Moving m c := by
  refine .needs (.act ?_)
  simp only [bind_iff, post_copyMsg, post_res, post_act, post_insertNewObject]
  rintro out - ⟨id, s⟩ hargs hnew
  exact .insert (hfirst.two hargs) hnew (hsurface id s hargs).symm

/-- A frame is made for the session that the request is for. -/
theorem extImageCopyCaptureSessionV1CreateFrame_moves (hfirst : FirstNew m q.msg)
    (hmaker : m.session = some q.objectId) :
    (extImageCopyCaptureSessionV1CreateFrame q).Moving m c := by
  refine .needs (.act ?_)
  simp only [bind_iff, post_act, post_extraOf, WpExtra.extImageCopyCaptureSession?_eq_some, post_res,
    post_insertNewObject, post_copyMsg]
  rintro _ session rfl hsession id hargs hnew out -
  exact .insert (hfirst.one hargs) hnew ⟨rfl, hmaker.symm, _, session, hmaker, hsession⟩

/-- The handlers that look up or update objects and write output, and do nothing else. -/
def simpleHandlers : List (Request → Handler) :=
  [wlSurfaceAttach, wlSurfaceSetBufferScale, wlSurfaceSetBufferTransform, wlSurfaceDamage,
    wlSurfaceDamageBuffer, zwpLinuxDmabufV1Format, zwpLinuxDmabufFeedbackV1TrancheFlags,
    zwpLinuxDmabufFeedbackV1TrancheTargetDevice, zwpLinuxDmabufFeedbackV1TrancheDone,
    zwlrGammaControlV1GammaSize, zwlrScreencopyFrameV1Failed,
    extImageCopyCaptureFrameV1PresentationTime sys, xdgToplevelSetTitle,
    wpPresentationFeedbackPresented sys, wpCommitTimerV1SetTimestamp sys]

theorem simpleHandlers_moves : ∀ h ∈ simpleHandlers sys, ∀ m, (h q).Moving m c := by
  unfold simpleHandlers Moving
  simp only [forall_mem_cons]
  refine ⟨?_, ?_, ?_, ?_, ?_, ?_, ?_, ?_, ?_, ?_, ?_, ?_, ?_, ?_, ?_,
    fun _ h => absurd h not_mem_nil⟩
  · simp +contextual [wlSurfaceAttach]
  · simp +contextual [wlSurfaceSetBufferScale, ObjWlSurface.modifyAttachment,
      ObjWlSurface.modifyPending]
  · simp +contextual [wlSurfaceSetBufferTransform, ObjWlSurface.modifyAttachment,
      ObjWlSurface.modifyPending]
  · simp +contextual [wlSurfaceDamage, damageRequest, ObjWlSurface.modifyPending]
  · simp +contextual [wlSurfaceDamageBuffer, damageRequest, ObjWlSurface.modifyPending]
  · simp +contextual [zwpLinuxDmabufV1Format]
  · simp +contextual [zwpLinuxDmabufFeedbackV1TrancheFlags, updateFeedback]
  · simp +contextual [zwpLinuxDmabufFeedbackV1TrancheTargetDevice, updateFeedback]
  · simp +contextual [zwpLinuxDmabufFeedbackV1TrancheDone, updateFeedback]
  · simp +contextual [zwlrGammaControlV1GammaSize]
  · simp +contextual [zwlrScreencopyFrameV1Failed]
  · simp +contextual [extImageCopyCaptureFrameV1PresentationTime]
  · simp +contextual [xdgToplevelSetTitle]
  · simp +contextual [wpPresentationFeedbackPresented]
  · simp +contextual [wpCommitTimerV1SetTimestamp]

/-- What a message names, by its method and arguments: `wl_surface.commit` the surface,
`wp_viewporter.get_viewport` the surface of the new viewport,
`ext_image_copy_capture_session_v1.create_frame` its session, and `wl_display.delete_id` the object
that is removed, as is the object of a destructor that takes effect immediately. -/
def targets (key : WaylandInterface × MethodId) (q : Request) : Targets where
  commit := if key = (.wlSurface, .request 6) then some q.objectId else none
  surface :=
    if key = (.wpViewporter, .request 1) then
      (parseReqWpViewporterGetViewport q.msg).toOption.map Prod.snd
    else none
  session :=
    if key = (.extImageCopyCaptureSessionV1, .request 0) then some q.objectId else none
  removed :=
    if key = (.wlDisplay, .event 1) then (parseEvtWlDisplayDeleteId q.msg).toOption
    else if q.meth.destructor && (!q.isReq || isServerObject q.objectId) then some q.objectId
    else none
  new := newIds q.meth.sig (q.msg.bytes.drop 8)

theorem firstNew_targets {key : WaylandInterface × MethodId} {destructor : Bool}
    (h : some ⟨.newId intf :: sig, destructor⟩ = some q.meth) :
    FirstNew (targets key q) q.msg := by
  have hsub : newIds (.newId intf :: sig) (q.msg.bytes.drop 8) ⊆ (targets key q).new := by
    rw [targets, ← Option.some.inj h]
    exact List.Subset.refl _
  exact .of_sig hsub

theorem handlers_process (hreq : q.isReq = c.isReq) (hfrom : q.fromChannel = c.transl.isFromChannel) :
    ∀ e ∈ handlers sys, q.isReq = e.1.2.isRequest → e.1.1.method e.1.2 = some q.meth →
      (e.2 q).Processes (targets e.1 q) c := by
  have hsimple : ∀ h ∈ simpleHandlers sys, ∀ m, (h q).Moving m c := simpleHandlers_moves sys q
  have hcreate : ∀ h ∈ creatingHandlers, ∀ m, FirstNew m q.msg → (h q).Moving m c :=
    creatingHandlers_moves q
  have hframe (m : Targets) (c' : Ctx) : NewExtra m c' (.zwlrScreencopyFrame { buffer := none }) := rfl
  have hsession (m : Targets) (c' : Ctx) : NewExtra m c' (.extImageCopyCaptureSession .empty) := rfl
  unfold simpleHandlers at hsimple
  unfold creatingHandlers at hcreate
  simp only [forall_mem_cons] at hsimple hcreate
  obtain ⟨h₁, h₂, h₃, h₄, h₅, h₆, h₇, h₈, h₉, h₁₀, h₁₁, h₁₂, h₁₃, h₁₄, h₁₅, -⟩ := hsimple
  obtain ⟨k₁, k₂, k₃, k₄, k₅, -⟩ := hcreate
  have hsel (m : Targets) : (transferSelection q).Moving m c := transferSelection_moves q
  have moves {p p' : Prop} {k : Handler} {m : Targets} (h : k.Moving m c) :
      p → p' → k.Processes m c := fun _ _ => h.processes
  -- the new object is the first argument of the method
  have creates {p : Prop} {k : Handler} {key : WaylandInterface × MethodId} {destructor : Bool}
      {intf : WaylandInterface} {sig : List WaylandArgument}
      (h : FirstNew (targets key q) q.msg → k.Moving (targets key q) c) :
      p → some ⟨.newId intf :: sig, destructor⟩ = some q.meth →
        k.Processes (targets key q) c := fun _ hmeth => (h (firstNew_targets q hmeth)).processes
  unfold handlers
  simp only [forall_mem_cons]
  refine ⟨fun _ _ => wlDisplayDeleteId_processes q fun id h => ?_, creates (k₁ _),
    fun hq hmeth => wlCallbackDone_processes q ?_,
    fun hq hmeth =>
      (wlShmCreatePool_moves sys q (firstNew_targets q hmeth) (hreq.symm.trans hq)).processes,
    creates (wlShmPoolCreateBuffer_moves q), moves (wlShmPoolResize_moves sys q), creates (k₂ _),
    moves (wlSurfaceDestroy_moves q), moves (h₁ _), moves (h₂ _), moves (h₃ _), moves (h₄ _),
    moves (h₅ _), fun _ _ => wlSurfaceCommit_processes sys q rfl,
    creates fun hfirst => wpViewporterGetViewport_moves q hfirst fun id s h => ?_,
    moves (wpViewportDestroy_moves q),
    moves (wpViewportSetDestination_moves q), moves (wpViewportSetSource_moves q), creates (k₃ _),
    creates (importTimeline_moves sys q), moves (setAcquirePoint_moves q),
    moves (setReleasePoint_moves q), moves (h₆ _), moves (zwpLinuxDmabufV1Modifier_moves q),
    creates (k₄ _), moves (zwpLinuxBufferParamsV1Add_moves q),
    creates fun hfirst => zwpLinuxBufferParamsV1CreateImmed_moves sys q hfirst hfrom,
    moves (zwpLinuxBufferParamsV1Create_moves sys q hfrom),
    moves (zwpLinuxBufferParamsV1Failed_moves q), creates (zwpLinuxBufferParamsV1Created_moves q),
    creates fun hfirst => insertFeedback_moves q fun id h => hfirst.one h,
    creates fun hfirst => insertFeedback_moves q fun id h =>
      hfirst.parsed_map (fun _ _ => by simp) h,
    moves (zwpLinuxDmabufFeedbackV1FormatTable_moves sys q),
    moves (zwpLinuxDmabufFeedbackV1MainDevice_moves sys q), moves (h₇ _), moves (h₈ _),
    moves (zwpLinuxDmabufFeedbackV1TrancheFormats_moves q), moves (h₉ _),
    moves (zwpLinuxDmabufFeedbackV1Done_moves sys q),
    moves (.needs (.parsing fun _ _ => fixedFile_moves sys q)),
    moves (.needs (.parsing fun _ _ => fixedFile_moves sys q)),
    moves (.needs (.parsing fun _ _ => fixedFile_moves sys q)), creates (k₅ _), moves (h₁₀ _),
    moves (.needs (.looking fun _ _ => fixedFile_moves sys q)), moves (hsel _), moves (hsel _),
    moves (hsel _), moves (hsel _), moves (hsel _), moves (hsel _), moves (hsel _), moves (hsel _),
    moves (hsel _), moves (hsel _),
    creates fun hfirst => createObject_moves q
      (fun id h => hfirst.parsed_map (fun _ _ => by simp) h) (hframe _),
    creates fun hfirst => createObject_moves q
      (fun id h => hfirst.parsed_map (fun _ _ => by simp) h) (hframe _),
    creates fun hfirst => createObject_moves q
      (fun id h => hfirst.parsed_map (fun _ _ => by simp) h) (hsession _),
    creates fun hfirst => createObject_moves q (fun id h => hfirst.one h) (hsession _),
    moves (sessionDmabufDevice_moves q), moves (sessionDmabufFormat_moves q),
    moves (extImageCopyCaptureSessionV1Done_moves sys q),
    creates fun hfirst => extImageCopyCaptureSessionV1CreateFrame_moves q hfirst rfl,
    moves (extImageCopyCaptureSessionV1Destroy_moves q), moves (screencopyFrameCopy_moves q),
    moves (screencopyFrameCopy_moves q), moves (extImageCopyCaptureFrameV1Destroy_moves q),
    moves (extImageCopyCaptureFrameV1AttachBuffer_moves q),
    moves (extImageCopyCaptureFrameV1Capture_moves q),
    moves (zwlrScreencopyFrameV1Ready_moves sys q), moves (h₁₂ _),
    moves (extImageCopyCaptureFrameV1Ready_moves sys q), moves (h₁₁ _),
    moves (extImageCopyCaptureFrameV1Failed_moves q), moves (h₁₃ _),
    moves (xdgToplevelIconV1AddBuffer_moves q), moves (h₁₄ _), moves (wpPresentationClockId_moves q),
    moves (h₁₅ _), moves (wlRegistryGlobal_moves sys q),
    fun _ hmeth => wlRegistryBind_processes sys q ?_ ?_ (List.Subset.refl _),
    fun _ h => absurd h not_mem_nil⟩
  · simp [targets, h, Except.toOption]
  · have hmeth := (Option.some.inj hmeth).symm
    simp [targets, hmeth, show q.isReq = false from hq]
  · simp [targets, h, Except.toOption]
  · rw [← Option.some.inj hmeth]
  · rw [← Option.some.inj hmeth]

theorem handlerOf_processes (hreq : q.isReq = c.isReq) (hfrom : q.fromChannel = c.transl.isFromChannel)
    (intf : WaylandInterface) (id : MethodId) (hq : q.isReq = id.isRequest)
    (hmeth : intf.method id = some q.meth) :
    (handlerOf sys intf id q).Processes (targets (intf, id) q) c := by
  rcases handlerOf_mem sys intf id with ⟨hnone, hdefault⟩ | ⟨-, hin⟩
  · rw [hdefault]
    refine defaultProcWayMsg_processes q (List.Subset.refl _) fun hdestructor => ?_
    have hkey : (intf, id) ≠ (.wlDisplay, .event 1) := by
      rintro ⟨⟩
      cases hnone
    simp [targets, hkey, hdestructor]
  · exact handlers_process sys q hreq hfrom _ hin hq hmeth

/-- What a message names in a state; a message that is not understood names nothing. -/
def targetsOf (msg : WaylandMsg) (c : Ctx) : Targets :=
  match methodOf msg c with
  | none => ⟨none, none, none, none, []⟩
  | some m => targets (m.intf, m.id) (requestOf msg c m.meth)

omit q in
/-- A frame is made for the object of the request, and not together with a viewport. -/
theorem targetsOf_session {s : ObjId} (h : (targetsOf msg c).session = some s) :
    (targetsOf msg c).surface = none ∧ (c.glob.objects.lookup s).isSome := by
  unfold targetsOf at h ⊢
  split at h
  · cases h
  · rename_i m hm
    have hkey : (m.intf, m.id) = (.extImageCopyCaptureSessionV1, .request 0) := by
      by_contra hkey
      simp [targets, hkey] at h
    simp only [targets, hkey, if_true, Option.some.injEq] at h ⊢
    subst h
    refine ⟨rfl, ?_⟩
    rw [← Option.isSome_map (f := WpObject.objType), requestOf, (methodOf_eq_some hm).1]
    rfl

omit q in
/-- Whatever becomes of a message, it is a sequence of moves and at most one removal or commit. -/
theorem processWayMsg_processed {c' : Ctx} {p : ProcMsg}
    (h : processWayMsg sys msg c = .ok (p, c')) : Processed (targetsOf msg c) c c' := by
  unfold targetsOf
  have hd := dispatch_of_processWayMsg sys h
  unfold dispatch at hd
  cases hm : methodOf msg c with
  | none =>
    rw [hm] at hd
    exact procUnknownWayMsg_moves.processes p c' hd
  | some m =>
    rw [hm] at hd
    exact handlerOf_processes sys _ rfl rfl m.intf m.id (isReq_requestOf hm)
      (methodOf_eq_some hm).2.2 p c' hd

end Others

end Waypipe
