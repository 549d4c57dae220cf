import Waypipe.Tracking.Copying
import Waypipe.Tracking.FdQueue

/-!
# Messages through both instances

`Hop` follows one of the two instances through any number of messages that are only copied.  What
comes out of the second instance is what went into the first one, and the descriptors that are
delivered are those that came with the messages, in the same order (`two_hops`).
-/

namespace Waypipe

open Wayland Transition List

variable {msg : WaylandMsg}

/-! ## One instance -/

/-- An instance with a record of what it has done. -/
structure Hop where
  ctx : Ctx
  /-- The messages that are done, with their methods as far as they were known. -/
  done : List (WaylandMsg × Option Method)
  /-- All bytes that were written for them. -/
  output : List UInt8
  /-- All file descriptors that have come from the program. -/
  fdsIn : List Fd
  /-- All descriptors that have been announced by the other instance. -/
  sfdsIn : List (Rid × SfdRef)
  /-- All descriptors that were passed on. -/
  passed : List SfdRef
  /-- Those of them that are known, as they were at that time. -/
  made : List ShadowFd

inductive HopEvent where
  /-- File descriptors arrive from the program. -/
  | arrive (fds : List Fd)
  /-- The other instance announces the next descriptor. -/
  | inject (rid : Rid)
  /-- A message is processed, or stalls. -/
  | process (msg : WaylandMsg)
  /-- The rest of the program changes the tracked state and takes the output. -/
  | other (core : Core) (outgoing : List SfdRef)

namespace Hop

/-- The record after a message. -/
def advance (s : Hop) (msg : WaylandMsg) (ctx : Ctx) : Hop where
  ctx := ctx
  done := s.done ++ [(msg, methodOf msg s.ctx)]
  output := s.output ++ ctx.core.out.data.drop s.ctx.core.out.data.length
  fdsIn := s.fdsIn
  sfdsIn := s.sfdsIn
  passed := s.passed ++ ctx.transl.outgoing.drop s.ctx.transl.outgoing.length
  made := s.made ++ (ctx.transl.outgoing.drop s.ctx.transl.outgoing.length).filterMap
    (ctx.glob.sfds[·]?)

variable (sys : System)

/-- One step; an error ends the connection. -/
def step (s : Hop) : HopEvent → Option Hop
  | .arrive fds =>
    some { s with
      ctx := { s.ctx with transl := s.ctx.transl.receive fds }
      fdsIn := s.fdsIn ++ fds }
  | .inject rid => do
    let r ← s.ctx.glob.fresh.lookup rid
    return { s with
      ctx := s.ctx.inject rid r
      sfdsIn := s.sfdsIn ++ [(rid, r)] }
  | .process msg =>
    match processWayMsg sys msg s.ctx with
    | .ok (.done, ctx) => some (s.advance msg ctx)
    | .ok (_, ctx) => some { s with ctx }
    | .error _ => none
  | .other core outgoing =>
    some { s with ctx := { core, transl := s.ctx.transl.withOutgoing outgoing } }

/-- The message that is processed is only copied, and its opcode is one that is not changed by
that. -/
def fitting (s : Hop) : HopEvent → Bool
  | .process msg => (pathOf sys (methodOf msg s.ctx)).any fun p => p.fits msg
  | _ => true

/-- The message that is processed is only copied. -/
def copying (s : Hop) : HopEvent → Bool
  | .process msg => (pathOf sys (methodOf msg s.ctx)).isSome
  | _ => true

/-- The way that a message took. -/
def way (d : WaylandMsg × Option Method) : Path := (pathOf sys d.2).getD .unknown

variable (ds : List (WaylandMsg × Option Method))

/-- The number of descriptors that were sent with messages. -/
def sends : Nat := (ds.map fun d => (way sys d).sends).sum

/-- The number of descriptors that were delivered with messages. -/
def delivers : Nat :=
  (ds.map fun d => (way sys d).delivers d.1).sum

/-- Nothing has come in yet. -/
structure Fresh (s : Hop) : Prop where
  done : s.done = []
  output : s.output = []
  fdsIn : s.fdsIn = []
  sfdsIn : s.sfdsIn = []
  passed : s.passed = []
  made : s.made = []

/-! ### What is kept -/

/-- An instance that gets messages from its program. -/
structure Sends (s : Hop) : Prop where
  queues : ∃ (taken queue : List Fd) (rids : List SfdRef),
    s.ctx.transl = .fromWayland queue rids ∧ s.fdsIn = taken ++ queue ∧
    taken.length = sends sys s.done ∧ List.Forall₂ ShadowFd.Carries taken s.made
  output : s.output = s.done.flatMap fun d => (wireMsg (way sys d) d.1).bytes
  fits : ∀ d ∈ s.done, (way sys d).fits d.1

/-- An instance that gets messages from the other one. -/
structure Delivers (s : Hop) : Prop where
  queues : ∃ (queue fds : List SfdRef), s.ctx.transl = .fromChannel queue fds ∧
    s.sfdsIn.map Prod.snd = s.passed ++ queue ∧ s.passed.length = delivers sys s.done
  output : s.output = s.done.flatMap fun d => deliveredBytes (way sys d) d.1
  admits : ∀ d ∈ s.done, (way sys d).admits d.1

variable {sys} {s t : Hop} {e : HopEvent}

theorem Fresh.sends (hs : s.Fresh) (ht : s.ctx.transl = .fromWayland [] []) : s.Sends sys := by
  refine ⟨⟨[], [], [], ht, hs.fdsIn, ?_, ?_⟩, ?_, ?_⟩
  · simp [Hop.sends, hs.done]
  · rw [hs.made]
    exact .nil
  · rw [hs.output, hs.done, flatMap_nil]
  · intro d hd
    rw [hs.done] at hd
    cases hd

theorem Fresh.delivers (hs : s.Fresh) (ht : s.ctx.transl = .fromChannel [] []) :
    s.Delivers sys := by
  refine ⟨⟨[], [], ht, ?_, ?_⟩, ?_, ?_⟩
  · rw [hs.sfdsIn, hs.passed]
    rfl
  · simp [Hop.delivers, hs.passed, hs.done]
  · rw [hs.output, hs.done, flatMap_nil]
  · intro d hd
    rw [hs.done] at hd
    cases hd

theorem step_process_eq (h : s.step sys (.process msg) = some t) :
    (∃ ctx, processWayMsg sys msg s.ctx = .ok (.done, ctx) ∧ t = s.advance msg ctx) ∨
      ∃ ctx, Stayed s.ctx ctx ∧ t = { s with ctx } := by
  cases hr : processWayMsg sys msg s.ctx with
  | error e => simp [step, hr] at h
  | ok x =>
    obtain ⟨p, ctx⟩ := x
    by_cases hp : p = .done
    · subst hp
      simp only [step, hr, Option.some.injEq] at h
      exact .inl ⟨ctx, rfl, h.symm⟩
    · refine .inr ⟨ctx, processWayMsg_stayed sys hr hp, ?_⟩
      cases p with
      | done => exact absurd rfl hp
      | needsSpace _ _ => simpa [step, hr, eq_comm] using h
      | waitFor _ => simpa [step, hr, eq_comm] using h

theorem sends_append (d : WaylandMsg × Option Method) :
    sends sys (ds ++ [d]) = sends sys ds + (way sys d).sends := by
  simp [sends]

theorem delivers_append (d : WaylandMsg × Option Method) :
    delivers sys (ds ++ [d]) = delivers sys ds + (way sys d).delivers d.1 := by
  simp [delivers]

theorem way_of_pathOf {m : Option Method} {p : Path}
    (h : pathOf sys m = some p) : way sys (msg, m) = p := by
  unfold way
  rw [h]
  rfl

theorem Sends.advance (hs : s.Sends sys) {ctx : Ctx}
    (hfit : s.fitting sys (.process msg)) (h : processWayMsg sys msg s.ctx = .ok (.done, ctx)) :
    (s.advance msg ctx).Sends sys := by
  obtain ⟨p, hp, hfits⟩ : ∃ p, pathOf sys (methodOf msg s.ctx) = some p ∧ p.fits msg := by
    simpa [fitting, Option.any_eq_true] using hfit
  have hway : way sys (msg, methodOf msg s.ctx) = p := way_of_pathOf hp
  obtain ⟨taken, queue, rids, htransl, hfds, hlen, hmade⟩ := hs.queues
  have hcopied := processWayMsg_copied hp h
  rw [Copied, htransl] at hcopied
  obtain ⟨more, rest, new, refs, hqueue, hmore, htransl', hrefs, hcarries⟩ :=
    hcopied.queues queue rids htransl
  refine ⟨⟨taken ++ more, rest, rids ++ refs, htransl', ?_, ?_, ?_⟩, ?_, ?_⟩
  · rw [append_assoc, ← hqueue]
    exact hfds
  · rw [length_append, hlen, hmore]
    exact ((sends_append s.done _).trans (by rw [hway])).symm
  · have houtgoing : ctx.transl.outgoing.drop s.ctx.transl.outgoing.length = refs := by
      rw [htransl', htransl]
      exact drop_left
    have hnew : refs.filterMap (ctx.glob.sfds[·]?) = new := by
      have hids : (refs.map (ctx.glob.sfds[·]?)).filterMap id = new := by
        rw [hrefs, filterMap_map, Function.id_comp, filterMap_some]
      rwa [filterMap_map] at hids
    show List.Forall₂ _ _ (s.made ++ _)
    rw [houtgoing, hnew]
    exact rel_append hmade hcarries
  · show s.output ++ ctx.core.out.data.drop s.ctx.core.out.data.length = _
    rw [hcopied.written, drop_left, hs.output]
    simp only [Hop.advance, flatMap_append, flatMap_singleton, hway]
  · intro d hd
    rcases mem_append.mp hd with hd | hd
    · exact hs.fits d hd
    · rw [mem_singleton.mp hd, hway]
      exact hfits

theorem Delivers.advance (hs : s.Delivers sys) {ctx : Ctx}
    (hcopy : s.copying sys (.process msg)) (h : processWayMsg sys msg s.ctx = .ok (.done, ctx)) :
    (s.advance msg ctx).Delivers sys := by
  obtain ⟨p, hp⟩ := Option.isSome_iff_exists.mp hcopy
  have hway : way sys (msg, methodOf msg s.ctx) = p := way_of_pathOf hp
  obtain ⟨queue, fds, htransl, hsfds, hlen⟩ := hs.queues
  have hcopied := processWayMsg_copied hp h
  rw [Copied, htransl] at hcopied
  obtain ⟨hle, htransl'⟩ := hcopied.queues queue fds htransl
  have houtgoing : ctx.transl.outgoing.drop s.ctx.transl.outgoing.length =
      queue.take (p.delivers msg) := by
    rw [htransl', htransl]
    exact drop_left
  refine ⟨⟨queue.drop (p.delivers msg), _, htransl', ?_, ?_⟩, ?_, ?_⟩
  · show s.sfdsIn.map Prod.snd = (s.passed ++ _) ++ _
    rw [houtgoing, append_assoc, take_append_drop, hsfds]
  · show (s.passed ++ _).length = delivers sys (s.done ++ _)
    rw [houtgoing, delivers_append, hway, length_append, hlen, length_take, Nat.min_eq_left hle]
  · show s.output ++ ctx.core.out.data.drop s.ctx.core.out.data.length = _
    rw [hcopied.written, drop_left, hs.output]
    simp only [Hop.advance, flatMap_append, flatMap_singleton, hway]
  · intro d hd
    rcases mem_append.mp hd with hd | hd
    · exact hs.admits d hd
    · rw [mem_singleton.mp hd, hway]
      exact hcopied.admitted

theorem Sends.step (hs : s.Sends sys) (hfit : s.fitting sys e) (h : s.step sys e = some t) :
    t.Sends sys := by
  obtain ⟨taken, queue, rids, htransl, hfds, hlen, hmade⟩ := hs.queues
  cases e with
  | arrive fds =>
    cases h
    refine ⟨⟨taken, queue ++ fds, rids, ?_, ?_, hlen, hmade⟩, hs.output, hs.fits⟩
    · show s.ctx.transl.receive fds = _
      rw [htransl]
      rfl
    · rw [hfds, append_assoc]
  | inject rid =>
    obtain ⟨r, _, ht⟩ := Option.bind_eq_some_iff.mp h
    cases ht
    refine ⟨⟨taken, queue, rids, ?_, hfds, hlen, hmade⟩, hs.output, hs.fits⟩
    show s.ctx.transl.inject r = _
    rw [htransl]
    rfl
  | process msg =>
    rcases step_process_eq h with ⟨ctx, hdone, rfl⟩ | ⟨ctx, hstay, rfl⟩
    · exact hs.advance hfit hdone
    · exact ⟨⟨taken, queue, rids, hstay.transl.trans htransl, hfds, hlen, hmade⟩, hs.output, hs.fits⟩
  | other core outgoing =>
    cases h
    refine ⟨⟨taken, queue, outgoing, ?_, hfds, hlen, hmade⟩, hs.output, hs.fits⟩
    show s.ctx.transl.withOutgoing outgoing = _
    rw [htransl]
    rfl

theorem Delivers.step (hs : s.Delivers sys) (hcopy : s.copying sys e)
    (h : s.step sys e = some t) : t.Delivers sys := by
  obtain ⟨queue, fds, htransl, hsfds, hlen⟩ := hs.queues
  cases e with
  | arrive new =>
    cases h
    refine ⟨⟨queue, fds, ?_, hsfds, hlen⟩, hs.output, hs.admits⟩
    show s.ctx.transl.receive new = _
    rw [htransl]
    rfl
  | inject rid =>
    obtain ⟨r, _, ht⟩ := Option.bind_eq_some_iff.mp h
    cases ht
    refine ⟨⟨queue ++ [r], fds, ?_, ?_, hlen⟩, hs.output, hs.admits⟩
    · show s.ctx.transl.inject r = _
      rw [htransl]
      rfl
    · rw [map_append, hsfds, append_assoc]
      rfl
  | process msg =>
    rcases step_process_eq h with ⟨ctx, hdone, rfl⟩ | ⟨ctx, hstay, rfl⟩
    · exact hs.advance hcopy hdone
    · exact ⟨⟨queue, fds, hstay.transl.trans htransl, hsfds, hlen⟩, hs.output, hs.admits⟩
  | other core outgoing =>
    cases h
    refine ⟨⟨queue, outgoing, ?_, hsfds, hlen⟩, hs.output, hs.admits⟩
    show s.ctx.transl.withOutgoing outgoing = _
    rw [htransl]
    rfl

end Hop

/-! ## Both instances -/

/-- The two instances know the same method, if they both know one. -/
def Agrees (d d' : WaylandMsg × Option Method) : Prop :=
  ∀ m m', d.2 = some m → d'.2 = some m' → m = m'

variable {sys sys' : System}

/-- When both instances know the method of a tagged message, the second one does not process it by
default. -/
theorem Agrees.not_plain {d d' : WaylandMsg × Option Method} (h : Agrees d d')
    (htag : Hop.way sys d = .tagged) : Hop.way sys' d' ≠ .plain := by
  obtain ⟨msg, m⟩ := d
  obtain ⟨msg', m'⟩ := d'
  intro hplain
  have hnear : pathOf sys m = some .tagged := by
    unfold Hop.way at htag
    cases hp : pathOf sys m with
    | none => simp [hp] at htag
    | some p => simpa [hp] using htag
  have hfar : pathOf sys' m' = some .plain := by
    unfold Hop.way at hplain
    cases hp : pathOf sys' m' with
    | none => simp [hp] at hplain
    | some p => simpa [hp] using hplain
  obtain ⟨k, rfl, hkey⟩ := pathOf_tagged hnear
  obtain ⟨k', rfl, _⟩ := pathOf_plain hfar
  obtain rfl := h k k' rfl rfl
  simp [pathOf, hkey] at hfar

/-- Message by message, what the second instance reads is what the first one wrote, so it writes what
the first one read. -/
theorem delivered_eq {ds ds' : List (WaylandMsg × Option Method)}
    (hfits : ∀ d ∈ ds, (Hop.way sys d).fits d.1) (hadmits : ∀ d ∈ ds', (Hop.way sys' d).admits d.1)
    (hbytes : (ds'.flatMap fun d => d.1.bytes) <+:
      ds.flatMap fun d => (wireMsg (Hop.way sys d) d.1).bytes)
    (hagree : ∀ (i : Nat) d d', ds[i]? = some d → ds'[i]? = some d' → Agrees d d') :
    ds'.length ≤ ds.length ∧
      (ds'.flatMap fun d => deliveredBytes (Hop.way sys' d) d.1) =
        ((ds.take ds'.length).flatMap fun d => d.1.bytes) ∧
      Hop.delivers sys' ds' = Hop.sends sys (ds.take ds'.length) := by
  induction ds' generalizing ds with
  | nil => exact ⟨Nat.zero_le _, by simp, by simp [Hop.delivers, Hop.sends]⟩
  | cons d' ds' ih =>
    cases ds with
    | nil =>
      obtain ⟨rest, hrest⟩ := hbytes
      have hlen := congrArg List.length hrest
      have h8 := d'.1.hasHeader
      simp only [flatMap_cons, length_append, flatMap_nil, length_nil] at hlen
      omega
    | cons d ds =>
      obtain ⟨rest, hrest⟩ := hbytes
      simp only [flatMap_cons, append_assoc] at hrest
      obtain ⟨hmsg, hrest⟩ := WaylandMsg.unique hrest
      have hmsg := WaylandMsg.eq_of_bytes hmsg
      obtain ⟨hle, hout, hfds⟩ := ih (fun d hd => hfits d (mem_cons_of_mem _ hd))
        (fun d hd => hadmits d (mem_cons_of_mem _ hd)) ⟨rest, hrest⟩
        (fun i e e' he he' => hagree (i + 1) e e' he he')
      have hhop := deliveredBytes_wireMsg (hfits d mem_cons_self)
        (hmsg ▸ hadmits d' mem_cons_self)
        (fun htag => (hagree 0 d d' rfl rfl).not_plain htag)
      rw [← hmsg] at hhop
      refine ⟨Nat.succ_le_succ hle, ?_, ?_⟩
      · simp only [flatMap_cons, length_cons, take_succ_cons, hhop.1, hout]
      · have hsum : Hop.delivers sys' (d' :: ds') =
            (Hop.way sys' d').delivers d'.1 + Hop.delivers sys' ds' := by simp [Hop.delivers]
        rw [hsum, hhop.2, hfds]
        simp [Hop.sends]

/-- What the second instance has delivered is what the first one got: for the messages that both have
done, the same bytes, and the descriptors that came with them. -/
structure Transparent (sys : System) (near far : Hop) : Prop where
  reached : far.done.length ≤ near.done.length
  /-- The first instance passes on everything that it has done. -/
  sent : near.output = near.done.flatMap fun d => (wireMsg (Hop.way sys d) d.1).bytes
  made : near.made.length = Hop.sends sys near.done
  bytes : far.output = (near.done.take far.done.length).flatMap fun d => d.1.bytes
  /-- As many descriptors as the messages have, in the order in which they were announced. -/
  delivered : far.passed =
    (far.sfdsIn.take (Hop.sends sys (near.done.take far.done.length))).map Prod.snd
  announced : Hop.sends sys (near.done.take far.done.length) ≤ far.sfdsIn.length
  /-- They are announced by their ids, and stand for the file descriptors of the program. -/
  named : far.sfdsIn.map Prod.fst = (near.made.take far.sfdsIn.length).map ShadowFd.remoteId
  carried : List.Forall₂ ShadowFd.Carries (near.fdsIn.take near.made.length) near.made

theorem transparent_of {near far : Hop} (hnear : near.Sends sys) (hfar : far.Delivers sys')
    (hbytes : (far.done.flatMap fun d => d.1.bytes) <+: near.output)
    (hrids : far.sfdsIn.map Prod.fst <+: near.made.map ShadowFd.remoteId)
    (hagree : ∀ (i : Nat) d d', near.done[i]? = some d → far.done[i]? = some d' → Agrees d d') :
    Transparent sys near far := by
  rw [hnear.output] at hbytes
  obtain ⟨hle, hout, hfds⟩ := delivered_eq hnear.fits hfar.admits hbytes hagree
  obtain ⟨taken, queue, rids, _, hfdsIn, htaken, hcarries⟩ := hnear.queues
  obtain ⟨queue', fds, _, hsfds, hlen⟩ := hfar.queues
  have hpassed : far.passed = (far.sfdsIn.map Prod.snd).take far.passed.length := by
    rw [hsfds, take_left]
  have hcount : far.passed.length ≤ far.sfdsIn.length := by
    have h := congrArg List.length hsfds
    rw [length_map, length_append] at h
    omega
  rw [hlen, hfds] at hpassed hcount
  refine ⟨hle, hnear.output, hcarries.length_eq ▸ htaken, hfar.output.trans hout, ?_, hcount, ?_, ?_⟩
  · rw [hpassed, map_take]
  · rw [map_take]
    have h := prefix_iff_eq_take.mp hrids
    rwa [length_map] at h
  · rw [hfdsIn, ← hcarries.length_eq, take_left]
    exact hcarries

/-- Messages that both instances only copy arrive as they were sent, with their file descriptors.
With room for it such a message is not held up, and it is only rejected when its descriptors or its
arguments are not what they should be. -/
theorem two_hops :
    (∀ near₀ near far₀ far es fs, near₀.Fresh → near₀.ctx.transl = .fromWayland [] [] →
      far₀.Fresh → far₀.ctx.transl = .fromChannel [] [] →
      Transition.Along (Hop.step sys) (fun s e => s.fitting sys e) near₀ es →
      Transition.run (Hop.step sys) near₀ es = some near →
      Transition.Along (Hop.step sys') (fun s e => s.copying sys' e) far₀ fs →
      Transition.run (Hop.step sys') far₀ fs = some far →
      (far.done.flatMap fun d => d.1.bytes) <+: near.output →
      far.sfdsIn.map Prod.fst <+: near.made.map ShadowFd.remoteId →
      (∀ (i : Nat) d d', near.done[i]? = some d → far.done[i]? = some d' → Agrees d d') →
        Transparent sys near far) ∧
    (∀ msg c p r c', pathOf sys (methodOf msg c) = some p → Room p msg c →
      processWayMsg sys msg c = .ok (r, c') → r = .done) ∧
    (∀ msg c, methodOf msg c = none → Room .unknown msg c →
      (c.transl.isFromChannel = true → (tagWait (tagFds msg)).run c = .ok none) →
        ∃ x, processWayMsg sys msg c = .ok x) ∧
    (∀ msg c m g g', methodOf msg c = some m → pathOf sys (some m) = some .plain →
      Room .plain msg c → c.transl.outgoing.length ≤ MAX_OUTGOING_FDS →
      (registerGenericNewIds msg m.meth).run c.glob = .ok ((), g) →
      (processDestructor (requestOf msg c m.meth)).run g = .ok ((), g') →
        ∃ x, processWayMsg sys msg c = .ok x) ∧
    (∀ msg c m, methodOf msg c = some m → (m.intf, m.id) ∈ selectionMethods →
      Room .tagged msg c → c.transl.outgoing.length ≤ MAX_OUTGOING_FDS →
      (match c.transl with
        | .fromWayland fds _ => fds ≠ [] ∧ -2 ^ 31 ≤ c.glob.maxLocalId + c.glob.maxLocalId.sign ∧
          c.glob.maxLocalId + c.glob.maxLocalId.sign < 2 ^ 31
        | .fromChannel sfds _ => sfds ≠ [] ∧ msg.header2.testBit 11 = true) →
        ∃ x, processWayMsg sys msg c = .ok x) := by
  refine ⟨?_, ?_, ?_, ?_, ?_⟩
  · intro near₀ near far₀ far es fs hn htn hf htf halong hrun halong' hrun' hbytes hrids hagree
    have hnear : near.Sends sys :=
      run_invariant (fun _ _ _ hs => hs.step) (hn.sends htn) halong hrun
    have hfar : far.Delivers sys' :=
      run_invariant (fun _ _ _ hs => hs.step) (hf.delivers htf) halong' hrun'
    exact transparent_of hnear hfar hbytes hrids hagree
  · exact fun msg c p r c' hp hroom h => processWayMsg_done hp hroom h
  · exact fun msg c hm hroom hfds => processWayMsg_unknown_isOk hm hroom hfds
  · exact fun msg c m g g' hm hp hroom hq hreg hdes =>
      processWayMsg_plain_isOk hm hp hroom hq hreg hdes
  · exact fun msg c m hm hkey hroom hq hfds => processWayMsg_selection_isOk hm hkey hroom hq hfds

/-! ### A selection -/

/-- An instance that knows an offer of a selection. -/
def Hop.start (onDisplaySide : Bool) (transl : Transl) (announced : List ShadowFd) : Hop where
  ctx := {
    core := {
      glob := { (Globals.start onDisplaySide .plain).withObject 5
          { objType := .wlDataOffer, extra := .none } with
        sfds := announced
        fresh := announced.zipIdx.foldl (fun fresh x => fresh.insert x.1.remoteId x.2) ∅ }
      out := .empty 4096 }
    transl }
  done := []
  output := []
  fdsIn := []
  sfdsIn := []
  passed := []
  made := []

theorem Hop.start_fresh (onDisplaySide : Bool) (transl : Transl) (announced : List ShadowFd) :
    (Hop.start onDisplaySide transl announced).Fresh := ⟨rfl, rfl, rfl, rfl, rfl, rfl⟩

/-- A message of an object that nobody knows. -/
def strangeMsg : WaylandMsg := .make 77 300 (.u32 7)

def syncMsg : WaylandMsg := .make 1 0 (.obj 8)

/-- The selection is to be written into a pipe. -/
def receiveMsg : WaylandMsg := .make 5 1 (.string [116, 101, 120, 116])

/-- The application asks for the selection, with the descriptor 9. -/
def askEvents : List HopEvent :=
  [.process strangeMsg, .process syncMsg, .arrive [9], .process receiveMsg]

/-- The pipe on the other side. -/
def announcedPipe : ShadowFd where
  remoteId := 1
  onlyHere := false
  data := .pipe {
    fd := 12
    exportFd := some 13
    buf := .readFromWayland []
    programClosed := false
    channelClosed := false }

def askedEvents : List HopEvent :=
  [.process strangeMsg, .process syncMsg, .inject 1, .process (wireMsg .tagged receiveMsg)]

/-- What is needed to know about the two runs. -/
def Asked (near far : Hop) : Prop :=
  near.done.length = 3 ∧ far.done.length = 3 ∧
    (far.done.flatMap fun d => d.1.bytes) <+: near.output ∧
    far.sfdsIn.map Prod.fst <+: near.made.map ShadowFd.remoteId ∧
    near.done.map Prod.snd = far.done.map Prod.snd

instance (near far : Hop) : Decidable (Asked near far) := inferInstanceAs (Decidable (_ ∧ _))

theorem two_hops_selection : ∃ near far,
    Transition.run (Hop.step .headless) (.start false (.fromWayland [] []) []) askEvents = some near ∧
    Transition.run (Hop.step .headless) (.start true (.fromChannel [] []) [announcedPipe])
      askedEvents = some far ∧
    far.done.length = 3 ∧ Transparent .headless near far := by
  have hends : ∃ near far,
      run (Hop.step .headless) (.start false (.fromWayland [] []) []) askEvents =
        some near ∧
      run (Hop.step .headless) (.start true (.fromChannel [] []) [announcedPipe])
        askedEvents = some far ∧ Asked near far := by
    have hasked : ((run (Hop.step .headless) (.start false (.fromWayland [] []) [])
        askEvents).bind fun near =>
          (run (Hop.step .headless) (.start true (.fromChannel [] []) [announcedPipe])
            askedEvents).map fun far => decide (Asked near far)) = some true := by
      decide +kernel
    obtain ⟨near, hnear, hfar⟩ := Option.bind_eq_some_iff.mp hasked
    obtain ⟨far, hfar, hdec⟩ := Option.map_eq_some_iff.mp hfar
    exact ⟨near, far, hnear, hfar, of_decide_eq_true hdec⟩
  obtain ⟨near, far, hnear, hfar, _, hlen, hbytes, hrids, hmethods⟩ := hends
  have halong : Transition.Along (Hop.step .headless) (fun s e => s.fitting .headless e)
        (.start false (.fromWayland [] []) []) askEvents ∧
      Transition.Along (Hop.step .headless) (fun s e => s.copying .headless e)
        (.start true (.fromChannel [] []) [announcedPipe]) askedEvents := by
    decide +kernel
  refine ⟨near, far, hnear, hfar, hlen, two_hops.1 _ near _ far _ _ (Hop.start_fresh _ _ _) rfl
    (Hop.start_fresh _ _ _) rfl halong.1 hnear halong.2 hfar hbytes hrids ?_⟩
  intro i d d' hd hd' m m' hm hm'
  have hsame := congrArg (·[i]?) hmethods
  simp only [List.getElem?_map, hd, hd', Option.map_some, hm, hm', Option.some.injEq] at hsame
  exact hsame

end Waypipe
