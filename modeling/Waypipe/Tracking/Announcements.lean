import Waypipe.Tracking.Actions
import Waypipe.Tracking.Process
import Waypipe.Lib.Transition

/-!
# Announcements of globals

A registry announces the globals of the compositor, one event for each.  `Announcer.step` processes
one event, with whatever space there is; an event that needs more space is tried again.  What has
been passed on is read off the bytes that were written (`Announcer.forwarded`).

While the device is not known, an announcement of the syncobj manager is stored for later, and
passed on all the same.  Apart from that (`Timely`), no global is passed on twice, and on the
application side the syncobj manager only when the device can share timelines
(`globals_forwarded_once`).
-/

namespace Waypipe

open Wayland LeBytes Transition Handler List

variable {reg : ObjId}

/-! ## Reading announcements -/

/-- A global as it is announced. -/
structure Global where
  name : Nat
  interface : List UInt8
  version : Nat
  deriving DecidableEq

/-- The event that announces a global. -/
def Global.bytes (reg : ObjId) (g : Global) : List UInt8 :=
  match writeEvtWlRegistryGlobal reg g.name g.interface g.version with
  | .ok w => w.bytes
  | .error _ => []

/-- The first announcement in a sequence of bytes, and what follows it. -/
def readGlobal (bytes : List UInt8) : Option (Global × List UInt8) :=
  let len := leNat ((bytes.drop 4).take 4) / 2 ^ 16
  match parseMsg (do return (← parseU32, ← parseSomeString, ← parseU32)) (bytes.take len) with
  | .ok (name, interface, version) => some ({ name, interface, version }, bytes.drop len)
  | .error _ => none

/-- At most `n` announcements. -/
def readGlobals : Nat → List UInt8 → List Global
  | 0, _ => []
  | n + 1, bytes => match readGlobal bytes with
    | some (g, rest) => g :: readGlobals n rest
    | none => []

/-- A global whose announcement can be written. -/
structure Global.Writable (reg : ObjId) (g : Global) : Prop where
  name : g.name < 2 ^ 32
  version : g.version < 2 ^ 32
  written : ∃ w, writeEvtWlRegistryGlobal reg g.name g.interface g.version = .ok w

theorem parseSomeString_writeString {s : List UInt8} (h : s.length + 1 < 2 ^ 32)
    (rest : List UInt8) : parseSomeString (writeString (some s) ++ rest) = .ok (s, rest) := by
  have hstring := parseString_writeString (s := some s) (by simpa using h) rest
  unfold parseSomeString
  simp only [bind, StateT.bind, Except.bind, hstring]
  rfl

/-- The bytes of an announcement. -/
theorem Global.Writable.bytes_eq {g : Global} (h : g.Writable reg) :
    lengthEvtWlRegistryGlobal g.interface.length < 2 ^ 16 ∧
    g.bytes reg = u32le reg ++ (u32le (lengthEvtWlRegistryGlobal g.interface.length * 2 ^ 16) ++
      (writeU32 g.name ++ (writeString (some g.interface) ++ (writeU32 g.version ++ [])))) := by
  obtain ⟨w, hw⟩ := h.written
  unfold Global.bytes
  rw [hw]
  unfold writeEvtWlRegistryGlobal writeMsg at hw
  split at hw
  · cases hw
  · next header hheader =>
    cases hw
    obtain ⟨u, hlen, hheader⟩ := Res.bind_eq_ok.mp hheader
    have hlen := assert_eq_ok.mp hlen
    simp only [Bool.and_eq_true, decide_eq_true_eq] at hlen
    cases hheader
    refine ⟨hlen.1.1, ?_⟩
    simp only [Words.bytes_append, Words.u32, Words.string, append_assoc, append_nil,
      Bool.false_eq_true, if_false, Nat.zero_mul, Nat.add_zero]

/-- What is written is read again. -/
theorem readGlobal_bytes {g : Global} (h : g.Writable reg) (rest : List UInt8) :
    readGlobal (g.bytes reg ++ rest) = some (g, rest) := by
  obtain ⟨hlen, hbytes⟩ := h.bytes_eq
  have hword : leNat (((g.bytes reg ++ rest).drop 4).take 4) =
      lengthEvtWlRegistryGlobal g.interface.length * 2 ^ 16 := by
    rw [hbytes, append_assoc, drop_left' (length_u32le _), append_assoc,
      take_left' (length_u32le _), u32le, leNat_leBytes_of_lt (by omega)]
  have hlength : (g.bytes reg).length = lengthEvtWlRegistryGlobal g.interface.length := by
    rw [hbytes]
    simp only [length_append, length_u32le, length_writeU32, length_writeString,
      length_nil, lengthEvtWlRegistryGlobal]
    omega
  have hintf : g.interface.length + 1 < 2 ^ 32 := by
    have hpad := le_align4 (g.interface.length + 1)
    simp only [lengthEvtWlRegistryGlobal, lengthString, lengthArray] at hlen
    omega
  have hargs : parseMsg (do return (← parseU32, ← parseSomeString, ← parseU32)) (g.bytes reg) =
      .ok (g.name, g.interface, g.version) := by
    unfold parseMsg
    rw [if_neg (by rw [hlength, lengthEvtWlRegistryGlobal]; omega), hbytes,
      ← append_assoc, drop_left' (by simp)]
    simp only [bind, StateT.bind, Except.bind, parseU32_writeU32 h.name,
      parseSomeString_writeString hintf, parseU32_writeU32 h.version]
    rfl
  unfold readGlobal
  rw [hword, Nat.mul_div_cancel _ (by decide)]
  dsimp only
  rw [take_left' hlength, drop_left' hlength, hargs]

theorem bytes_ne_nil {g : Global} (h : g.Writable reg) : 0 < (g.bytes reg).length := by
  rw [h.bytes_eq.2]
  simp only [length_append, length_u32le]
  omega

theorem readGlobals_flatMap {gs : List Global} (h : ∀ g ∈ gs, g.Writable reg) {n : Nat}
    (hn : (gs.flatMap (Global.bytes reg)).length ≤ n) :
    readGlobals n (gs.flatMap (Global.bytes reg)) = gs := by
  induction gs generalizing n with
  | nil =>
    cases n with
    | zero => rfl
    | succ n => simp [readGlobals, readGlobal, parseMsg]
  | cons g gs ih =>
    have hg := h g mem_cons_self
    have hpos := bytes_ne_nil hg
    rw [flatMap_cons, length_append] at hn
    cases n with
    | zero => omega
    | succ n =>
      simp only [flatMap_cons, readGlobals, readGlobal_bytes hg]
      rw [ih (fun g hg => h g (mem_cons_of_mem _ hg)) (by omega)]

/-! ## Processing announcements -/

/-- An instance while it is told about globals. -/
structure Announcer where
  glob : Globals
  /-- What has been written for the other side. -/
  written : List UInt8
  /-- The announcements that have been processed. -/
  seen : List Global
  /-- An announcement for which there was no space. -/
  trying : Option Global

/-- An event that announces a global, with the output buffer and the queues of that moment. -/
structure Announcement where
  msg : WaylandMsg
  out : Output
  transl : Transl

namespace Announcement

def ctx (e : Announcement) (glob : Globals) : Ctx := ⟨⟨glob, e.out⟩, e.transl⟩

/-- The global that is announced. -/
def global (e : Announcement) : Option Global :=
  match parseEvtWlRegistryGlobal e.msg with
  | .ok (name, interface, version) => some { name, interface, version }
  | .error _ => none

end Announcement

namespace Announcer

def start (glob : Globals) : Announcer where
  glob
  written := []
  seen := []
  trying := none

def step (sys : System) (s : Announcer) (e : Announcement) : Option Announcer :=
  match processWayMsg sys e.msg (e.ctx s.glob) with
  | .ok (p, c) => some {
      glob := c.glob
      written := s.written ++ c.core.out.data.drop e.out.data.length
      seen := if p = .done then s.seen ++ e.global.toList else s.seen
      trying := if p = .done then none else e.global }
  | .error _ => none

/-- The globals that have been passed on. -/
def forwarded (s : Announcer) : List Global := readGlobals s.written.length s.written

/-- The announcements of the syncobj manager that are stored. -/
def stored (reg : ObjId) (s : Announcer) : List (Nat × Nat) :=
  (((s.glob.extra? reg).bind WpExtra.registryData?).map ObjWlRegistry.syncobjManagerReplay).getD []

/-- A registry of which nothing is known yet. -/
structure Fresh (reg : ObjId) (glob : Globals) : Prop where
  registry : glob.objects.lookup reg = some {
    objType := .wlRegistry, extra := .wlRegistry { syncobjManagerReplay := [] } }

/-- The event announces a global of the registry: the one that is to be tried again, or one with a
new name. -/
structure Announces (reg : ObjId) (s : Announcer) (e : Announcement) : Prop where
  registry : e.msg.objectId = reg
  opcode : WaylandMsg.opcode e.msg = 0
  isEvent : (e.ctx s.glob).isReq = false
  global : ∃ g, e.global = some g ∧ (∀ f ∈ s.seen, f.name ≠ g.name) ∧
    ∀ f ∈ s.trying, f = g

instance (reg : ObjId) (s : Announcer) (e : Announcement) : Decidable (Announces reg s e) :=
  decidable_of_iff (e.msg.objectId = reg ∧ WaylandMsg.opcode e.msg = 0 ∧
    (e.ctx s.glob).isReq = false ∧ e.global.any fun g =>
      (∀ f ∈ s.seen, f.name ≠ g.name) ∧ s.trying.all (· = g)) <| by
    constructor
    · rintro ⟨hreg, hop, hevent, hglobal⟩
      obtain ⟨g, hg, hok⟩ := Option.any_eq_true _ _ |>.mp hglobal
      simp only [decide_eq_true_eq] at hok
      refine ⟨hreg, hop, hevent, g, hg, hok.1, fun f hf => ?_⟩
      have htry := hok.2
      rw [Option.mem_def.mp hf] at htry
      simpa using htry
    · rintro ⟨hreg, hop, hevent, g, hg, hnew, htry⟩
      refine ⟨hreg, hop, hevent, ?_⟩
      rw [hg]
      cases hs : s.trying with
      | none => simpa using hnew
      | some f =>
        have := htry f hs
        subst this
        simpa using hnew

/-- On the application side, the syncobj manager is not announced before the device is known; and
nothing is stored when DMABUFs are announced. -/
def Timely (reg : ObjId) (s : Announcer) (e : Announcement) : Prop :=
  ∀ g ∈ e.global,
    (g.interface = WP_LINUX_DRM_SYNCOBJ_MANAGER_V1 → s.glob.onDisplaySide = false →
      s.glob.dmabufDevice.isUnknown = false) ∧
    (g.interface = ZWP_LINUX_DMABUF_V1 → s.stored reg = [])

instance (reg : ObjId) (s : Announcer) (e : Announcement) : Decidable (Timely reg s e) := by
  unfold Timely
  infer_instance

end Announcer

/-! ## What an announcement does -/

/-- The words of an announcement are words. -/
theorem parseEvtWlRegistryGlobal_lt {msg : WaylandMsg} {name version : Nat} {intf : List UInt8}
    (h : parseEvtWlRegistryGlobal msg = .ok (name, intf, version)) :
    name < 2 ^ 32 ∧ version < 2 ^ 32 := by
  refine parseArgs_post (P := fun a : Nat × List UInt8 × Nat => a.1 < 2 ^ 32 ∧ a.2.2 < 2 ^ 32) ?_ h
  simp only [Post.bind_iff, Post.pure_iff]
  exact post_parseU32 fun _ _ hname _ _ _ => post_parseU32 fun _ _ hversion => ⟨hname, hversion⟩

/-- The same registry with the same stored announcements, and the same side and options. -/
structure SameRegistry (reg : ObjId) (r : ObjWlRegistry) (g g' : Globals) : Prop where
  side : g'.onDisplaySide = g.onDisplaySide
  opts : g'.opts = g.opts
  registry : g'.objects.lookup reg = some { objType := .wlRegistry, extra := .wlRegistry r }

/-- What an announcement of `a` does: nothing is sent, or `a` itself with a version that is
understood; the device is only set up for DMABUFs; and announcements are only stored for the syncobj
manager, while the device is unknown. -/
structure Announced (sys : System) (reg : ObjId) (r : ObjWlRegistry) (a : Global) (c : Ctx)
    (p : ProcMsg) (c' : Ctx) (sent : List Global) : Prop where
  out : c'.core.out.data = c.core.out.data ++ sent.flatMap (Global.bytes reg)
  sent : ∀ g ∈ sent, p = .done ∧ sent = [g] ∧ g.name = a.name ∧ g.interface = a.interface ∧
    g.Writable reg ∧ blacklist.contains a.interface = false ∧
    (a.interface = WP_LINUX_DRM_SYNCOBJ_MANAGER_V1 → c.glob.dmabufDevice.isUnknown = true ∨
      timelinesUsable sys c.glob = .ok true)
  device : c'.glob.dmabufDevice = c.glob.dmabufDevice ∨
    c.glob.dmabufDevice.isUnknown = true ∧ a.interface = ZWP_LINUX_DMABUF_V1
  glob : ∃ r', SameRegistry reg r' c.glob c'.glob ∧
    (r'.syncobjManagerReplay = r.syncobjManagerReplay ∨
      a.interface = WP_LINUX_DRM_SYNCOBJ_MANAGER_V1 ∧ c.glob.dmabufDevice.isUnknown = true)

section

variable {sys : System} {q : Request} {c : Ctx} {r : ObjWlRegistry} {a : Global}

/-- Nothing is sent, and nothing changes. -/
theorem Announced.nothing (p : ProcMsg)
    (hreg : c.glob.objects.lookup q.objectId =
      some { objType := .wlRegistry, extra := .wlRegistry r }) :
    Announced sys q.objectId r a c p c [] where
  out := by simp
  sent := nofun
  device := .inl rfl
  glob := ⟨r, ⟨rfl, rfl, hreg⟩, .inl rfl⟩

/-- An announcement is written. -/
theorem bytes_of_write {g : Global} {w : Words}
    (h : writeEvtWlRegistryGlobal reg g.name g.interface g.version = .ok w) :
    [g].flatMap (Global.bytes reg) = w.bytes := by
  simp only [flatMap_singleton, Global.bytes, h]

theorem Global.lookup_setExtra {g : Globals} {o : WpObject} (x : WpExtra)
    (h : g.objects.lookup reg = some o) :
    (g.setExtra reg x).objects.lookup reg = some { o with extra := x } := by
  unfold Globals.setExtra
  rw [h]
  exact AList.lookup_insert _

theorem limitVersion_le (intf : List UInt8) (version : Nat) : limitVersion intf version ≤ version := by
  unfold limitVersion
  split
  · exact Nat.min_le_left _ _
  · exact Nat.le_refl _

/-- The global that is passed on. -/
def Global.limited (a : Global) : Global := { a with version := limitVersion a.interface a.version }

/-- The device is set up only when it is unknown; nothing else changes. -/
theorem post_setupDeviceForGlobal {g : Globals} {P : Unit → Globals → Prop}
    (h : ∀ dev, dev = g.dmabufDevice ∨ g.dmabufDevice.isUnknown = true →
      P () { g with dmabufDevice := dev }) : Post (setupDeviceForGlobal sys) g P := by
  unfold setupDeviceForGlobal setDevice
  simp only [Post.bind_iff, post_getGlob, Post.ite_iff, Post.lift_iff, post_modifyGlob, Post.pure_iff,
    Bool.and_eq_true]
  refine ⟨fun hunknown node _ dev _ _ _ => h dev (.inr hunknown.1), fun _ => ?_⟩
  exact h g.dmabufDevice (.inl rfl)

section Handlers

variable (hname : a.name < 2 ^ 32) (hversion : a.version < 2 ^ 32)

include hname hversion

/-- The announcement is passed on, with a version that is understood. -/
theorem Announced.written {c' : Ctx} {w : Words} {r' : ObjWlRegistry}
    (hw : writeEvtWlRegistryGlobal q.objectId a.name a.interface
      (limitVersion a.interface a.version) = .ok w)
    (hout : c'.core.out.data = c.core.out.data ++ w.bytes)
    (hblack : blacklist.contains a.interface = false)
    (hsync : a.interface = WP_LINUX_DRM_SYNCOBJ_MANAGER_V1 →
      c.glob.dmabufDevice.isUnknown = true ∨ timelinesUsable sys c.glob = .ok true)
    (hdevice : c'.glob.dmabufDevice = c.glob.dmabufDevice ∨
      c.glob.dmabufDevice.isUnknown = true ∧ a.interface = ZWP_LINUX_DMABUF_V1)
    (hreg : SameRegistry q.objectId r' c.glob c'.glob)
    (hreplay : r'.syncobjManagerReplay = r.syncobjManagerReplay) :
    ∃ sent, Announced sys q.objectId r a c .done c' sent := by
  refine ⟨[a.limited], ?_, forall_mem_singleton.mpr ?_, hdevice, r', hreg, .inl hreplay⟩
  · rw [bytes_of_write hw]
    exact hout
  · have hle := limitVersion_le a.interface a.version
    exact ⟨rfl, rfl, rfl, rfl, ⟨hname, Nat.lt_of_le_of_lt hle hversion, w, hw⟩, hblack, hsync⟩

variable (hreg : c.glob.objects.lookup q.objectId =
  some { objType := .wlRegistry, extra := .wlRegistry r })

include hreg

theorem forwardGlobal_announced {intf : List UInt8} (hintf : a.interface = intf)
    (hblack : blacklist.contains a.interface = false)
    (hsync : a.interface = WP_LINUX_DRM_SYNCOBJ_MANAGER_V1 →
      c.glob.dmabufDevice.isUnknown = true ∨ timelinesUsable sys c.glob = .ok true) :
    (forwardGlobal q a.name intf (limitVersion intf a.version)).Ensures c fun p c' =>
      ∃ sent, Announced sys q.objectId r a c p c' sent := by
  subst hintf
  unfold forwardGlobal
  simp only [Ensures.needs_iff, Ensures.act_iff, post_emitMsg]
  refine ⟨fun _ w hw out hout => ?_, fun _ => ⟨[], .nothing _ hreg⟩⟩
  exact Announced.written hname hversion hw (Output.write_data hout) hblack hsync (.inl rfl)
    ⟨rfl, rfl, hreg⟩ rfl

theorem globalDmabuf_announced (hintf : a.interface = ZWP_LINUX_DMABUF_V1)
    (hreplay : r.syncobjManagerReplay = []) :
    (globalDmabuf sys q a.name (limitVersion a.interface a.version)).Ensures c fun p c' =>
      ∃ sent, Announced sys q.objectId r a c p c' sent := by
  have hblack : blacklist.contains ZWP_LINUX_DMABUF_V1 = false := by decide +kernel
  have hne : ZWP_LINUX_DMABUF_V1 ≠ WP_LINUX_DRM_SYNCOBJ_MANAGER_V1 := by decide +kernel
  unfold globalDmabuf
  rw [Ensures.first_iff]
  refine post_setupDeviceForGlobal fun dev hdev => ?_
  have hdevice : dev = c.glob.dmabufDevice ∨
      c.glob.dmabufDevice.isUnknown = true ∧ a.interface = ZWP_LINUX_DMABUF_V1 :=
    hdev.imp_right fun h => ⟨h, hintf⟩
  -- when nothing is sent, only the device has changed
  have hnothing : ∀ p, ∃ sent, Announced sys q.objectId r a c p
      (c.setGlob { c.glob with dmabufDevice := dev }) sent := fun p =>
    ⟨[], by simp [Ctx.setGlob], nofun, hdevice, r, ⟨rfl, rfl, hreg⟩, .inl rfl⟩
  rw [Ensures.looking_iff]
  intro unavailable _
  split
  · exact Ensures.drop_iff.mpr (hnothing _)
  · rw [Ensures.looking_iff]
    intro replay hlook
    have hlook : replay = [] := by
      obtain ⟨reg', hreg', hret⟩ := Res.bind_eq_ok.mp hlook
      obtain ⟨x, hx, hkind⟩ := Globals.extraOf_eq_ok.mp hreg'
      have hx' : (c.glob.objects.lookup q.objectId).map WpObject.extra = some x := hx
      rw [hreg] at hx'
      cases hx'
      cases hkind
      cases hret
      exact hreplay
    subst hlook
    unfold replaySyncobjManagers
    simp only [Ensures.needs_iff, Ensures.act_iff, Post.bind_iff, post_emitMsg, post_act,
      post_getGlob, post_res, post_setExtra, Post.ite_iff, Post.pure_iff]
    refine ⟨fun _ w hw out hout supported _ => ?_, fun _ => hnothing _⟩
    rw [← hintf] at hw
    have hsent : ∃ sent, Announced sys q.objectId r a c .done ⟨⟨({ c.glob with
        dmabufDevice := dev } : Globals).setExtra q.objectId
          (.wlRegistry { syncobjManagerReplay := [] }),
        out⟩, c.transl⟩ sent := by
      refine Announced.written hname hversion hw (Output.write_data hout) (hintf ▸ hblack)
        (fun hsync => absurd (hintf.symm.trans hsync) hne) ?_ ⟨?_, ?_, ?_⟩ hreplay.symm
      · rw [Globals.setExtra_eq]
        exact hdevice
      · rw [Globals.setExtra_eq]
      · rw [Globals.setExtra_eq]
      · exact Global.lookup_setExtra _ (o := { objType := .wlRegistry, extra := .wlRegistry r }) hreg
    exact ⟨fun _ => Post.pure_iff.mpr hsent, fun _ => hsent⟩

theorem globalSyncobjManager_announced (hintf : a.interface = WP_LINUX_DRM_SYNCOBJ_MANAGER_V1) :
    (globalSyncobjManager sys q a.name (limitVersion a.interface a.version)).Ensures c fun p c' =>
      ∃ sent, Announced sys q.objectId r a c p c' sent := by
  have hblack : blacklist.contains a.interface = false := by
    rw [hintf]
    decide +kernel
  unfold globalSyncobjManager storeSyncobjManager
  rw [Ensures.looking_iff]
  intro unknown hunknown
  have hunknown : c.glob.dmabufDevice.isUnknown = unknown := by
    cases hunknown
    rfl
  split
  · next hyes =>
    have hyes := hunknown.trans hyes
    simp only [Ensures.first_iff, Post.bind_iff, post_extraOf, post_setExtra]
    intro x reg' _ _
    -- the announcement is stored, and then passed on from the state that has it
    have hdevice : ∀ x, (c.glob.setExtra q.objectId x).dmabufDevice = c.glob.dmabufDevice := fun x => by
      rw [Globals.setExtra_eq]
    have hforward : ∀ r', (forwardGlobal q a.name a.interface
        (limitVersion a.interface a.version)).Ensures
          (c.setGlob (c.glob.setExtra q.objectId (.wlRegistry r'))) fun p c' =>
            ∃ sent, Announced sys q.objectId r' a _ p c' sent := fun r' =>
      forwardGlobal_announced hname hversion (Global.lookup_setExtra _ hreg) rfl hblack
        fun _ => .inl ((congrArg _ (hdevice _)).trans hyes)
    rw [← hintf]
    intro p c' hrun
    obtain ⟨sent, ha⟩ := hforward _ p c' hrun
    refine ⟨sent, ha.out, ?_, ?_, ?_⟩
    · intro g hg
      obtain ⟨h₁, h₂, h₃, h₄, h₅, h₆, -⟩ := ha.sent g hg
      exact ⟨h₁, h₂, h₃, h₄, h₅, h₆, fun _ => .inl hyes⟩
    · rcases ha.device with hdev | ⟨-, hdmabuf⟩
      · exact .inl (hdev.trans (hdevice _))
      · exact .inr ⟨hyes, hdmabuf⟩
    · obtain ⟨r', hr', -⟩ := ha.glob
      refine ⟨r', ⟨hr'.side.trans ?_, hr'.opts.trans ?_, hr'.registry⟩, .inr ⟨hintf, hyes⟩⟩
      · show (c.glob.setExtra _ _).onDisplaySide = _
        rw [Globals.setExtra_eq]
      · show (c.glob.setExtra _ _).opts = _
        rw [Globals.setExtra_eq]
  · rw [Ensures.looking_iff]
    intro usable husable
    split
    · next hyes =>
      rw [← hintf]
      exact forwardGlobal_announced hname hversion hreg rfl hblack fun _ => .inr (hyes ▸ husable)
    · exact Ensures.drop_iff.mpr ⟨[], .nothing _ hreg⟩

end Handlers

theorem wlRegistryGlobal_announced
    (hparse : parseEvtWlRegistryGlobal q.msg = .ok (a.name, a.interface, a.version))
    (hreplay : a.interface = ZWP_LINUX_DMABUF_V1 → r.syncobjManagerReplay = [])
    (hreg : c.glob.objects.lookup q.objectId =
      some { objType := .wlRegistry, extra := .wlRegistry r }) :
    (wlRegistryGlobal sys q).Ensures c fun p c' =>
      ∃ sent, Announced sys q.objectId r a c p c' sent := by
  obtain ⟨hname, hversion⟩ := parseEvtWlRegistryGlobal_lt hparse
  unfold wlRegistryGlobal
  rw [Ensures.parsing_iff]
  intro x hx
  cases hparse.symm.trans hx
  dsimp only
  split
  · exact Ensures.drop_iff.mpr ⟨[], .nothing _ hreg⟩
  · next hblack =>
    split
    · next hdmabuf =>
      exact globalDmabuf_announced hname hversion hreg hdmabuf (hreplay hdmabuf)
    · split
      · next hsync => exact globalSyncobjManager_announced hname hversion hreg hsync
      · next hsync =>
        exact forwardGlobal_announced hname hversion hreg rfl (by simpa using hblack)
          fun h => absurd h hsync

/-- An event of a tracked object is processed by its handler. -/
theorem processWayMsg_event {msg : WaylandMsg} {c : Ctx} {p : ProcMsg} {c' : Ctx} {o : WpObject}
    {meth : WaylandMethod} (h : processWayMsg sys msg c = .ok (p, c'))
    (hobj : c.glob.objects.lookup msg.objectId = some o) (hreq : c.isReq = false)
    (hmeth : o.objType.method (.event (WaylandMsg.opcode msg)) = some meth) :
    handlerOf sys o.objType (.event (WaylandMsg.opcode msg)) (requestOf msg c meth) c =
      .ok (p, c') := by
  have hdispatch := dispatch_of_processWayMsg sys h
  unfold dispatch at hdispatch
  rw [methodOf_event hobj hreq hmeth] at hdispatch
  exact hdispatch

namespace Announcer

variable {reg : ObjId} {s t : Announcer}

/-- The invariant: what has been passed on was announced, once, and may be passed on. -/
structure Sound (sys : System) (reg : ObjId) (glob : Globals) (s : Announcer) : Prop where
  side : s.glob.onDisplaySide = glob.onDisplaySide
  registry : ∃ r, s.glob.objects.lookup reg =
    some { objType := .wlRegistry, extra := .wlRegistry r } ∧
    (glob.onDisplaySide = false → r.syncobjManagerReplay = [])
  seen : (s.seen.map Global.name).Nodup
  device : s.glob.dmabufDevice.isUnknown = false →
    s.glob.dmabufDevice = glob.dmabufDevice ∨
      ∃ g, g.interface = ZWP_LINUX_DMABUF_V1 ∧ (g ∈ s.seen ∨ g ∈ s.trying)
  sent : ∃ gs : List Global, s.written = gs.flatMap (Global.bytes reg) ∧
    (gs.map Global.name).Nodup ∧ ∀ g ∈ gs, g.Writable reg ∧ blacklist.contains g.interface = false ∧
      (∃ f ∈ s.seen, f.name = g.name ∧ f.interface = g.interface) ∧
      (glob.onDisplaySide = false → g.interface = WP_LINUX_DRM_SYNCOBJ_MANAGER_V1 →
        s.glob.dmabufDevice.isUnknown = false ∧ timelinesUsable sys s.glob = .ok true ∧
        (s.glob.dmabufDevice = glob.dmabufDevice ∨
          ∃ f ∈ s.seen, f.interface = ZWP_LINUX_DMABUF_V1))

variable {glob : Globals}

theorem sound_start (h : Fresh reg glob) : Sound sys reg glob (start glob) where
  side := rfl
  registry := ⟨_, h.registry, fun _ => rfl⟩
  seen := nodup_nil
  device _ := .inl rfl
  sent := ⟨[], rfl, nodup_nil, nofun⟩

/-- Whether timelines can be used depends on the device and the options. -/
theorem timelinesUsable_congr {g g' : Globals} (hdev : g'.dmabufDevice = g.dmabufDevice)
    (hopts : g'.opts = g.opts) : timelinesUsable sys g' = timelinesUsable sys g := by
  unfold timelinesUsable
  rw [hdev, hopts]

/-- A step processes an announcement, which is then seen or still to be tried. -/
theorem step_announced {e : Announcement} {r : ObjWlRegistry} (ha : Announces reg s e)
    (hreg : s.glob.objects.lookup reg = some { objType := .wlRegistry, extra := .wlRegistry r })
    (ht : Timely reg s e) (hstep : s.step sys e = some t) :
    ∃ a p c sent, e.global = some a ∧ (∀ f ∈ s.seen, f.name ≠ a.name) ∧ (∀ f ∈ s.trying, f = a) ∧
      Announced sys reg r a (e.ctx s.glob) p c sent ∧ t.glob = c.glob ∧
      t.written = s.written ++ sent.flatMap (Global.bytes reg) ∧
      (p = .done ∧ t.seen = s.seen ++ [a] ∨
        p ≠ .done ∧ t.seen = s.seen ∧ t.trying = some a) := by
  obtain ⟨a, hglobal, hnew, htry⟩ := ha.global
  obtain ⟨hparse, hfields⟩ : ∃ x, parseEvtWlRegistryGlobal e.msg = .ok x ∧
      x = (a.name, a.interface, a.version) := by
    unfold Announcement.global at hglobal
    split at hglobal
    · next name intf version hx =>
      cases hglobal
      exact ⟨_, hx, rfl⟩
    · cases hglobal
  unfold step at hstep
  split at hstep
  · next p c hrun =>
    cases hstep
    have hobj : (e.ctx s.glob).glob.objects.lookup e.msg.objectId =
        some { objType := .wlRegistry, extra := .wlRegistry r } := by
      rw [ha.registry]
      exact hreg
    have hmeth : ∃ meth, WaylandInterface.wlRegistry.method (.event 0) = some meth := ⟨_, rfl⟩
    obtain ⟨meth, hmeth⟩ := hmeth
    have hhandler := processWayMsg_event hrun hobj ha.isEvent (by rw [ha.opcode]; exact hmeth)
    rw [ha.opcode] at hhandler
    have hreplay : a.interface = ZWP_LINUX_DMABUF_V1 → r.syncobjManagerReplay = [] := by
      intro hdmabuf
      have hstored := (ht a hglobal).2 hdmabuf
      unfold stored Globals.extra? at hstored
      rw [hreg] at hstored
      exact hstored
    obtain ⟨sent, hsent⟩ := wlRegistryGlobal_announced (hfields.1.trans (congrArg _ hfields.2)) hreplay
      hobj p c hhandler
    have hreg' : (requestOf e.msg (e.ctx s.glob) meth).objectId = reg := ha.registry
    rw [hreg'] at hsent
    refine ⟨a, p, c, sent, hglobal, hnew, htry, hsent, rfl, ?_, ?_⟩
    · show s.written ++ c.core.out.data.drop e.out.data.length = _
      rw [hsent.out]
      exact congrArg _ (drop_left)
    · by_cases hp : p = .done
      · exact .inl ⟨hp, by simp only [hp, if_true, hglobal, Option.toList_some]⟩
      · exact .inr ⟨hp, by simp only [hp, if_false], by simp only [hp, if_false, hglobal]⟩
  · cases hstep

theorem sound_step {e : Announcement} (h : Sound sys reg glob s) (ha : Announces reg s e)
    (ht : Timely reg s e) (hstep : s.step sys e = some t) : Sound sys reg glob t := by
  obtain ⟨r, hreg, hempty⟩ := h.registry
  obtain ⟨a, p, c, sent, hglobal, hnew, htry, hann, hglob, hwritten, hend⟩ :=
    step_announced ha hreg ht hstep
  obtain ⟨r', hr', hreplay⟩ := hann.glob
  -- the announcement is not lost
  obtain ⟨hseen, hkept, hmem, hnodup⟩ : (∀ f ∈ s.seen, f ∈ t.seen) ∧ (a ∈ t.seen ∨ a ∈ t.trying) ∧
      (p = .done → a ∈ t.seen) ∧ (t.seen.map Global.name).Nodup := by
    rcases hend with ⟨-, hs⟩ | ⟨hp, hs, htrying⟩
    · have ha : a ∈ t.seen := by simp [hs]
      refine ⟨fun f hf => by simp [hs, hf], .inl ha, fun _ => ha, ?_⟩
      rw [hs, map_append, nodup_append]
      exact ⟨h.seen, nodup_singleton _, by simpa using hnew⟩
    · rw [hs, htrying]
      exact ⟨fun _ hf => hf, .inr rfl, fun hdone => absurd hdone hp, h.seen⟩
  -- a device that is known does not change
  have hdevice : s.glob.dmabufDevice.isUnknown = false → t.glob.dmabufDevice = s.glob.dmabufDevice := by
    intro hknown
    rw [hglob]
    rcases hann.device with hdev | ⟨hunknown, -⟩
    · exact hdev
    · exact absurd (hunknown.symm.trans hknown) (by decide)
  have husable : s.glob.dmabufDevice.isUnknown = false →
      timelinesUsable sys t.glob = timelinesUsable sys s.glob := fun hknown =>
    timelinesUsable_congr (hdevice hknown) (by rw [hglob]; exact hr'.opts)
  have hsync : glob.onDisplaySide = false → a.interface = WP_LINUX_DRM_SYNCOBJ_MANAGER_V1 →
      s.glob.dmabufDevice.isUnknown = false := fun hside hintf =>
    (ht a hglobal).1 hintf (h.side.trans hside)
  refine ⟨?_, ⟨r', by rw [hglob]; exact hr'.registry, fun hside => ?_⟩, hnodup, fun hknown => ?_, ?_⟩
  · rw [hglob]
    exact hr'.side.trans h.side
  · rcases hreplay with hsame | ⟨hintf, hunknown⟩
    · rw [hsame]
      exact hempty hside
    · exact absurd (hunknown.symm.trans (hsync hside hintf)) (by decide)
  · by_cases hbefore : s.glob.dmabufDevice.isUnknown = false
    · rw [hdevice hbefore]
      rcases h.device hbefore with hdev | ⟨g, hg, hg' | hg'⟩
      · exact .inl hdev
      · exact .inr ⟨g, hg, .inl (hseen g hg')⟩
      · cases htry g hg'
        exact .inr ⟨a, hg, hkept⟩
    · rcases hann.device with hdev | ⟨-, hdmabuf⟩
      · rw [hglob, hdev] at hknown
        exact absurd hknown hbefore
      · exact .inr ⟨a, hdmabuf, hkept⟩
  · obtain ⟨gs, hgs, hnodup, hall⟩ := h.sent
    refine ⟨gs ++ sent, by rw [hwritten, hgs, flatMap_append], ?_,
      forall_mem_append.mpr ⟨fun g hg => ?_, fun g hg => ?_⟩⟩
    · rw [map_append, nodup_append]
      refine ⟨hnodup, ?_, ?_⟩
      · cases sent with
        | nil => exact nodup_nil
        | cons g gs' =>
          rw [(hann.sent g mem_cons_self).2.1]
          exact nodup_singleton _
      · intro x hx y hy
        obtain ⟨g, hg, rfl⟩ := mem_map.mp hx
        obtain ⟨g', hg', rfl⟩ := mem_map.mp hy
        obtain ⟨f, hf, hfg, -⟩ := (hall g hg).2.2.1
        rw [← hfg, (hann.sent g' hg').2.2.1]
        exact hnew f hf
    · obtain ⟨hw, hblack, ⟨f, hf, hfg⟩, hsyncg⟩ := hall g hg
      refine ⟨hw, hblack, ⟨f, hseen f hf, hfg⟩, fun hside hintf => ?_⟩
      obtain ⟨hknown, hus, hdmabuf⟩ := hsyncg hside hintf
      refine ⟨by rw [hdevice hknown]; exact hknown, (husable hknown).trans hus, ?_⟩
      rw [hdevice hknown]
      exact hdmabuf.imp_right fun ⟨f', hf', hintf'⟩ => ⟨f', hseen f' hf', hintf'⟩
    · obtain ⟨hdone, -, hname, hintf', hw, hblack, hus⟩ := hann.sent g hg
      refine ⟨hw, by rw [hintf']; exact hblack, ⟨a, hmem hdone, hname.symm, hintf'.symm⟩, ?_⟩
      intro hside hintf
      have hintf := hintf'.symm.trans hintf
      have hknown := hsync hside hintf
      have hus : timelinesUsable sys s.glob = .ok true := by
        rcases hus hintf with hunknown | hus
        · exact absurd (hunknown.symm.trans hknown) (by decide)
        · exact hus
      refine ⟨by rw [hdevice hknown]; exact hknown, (husable hknown).trans hus, ?_⟩
      have hne : WP_LINUX_DRM_SYNCOBJ_MANAGER_V1 ≠ ZWP_LINUX_DMABUF_V1 := by decide +kernel
      rcases h.device hknown with hdev | ⟨f, hf, hf' | hf'⟩
      · exact .inl ((hdevice hknown).trans hdev)
      · exact .inr ⟨f, hseen f hf', hf⟩
      · cases htry f hf'
        exact absurd (hintf.symm.trans hf) hne

theorem sound_run {es : List Announcement} (hfresh : Fresh reg glob)
    (hann : Along (step sys) (Announces reg) (start glob) es)
    (htimely : Along (step sys) (Timely reg) (start glob) es)
    (hrun : run (step sys) (start glob) es = some s) : Sound sys reg glob s :=
  run_invariant (fun _ _ _ h hC hstep => sound_step h hC.1 hC.2 hstep) (sound_start hfresh)
    (hann.and htimely) hrun

/-- Globals are passed on at most once each, and only if they may be.  For every sequence of
announcements with new names on a fresh registry, with any devices and any number of attempts for
lack of space: if the syncobj manager is announced in time, then no name is passed on twice, nothing
is passed on that was not announced or that is never to be passed on, and on the application side
the syncobj manager is passed on only with a device that is known and can share timelines, and, if
there was no such device before, only once DMABUFs have been announced. -/
theorem globals_forwarded_once (sys : System) (reg : ObjId) (glob : Globals)
    (es : List Announcement) (s : Announcer) (hfresh : Fresh reg glob)
    (hann : Along (step sys) (Announces reg) (start glob) es)
    (htimely : Along (step sys) (Timely reg) (start glob) es)
    (hrun : run (step sys) (start glob) es = some s) :
    (s.forwarded.map Global.name).Nodup ∧
    (∀ g ∈ s.forwarded, blacklist.contains g.interface = false ∧
      ∃ f ∈ s.seen, f.name = g.name ∧ f.interface = g.interface) ∧
    (glob.onDisplaySide = false → ∀ g ∈ s.forwarded,
      g.interface = WP_LINUX_DRM_SYNCOBJ_MANAGER_V1 →
        s.glob.dmabufDevice.isUnknown = false ∧ timelinesUsable sys s.glob = .ok true ∧
        (glob.dmabufDevice = .unknown ∨ glob.dmabufDevice = .unavailable →
          ∃ f ∈ s.seen, f.interface = ZWP_LINUX_DMABUF_V1)) := by
  obtain ⟨gs, hgs, hnodup, hall⟩ := (sound_run hfresh hann htimely hrun).sent
  have hforwarded : s.forwarded = gs := by
    unfold forwarded
    rw [hgs]
    exact readGlobals_flatMap (fun g hg => (hall g hg).1) (Nat.le_refl _)
  rw [hforwarded]
  refine ⟨hnodup, fun g hg => ⟨(hall g hg).2.1, (hall g hg).2.2.1⟩, fun hside g hg hintf => ?_⟩
  obtain ⟨hknown, hus, hdmabuf⟩ := (hall g hg).2.2.2 hside hintf
  refine ⟨hknown, hus, fun hdev => hdmabuf.resolve_left fun hsame => ?_⟩
  -- a device that is unknown or missing cannot share timelines
  unfold timelinesUsable at hus
  rcases hdev with hdev | hdev
  · rw [hsame, hdev] at hknown
    cases hknown
  · rw [hsame, hdev] at hus
    cases hus

/-- A system with a device that can share timelines. -/
def timelineSystem : System :=
  { System.headless with setupVulkanInstance := fun _ => .ok (some {
      hasDevice := fun _ => true, deviceSupportsTimelineImportExport := fun _ => true }) }

/-- The application side with a registry as object 2. -/
def registryGlobals : Globals :=
  (Globals.start false { Options.plain with noGpu := false }).withObject 2
    { objType := .wlRegistry, extra := .wlRegistry { syncobjManagerReplay := [] } }

/-- The announcement of an interface, with an output buffer of the given size. -/
def announcement (name : Nat) (intf : WaylandInterface) (version capacity : Nat) :
    Announcement where
  msg := WaylandMsg.make 2 0 (.u32 name ++ .string intf.name ++ .u32 version)
  out := .empty capacity
  transl := .fromChannel [] []

def dmabufAnnounced (capacity : Nat) : Announcement :=
  announcement 1 .zwpLinuxDmabufV1 4 capacity

def syncobjAnnounced : Announcement := announcement 2 .wpLinuxDrmSyncobjManagerV1 1 4096

/-- DMABUFs are announced when there is no space, and again; then the syncobj manager. -/
def timelyEvents : List Announcement :=
  [dmabufAnnounced 0, dmabufAnnounced 4096, syncobjAnnounced]

theorem registryGlobals_fresh : Fresh 2 registryGlobals := ⟨AList.lookup_insert _⟩

theorem globals_forwarded_once_timely :
    ∃ s, run (step timelineSystem) (start registryGlobals) timelyEvents = some s ∧
      s.forwarded.map Global.name = [1, 2] ∧ (s.forwarded.map Global.name).Nodup := by
  have hdecided : Along (step timelineSystem) (Announces 2) (start registryGlobals) timelyEvents ∧
      Along (step timelineSystem) (Timely 2) (start registryGlobals) timelyEvents ∧
      (run (step timelineSystem) (start registryGlobals) timelyEvents).map
        (fun s => s.forwarded.map Global.name) = some [1, 2] := by decide +kernel
  obtain ⟨hann, htimely, hnames⟩ := hdecided
  obtain ⟨s, hrun, hnames⟩ := Option.map_eq_some_iff.mp hnames
  exact ⟨s, hrun, hnames, (globals_forwarded_once timelineSystem 2 registryGlobals timelyEvents s
    registryGlobals_fresh hann htimely hrun).1⟩

/-- The syncobj manager is announced before DMABUFs.  It is passed on at once, when nothing is known
of a device, and again after DMABUFs have been announced. -/
theorem syncobj_forwarded_twice :
    Fresh 2 registryGlobals ∧ registryGlobals.dmabufDevice = .unknown ∧
    Along (step timelineSystem) (Announces 2) (start registryGlobals)
      [syncobjAnnounced, dmabufAnnounced 4096] ∧
    (run (step timelineSystem) (start registryGlobals) [syncobjAnnounced]).map
      (fun s => (s.forwarded.map Global.interface, s.seen.map Global.interface)) =
      some ([WP_LINUX_DRM_SYNCOBJ_MANAGER_V1], [WP_LINUX_DRM_SYNCOBJ_MANAGER_V1]) ∧
    (run (step timelineSystem) (start registryGlobals)
      [syncobjAnnounced, dmabufAnnounced 4096]).map (fun s => s.forwarded.map Global.name) =
      some [2, 1, 2] := by
  refine ⟨registryGlobals_fresh, rfl, ?_⟩
  decide +kernel

end Announcer

end

end Waypipe
