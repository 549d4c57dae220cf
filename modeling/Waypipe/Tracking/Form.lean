import Waypipe.Lib.Links
import Waypipe.Tracking.ObjectMap

/-!
# The form of a handler

`Form Q n early h` is a judgement on handlers, with one rule for each piece that a handler is made
of.  It collects at once what the properties of `processWayMsg` need to know about a handler: from
states with `Q` it takes `n` file descriptors off the queue and never waits, and it changes the
tracked state before its last check only if `early` holds.  The theorems about `Form` give these
facts; which form each handler has is established in `Tracking.HandlerForms`.
-/

namespace Waypipe

open Wayland

/-! ## What the pieces leave alone -/

/-- The file descriptors that have come in from the Wayland connection. -/
def Ctx.fdsIn (c : Ctx) : List Fd :=
  match c.transl with
  | .fromWayland fds _ => fds
  | .fromChannel _ _ => []

/-- From Wayland, exactly `n` descriptors have been taken off the queue. -/
def Popped (n : Nat) (s t : Ctx) : Prop :=
  s.transl.isFromChannel = false →
    t.transl.isFromChannel = false ∧ n ≤ s.fdsIn.length ∧ t.fdsIn = s.fdsIn.drop n

theorem Popped.refl (s : Ctx) : Popped 0 s s := fun h => ⟨h, Nat.zero_le _, rfl⟩

theorem Popped.trans {n k : Nat} {s t u : Ctx} (hst : Popped n s t) (htu : Popped k t u) :
    Popped (n + k) s u := by
  intro hs
  obtain ⟨ht, hn, hfds⟩ := hst hs
  obtain ⟨hu, hk, hfds'⟩ := htu ht
  rw [hfds, List.length_drop] at hk
  refine ⟨hu, by omega, ?_⟩
  rw [hfds', hfds, List.drop_drop]

theorem Popped.of_transl {s t : Ctx} (h : t.transl = s.transl) : Popped 0 s t := by
  intro hs
  unfold Ctx.fdsIn
  rw [h]
  exact ⟨hs, Nat.zero_le _, rfl⟩

theorem Popped.of_withOutgoing {s t : Ctx} {y : List SfdRef}
    (h : t.transl = s.transl.withOutgoing y) : Popped 0 s t := by
  intro hs
  unfold Ctx.fdsIn
  rw [h]
  cases hx : s.transl with
  | fromChannel sfds fds =>
    rw [hx] at hs
    cases hs
  | fromWayland fds rids => exact ⟨rfl, Nat.zero_le _, rfl⟩

/-- The same side, and the same objects up to their extra data. -/
structure SameTypes (g g' : Globals) : Prop where
  side : g'.onDisplaySide = g.onDisplaySide
  types : ∀ id, (g'.objects.lookup id).map WpObject.objType =
    (g.objects.lookup id).map WpObject.objType

theorem SameTypes.refl (g : Globals) : SameTypes g g := ⟨rfl, fun _ => rfl⟩

theorem SameTypes.trans {g g' g'' : Globals} (h : SameTypes g g') (h' : SameTypes g' g'') :
    SameTypes g g'' :=
  ⟨h'.side.trans h.side, fun id => (h'.types id).trans (h.types id)⟩

theorem SameTypes.of_eq {g g' : Globals} (hs : g'.onDisplaySide = g.onDisplaySide)
    (ho : g'.objects = g.objects) : SameTypes g g' :=
  ⟨hs, fun id => by rw [ho]⟩

theorem SameTypes.setExtra (g : Globals) (id : ObjId) (extra : WpExtra) :
    SameTypes g (g.setExtra id extra) := by
  unfold Globals.setExtra
  cases ho : g.objects.lookup id with
  | none => exact .refl g
  | some o =>
    refine ⟨rfl, fun id' => ?_⟩
    by_cases h : id' = id
    · subst h
      simp [ho]
    · simp [AList.lookup_insert_ne h]

/-- What a stall may do: change extra data and devices, but no queue and no output. -/
structure Stayed (s t : Ctx) : Prop where
  globals : SameTypes s.glob t.glob
  transl : t.transl = s.transl
  out : t.core.out = s.core.out

theorem Stayed.refl (s : Ctx) : Stayed s s := ⟨.refl _, rfl, rfl⟩

/-- A verdict to wait for a descriptor. -/
def ProcMsg.isWait : ProcMsg → Prop
  | .waitFor _ => True
  | _ => False

/-! ## The judgement -/

inductive Form : (Ctx → Prop) → Nat → Bool → Handler → Prop
  | drop {Q early} : Form Q 0 early .drop
  | act {Q early m} : Form Q 0 early (.act m)
  | actFd {Q : Ctx → Prop} {n early} {m : FdAct Unit}
      (hm : ∀ c, Q c → ∀ u c', m.run c = .ok (u, c') → Popped n c c') : Form Q n early (.actFd m)
  | looking {Q : Ctx → Prop} {n early} {α : Type} {r : Look α} {k : α → Handler}
      (hk : ∀ a, Form (fun c => Q c ∧ r.run c = .ok a) n early (k a)) :
      Form Q n early (.looking r k)
  | parsing {Q n early} {α : Type} {x : Res α} {k : α → Handler}
      (hk : ∀ a, Form Q n early (k a)) : Form Q n early (.parsing x k)
  | needs {Q n early bytes fds k} (hk : Form Q n early k) : Form Q n early (.needs bytes fds k)
  | waits {Q : Ctx → Prop} {n early k} {r : Look (Option Rid)}
      (hr : ∀ c, Q c → ∀ rid, r.run c ≠ .ok (some rid)) (hk : Form Q n early k) :
      Form Q n early (.waits r k)
  | first {Q Q' : Ctx → Prop} {n early m k}
      (hm : Links SameTypes m) (hQ : ∀ c g, Q c → Q' (c.setGlob g)) (hk : Form Q' n early k) :
      Form Q n true (.first m k)

namespace Form

variable {Q : Ctx → Prop} {n : Nat} {early : Bool} {h : Handler}

/-- The usual handler: check that there is space, then act. -/
theorem simple {bytes fds : Nat} {m : Act Unit} : Form Q 0 early (.needs bytes fds (.act m)) :=
  .needs .act

/-- Changes before the check, when nothing that follows depends on the state. -/
theorem changing {m : GlobAct Unit} {k : Handler} (hm : Links SameTypes m)
    (hk : Form (fun _ => True) n true k) : Form Q n true (.first m k) :=
  .first hm (fun _ _ _ => trivial) hk

/-! ## Consequences -/

theorem stayed (hf : Form Q n early h) : Attempt.Stalls .done Stayed h := by
  induction hf with
  | drop => exact Attempt.Stalls.stop Stayed.refl _
  | act => exact Attempt.Stalls.commit
  | actFd _ => exact Attempt.Stalls.commit
  | looking _ ih => exact Attempt.Stalls.reading ih
  | parsing _ ih => exact Attempt.Stalls.reading ih
  | needs _ ih => exact Attempt.Stalls.gate Stayed.refl ih
  | waits _ _ ih => exact Attempt.Stalls.gate Stayed.refl ih
  | first hm _ _ ih =>
    intro s p t hst hp
    obtain ⟨g, hg, hk⟩ := Handler.first_eq_ok.mp hst
    obtain ⟨hglob, htransl, hout⟩ := ih _ p t hk hp
    exact ⟨(hm _ _ _ hg).trans hglob, htransl, hout⟩

theorem stallsInPlace (hf : Form Q n false h) : Attempt.StallsInPlace .done h := by
  generalize he : false = early at hf
  induction hf with
  | drop => exact Attempt.Stalls.stop (R := fun s t => t = s) (fun _ => rfl) _
  | act => exact Attempt.Stalls.commit
  | actFd _ => exact Attempt.Stalls.commit
  | looking _ ih => exact Attempt.Stalls.reading fun a => ih a he
  | parsing _ ih => exact Attempt.Stalls.reading fun a => ih a he
  | needs _ ih => exact Attempt.Stalls.gate (fun _ => rfl) (ih he)
  | waits _ _ ih => exact Attempt.Stalls.gate (fun _ => rfl) (ih he)
  | first _ _ _ => cases he

theorem not_isWait (hf : Form Q n early h) :
    ∀ c p c', Q c → h c = .ok (p, c') → ¬ p.isWait := by
  induction hf with
  | drop =>
    intro c p c' _ hc
    cases hc
    exact id
  | act =>
    intro c p c' _ hc
    obtain ⟨_, _, hx⟩ := Handler.act_eq_ok.mp hc
    cases hx
    exact id
  | actFd _ =>
    intro c p c' _ hc
    obtain ⟨_, _, hx⟩ := Handler.actFd_eq_ok.mp hc
    cases hx
    exact id
  | looking _ ih =>
    intro c p c' hQ hc
    obtain ⟨a, ha, hk⟩ := Handler.looking_eq_ok.mp hc
    exact ih a c p c' ⟨hQ, ha⟩ hk
  | parsing _ ih =>
    intro c p c' hQ hc
    obtain ⟨a, _, hk⟩ := Handler.parsing_eq_ok.mp hc
    exact ih a c p c' hQ hk
  | needs _ ih =>
    intro c p c' hQ hc
    rcases Handler.needs_eq_ok.mp hc with ⟨_, hk⟩ | ⟨_, hx⟩
    · exact ih c p c' hQ hk
    · cases hx
      exact id
  | waits hr _ ih =>
    intro c p c' hQ hc
    rcases Handler.waits_eq_ok.mp hc with ⟨_, hk⟩ | ⟨rid, hrid, _⟩
    · exact ih c p c' hQ hk
    · exact absurd hrid (hr c hQ rid)
  | first _ hQ' _ ih =>
    intro c p c' hQ hc
    obtain ⟨g, _, hk⟩ := Handler.first_eq_ok.mp hc
    exact ih _ p c' (hQ' c g hQ) hk

theorem popped (hf : Form Q n early h) :
    ∀ c c', Q c → h c = .ok (.done, c') → Popped n c c' := by
  induction hf with
  | drop =>
    intro c c' _ hc
    cases hc
    exact .refl c
  | act =>
    intro c c' _ hc
    obtain ⟨_, _, hx⟩ := Handler.act_eq_ok.mp hc
    cases hx
    exact .of_transl rfl
  | actFd hm =>
    intro c c' hQ hc
    obtain ⟨_, hrun, hx⟩ := Handler.actFd_eq_ok.mp hc
    cases hx
    exact hm c hQ () c' hrun
  | looking _ ih =>
    intro c c' hQ hc
    obtain ⟨a, ha, hk⟩ := Handler.looking_eq_ok.mp hc
    exact ih a c c' ⟨hQ, ha⟩ hk
  | parsing _ ih =>
    intro c c' hQ hc
    obtain ⟨a, _, hk⟩ := Handler.parsing_eq_ok.mp hc
    exact ih a c c' hQ hk
  | needs _ ih =>
    intro c c' hQ hc
    rcases Handler.needs_eq_ok.mp hc with ⟨_, hk⟩ | ⟨_, hx⟩
    · exact ih c c' hQ hk
    · cases hx
  | waits _ _ ih =>
    intro c c' hQ hc
    rcases Handler.waits_eq_ok.mp hc with ⟨_, hk⟩ | ⟨_, _, hx⟩
    · exact ih c c' hQ hk
    · cases hx
  | first _ hQ' _ ih =>
    intro c c' hQ hc
    obtain ⟨g, _, hk⟩ := Handler.first_eq_ok.mp hc
    exact ih (c.setGlob g) c' (hQ' c g hQ) hk

end Form

end Waypipe
