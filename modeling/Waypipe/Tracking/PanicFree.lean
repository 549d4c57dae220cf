import Waypipe.Tracking.Actions
import Waypipe.Tracking.Dmabuf

/-!
# Actions that do not panic

The rules of `Avoids` for the actions that handlers are made of, where the errors to avoid are
panics, and the same for handlers.
-/

namespace Waypipe

open Wayland

def Fault.IsPanic : Fault → Prop
  | err _ => False
  | panic _ => True

/-- The action returns with `P`, or with an `Err`. -/
abbrev Clean {σ α : Type} (m : StateT σ Res α) (s : σ) (P : α → σ → Prop) : Prop :=
  Avoids Fault.IsPanic m s P

/-- A computation without state that does not panic. -/
def Res.Clean {α : Type} (x : Res α) : Prop := ∀ e, x = .error e → ¬ e.IsPanic

namespace Res.Clean

variable {α β : Type}

theorem ok (a : α) : Res.Clean (.ok a) := nofun

theorem err (msg : String) : Res.Clean (.error (.err msg) : Res α) := by
  rintro _ ⟨⟩
  exact id

theorem fail (msg : String) : Res.Clean (fail msg : Res α) := err msg

theorem orErr (o : Option α) (msg : String) : Res.Clean (orErr o msg) := by
  cases o with
  | some a => exact ok a
  | none => exact err msg

theorem bind {x : Res α} {f : α → Res β} (hx : x.Clean) (hf : ∀ a, x = .ok a → (f a).Clean) :
    Res.Clean (x >>= f) := by
  cases x with
  | ok a => exact hf a rfl
  | error e =>
    intro e' he'
    cases he'
    exact hx e rfl

theorem parseArgs {p : ArgParser α} {msg : WaylandMsg} : Res.Clean (parseArgs p msg) := by
  unfold Waypipe.Wayland.parseArgs
  split
  · exact ok _
  · exact err _

theorem foldlM {f : β → α → Res β} {l : List α} {b : β} (hf : ∀ b, ∀ a ∈ l, (f b a).Clean) :
    Res.Clean (l.foldlM f b) := by
  induction l generalizing b with
  | nil => exact ok b
  | cons a l ih =>
    rw [List.foldlM_cons]
    refine (hf b a List.mem_cons_self).bind fun b' _ => ?_
    exact ih fun b x hx => hf b x (List.mem_cons_of_mem a hx)

end Res.Clean

/-! ## Actions on the tracked state -/

section Globals

variable {g : Globals}

@[simp] theorem clean_getGlob {P : Globals → Globals → Prop} : Clean getGlob g P ↔ P g g := Iff.rfl

@[simp] theorem clean_modifyGlob {f : Globals → Globals} {P : Unit → Globals → Prop} :
    Clean (modifyGlob f) g P ↔ P () (f g) := Iff.rfl

@[simp] theorem clean_setExtra {id : ObjId} {x : WpExtra} {P : Unit → Globals → Prop} :
    Clean (setExtra id x) g P ↔ P () (g.setExtra id x) := Iff.rfl

theorem clean_lift {σ α : Type} {x : Res α} {s : σ} {P : α → σ → Prop} (hx : x.Clean)
    (h : ∀ a, x = .ok a → P a s) : Clean (liftM x : StateT σ Res α) s P :=
  Avoids.lift_iff.mpr ⟨h, hx⟩

theorem clean_mapM {σ α β : Type} {x : α → Res β} {l : List α} {s : σ} {P : List β → σ → Prop}
    (hx : ∀ a ∈ l, (x a).Clean) (h : ∀ bs, P bs s) :
    Clean (l.mapM fun a => (liftM (x a) : StateT σ Res β)) s P := by
  induction l generalizing P with
  | nil => exact h []
  | cons a l ih =>
    rw [List.mapM_cons]
    refine Avoids.bind_iff.mpr (clean_lift (hx a List.mem_cons_self) fun b _ => ?_)
    refine Avoids.bind_iff.mpr (ih (fun a' ha => hx a' (List.mem_cons_of_mem a ha)) fun bs => ?_)
    exact h (b :: bs)

theorem clean_extraOf {α : Type} {id : ObjId} {kind : WpExtra → Option α} {msg : String}
    {P : α → Globals → Prop} (h : ∀ x a, kind x = some a → g.extra? id = some x → P a g) :
    Clean (extraOf id kind msg) g P := by
  unfold extraOf
  simp only [Avoids.bind_iff, clean_getGlob]
  refine clean_lift (.orErr _ _) fun a ha => ?_
  obtain ⟨x, hx, hkind⟩ := Globals.extraOf_eq_ok.mp ha
  exact h x a hkind hx

theorem clean_addSfd {s : ShadowFd} {P : SfdRef → Globals → Prop}
    (h : P g.sfds.length { g with
      sfds := g.sfds ++ [s], map := g.map.insert s.remoteId g.sfds.length }) :
    Clean (addSfd s) g P := by
  unfold addSfd
  simpa using h

theorem clean_readSfd {r : SfdRef} {P : ShadowFd → Globals → Prop} {s : ShadowFd}
    (hs : g.sfds[r]? = some s) (h : P s g) : Clean (readSfd r) g P := by
  unfold readSfd Globals.sfd
  simp only [Avoids.bind_iff, clean_getGlob, hs]
  refine clean_lift (.ok s) fun a ha => ?_
  cases ha
  exact h

/-- There is an id to allocate. -/
def Globals.RidLeft (g : Globals) : Prop :=
  -2 ^ 31 ≤ g.maxLocalId + g.maxLocalId.sign ∧ g.maxLocalId + g.maxLocalId.sign < 2 ^ 31

instance (g : Globals) : Decidable g.RidLeft := inferInstanceAs (Decidable (_ ∧ _))

theorem clean_allocateRid {P : Rid → Globals → Prop} (hleft : g.RidLeft)
    (h : P g.maxLocalId { g with maxLocalId := g.maxLocalId + g.maxLocalId.sign }) :
    Clean allocateRid g P := by
  unfold allocateRid
  simp only [Avoids.bind_iff, clean_getGlob]
  split
  · next hover =>
    obtain ⟨hlow, hhigh⟩ := hleft
    rcases hover with hover | hover
    · exact absurd hover (Int.not_lt.mpr hlow)
    · exact absurd hover (Int.not_le.mpr hhigh)
  · simpa using h

end Globals

/-! ## Actions with output -/

section Core

variable {c : Core}

theorem clean_act {α : Type} {m : GlobAct α} {P : α → Core → Prop}
    (h : Clean m c.glob fun a g => P a { c with glob := g }) : Clean (liftM m : Act α) c P := by
  rw [act_eq]
  simp only [Avoids.bind_iff, Avoids.get_iff, Avoids.set_iff, Avoids.pure_iff]
  exact clean_lift (fun e he => h.run_error he) fun x hx => h.run_ok hx

theorem clean_res {α : Type} {x : Res α} {P : α → Core → Prop} (hx : x.Clean)
    (h : ∀ a, x = .ok a → P a c) : Clean (liftM x : Act α) c P :=
  clean_act (m := (liftM x : GlobAct α)) (clean_lift hx h)

theorem clean_emitMsg {w : Res Words} {v : Words} {P : Unit → Core → Prop} (hw : w = .ok v)
    (hfits : v.bytes.length ≤ c.out.space) (h : ∀ out, c.out.write v = .ok out → P () { c with out }) :
    Clean (emitMsg w) c P := by
  obtain ⟨out, hout⟩ := Output.exists_write hfits
  subst hw
  unfold emitMsg emit
  simp only [Avoids.bind_iff]
  refine clean_res (.ok v) fun a ha => ?_
  cases ha
  simp only [Avoids.get_iff]
  rw [hout]
  exact clean_res (.ok out) fun a ha => by cases ha; exact h out hout

theorem Output.space_of_write {out out' : Output} {w : Words} (h : out.write w = .ok out') :
    out'.space = out.space - w.bytes.length := by
  have hdata := Output.write_data h
  have hcap : out'.capacity = out.capacity := by
    unfold Output.write at h
    split at h
    · cases h
      rfl
    · cases h
  unfold Output.space
  rw [hdata, hcap, List.length_append]
  omega

end Core

/-! ## Actions on the queues -/

section Ctx

variable {c : Ctx}

theorem clean_liftAct {α : Type} {m : Act α} {P : α → Ctx → Prop}
    (h : Clean m c.core fun a core => P a { c with core }) : Clean (liftAct m) c P := by
  rw [liftAct_eq]
  simp only [Avoids.bind_iff, Avoids.get_iff, Avoids.set_iff, Avoids.pure_iff]
  exact clean_lift (fun e he => h.run_error he) fun x hx => h.run_ok hx

@[simp] theorem clean_pushOut {sfd : SfdRef} {P : Unit → Ctx → Prop} :
    Clean (pushOut sfd) c P ↔ P () { c with transl := c.transl.push sfd } := Iff.rfl

theorem clean_popFd {P : Fd → Ctx → Prop}
    (h : ∀ fd fds rids, c.transl = .fromWayland (fd :: fds) rids →
      P fd { c with transl := .fromWayland fds rids }) : Clean popFd c P := by
  unfold popFd
  simp only [Avoids.bind_iff, Avoids.get_iff]
  split
  · next fd fds rids htransl => exact h fd fds rids htransl
  · exact clean_lift (.fail _) fun _ ha => by cases ha

theorem clean_popSfd {missing : String} {P : SfdRef → Ctx → Prop}
    (h : ∀ sfd sfds fds, c.transl = .fromChannel (sfd :: sfds) fds →
      P sfd { c with transl := .fromChannel sfds fds }) : Clean (popSfd missing) c P := by
  unfold popSfd
  simp only [Avoids.bind_iff, Avoids.get_iff]
  split
  · next sfd sfds fds htransl => exact h sfd sfds fds htransl
  · exact clean_lift (.fail _) fun _ ha => by cases ha

end Ctx

/-! ## Handlers -/

/-- The handler returns with `P`, or with an `Err`. -/
def Handler.Clean (h : Handler) (c : Ctx) (P : ProcMsg → Ctx → Prop) : Prop :=
  match h c with
  | .ok (p, c') => P p c'
  | .error e => ¬ e.IsPanic

namespace Handler.Clean

variable {α : Type} {k : Handler} {c : Ctx} {P : ProcMsg → Ctx → Prop}

theorem act {m : Act Unit} (h : Waypipe.Clean m c.core fun _ core => P .done { c with core }) :
    Clean (.act m) c P := by
  unfold Clean Handler.act Attempt.commit
  cases hm : m.run c.core with
  | ok x => simpa [bind, Except.bind, pure, Except.pure, hm] using h.run_ok hm
  | error e => simpa [bind, Except.bind, hm] using h.run_error hm

theorem actFd {m : FdAct Unit} (h : Waypipe.Clean m c fun _ c' => P .done c') :
    Clean (.actFd m) c P := by
  unfold Clean Handler.actFd Attempt.commit
  cases hm : m.run c with
  | ok x => simpa [bind, Except.bind, pure, Except.pure, hm] using h.run_ok hm
  | error e => simpa [bind, Except.bind, hm] using h.run_error hm

theorem looking {r : Look α} {k : α → Handler} (hr : Res.Clean (r.run c))
    (h : ∀ a, r.run c = .ok a → Clean (k a) c P) : Clean (.looking r k) c P := by
  unfold Clean Handler.looking Attempt.reading
  cases hc : r.run c with
  | ok a =>
    rw [show r c = .ok a from hc]
    exact h a hc
  | error e =>
    rw [show r c = .error e from hc]
    exact hr e hc

theorem parsing {x : Res α} {k : α → Handler} (hx : x.Clean) (h : ∀ a, x = .ok a → Clean (k a) c P) :
    Clean (.parsing x k) c P := looking (r := fun _ => x) hx h

theorem needs {bytes fds : Nat} (hk : c.hasSpace bytes fds → Clean k c P)
    (hfull : P (.needsSpace bytes fds) c) : Clean (.needs bytes fds k) c P := by
  unfold Clean
  by_cases hspace : c.hasSpace bytes fds
  · have hrun : Handler.needs bytes fds k c = k c := by
      unfold Handler.needs Attempt.gate Attempt.reading
      simp [hspace]
    rw [hrun]
    exact hk hspace
  · rw [Handler.needs_eq_ok.mpr (.inr ⟨hspace, rfl⟩)]
    exact hfull

theorem waits {r : Look (Option Rid)} (hr : Res.Clean (r.run c)) (hk : r.run c = .ok none → Clean k c P)
    (hwait : ∀ rid, r.run c = .ok (some rid) → P (.waitFor rid) c) : Clean (.waits r k) c P := by
  unfold Clean Handler.waits Attempt.gate Attempt.reading
  dsimp only
  cases hc : r.run c with
  | error e => exact hr e hc
  | ok o =>
    cases o with
    | none => exact hk hc
    | some rid => exact hwait rid hc

theorem first {m : GlobAct Unit} (h : Waypipe.Clean m c.glob fun _ g => Clean k (c.setGlob g) P) :
    Clean (.first m k) c P := by
  unfold Clean Handler.first Attempt.first
  dsimp only
  cases hm : m.run c.glob with
  | ok x => exact h.run_ok hm
  | error e => exact h.run_error hm

theorem mono {h : Handler} {Q : ProcMsg → Ctx → Prop} (hclean : Clean h c P)
    (hPQ : ∀ p c', P p c' → Q p c') : Clean h c Q := by
  unfold Clean at hclean ⊢
  split
  · next p c' hrun =>
    rw [hrun] at hclean
    exact hPQ p c' hclean
  · next e hrun =>
    rw [hrun] at hclean
    exact hclean

end Handler.Clean

end Waypipe
