import Waypipe.C.DamageMerge

/-!
# What the merge of waypipe-c covers

`Tidy` lists are separated by the margin, with aligned ends that leave the margin free below
`INT32_MAX`.  `streamMerge` makes one of two such lists; `Layout` says where the lists of the stack are
in the buffer, and `fixMergeStackProperty_spec` that merging them keeps the sizes on the stack
doubling, so that it stays low.
-/

namespace Waypipe.C

open Ranges ExtInterval DamageList List

variable {bits : Nat} {e : ExtInterval} {cursor : Int} {a b c : List Interval}
  {ls : List (List Interval)} {old : DamageList}

/-! ## Rounding -/

def alignUp (bits : Nat) (x : Int) : Int := alignDown bits (x + 2 ^ bits - 1)

section Rounding

variable (bits : Nat) {x y : Int}

theorem pow_bits_pos : (0 : Int) < 2 ^ bits := by positivity

theorem alignDown_le (x : Int) : alignDown bits x ≤ x := Int.ediv_mul_le x (pow_bits_pos bits).ne'

theorem lt_alignDown_add (x : Int) : x < alignDown bits x + 2 ^ bits := by
  have h := Int.lt_ediv_add_one_mul_self x (pow_bits_pos bits)
  rw [Int.add_mul, Int.one_mul] at h
  exact h

theorem alignDown_mono (h : x ≤ y) : alignDown bits x ≤ alignDown bits y :=
  Int.mul_le_mul_of_nonneg_right (Int.ediv_le_ediv (pow_bits_pos bits) h) (pow_bits_pos bits).le

theorem dvd_alignDown (x : Int) : (2 : Int) ^ bits ∣ alignDown bits x := Int.dvd_mul_left _ _

theorem alignDown_nonneg (h : 0 ≤ x) : 0 ≤ alignDown bits x :=
  Int.mul_nonneg (Int.ediv_nonneg h (pow_bits_pos bits).le) (pow_bits_pos bits).le

theorem le_alignUp (x : Int) : x ≤ alignUp bits x := by
  have h := lt_alignDown_add bits (x + 2 ^ bits - 1)
  unfold alignUp
  omega

theorem alignUp_lt (x : Int) : alignUp bits x < x + 2 ^ bits := by
  have h := alignDown_le bits (x + 2 ^ bits - 1)
  unfold alignUp
  omega

theorem alignUp_mono (h : x ≤ y) : alignUp bits x ≤ alignUp bits y :=
  alignDown_mono bits (by omega)

variable {bits}

theorem pow_bits_le (h : bits ≤ 6) : (2 : Int) ^ bits ≤ 64 :=
  (pow_le_pow_right₀ (by decide) h).trans_eq (by norm_num)

end Rounding

theorem undefinedOverflow_of {x : Int} (h : IsInt32 x) : undefinedOverflow x = some x := if_pos h

theorem undefinedOverflow_eq_some {x y : Int} (h : undefinedOverflow x = some y) :
    IsInt32 x ∧ y = x := by
  unfold undefinedOverflow at h
  split at h
  · next hx => exact ⟨hx, (Option.some.inj h).symm⟩
  · cases h

/-! ## Tidy lists -/

/-- An interval with aligned ends, which leaves the margin free below `INT32_MAX`. -/
structure Placed (bits : Nat) (x : Interval) : Prop where
  aligned : (2 : Int) ^ bits ∣ x.1 ∧ (2 : Int) ^ bits ∣ x.2
  low : 0 ≤ x.1
  high : x.2 + mergeMargin ≤ INT32_MAX

/-- A list as it is left by a merge. -/
structure Tidy (bits : Nat) (l : List Interval) : Prop where
  separated : Separated mergeMargin l
  placed : ∀ x ∈ l, Placed bits x

namespace Tidy

variable {l : List Interval} {x : Interval}

theorem nil : Tidy bits [] := ⟨.nil, fun _ h => (nomatch h)⟩

theorem singleton_iff : Tidy bits [x] ↔ x.1 < x.2 ∧ Placed bits x := by
  constructor
  · exact fun h => ⟨h.separated.nonempty x (by simp), h.placed x (by simp)⟩
  · exact fun h => ⟨.singleton h.1, forall_mem_singleton.mpr h.2⟩

theorem tail (h : Tidy bits (x :: l)) : Tidy bits l :=
  ⟨h.separated.tail, fun y hy => h.placed y (mem_cons_of_mem x hy)⟩

theorem head (h : Tidy bits (x :: l)) : x.1 < x.2 ∧ Placed bits x :=
  ⟨h.separated.nonempty x mem_cons_self, h.placed x mem_cons_self⟩

theorem append_singleton_iff : Tidy bits (l ++ [x]) ↔
    Tidy bits l ∧ (x.1 < x.2 ∧ Placed bits x) ∧ ∀ y ∈ l, y.2 + mergeMargin ≤ x.1 := by
  constructor
  · rintro ⟨hsep, hplaced⟩
    obtain ⟨hl, hx, hlast⟩ := Separated.append_singleton_iff.mp hsep
    exact ⟨⟨hl, (forall_mem_append.mp hplaced).1⟩, ⟨hx, hplaced x (by simp)⟩, hlast⟩
  · rintro ⟨hl, ⟨hx, hplaced⟩, hlast⟩
    exact ⟨Separated.append_singleton_iff.mpr ⟨hl.separated, hx, hlast⟩,
      forall_mem_append.mpr ⟨hl.placed, forall_mem_singleton.mpr hplaced⟩⟩

theorem start_lt (h : Tidy bits l) : ∀ x ∈ l, x.1 < INT32_MAX := by
  intro x hx
  have hne := h.separated.nonempty x hx
  have hhigh := (h.placed x hx).high
  unfold mergeMargin at hhigh
  omega

theorem head_start_le (h : Tidy bits (x :: l)) : ∀ y ∈ l, x.1 ≤ y.1 := by
  intro y hy
  have hle := h.separated.head_le hy
  have hne := h.head.1
  unfold mergeMargin at hle
  omega

theorem start_le {lo : Int} (h : Tidy bits l) (hhead : ∀ y ∈ l.head?, lo ≤ y.1) :
    ∀ y ∈ l, lo ≤ y.1 := by
  cases l with
  | nil => exact fun _ hy => (nomatch hy)
  | cons x l =>
    have hx := hhead x rfl
    exact forall_mem_cons.mpr ⟨hx, fun y hy => hx.trans (h.head_start_le y hy)⟩

/-- The margins of all intervals have to fit below `INT32_MAX`. -/
theorem length_le (h : Tidy bits l) : l.length ≤ 2 ^ 23 := by
  cases l with
  | nil => exact Nat.zero_le _
  | cons x l =>
    have hhigh : ∀ y ∈ x :: l, y.2 ≤ INT32_MAX - mergeMargin := by
      intro y hy
      have := (h.placed y hy).high
      omega
    have hlen := h.separated.length_le hhigh
    have hx := h.head.1
    have hlow := h.head.2.low
    unfold mergeMargin INT32_MAX at hlen
    rw [length_cons]
    omega

end Tidy

/-! ## Merging two lists -/

/-- What has been merged so far: `cursor` is the end of the last interval, and the next ones start
at `lo` or later. -/
structure Merged (bits : Nat) (cursor : Int) (c : List Interval) (lo : Int) : Prop where
  tidy : Tidy bits c
  cursor_eq : c = [] ∧ cursor = INT32_MIN ∨ ∃ l last, c = l ++ [last] ∧ last.2 = cursor ∧ last.1 ≤ lo

theorem Merged.addSelected_spec {lo : Int} {sel : Interval} (h : Merged bits cursor c lo)
    (hlo : lo ≤ sel.1) (hne : sel.1 < sel.2) (hsel : Placed bits sel) :
    ∃ c', addSelected undefinedOverflow mergeMargin cursor sel c = some c' ∧
      Merged bits (max cursor sel.2) c' sel.1 ∧ c' ≠ [] ∧
      (∀ p, Covers c p ∨ (sel.1 ≤ p ∧ p < sel.2) → Covers c' p) := by
  have hlow := hsel.low
  have hhigh := hsel.high
  unfold addSelected
  rcases h.cursor_eq with ⟨rfl, rfl⟩ | ⟨l, last, rfl, rfl, hlast⟩
  · have hfree : undefinedOverflow (INT32_MIN + mergeMargin) = some (INT32_MIN + mergeMargin) := rfl
    have hle : INT32_MIN + mergeMargin ≤ sel.1 := by
      unfold INT32_MIN mergeMargin
      omega
    refine ⟨[sel], ?_, ⟨Tidy.singleton_iff.mpr ⟨hne, hsel⟩, .inr ⟨[], sel, rfl, ?_, le_rfl⟩⟩,
      by simp, ?_⟩
    · simp [hfree, hle]
    · unfold INT32_MIN
      omega
    · rintro p (⟨x, hx, -⟩ | hp)
      · cases hx
      · exact ⟨sel, mem_singleton_self sel, hp⟩
  · obtain ⟨hl, ⟨hlastne, hplaced⟩, hbefore⟩ := Tidy.append_singleton_iff.mp h.tidy
    have hlastlow := hplaced.low
    have hlasthigh := hplaced.high
    have hfree : undefinedOverflow (last.2 + mergeMargin) = some (last.2 + mergeMargin) := by
      apply undefinedOverflow_of
      unfold IsInt32 INT32_MIN INT32_MAX mergeMargin at *
      omega
    simp only [hfree, Option.bind_eq_bind, Option.bind_some]
    by_cases hle : last.2 + mergeMargin ≤ sel.1
    · rw [if_pos hle]
      have hgap : ∀ y ∈ l ++ [last], y.2 + mergeMargin ≤ sel.1 := by
        refine forall_mem_append.mpr ⟨fun y hy => ?_, forall_mem_singleton.mpr hle⟩
        have := hbefore y hy
        unfold mergeMargin at *
        omega
      have hmax : max last.2 sel.2 = sel.2 := by
        unfold mergeMargin at hle
        omega
      refine ⟨_, rfl, ⟨Tidy.append_singleton_iff.mpr ⟨h.tidy, ⟨hne, hsel⟩, hgap⟩,
        .inr ⟨_, sel, rfl, hmax.symm, le_rfl⟩⟩, by simp, ?_⟩
      rintro p (hp | hp)
      · exact hp.append_left _
      · exact ⟨sel, by simp, hp⟩
    · rw [if_neg hle]
      -- The last interval is extended over the selected one, which does not start before it.
      have hwider : Placed bits (last.1, max last.2 sel.2) := by
        refine ⟨⟨hplaced.aligned.1, ?_⟩, hlastlow, by dsimp only; omega⟩
        dsimp only
        rcases max_choice last.2 sel.2 with hmax | hmax <;> rw [hmax]
        · exact hplaced.aligned.2
        · exact hsel.aligned.2
      refine ⟨l ++ [(last.1, max last.2 sel.2)], by simp,
        ⟨Tidy.append_singleton_iff.mpr ⟨hl, ⟨by dsimp only; omega, hwider⟩, hbefore⟩,
          .inr ⟨l, _, rfl, rfl, by dsimp only; omega⟩⟩, by simp, ?_⟩
      rintro p (⟨x, hx, hp⟩ | hp)
      · rcases mem_append.mp hx with hx | hx
        · exact ⟨x, mem_append_left _ hx, hp⟩
        · rw [mem_singleton.mp hx] at hp
          exact ⟨(last.1, max last.2 sel.2), by simp, hp.1, by dsimp only; omega⟩
      · exact ⟨(last.1, max last.2 sel.2), by simp, by dsimp only; omega, by dsimp only; omega⟩

/-- The next interval that the loop selects, and what is left of the lists. -/
inductive Selects : List Interval → List Interval → Interval → List Interval → List Interval → Prop
  | first {x : Interval} {a b : List Interval} (h : ∀ y ∈ b.head?, x.1 ≤ y.1) :
      Selects (x :: a) b x a b
  | second {y : Interval} {a b : List Interval} (h : ∀ x ∈ a.head?, y.1 ≤ x.1) :
      Selects a (y :: b) y a b

variable (ja jb : List Interval)

/-- What one round does, up to the sentinels. -/
theorem streamMergeLoop_round (rounds : Nat) (ha : ∀ x ∈ a, x.1 < INT32_MAX)
    (hb : ∀ x ∈ b, x.1 < INT32_MAX) :
    (a = [] ∧ b = [] ∧ streamMergeLoop undefinedOverflow mergeMargin (rounds + 1)
      (a ++ sentinel :: ja) (b ++ sentinel :: jb) cursor c = some c) ∨
    ∃ sel a' b', Selects a b sel a' b' ∧ streamMergeLoop undefinedOverflow mergeMargin (rounds + 1)
      (a ++ sentinel :: ja) (b ++ sentinel :: jb) cursor c =
        (addSelected undefinedOverflow mergeMargin cursor sel c).bind fun c =>
          streamMergeLoop undefinedOverflow mergeMargin rounds (a' ++ sentinel :: ja)
            (b' ++ sentinel :: jb) (max cursor sel.2) c := by
  cases a with
  | nil =>
    cases b with
    | nil => exact .inl ⟨rfl, rfl, by simp [streamMergeLoop, sentinel]⟩
    | cons y b =>
      have hy := hb y mem_cons_self
      refine .inr ⟨y, [], b, .second (fun _ hx => nomatch hx), ?_⟩
      simp only [nil_append, cons_append, streamMergeLoop]
      rw [if_neg (by simp [hy.ne]), if_neg (by simp [sentinel, hy.le])]
      rfl
  | cons x a =>
    have hx := ha x mem_cons_self
    cases b with
    | nil =>
      refine .inr ⟨x, a, [], .first (fun _ hy => nomatch hy), ?_⟩
      simp only [nil_append, cons_append, streamMergeLoop]
      rw [if_neg (by simp [hx.ne]), if_pos (show x.1 < sentinel.1 from hx)]
      rfl
    | cons y b =>
      simp only [cons_append, streamMergeLoop]
      rw [if_neg (by simp [hx.ne])]
      by_cases hlt : x.1 < y.1
      · exact .inr ⟨x, a, y :: b, .first (fun _ hy => Option.some.inj hy ▸ hlt.le), if_pos hlt⟩
      · exact .inr ⟨y, x :: a, b, .second (fun _ hx => Option.some.inj hx ▸ not_lt.mp hlt),
          if_neg hlt⟩

/-- The loop merges what is before the sentinels, by induction on the rounds. -/
theorem streamMergeLoop_spec (rounds : Nat) {lo : Int}
    (hrounds : a.length + b.length < rounds) (ha : Tidy bits a) (hb : Tidy bits b)
    (hla : ∀ x ∈ a, lo ≤ x.1) (hlb : ∀ x ∈ b, lo ≤ x.1) (h : Merged bits cursor c lo) :
    ∃ c', streamMergeLoop undefinedOverflow mergeMargin rounds (a ++ sentinel :: ja)
        (b ++ sentinel :: jb) cursor c = some c' ∧ Tidy bits c' ∧ (c ≠ [] ∨ a ≠ [] → c' ≠ []) ∧
      ∀ p, Covers c p ∨ Covers a p ∨ Covers b p → Covers c' p := by
  induction rounds generalizing a b c cursor lo with
  | zero => omega
  | succ rounds ih =>
    obtain ⟨rfl, rfl, hend⟩ | ⟨sel, a', b', hsel, hround⟩ :=
      streamMergeLoop_round ja jb rounds ha.start_lt hb.start_lt
    · refine ⟨c, hend, h.tidy, fun hne => hne.elim id (absurd rfl), ?_⟩
      rintro p (hp | ⟨x, hx, -⟩ | ⟨x, hx, -⟩)
      · exact hp
      · cases hx
      · cases hx
    · rw [hround]
      -- Nothing that is left starts before the selected interval.
      obtain ⟨hlo, hne, hplaced, ha', hb', hla', hlb', hlen, hpoint⟩ :
          lo ≤ sel.1 ∧ sel.1 < sel.2 ∧ Placed bits sel ∧ Tidy bits a' ∧ Tidy bits b' ∧
          (∀ x ∈ a', sel.1 ≤ x.1) ∧ (∀ x ∈ b', sel.1 ≤ x.1) ∧
          a'.length + b'.length < a.length + b.length ∧ ∀ p, Covers a p ∨ Covers b p →
            (sel.1 ≤ p ∧ p < sel.2) ∨ Covers a' p ∨ Covers b' p := by
        cases hsel with
        | first hle =>
          refine ⟨hla _ mem_cons_self, ha.head.1, ha.head.2, ha.tail, hb, ha.head_start_le,
            hb.start_le hle, by simp, fun p hp => ?_⟩
          rwa [covers_cons, or_assoc] at hp
        | second hle =>
          refine ⟨hlb _ mem_cons_self, hb.head.1, hb.head.2, ha, hb.tail, ha.start_le hle,
            hb.head_start_le, by simp, fun p hp => ?_⟩
          rwa [covers_cons, or_left_comm] at hp
      obtain ⟨c₁, hadd, h₁, hne₁, hcovers⟩ := h.addSelected_spec hlo hne hplaced
      obtain ⟨c', hloop, htidy, hne', hcovers'⟩ := ih (by omega) ha' hb' hla' hlb' h₁
      refine ⟨c', by rw [hadd]; exact hloop, htidy, fun _ => hne' (.inl hne₁), ?_⟩
      rintro p (hp | hp)
      · exact hcovers' p (.inl (hcovers p (.inl hp)))
      · rcases hpoint p hp with hp | hp
        · exact hcovers' p (.inl (hcovers p (.inr hp)))
        · exact hcovers' p (.inr hp)

/-- Two tidy lists in the buffer are merged to one. -/
theorem streamMerge_spec (ha : Tidy bits a) (hb : Tidy bits b)
    (hne : a ≠ []) :
    ∃ c, streamMerge undefinedOverflow mergeMargin (a ++ sentinel :: ja) (b ++ sentinel :: jb) =
        some (c ++ [sentinel]) ∧ Tidy bits c ∧ c ≠ [] ∧
      ∀ p, Covers a p ∨ Covers b p → Covers c p := by
  have hrounds : a.length + b.length < (a ++ sentinel :: ja).length + (b ++ sentinel :: jb).length := by
    simp only [length_append, length_cons]
    omega
  obtain ⟨c, hloop, htidy, hne', hcovers⟩ := streamMergeLoop_spec ja jb _ hrounds
    ha hb (fun x hx => (ha.placed x hx).low) (fun x hx => (hb.placed x hx).low)
    ⟨.nil, .inl ⟨rfl, rfl⟩⟩
  refine ⟨c, ?_, htidy, hne' (.inr hne), fun p hp => hcovers p (.inr hp)⟩
  unfold streamMerge
  rw [hloop]
  rfl

/-! ## The stack -/

/-- The lists of the stack are in the buffer one after the other, each with a sentinel. -/
def Layout : List MergeStackElem → List (List Interval) → List Interval → Prop
  | [], [], base => base = []
  | e :: stack, l :: ls, base => ∃ below, base = below ++ (l ++ [sentinel]) ∧
      e.offset = below.length ∧ e.count = l.length ∧ Layout stack ls below
  | _, _, _ => False

/-- Each list of the stack is at least twice as long as the one above it. -/
def Doubling (ls : List (List Interval)) : Prop :=
  List.IsChain (fun a b => 2 * a ≤ b) (ls.map length)

theorem Layout.length_eq {stack : List MergeStackElem} {base : List Interval}
    (h : Layout stack ls base) : stack.length = ls.length := by
  induction stack generalizing ls base with
  | nil =>
    cases ls with
    | nil => rfl
    | cons l ls => exact h.elim
  | cons e stack ih =>
    cases ls with
    | nil => exact h.elim
    | cons l ls =>
      obtain ⟨below, -, -, -, hbelow⟩ := h
      rw [length_cons, length_cons, ih hbelow]

/-- A stack of tidy lists that double is low. -/
theorem Doubling.length_le (h : Doubling ls) (htidy : ∀ l ∈ ls, Tidy bits l ∧ l ≠ []) :
    ls.length ≤ 24 := by
  cases ls with
  | nil => exact Nat.zero_le _
  | cons l ls =>
    have hbound : ∀ n ∈ l.length :: ls.map length, n ≤ 2 ^ 23 := by
      intro n hn
      obtain ⟨k, hk, rfl⟩ := mem_map.mp (show n ∈ (l :: ls).map length from hn)
      exact (htidy k hk).1.length_le
    have htop : 0 < l.length := length_pos_iff.mpr (htidy l mem_cons_self).2
    have hpow := two_pow_length_le (ls.map length) l.length h hbound
    rw [length_map] at hpow
    have hle : ls.length ≤ 23 := by
      by_contra hlt
      have : 2 ^ 24 ≤ 2 ^ ls.length := Nat.pow_le_pow_right (by decide) (by omega)
      nlinarith
    rw [length_cons]
    omega

/-- Merging down the stack keeps what its lists cover, by induction on the stack below the top. -/
theorem fixMergeStackProperty_spec (forceCompact : Bool) (stack : List MergeStackElem)
    {top : MergeStackElem} {l : List Interval} {base : List Interval} (absorbed : Int)
    (hlayout : Layout (top :: stack) (l :: ls) base) (htidy : ∀ k ∈ l :: ls, Tidy bits k ∧ k ≠ [])
    (hdoubling : Doubling ls) :
    ∃ stack' l' ls' base' absorbed',
      fixMergeStackProperty undefinedOverflow mergeMargin forceCompact top stack base absorbed =
        some (stack', base', absorbed') ∧ Layout stack' (l' :: ls') base' ∧
      (∀ k ∈ l' :: ls', Tidy bits k ∧ k ≠ []) ∧ Doubling (l' :: ls') ∧
      (forceCompact = true → ls' = []) ∧
      ∀ p, (∃ k ∈ l :: ls, Covers k p) → ∃ k ∈ l' :: ls', Covers k p := by
  induction stack generalizing top l ls base absorbed with
  | nil =>
    have hls : ls = [] := length_eq_zero_iff.mp (by have := hlayout.length_eq; simpa using this.symm)
    subst hls
    exact ⟨[top], l, [], base, absorbed, rfl, hlayout, htidy, isChain_singleton _, fun _ => rfl,
      fun _ h => h⟩
  | cons nxt stack ih =>
    obtain ⟨below, rfl, hoffset, hcount, hrest⟩ := hlayout
    cases ls with
    | nil => exact hrest.elim
    | cons l₂ ls =>
      obtain ⟨lower, rfl, hoffset₂, hcount₂, hlower⟩ := hrest
      unfold fixMergeStackProperty
      by_cases hkeep : 2 * top.count ≤ nxt.count ∧ forceCompact = false
      · rw [if_pos hkeep]
        refine ⟨_, l, l₂ :: ls, _, _, rfl, ⟨_, rfl, hoffset, hcount, lower, rfl, hoffset₂, hcount₂,
          hlower⟩, htidy, isChain_cons_cons.mpr ⟨by omega, hdoubling⟩, ?_, fun _ h => h⟩
        intro hforce
        rw [hkeep.2] at hforce
        cases hforce
      · rw [if_neg hkeep]
        obtain ⟨hl, hne⟩ := htidy l mem_cons_self
        obtain ⟨hl₂, -⟩ := htidy l₂ (by simp)
        obtain ⟨c, hmerge, hc, hcne, hcovers⟩ := streamMerge_spec [] (l ++ [sentinel]) hl hl₂ hne
        have htop : (lower ++ (l₂ ++ [sentinel]) ++ (l ++ [sentinel])).drop top.offset =
            l ++ sentinel :: [] := by
          rw [hoffset, drop_left]
        have hnxt : (lower ++ (l₂ ++ [sentinel]) ++ (l ++ [sentinel])).drop nxt.offset =
            l₂ ++ sentinel :: (l ++ [sentinel]) := by
          rw [hoffset₂, append_assoc lower, drop_left]
          simp
        have hbelow : (lower ++ (l₂ ++ [sentinel]) ++ (l ++ [sentinel])).take nxt.offset = lower := by
          rw [hoffset₂, append_assoc lower, take_left]
        rw [htop, hnxt, hmerge, hbelow]
        have hlayout' : Layout ({ offset := nxt.offset, count := (c ++ [sentinel]).length - 1 } :: stack)
            (c :: ls) (lower ++ (c ++ [sentinel])) :=
          ⟨lower, rfl, hoffset₂, by simp, hlower⟩
        obtain ⟨stack', l', ls', base', absorbed', hfix, hlay, htidy', hdoubling', hforce, hall⟩ :=
          ih _ hlayout' (forall_mem_cons.mpr
            ⟨⟨hc, hcne⟩, fun k hk => htidy k (by simp [hk])⟩) hdoubling.tail
        refine ⟨stack', l', ls', base', absorbed', hfix, hlay, htidy', hdoubling', hforce, ?_⟩
        rintro p ⟨k, hk, hp⟩
        apply hall
        rcases mem_cons.mp hk with rfl | hk
        · exact ⟨c, mem_cons_self, hcovers p (.inl hp)⟩
        · rcases mem_cons.mp hk with rfl | hk
          · exact ⟨c, mem_cons_self, hcovers p (.inr hp)⟩
          · exact ⟨k, mem_cons_of_mem c hk, hp⟩

/-! ## Rows -/

namespace ExtInterval

/-- Interval `i` of the row, with its ends rounded. -/
def piece (e : ExtInterval) (bits : Nat) (i : Int) : Interval :=
  (alignDown bits (e.start + i * e.stride), alignUp bits (e.start + i * e.stride + e.width))

/-- One of the intervals of the row has the point. -/
def InRow (e : ExtInterval) (p : Int) : Prop :=
  ∃ i : Int, 0 ≤ i ∧ i < e.rep ∧ e.start + i * e.stride ≤ p ∧ p < e.start + i * e.stride + e.width

/-- The rounded end of the row leaves room for the margin, and so do the gaps between its rounded
intervals, unless they are to be closed. -/
structure Tame (bits : Nat) (e : ExtInterval) : Prop where
  fits : alignUp bits e.intvEnd + mergeMargin ≤ INT32_MAX
  spaced : e.width ≤ e.stride - mergeMargin → ∀ i : Int, 0 ≤ i → i + 1 < e.rep →
    (e.piece bits i).2 + mergeMargin ≤ (e.piece bits (i + 1)).1

variable {i j : Int}

theorem piece_nonempty (hwidth : 0 < e.width) : (e.piece bits i).1 < (e.piece bits i).2 := by
  have hdown := alignDown_le bits (e.start + i * e.stride)
  have hup := le_alignUp bits (e.start + i * e.stride + e.width)
  unfold piece
  dsimp only
  omega

theorem mul_stride_le (hstride : 0 ≤ e.stride) (h : i ≤ j) : i * e.stride ≤ j * e.stride :=
  Int.mul_le_mul_of_nonneg_right h hstride

theorem piece_end_le (hstride : 0 ≤ e.stride) (h : i < e.rep) :
    e.start + i * e.stride + e.width ≤ e.intvEnd := by
  have hle := mul_stride_le hstride (show i ≤ e.rep - 1 by omega)
  rw [Int.mul_comm (e.rep - 1)] at hle
  unfold intvEnd
  omega

end ExtInterval

theorem roundedInterval_eq (hbits : bits ≤ 6)
    {i : Int} (hstart : 0 ≤ e.start) (hwidth : 0 < e.width) (hi : 0 ≤ i * e.stride)
    (hend : e.start + i * e.stride + e.width + mergeMargin ≤ INT32_MAX) :
    roundedInterval undefinedOverflow bits e i = some (e.piece bits i) := by
  have hpow := pow_bits_le hbits
  have hpos := pow_bits_pos bits
  have hint : ∀ x, 0 ≤ x → x ≤ e.start + i * e.stride + e.width + 2 ^ bits →
      undefinedOverflow x = some x := by
    intro x hx hle
    apply undefinedOverflow_of
    unfold IsInt32 INT32_MIN INT32_MAX
    unfold INT32_MAX mergeMargin at hend
    omega
  unfold roundedInterval
  simp only [hint (i * e.stride) (by omega) (by omega),
    hint (e.start + i * e.stride) (by omega) (by omega),
    hint (e.start + i * e.stride + e.width) (by omega) (by omega),
    hint (e.start + i * e.stride + e.width + 2 ^ bits) (by omega) (by omega),
    hint (e.start + i * e.stride + e.width + 2 ^ bits - 1) (by omega) (by omega),
    Option.bind_eq_bind, Option.bind_some]
  rfl

/-- A row without overlap is unpacked interval by interval, by induction on those that are left. -/
theorem unpackLoop_eq (n k : Nat) {lastEnd : Int}
    (hround : ∀ i : Nat, i < k + n → roundedInterval undefinedOverflow bits e i = some (e.piece bits i))
    (hgap : ∀ i : Nat, i + 1 < k + n → (e.piece bits i).2 < (e.piece bits (i + 1 : Nat)).1)
    (hlast : 0 < n → lastEnd < (e.piece bits k).1) :
    unpackLoop undefinedOverflow bits e n k lastEnd ((range k).map fun i : Nat => e.piece bits i) =
      some ((range (k + n)).map fun i : Nat => e.piece bits i) := by
  induction n generalizing k lastEnd with
  | zero => rfl
  | succ n ih =>
    unfold unpackLoop
    rw [hround k (by omega)]
    simp only [Option.bind_eq_bind, Option.bind_some]
    rw [if_pos (hlast (by omega))]
    have hnext := ih (k + 1) (fun i hi => hround i (by omega)) (fun i hi => hgap i (by omega))
      (fun _ => hgap k (by omega))
    rw [range_succ, map_append, show k + 1 + n = k + (n + 1) by omega] at hnext
    exact hnext

theorem unpackExtInterval_eq (hbits : bits ≤ 6)
    (hvalid : e.Valid) (hstride : 0 ≤ e.stride)
    (hfits : alignUp bits e.intvEnd + mergeMargin ≤ INT32_MAX)
    (hgap : ∀ i : Int, 0 ≤ i → i + 1 < e.rep → (e.piece bits i).2 < (e.piece bits (i + 1)).1) :
    unpackExtInterval undefinedOverflow bits e =
      some ((range e.rep.toNat).map fun i : Nat => e.piece bits i) := by
  unfold ExtInterval.Valid at hvalid
  have hle := le_alignUp bits e.intvEnd
  have hstart : ∀ i : Nat, 0 ≤ (i : Int) * e.stride := fun i =>
    Int.mul_nonneg (Int.natCast_nonneg i) hstride
  have hround : ∀ i : Nat, i < 0 + e.rep.toNat →
      roundedInterval undefinedOverflow bits e i = some (e.piece bits i) := by
    intro i hi
    apply roundedInterval_eq hbits (by omega) (by omega) (hstart i)
    have := e.piece_end_le hstride (show (i : Int) < e.rep by omega)
    omega
  have hfirst : INT32_MIN < (e.piece bits (0 : Nat)).1 := by
    have hnonneg := alignDown_nonneg bits (show 0 ≤ e.start + ((0 : Nat) : Int) * e.stride by
      have := hstart 0
      omega)
    unfold INT32_MIN piece
    dsimp only
    omega
  have hloop := unpackLoop_eq e.rep.toNat 0 hround
    (fun i hi => hgap i (Int.natCast_nonneg i) (by omega)) fun _ => hfirst
  rw [Nat.zero_add] at hloop
  exact hloop

/-- A row whose rounded intervals are apart is a tidy list. -/
theorem unpackExtInterval_tidy (hbits : bits ≤ 6)
    (hvalid : e.Valid) (hstride : 0 ≤ e.stride)
    (hfits : alignUp bits e.intvEnd + mergeMargin ≤ INT32_MAX)
    (hgap : ∀ i : Int, 0 ≤ i → i + 1 < e.rep →
      (e.piece bits i).2 + mergeMargin ≤ (e.piece bits (i + 1)).1) :
    ∃ vec, unpackExtInterval undefinedOverflow bits e = some vec ∧ Tidy bits vec ∧ vec ≠ [] ∧
      ∀ p, e.InRow p → Covers vec p := by
  refine ⟨_, unpackExtInterval_eq hbits hvalid hstride hfits ?_, ⟨⟨?_, ?_⟩, ?_⟩, ?_, ?_⟩
  · intro i hi hlt
    have := hgap i hi hlt
    unfold mergeMargin at this
    omega
  all_goals unfold ExtInterval.Valid at hvalid
  · intro x hx
    obtain ⟨i, -, rfl⟩ := mem_map.mp hx
    exact e.piece_nonempty (by omega)
  · rw [pairwise_map]
    refine (pairwise_lt_range (n := e.rep.toNat)).imp_of_mem ?_
    intro i j hi hj hlt
    have hnext := hgap i (Int.natCast_nonneg i) (by rw [mem_range] at hj; omega)
    have hmono : (e.piece bits (i + 1)).1 ≤ (e.piece bits j).1 := by
      have := e.mul_stride_le hstride (show (i : Int) + 1 ≤ j by omega)
      exact alignDown_mono bits (by omega)
    omega
  · intro x hx
    obtain ⟨i, hi, rfl⟩ := mem_map.mp hx
    rw [mem_range] at hi
    have hpos := Int.mul_nonneg (Int.natCast_nonneg i) hstride
    have hend := alignUp_mono bits (e.piece_end_le hstride (show (i : Int) < e.rep by omega))
    refine ⟨⟨dvd_alignDown bits _, dvd_alignDown bits _⟩, alignDown_nonneg bits (by omega), ?_⟩
    show alignUp bits _ + mergeMargin ≤ INT32_MAX
    omega
  · rw [Ne, map_eq_nil_iff, range_eq_nil]
    omega
  · rintro p ⟨i, hi, hlt, hlo, hhi⟩
    refine ⟨e.piece bits i, mem_map.mpr ⟨i.toNat, mem_range.mpr (by omega), ?_⟩, ?_, ?_⟩
    · rw [Int.toNat_of_nonneg hi]
    · exact (alignDown_le bits _).trans hlo
    · exact lt_of_lt_of_le hhi (le_alignUp bits _)

theorem limited_of_fits (hfits : alignUp bits e.intvEnd + mergeMargin ≤ INT32_MAX) :
    e.limited = e := by
  have hle := le_alignUp bits e.intvEnd
  exact if_neg (by unfold mergeMargin at hfits; omega)

theorem longest_eq (hstride : 0 ≤ e.stride) (hmax : e.stride ≤ INT32_MAX) :
    undefinedOverflow (e.stride - mergeMargin) = some (e.stride - mergeMargin) := by
  apply undefinedOverflow_of
  unfold IsInt32 INT32_MIN mergeMargin
  omega

/-- A tame row is pushed as a tidy list, whether its intervals are combined or not. -/
theorem rowIntervals_spec (hbits : bits ≤ 6)
    (hvalid : e.Valid) (hstride : 0 ≤ e.stride) (hmax : e.stride ≤ INT32_MAX) (htame : e.Tame bits)
    (forceCombine : Bool) :
    ∃ vec, rowIntervals undefinedOverflow mergeMargin bits forceCombine e = some vec ∧ Tidy bits vec ∧
      vec ≠ [] ∧ ∀ p, e.InRow p → Covers vec p := by
  have hfits := htame.fits
  have hle := le_alignUp bits e.intvEnd
  have hvalid' := hvalid
  unfold ExtInterval.Valid at hvalid'
  unfold rowIntervals combined
  simp only [limited_of_fits hfits, longest_eq hstride hmax, Option.bind_eq_bind, Option.bind_some]
  by_cases hcombine : e.stride - mergeMargin < e.width ∨ forceCombine = true
  · have hrest : 0 ≤ e.stride * (e.rep - 1) := Int.mul_nonneg hstride (by omega)
    have hint : ∀ x, 0 ≤ x → x ≤ e.intvEnd → undefinedOverflow x = some x := by
      intro x hx hxle
      apply undefinedOverflow_of
      unfold IsInt32 INT32_MIN
      unfold mergeMargin at hfits
      omega
    have hwidth := hint (e.stride * (e.rep - 1)) hrest (by unfold intvEnd; omega)
    have hwhole := hint (e.stride * (e.rep - 1) + e.width) (by omega)
      (by unfold intvEnd; omega)
    rw [if_pos hcombine]
    simp only [hwidth, hwhole, Option.bind_some]
    have hend : intvEnd { e with width := e.stride * (e.rep - 1) + e.width, rep := 1 } =
        e.intvEnd := by
      unfold intvEnd
      dsimp only
      omega
    obtain ⟨vec, hunpack, htidy, hne, hcovers⟩ := unpackExtInterval_tidy hbits
      (e := { e with width := e.stride * (e.rep - 1) + e.width, rep := 1 })
      (by unfold ExtInterval.Valid; dsimp only; omega) hstride (by rw [hend]; exact hfits)
      (fun i hi hlt => by dsimp only at hlt; omega)
    refine ⟨vec, hunpack, htidy, hne, ?_⟩
    rintro p ⟨i, hi, hlt, hlo, hhi⟩
    have hle := e.piece_end_le hstride hlt
    have hpos := e.mul_stride_le hstride hi
    refine hcovers p ⟨0, le_rfl, by dsimp only; omega, ?_, ?_⟩
    · dsimp only
      omega
    · unfold intvEnd at hle
      dsimp only
      omega
  · rw [if_neg hcombine]
    exact unpackExtInterval_tidy hbits hvalid hstride hfits
      (htame.spaced (not_lt.mp fun h => hcombine (.inl h)))

/-! ## The sort -/

/-- The lists on the stack of a state. -/
structure MergeState.Has (bits : Nat) (s : MergeState) (ls : List (List Interval)) : Prop where
  layout : Layout s.substack ls s.base
  tidy : ∀ l ∈ ls, Tidy bits l ∧ l ≠ []
  doubling : Doubling ls

theorem MergeState.Has.substack_lt {s : MergeState} (h : s.Has bits ls) :
    s.substack.length < substackSize := by
  have hle := h.doubling.length_le h.tidy
  rw [h.layout.length_eq]
  unfold substackSize
  omega

/-- The list is that of a merge. -/
def DamageList.Stored (bits : Nat) (d : DamageList) : Prop :=
  d.count = 0 ∨ ∃ l, l ≠ [] ∧ Tidy bits l ∧ d = ⟨l.length, l ++ [sentinel]⟩

theorem DamageList.intervals_mk (l : List Interval) :
    intervals ⟨l.length, l ++ [sentinel]⟩ = l := take_left

theorem mergeStart_has (h : old.Stored bits) :
    ∃ ls, (mergeStart old).Has bits ls ∧
      ∀ p, Covers old.intervals p → ∃ l ∈ ls, Covers l p := by
  rcases h with hzero | ⟨l, hne, htidy, rfl⟩
  · unfold mergeStart intervals
    rw [if_pos hzero, hzero, take_zero]
    refine ⟨[], ⟨rfl, fun _ hl => (nomatch hl), isChain_nil⟩, ?_⟩
    rintro p ⟨x, hx, -⟩
    cases hx
  · have hpos : l.length ≠ 0 := fun h => hne (length_eq_zero_iff.mp h)
    have htake : (l ++ [sentinel]).take (l.length + 1) = [] ++ (l ++ [sentinel]) :=
      take_of_length_le (by simp)
    unfold mergeStart
    rw [if_neg hpos, intervals_mk]
    exact ⟨[l], ⟨⟨[], htake, rfl, rfl, rfl⟩, forall_mem_singleton.mpr ⟨htidy, hne⟩,
      isChain_singleton _⟩, fun p hp => ⟨l, mem_singleton_self l, hp⟩⟩

/-- What holds of all rows of damage that are merged. -/
structure Admissible (bits : Nat) (e : ExtInterval) : Prop where
  stride_nonneg : 0 ≤ e.stride
  stride_le : e.stride ≤ INT32_MAX
  tame : e.Valid → e.Tame bits

/-- One round keeps what the lists on the stack cover, and adds its row. -/
theorem mergeOne_spec (hbits : bits ≤ 6) {s : MergeState} (h : s.Has bits ls)
    (he : Admissible bits e) :
    ∃ s' ls', mergeOne undefinedOverflow mergeMargin bits s e = some s' ∧ s'.Has bits ls' ∧
      ∀ p, (∃ l ∈ ls, Covers l p) ∨ (e.Valid ∧ e.InRow p) → ∃ l ∈ ls', Covers l p := by
  unfold mergeOne
  by_cases hvalid : e.Valid
  · rw [if_neg (not_not.mpr hvalid)]
    obtain ⟨vec, hrow, hvec, hne, hcovers⟩ := rowIntervals_spec hbits hvalid
      he.stride_nonneg he.stride_le (he.tame hvalid)
      (decide (30000 < s.absorbed) || decide (10 * (s.srcCount - s.absorbed) < s.srcCount))
    have hpush : Layout (⟨s.base.length, vec.length⟩ :: s.substack) (vec :: ls)
        (s.base ++ vec ++ [sentinel]) :=
      ⟨s.base, append_assoc _ _ _, rfl, rfl, h.layout⟩
    obtain ⟨stack', l', ls', base', absorbed', hfix, hlayout, htidy, hdoubling, -, hall⟩ :=
      fixMergeStackProperty_spec false s.substack s.absorbed hpush
        (forall_mem_cons.mpr ⟨⟨hvec, hne⟩, h.tidy⟩) h.doubling
    refine ⟨⟨stack', base', s.srcCount + vec.length, absorbed'⟩, l' :: ls', ?_,
      ⟨hlayout, htidy, hdoubling⟩, ?_⟩
    · simp only [hrow, Option.bind_eq_bind, Option.bind_some]
      rw [if_pos h.substack_lt, hfix]
      rfl
    · rintro p (⟨l, hl, hp⟩ | ⟨-, hp⟩)
      · exact hall p ⟨l, mem_cons_of_mem vec hl, hp⟩
      · exact hall p ⟨vec, mem_cons_self, hcovers p hp⟩
  · rw [if_pos hvalid]
    exact ⟨s, ls, rfl, h, fun p hp => hp.resolve_right fun h => hvalid h.1⟩

theorem foldlM_mergeOne_spec (hbits : bits ≤ 6) (news : List ExtInterval) {s : MergeState}
    (h : s.Has bits ls) (hnews : ∀ e ∈ news, Admissible bits e) :
    ∃ s' ls', news.foldlM (mergeOne undefinedOverflow mergeMargin bits) s = some s' ∧ s'.Has bits ls' ∧
      ∀ p, (∃ l ∈ ls, Covers l p) ∨ (∃ e ∈ news, e.Valid ∧ e.InRow p) → ∃ l ∈ ls', Covers l p := by
  induction news generalizing s ls with
  | nil => exact ⟨s, ls, rfl, h, fun p hp => hp.resolve_right fun ⟨_, he, _⟩ => nomatch he⟩
  | cons e news ih =>
    obtain ⟨s₁, ls₁, hone, h₁, hcovers⟩ := mergeOne_spec hbits h (hnews e mem_cons_self)
    obtain ⟨s', ls', hrest, h', hcovers'⟩ := ih h₁ fun e' he' => hnews e' (mem_cons_of_mem e he')
    refine ⟨s', ls', by rw [foldlM_cons, hone]; exact hrest, h', ?_⟩
    rintro p (hp | ⟨e', he', hp⟩)
    · exact hcovers' p (.inl (hcovers p (.inl hp)))
    · rcases mem_cons.mp he' with rfl | he'
      · exact hcovers' p (.inl (hcovers p (.inr hp)))
      · exact hcovers' p (.inr ⟨e', he', hp⟩)

/-- A merge of rows into a list that a merge has left. -/
theorem mergeMergesort_spec (hbits : bits ≤ 6) (hold : old.Stored bits) {news : List ExtInterval}
    (hnews : ∀ e ∈ news, Admissible bits e) :
    ∃ out, mergeMergesort undefinedOverflow mergeMargin bits old news = some out ∧ out.Stored bits ∧
      Tidy bits out.intervals ∧
      ∀ p, Covers old.intervals p ∨ (∃ e ∈ news, e.Valid ∧ e.InRow p) → Covers out.intervals p := by
  obtain ⟨ls, hstart, hcovers⟩ := mergeStart_has hold
  obtain ⟨s, ls₁, hfold, h, hcovers₁⟩ := foldlM_mergeOne_spec hbits news hstart hnews
  have hpoint : ∀ p, Covers old.intervals p ∨ (∃ e ∈ news, e.Valid ∧ e.InRow p) →
      ∃ l ∈ ls₁, Covers l p := fun p hp => hcovers₁ p (hp.imp_left (hcovers p))
  unfold mergeMergesort
  rw [hfold]
  simp only [Option.bind_eq_bind, Option.bind_some]
  cases ls₁ with
  | nil =>
    have hstack : s.substack = [] := length_eq_zero_iff.mp h.layout.length_eq
    rw [hstack]
    refine ⟨⟨0, s.base⟩, rfl, .inl rfl, Tidy.nil, ?_⟩
    intro p hp
    obtain ⟨l, hl, -⟩ := hpoint p hp
    cases hl
  | cons l ls₁ =>
    obtain ⟨top, rest, hstack⟩ : ∃ top rest, s.substack = top :: rest :=
      exists_cons_of_length_eq_add_one h.layout.length_eq
    have hlayout := h.layout
    rw [hstack] at hlayout ⊢
    obtain ⟨stack', l', ls', base', absorbed', hfix, hlayout', htidy, -, hforce, hall⟩ :=
      fixMergeStackProperty_spec true rest s.absorbed hlayout h.tidy h.doubling.tail
    have hls : ls' = [] := hforce rfl
    subst hls
    -- One list is left, at the start of the buffer.
    obtain ⟨last, hlast⟩ : ∃ last, stack' = [last] := length_eq_one_iff.mp hlayout'.length_eq
    subst hlast
    obtain ⟨below, rfl, -, hcount, hbelow⟩ := hlayout'
    have hnil : below = [] := hbelow
    subst hnil
    obtain ⟨hl', hne⟩ := htidy l' mem_cons_self
    refine ⟨⟨l'.length, l' ++ [sentinel]⟩, ?_, .inr ⟨l', hne, hl', rfl⟩, ?_, ?_⟩
    · dsimp only
      rw [hfix]
      simp [hcount]
    · rw [intervals_mk]
      exact hl'
    · intro p hp
      rw [intervals_mk]
      obtain ⟨k, hk, hkp⟩ := hall p (hpoint p hp)
      rwa [mem_singleton.mp hk] at hkp

theorem mergeRuns_stored (hbits : bits ≤ 6) (calls : List (List ExtInterval))
    (hold : old.Stored bits) (hcalls : ∀ news ∈ calls, ∀ e ∈ news, Admissible bits e) :
    ∃ out, calls.foldlM (mergeMergesort undefinedOverflow mergeMargin bits) old = some out ∧
      out.Stored bits := by
  induction calls generalizing old with
  | nil => exact ⟨old, rfl, hold⟩
  | cons news calls ih =>
    obtain ⟨mid, hone, hmid, -⟩ := mergeMergesort_spec hbits hold (hcalls news mem_cons_self)
    obtain ⟨out, hrest, hout⟩ := ih hmid fun news' h => hcalls news' (mem_cons_of_mem news h)
    exact ⟨out, by rw [foldlM_cons, hone]; exact hrest, hout⟩

/-! ## Rows that do not fit -/

theorem roundedInterval_end {i : Int} {x : Interval}
    (h : roundedInterval undefinedOverflow bits e i = some x) :
    x.2 = alignUp bits (e.start + i * e.stride + e.width) ∧ x.2 ≤ INT32_MAX := by
  unfold roundedInterval at h
  simp only [Option.bind_eq_bind, Option.bind_eq_some_iff] at h
  obtain ⟨offset, hoffset, start, hstart, stop, hstop, above, habove, last, hlast, hx⟩ := h
  obtain ⟨-, rfl⟩ := undefinedOverflow_eq_some hoffset
  obtain ⟨-, rfl⟩ := undefinedOverflow_eq_some hstart
  obtain ⟨-, rfl⟩ := undefinedOverflow_eq_some hstop
  obtain ⟨-, rfl⟩ := undefinedOverflow_eq_some habove
  obtain ⟨hin, rfl⟩ := undefinedOverflow_eq_some hlast
  cases hx
  exact ⟨rfl, (alignDown_le bits _).trans hin.2⟩

/-- The last interval of the row ends with the row, by induction on those that are left. -/
theorem unpackLoop_end (n : Nat) {ir lastEnd : Int} {vec vec' : List Interval}
    (h : unpackLoop undefinedOverflow bits e n ir lastEnd vec = some vec')
    (hvec : ∀ x ∈ vec, x.2 ≤ INT32_MAX) :
    (∀ x ∈ vec', x.2 ≤ INT32_MAX) ∧ (n = 0 → vec' = vec) ∧
      ∀ m : Nat, n = m + 1 →
        ∃ x ∈ vec', x.2 = alignUp bits (e.start + (ir + m) * e.stride + e.width) := by
  induction n generalizing ir lastEnd vec with
  | zero =>
    cases h
    exact ⟨hvec, fun _ => rfl, fun m hm => by omega⟩
  | succ n ih =>
    unfold unpackLoop at h
    obtain ⟨x, hx, h⟩ := Option.bind_eq_some_iff.mp h
    obtain ⟨hend, hmax⟩ := roundedInterval_end hx
    -- Either way there is now an interval that ends with this one.
    obtain ⟨vec₁, hrest, hvec₁, y, hy, hyend⟩ : ∃ vec₁,
        unpackLoop undefinedOverflow bits e n (ir + 1) x.2 vec₁ = some vec' ∧
        (∀ y ∈ vec₁, y.2 ≤ INT32_MAX) ∧ ∃ y ∈ vec₁, y.2 = x.2 := by
      split at h
      · refine ⟨_, h, ?_, x, by simp, rfl⟩
        exact forall_mem_append.mpr ⟨hvec, forall_mem_singleton.mpr hmax⟩
      · obtain ⟨last, -, h⟩ := Option.bind_eq_some_iff.mp h
        refine ⟨_, h, forall_mem_append.mpr ⟨fun y hy => ?_, ?_⟩, (last.1, x.2), by simp, rfl⟩
        · exact hvec y (dropLast_subset vec hy)
        · exact forall_mem_singleton.mpr hmax
    obtain ⟨hall, hsame, hlater⟩ := ih hrest hvec₁
    refine ⟨hall, fun hn => by omega, ?_⟩
    intro m hm
    cases m with
    | zero =>
      refine ⟨y, by rw [hsame (by omega)]; exact hy, ?_⟩
      rw [hyend, hend]
      simp
    | succ m =>
      obtain ⟨z, hz, hzend⟩ := hlater m (by omega)
      refine ⟨z, hz, ?_⟩
      rw [hzend, show ir + 1 + (m : Int) = ir + ((m + 1 : Nat) : Int) by push_cast; omega]

theorem combined_intvEnd {forceCombine : Bool} {e' : ExtInterval} (hrep : 0 < e.rep)
    (h : e.combined undefinedOverflow mergeMargin forceCombine = some e') :
    e'.intvEnd = e.intvEnd ∧ 0 < e'.rep := by
  unfold combined at h
  obtain ⟨longest, -, h⟩ := Option.bind_eq_some_iff.mp h
  split at h
  · obtain ⟨width, hwidth, h⟩ := Option.bind_eq_some_iff.mp h
    obtain ⟨-, rfl⟩ := undefinedOverflow_eq_some hwidth
    obtain ⟨whole, hwhole, h⟩ := Option.bind_eq_some_iff.mp h
    obtain ⟨-, rfl⟩ := undefinedOverflow_eq_some hwhole
    cases h
    refine ⟨?_, Int.one_pos⟩
    unfold intvEnd
    dsimp only
    omega
  · cases h
    exact ⟨rfl, hrep⟩

/-- A row that does not fit has an interval without room for the margin after it. -/
theorem rowIntervals_end {forceCombine : Bool} {vec : List Interval} (hvalid : e.Valid)
    (h : rowIntervals undefinedOverflow mergeMargin bits forceCombine e = some vec) :
    (∀ x ∈ vec, x.2 ≤ INT32_MAX) ∧ (INT32_MAX < alignUp bits e.intvEnd + mergeMargin →
      ∃ x ∈ vec, INT32_MAX < x.2 + mergeMargin) := by
  obtain ⟨e', hcombined, hunpack⟩ := Option.bind_eq_some_iff.mp h
  unfold ExtInterval.Valid at hvalid
  have hrep : 0 < e.limited.rep := by
    unfold limited
    split
    · exact Int.one_pos
    · omega
  obtain ⟨hend, hrep'⟩ := combined_intvEnd hrep hcombined
  obtain ⟨hall, -, hlast⟩ := unpackLoop_end e'.rep.toNat hunpack fun _ hx => (nomatch hx)
  refine ⟨hall, ?_⟩
  intro hlarge
  obtain ⟨x, hx, hxend⟩ := hlast (e'.rep.toNat - 1) (by omega)
  refine ⟨x, hx, ?_⟩
  have hwhole : e'.start + (0 + ((e'.rep.toNat - 1 : Nat) : Int)) * e'.stride + e'.width =
      e.limited.intvEnd := by
    rw [← hend, Int.zero_add, Nat.cast_sub (by omega), Int.toNat_of_nonneg hrep'.le, Int.mul_comm]
    rfl
  rw [hxend, hwhole]
  unfold limited
  split
  · have hup := le_alignUp bits (INT32_MAX - 1)
    have hlimit : intvEnd { e with width := INT32_MAX - 1 - e.start, rep := 1 } =
        INT32_MAX - 1 := by
      unfold intvEnd
      dsimp only
      omega
    rw [hlimit]
    unfold mergeMargin
    omega
  · exact hlarge

/-- After an interval without room for the margin, no other can be selected. -/
theorem streamMergeLoop_none (rounds : Nat) (ha : ∀ x ∈ a, x.1 < INT32_MAX)
    (hb : ∀ x ∈ b, x.1 < INT32_MAX)
    (h : INT32_MAX < cursor + mergeMargin ∧ (a ≠ [] ∨ b ≠ []) ∨
      (∃ x ∈ a, INT32_MAX < x.2 + mergeMargin) ∧ ∃ x ∈ b, INT32_MAX < x.2 + mergeMargin) :
    streamMergeLoop undefinedOverflow mergeMargin rounds (a ++ sentinel :: ja) (b ++ sentinel :: jb)
      cursor c = none := by
  induction rounds generalizing a b c cursor with
  | zero => rfl
  | succ rounds ih =>
    obtain ⟨rfl, rfl, -⟩ | ⟨sel, a', b', hsel, hround⟩ := streamMergeLoop_round ja jb rounds ha hb
    · simp at h
    · rw [hround]
      by_cases hlarge : INT32_MAX < cursor + mergeMargin
      · have hfree : undefinedOverflow (cursor + mergeMargin) = none :=
          if_neg fun hin => absurd hin.2 (not_le.mpr hlarge)
        unfold addSelected
        rw [hfree]
        rfl
      · obtain ⟨⟨z, hz, hzlarge⟩, w, hw, hwlarge⟩ := h.resolve_left fun h => hlarge h.1
        cases addSelected undefinedOverflow mergeMargin cursor sel c with
        | none => rfl
        | some c₁ =>
          -- The interval that is selected is the one without room, or both are still to come.
          cases hsel with
          | first =>
            refine ih (forall_mem_cons.mp ha).2 hb ?_
            rcases mem_cons.mp hz with rfl | hz
            · exact .inl ⟨by omega, .inr (ne_nil_of_mem hw)⟩
            · exact .inr ⟨⟨z, hz, hzlarge⟩, w, hw, hwlarge⟩
          | second =>
            refine ih ha (forall_mem_cons.mp hb).2 ?_
            rcases mem_cons.mp hw with rfl | hw
            · exact .inl ⟨by omega, .inl (ne_nil_of_mem hz)⟩
            · exact .inr ⟨⟨z, hz, hzlarge⟩, w, hw, hwlarge⟩

section Twice

variable {vec : List Interval}

theorem mergeOne_first (hvalid : e.Valid) :
    mergeOne undefinedOverflow mergeMargin bits (mergeStart .empty) e =
      (rowIntervals undefinedOverflow mergeMargin bits false e).map fun vec =>
        ⟨[⟨0, vec.length⟩], vec ++ [sentinel], vec.length, 0⟩ := by
  have hforce : (decide (30000 < (mergeStart .empty).absorbed) ||
      decide (10 * ((mergeStart .empty).srcCount - (mergeStart .empty).absorbed) <
        (mergeStart .empty).srcCount)) = false := rfl
  unfold mergeOne
  rw [if_neg (not_not.mpr hvalid)]
  simp only [hforce]
  cases rowIntervals undefinedOverflow mergeMargin bits false e with
  | none => rfl
  | some vec => simp [mergeStart, empty, substackSize, fixMergeStackProperty]

theorem mergeMergesort_one (hvalid : e.Valid) :
    mergeMergesort undefinedOverflow mergeMargin bits .empty [e] =
      (rowIntervals undefinedOverflow mergeMargin bits false e).map fun vec =>
        ⟨vec.length, vec ++ [sentinel]⟩ := by
  unfold mergeMergesort
  rw [foldlM_cons, mergeOne_first hvalid]
  cases rowIntervals undefinedOverflow mergeMargin bits false e with
  | none => rfl
  | some vec => simp [fixMergeStackProperty]

/-- The same row again does not merge with itself if it does not fit. -/
theorem mergeMergesort_two (hvalid : e.Valid)
    (hrow : rowIntervals undefinedOverflow mergeMargin bits false e = some vec)
    (hstarts : ∀ x ∈ vec, x.1 < INT32_MAX) (hlarge : ∃ x ∈ vec, INT32_MAX < x.2 + mergeMargin) :
    mergeMergesort undefinedOverflow mergeMargin bits .empty [e, e] = none := by
  have hpos : 0 < vec.length := by
    obtain ⟨x, hx, -⟩ := hlarge
    exact length_pos_of_mem hx
  have hmerge : streamMerge undefinedOverflow mergeMargin (vec ++ sentinel :: [])
      (vec ++ sentinel :: (vec ++ [sentinel])) = none := by
    unfold streamMerge
    rw [streamMergeLoop_none [] _ _ hstarts hstarts (.inr ⟨hlarge, hlarge⟩)]
    rfl
  have hfix : fixMergeStackProperty undefinedOverflow mergeMargin false
      ⟨(vec ++ [sentinel]).length, vec.length⟩ [⟨0, vec.length⟩]
      (vec ++ [sentinel] ++ vec ++ [sentinel]) 0 = none := by
    have hshort : ¬ (2 * vec.length ≤ vec.length ∧ false = false) := by omega
    have htop : (vec ++ [sentinel] ++ vec ++ [sentinel]).drop (vec ++ [sentinel]).length =
        vec ++ sentinel :: [] := by
      rw [append_assoc, drop_left]
    have hnxt : vec ++ [sentinel] ++ vec ++ [sentinel] = vec ++ sentinel :: (vec ++ [sentinel]) := by
      simp
    unfold fixMergeStackProperty
    dsimp only
    rw [if_neg hshort, htop, drop_zero, hnxt, hmerge]
    rfl
  have hsecond : mergeOne undefinedOverflow mergeMargin bits
      ⟨[⟨0, vec.length⟩], vec ++ [sentinel], vec.length, 0⟩ e = none := by
    have hforce : (decide ((30000 : Int) < 0) ||
        decide (10 * ((vec.length : Int) - 0) < (vec.length : Int))) = false := by
      simp
      omega
    have hroom : [(⟨0, vec.length⟩ : MergeStackElem)].length < substackSize :=
      show 1 < 32 by decide
    unfold mergeOne
    rw [if_neg (not_not.mpr hvalid)]
    simp only [hforce, hrow, hfix, Option.bind_eq_bind, Option.bind_some, Option.bind_none]
    rw [if_pos hroom]
  unfold mergeMergesort
  rw [foldlM_cons, mergeOne_first hvalid, hrow]
  simp only [Option.map_some, Option.bind_eq_bind, Option.bind_some, foldlM_cons, hsecond,
    Option.bind_none]

end Twice

/-! ## Which rows are merged as required -/

/-- All fields are `int32_t`, and the stride is not negative. -/
structure ExtInterval.InRange (e : ExtInterval) : Prop where
  start : IsInt32 e.start
  width : IsInt32 e.width
  rep : IsInt32 e.rep
  stride : IsInt32 e.stride
  stride_nonneg : 0 ≤ e.stride

/-- The merge returns a sorted list of nonempty intervals with aligned ends and gaps of the margin or
more, which covers the old list, and every interval of the rows up to the largest aligned value below
`INT32_MAX`; before every round, the stack has room for one more element. -/
def MergesWell (bits : Nat) (old : DamageList) (news : List ExtInterval) : Prop :=
  (∃ out, mergeMergesort undefinedOverflow mergeMargin bits old news = some out ∧
    Separated mergeMargin out.intervals ∧
    (∀ x ∈ out.intervals, (2 : Int) ^ bits ∣ x.1 ∧ (2 : Int) ^ bits ∣ x.2) ∧
    (∀ p, Covers old.intervals p → Covers out.intervals p) ∧
    ∀ e ∈ news, 0 ≤ e.start → 0 < e.width → ∀ p, e.InRow p →
      p < alignDown bits (INT32_MAX - 1) → Covers out.intervals p) ∧
  ∀ k, ∃ s, (news.take k).foldlM (mergeOne undefinedOverflow mergeMargin bits) (mergeStart old) =
    some s ∧ s.substack.length < substackSize

theorem MergesWell.of_admissible (hbits : bits ≤ 6) (hold : old.Stored bits)
    {news : List ExtInterval} (hnews : ∀ e ∈ news, Admissible bits e) :
    MergesWell bits old news := by
  constructor
  · obtain ⟨out, hrun, -, htidy, hcovers⟩ := mergeMergesort_spec hbits hold hnews
    refine ⟨out, hrun, htidy.separated, fun x hx => (htidy.placed x hx).aligned,
      fun p hp => hcovers p (.inl hp), ?_⟩
    intro e he hstart hwidth p hp _
    refine hcovers p (.inr ⟨e, he, ?_, hp⟩)
    obtain ⟨i, hi, hlt, -⟩ := hp
    unfold ExtInterval.Valid
    omega
  · intro k
    obtain ⟨ls, hstart, -⟩ := mergeStart_has hold
    obtain ⟨s, ls', hfold, h, -⟩ := foldlM_mergeOne_spec hbits (news.take k) hstart
      fun e he => hnews e (mem_of_mem_take he)
    exact ⟨s, hfold, h.substack_lt⟩

/-- A row that is merged as required, once and twice, is tame. -/
theorem tame_of_mergesWell (hbits : bits ≤ 6) (he : e.InRange) (hvalid : e.Valid)
    (hone : MergesWell bits .empty [e]) (htwo : MergesWell bits .empty [e, e]) :
    e.Tame bits := by
  obtain ⟨⟨out, hrun, hseparated, -⟩, -⟩ := hone
  rw [mergeMergesort_one hvalid] at hrun
  obtain ⟨vec, hrow, rfl⟩ := Option.map_eq_some_iff.mp hrun
  rw [intervals_mk] at hseparated
  obtain ⟨hends, hlarge⟩ := rowIntervals_end hvalid hrow
  have hfits : alignUp bits e.intvEnd + mergeMargin ≤ INT32_MAX := by
    by_contra hlt
    obtain ⟨⟨out, htwo, -⟩, -⟩ := htwo
    rw [mergeMergesort_two hvalid hrow
      (fun x hx => lt_of_lt_of_le (hseparated.nonempty x hx) (hends x hx)) (hlarge (not_le.mp hlt))]
      at htwo
    cases htwo
  refine ⟨hfits, ?_⟩
  intro hwidth i hi hlt
  -- The intervals of such a row are not combined, and rounding keeps them apart.
  have hpow := pow_bits_le hbits
  have hunpack := unpackExtInterval_eq hbits hvalid he.stride_nonneg
    hfits fun j _ _ => by
      have hup := alignUp_lt bits (e.start + j * e.stride + e.width)
      have hdown := lt_alignDown_add bits (e.start + (j + 1) * e.stride)
      rw [Int.add_mul, Int.one_mul] at hdown
      unfold mergeMargin at hwidth
      unfold piece
      rw [Int.add_mul, Int.one_mul]
      omega
  have hvec : vec = (range e.rep.toNat).map fun i : Nat => e.piece bits i := by
    unfold rowIntervals combined at hrow
    simp only [limited_of_fits hfits, longest_eq he.stride_nonneg he.stride.2, Option.bind_eq_bind,
      Option.bind_some] at hrow
    rw [if_neg (by rintro (h | h); exacts [absurd hwidth (not_le.mpr h), nomatch h])] at hrow
    exact Option.some.inj (hrow.symm.trans hunpack)
  have hap := hseparated.apart
  rw [hvec, pairwise_map] at hap
  have hnext := List.pairwise_iff_getElem.mp hap i.toNat (i.toNat + 1) (by simp; omega)
    (by simp; omega) (by omega)
  rw [getElem_range, getElem_range] at hnext
  push_cast at hnext
  rwa [Int.toNat_of_nonneg hi] at hnext

/-- Rows of a set can be merged as required, in any number and order and into whatever list earlier
merges of such rows have left, if and only if every row of the set that is not ignored is tame. -/
theorem mergeMergesort_covers_iff (bits : Nat) (hbits : bits ≤ 6) (rows : Set ExtInterval)
    (hrows : ∀ e ∈ rows, e.InRange) :
    (∀ calls old, (∀ news ∈ calls, ∀ e ∈ news, e ∈ rows) →
      mergeRuns undefinedOverflow bits calls = some old →
      ∀ news : List ExtInterval, (∀ e ∈ news, e ∈ rows) → MergesWell bits old news) ↔
    ∀ e ∈ rows, e.Valid → e.Tame bits := by
  constructor
  · intro h e he hvalid
    have hempty : mergeRuns undefinedOverflow bits [] = some .empty := rfl
    refine tame_of_mergesWell hbits (hrows e he) hvalid
      (h [] _ (fun _ hn => (nomatch hn)) hempty [e] ?_)
      (h [] _ (fun _ hn => (nomatch hn)) hempty [e, e] ?_)
    · simpa using he
    · simpa using he
  · intro h calls old hcalls hrun news hnews
    have hadm : ∀ e ∈ rows, Admissible bits e := fun e he =>
      ⟨(hrows e he).stride_nonneg, (hrows e he).stride.2, h e he⟩
    obtain ⟨out, hout, hstored⟩ := mergeRuns_stored hbits calls
      (show empty.Stored bits from .inl rfl)
      fun news' hn e he => hadm e (hcalls news' hn e he)
    have hold : out = old := Option.some.inj (hout.symm.trans hrun)
    subst hold
    exact MergesWell.of_admissible hbits hstored fun e he => hadm e (hnews e he)

/-- Two lines of a buffer, merged into a list that has them already. -/
theorem mergeMergesort_covers_iff_rows :
    ∃ old, mergeRuns undefinedOverflow 6 [[⟨64, 64, 2, 512⟩]] = some old ∧
      old.intervals = [(64, 128), (576, 640)] ∧ MergesWell 6 old [⟨64, 64, 2, 512⟩] := by
  have hrun : (mergeRuns undefinedOverflow 6 [[⟨64, 64, 2, 512⟩]]).map DamageList.intervals =
      some [(64, 128), (576, 640)] := by decide +kernel
  obtain ⟨old, hold, hintervals⟩ := Option.map_eq_some_iff.mp hrun
  refine ⟨old, hold, hintervals, (mergeMergesort_covers_iff 6 (by decide) {⟨64, 64, 2, 512⟩} ?_).mpr
    ?_ _ old ?_ hold _ ?_⟩
  · rintro e rfl
    exact ⟨by decide, by decide, by decide, by decide, by decide⟩
  · rintro e rfl -
    refine ⟨by decide, fun _ i hi hlt => ?_⟩
    obtain rfl : i = 0 := by
      change i + 1 < 2 at hlt
      omega
    decide
  · simp
  · simp

/-- An interval up to `INT32_MAX` overflows when its end is rounded; where the sum wraps around, its
end is then before its start.  Two intervals that are 256 bytes apart are 192 bytes apart when they
are rounded. -/
theorem mergeMergesort_uncovered :
    mergeMergesort undefinedOverflow mergeMargin 6 .empty [⟨0, 2147483647, 1, 0⟩] = none ∧
    (mergeMergesort wrappingOverflow mergeMargin 6 .empty [⟨0, 2147483647, 1, 0⟩]).map
      DamageList.intervals = some [(0, -2147483648)] ∧
    (mergeMergesort undefinedOverflow mergeMargin 6 .empty [⟨32, 64, 2, 320⟩]).map
      DamageList.intervals = some [(0, 128), (320, 448)] := by
  decide +kernel

end Waypipe.C
