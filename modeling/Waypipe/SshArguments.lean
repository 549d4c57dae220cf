import Mathlib.Data.List.Basic
import Mathlib.Data.List.TakeWhile
import Mathlib.Data.Set.Defs

/-!
# The hostname among the arguments of ssh

`waypipe ssh` looks for the hostname in the arguments that it passes on to ssh, and for whether ssh will
allocate a pseudo-terminal.  `locateOpensshCmdHostname` is the search as the code makes it, and
`grammarHostname` what it is to find by the grammar of ssh options.  The two agree on all argument lists
made of some options if and only if these are inert (`ssh_hostname_iff`): the characters of a value that
is joined to its letter are read as letters, too.
-/

namespace Waypipe.Ssh

open List

/-- The encoded bytes of an argument. -/
abbrev Word := List UInt8

def letter (c : Char) : UInt8 := .ofNat c.toNat

/-- The letters whose options take a value. -/
def argLetters : List UInt8 := "BbcDEeFIiJLlmOopQRSWw".toList.map letter

def dashDash : Word := [letter '-', letter '-']

def startsWithDash (arg : Word) : Bool := arg.head? == some (letter '-')

/-! ## The search -/

inductive HostnameError
  /-- `Failed to parse arguments after ssh: single '-'?` -/
  | singleDash
  /-- `Failed to locate ssh hostname in` the arguments. -/
  | notLocated (sshArgs : List Word)
deriving DecidableEq, Repr

/-- Loop over the letters of an argument, from `dst_idx` and `allocates_pty`. -/
def readLetters : List UInt8 → Nat × Bool → Nat × Bool
  | [], s => s
  | c :: cs, (dstIdx, allocatesPty) =>
    readLetters cs <|
      if c ∈ argLetters then
        -- the value is the next argument, or the tail of this one
        (if cs.isEmpty then dstIdx + 1 else dstIdx, allocatesPty)
      else if c = letter 't' then (dstIdx, true)
      else if c = letter 'T' then (dstIdx, false)
      else (dstIdx, allocatesPty)

/-- Loop over the arguments; each round eats at least one. -/
def locateLoop (sshArgs : List Word) : (fuel dstIdx : Nat) → (allocatesPty : Bool) →
    Except HostnameError (Nat × Bool)
  | 0, dstIdx, allocatesPty => .ok (dstIdx, allocatesPty)
  | fuel + 1, dstIdx, allocatesPty =>
    match sshArgs[dstIdx]? with
    | none => .ok (dstIdx, allocatesPty)
    | some baseArg =>
      if !startsWithDash baseArg then .ok (dstIdx, allocatesPty)
      else if baseArg.length = 1 then .error .singleDash
      else if baseArg = dashDash then .ok (dstIdx + 1, allocatesPty)
      else
        let s := readLetters baseArg.tail (dstIdx, allocatesPty)
        locateLoop sshArgs fuel (s.1 + 1) s.2

/-- Identify the index of the hostname in the arguments, and detect whether ssh will force
pseudo-terminal allocation. -/
def locateOpensshCmdHostname (sshArgs : List Word) : Except HostnameError (Nat × Bool) := do
  let (dstIdx, allocatesPty) ← locateLoop sshArgs sshArgs.length 0 false
  match sshArgs[dstIdx]? with
  | none => .error (.notLocated sshArgs)
  | some arg =>
    if startsWithDash arg then .error (.notLocated sshArgs) else .ok (dstIdx, allocatesPty)

/-! ## The grammar -/

/-- A cluster of letters: an argument that starts with `-` and is neither `-` nor `--`. -/
def IsCluster (w : Word) : Prop := startsWithDash w = true ∧ w.length ≠ 1 ∧ w ≠ dashDash

instance (w : Word) : Decidable (IsCluster w) := inferInstanceAs (Decidable (_ ∧ _ ∧ _))

def isFlag (c : UInt8) : Bool := c ∉ argLetters

/-- The flag letters of a cluster come first. -/
def flags (w : Word) : List UInt8 := w.tail.takeWhile isFlag

/-- What follows the letter that takes a value. -/
def joined (w : Word) : List UInt8 := (w.tail.dropWhile isFlag).tail

/-- The letter that takes a value is the last one, so that the value is the next word. -/
def takesNext (w : Word) : Bool := (w.tail.dropWhile isFlag).length = 1

/-- The option words of an argument list, the number of words before the operands, and the operands. -/
def readOptions : List Word → List Word × Nat × List Word
  | [] => ([], 0, [])
  | w :: rest =>
    if IsCluster w then
      if takesNext w then
        match rest with
        | [] => ([w], 1, [])
        | _ :: rest => (w :: (readOptions rest).1, (readOptions rest).2.1 + 2, (readOptions rest).2.2)
      else (w :: (readOptions rest).1, (readOptions rest).2.1 + 1, (readOptions rest).2.2)
    else if w = dashDash then ([], 1, rest)
    else ([], 0, w :: rest)

/-- Whether a terminal is allocated after some letters: the last of `t` and `T` decides. -/
def ptyAfter (allocatesPty : Bool) (letters : List UInt8) : Bool :=
  match (letters.filter fun c => c = letter 't' ∨ c = letter 'T').getLast? with
  | none => allocatesPty
  | some c => c = letter 't'

/-- The position of the first operand, unless that starts with `-`, and whether the last flag letter
among `t` and `T` is `t`. -/
def grammarHostname (sshArgs : List Word) : Option (Nat × Bool) :=
  match readOptions sshArgs with
  | (options, n, operand :: _) =>
    if startsWithDash operand then none else some (n, ptyAfter false (options.flatMap flags))
  | (_, _, []) => none

/-- The last of some characters is a letter that takes a value. -/
def lastTakes (cs : List UInt8) : Bool := cs.getLast?.any (· ∈ argLetters)

/-- A joined value is inert when its last character does not take a value, and its characters do not
change the last letter among `t` and `T`. -/
structure Inert (w : Word) : Prop where
  last : lastTakes (joined w) = false
  pty : ∀ allocatesPty, ptyAfter allocatesPty w.tail = ptyAfter allocatesPty (flags w)

/-! ## What the code reads -/

variable {w : Word} {cs : List UInt8} {d : Nat} {p : Bool}

theorem ptyAfter_cons (p : Bool) (c : UInt8) (cs : List UInt8) :
    ptyAfter p (c :: cs) =
      ptyAfter (if c = letter 't' then true else if c = letter 'T' then false else p) cs := by
  unfold ptyAfter
  by_cases ht : c = letter 't'
  · rw [if_pos ht, filter_cons_of_pos (by simp [ht]), getLast?_cons]
    cases (cs.filter fun c => c = letter 't' ∨ c = letter 'T').getLast? with
    | none => simp [ht]
    | some _ => rfl
  · rw [if_neg ht]
    by_cases hT : c = letter 'T'
    · rw [if_pos hT, filter_cons_of_pos (by simp [hT]), getLast?_cons]
      cases (cs.filter fun c => c = letter 't' ∨ c = letter 'T').getLast? with
      | none => simp [ht]
      | some _ => rfl
    · rw [if_neg hT, filter_cons_of_neg (by simp [ht, hT])]

theorem ptyAfter_append (p : Bool) (cs ds : List UInt8) :
    ptyAfter p (cs ++ ds) = ptyAfter (ptyAfter p cs) ds := by
  induction cs generalizing p with
  | nil => rfl
  | cons c cs ih => rw [cons_append, ptyAfter_cons, ih, ← ptyAfter_cons]

theorem readLetters_eq (cs : List UInt8) (d : Nat) (p : Bool) :
    readLetters cs (d, p) = (d + (lastTakes cs).toNat, ptyAfter p cs) := by
  have ht : letter 't' ∉ argLetters := by decide
  have hT : letter 'T' ∉ argLetters := by decide
  induction cs generalizing d p with
  | nil => rfl
  | cons c cs ih =>
    have hskip : (lastTakes (c :: cs)).toNat =
        (if c ∈ argLetters ∧ cs.isEmpty then 1 else 0) + (lastTakes cs).toNat := by
      cases cs with
      | nil => by_cases hc : c ∈ argLetters <;> simp [lastTakes, hc]
      | cons b bs => simp [lastTakes, getLast?_cons_cons]
    rw [ptyAfter_cons, hskip, readLetters]
    by_cases hc : c ∈ argLetters
    · have hct : c ≠ letter 't' := fun h => ht (h ▸ hc)
      have hcT : c ≠ letter 'T' := fun h => hT (h ▸ hc)
      rw [if_pos hc, ih, if_neg hct, if_neg hcT]
      cases cs.isEmpty <;> simp [hc]
      omega
    · simp only [hc, if_false, false_and]
      split
      · rw [ih, Nat.zero_add]
      · split
        · rw [ih, Nat.zero_add]
        · rw [ih, Nat.zero_add]

/-- The next word is skipped for the letter that takes it, and for the end of a joined value. -/
theorem lastTakes_tail (w : Word) : lastTakes w.tail = (takesNext w || lastTakes (joined w)) := by
  unfold takesNext joined
  have hsplit : w.tail.takeWhile isFlag ++ w.tail.dropWhile isFlag = w.tail :=
    takeWhile_append_dropWhile
  cases hdrop : w.tail.dropWhile isFlag with
  | nil =>
    have hall : ∀ c ∈ w.tail, isFlag c = true := dropWhile_eq_nil_iff.mp hdrop
    cases hlast : w.tail.getLast? with
    | none => simp [lastTakes, hlast]
    | some c =>
      have hc := hall c (mem_of_getLast? hlast)
      simpa [lastTakes, hlast, isFlag] using hc
  | cons c value =>
    rw [hdrop] at hsplit
    have hc : c ∈ argLetters := by
      have hhead := head?_dropWhile_not isFlag w.tail
      rw [hdrop] at hhead
      simpa [isFlag] using hhead
    rw [← hsplit]
    cases value with
    | nil => simp [lastTakes, hc]
    | cons b bs =>
      have hlast : (w.tail.takeWhile isFlag ++ c :: b :: bs).getLast? = (b :: bs).getLast? := by
        rw [getLast?_append_of_ne_nil _ (cons_ne_nil c _), getLast?_cons_cons]
      simp [lastTakes, hlast]

section Loop

variable {args rest : List Word} {fuel : Nat}

theorem getElem?_of_drop (h : args.drop d = w :: rest) : args[d]? = some w := by
  rw [← head?_drop, h]
  rfl

theorem drop_succ (h : args.drop d = w :: rest) : args.drop (d + 1) = rest := by
  rw [← drop_drop, h]
  rfl

/-- A cluster is eaten, with all its characters read as letters. -/
theorem locateLoop_cluster (h : args.drop d = w :: rest) (hw : IsCluster w) :
    locateLoop args (fuel + 1) d p =
      locateLoop args fuel (d + (lastTakes w.tail).toNat + 1) (ptyAfter p w.tail) := by
  rw [locateLoop, getElem?_of_drop h]
  simp only [hw.1, hw.2.1, hw.2.2, Bool.not_true, Bool.false_eq_true, if_false, readLetters_eq]

/-- Whatever is no cluster ends the options. -/
theorem locateLoop_operand (h : args.drop d = w :: rest) (hw : ¬ IsCluster w) :
    locateLoop args (fuel + 1) d p =
      if w = [letter '-'] then .error .singleDash
      else .ok (if w = dashDash then d + 1 else d, p) := by
  have hsingle : w = [letter '-'] ↔ startsWithDash w = true ∧ w.length = 1 := by
    constructor
    · rintro rfl
      decide
    · rintro ⟨hdash, hlen⟩
      obtain ⟨c, rfl⟩ := length_eq_one_iff.mp hlen
      simpa [startsWithDash] using hdash
  rw [locateLoop, getElem?_of_drop h]
  dsimp only
  by_cases hdash : startsWithDash w = true
  · by_cases hlen : w.length = 1
    · rw [if_pos (hsingle.mpr ⟨hdash, hlen⟩)]
      simp [hdash, hlen]
    · have hdd : w = dashDash := by
        by_contra hne
        exact hw ⟨hdash, hlen, hne⟩
      rw [if_neg (fun h => hlen (hsingle.mp h).2), if_pos hdd]
      subst hdd
      rfl
  · have hdd : w ≠ dashDash := by
      rintro rfl
      exact hdash rfl
    rw [if_neg (fun h => hdash (hsingle.mp h).1)]
    simp only [hdash, hdd, Bool.not_false, if_true, if_false]

theorem readOptions_joined (hw : IsCluster w) (hnext : takesNext w = false) :
    readOptions (w :: rest) =
      (w :: (readOptions rest).1, (readOptions rest).2.1 + 1, (readOptions rest).2.2) := by
  cases rest <;> simp [readOptions, hw, hnext]

theorem readOptions_apart {value : Word} (hw : IsCluster w) (hnext : takesNext w = true) :
    readOptions (w :: value :: rest) =
      (w :: (readOptions rest).1, (readOptions rest).2.1 + 2, (readOptions rest).2.2) := by
  simp [readOptions, hw, hnext]

theorem readOptions_missing (hw : IsCluster w) (hnext : takesNext w = true) :
    readOptions [w] = ([w], 1, []) := by
  simp [readOptions, hw, hnext]

theorem readOptions_operand (hw : ¬ IsCluster w) :
    readOptions (w :: rest) = if w = dashDash then ([], 1, rest) else ([], 0, w :: rest) := by
  cases rest <;> rw [readOptions, if_neg hw]

/-- The operands are the words that are left after the options. -/
theorem readOptions_drop (rest : List Word) :
    rest.drop (readOptions rest).2.1 = (readOptions rest).2.2 := by
  induction rest using readOptions.induct with
  | case1 => rfl
  | case2 w hw hnext => rw [readOptions_missing hw hnext]; rfl
  | case3 w hw hnext value rest ih => rw [readOptions_apart hw hnext, ← ih]; rfl
  | case4 w rest hw hnext ih =>
    rw [readOptions_joined hw (by simpa using hnext), ← ih]
    rfl
  | case5 rest hw => rw [readOptions_operand hw, if_pos rfl]; rfl
  | case6 w rest hw hne => rw [readOptions_operand hw, if_neg hne]; rfl

theorem readOptions_isCluster (h : w ∈ (readOptions rest).1) : IsCluster w := by
  induction rest using readOptions.induct with
  | case1 => cases h
  | case2 u hu hnext =>
    rw [readOptions_missing hu hnext] at h
    exact mem_singleton.mp h ▸ hu
  | case3 u hu hnext value rest ih =>
    rw [readOptions_apart hu hnext] at h
    exact (mem_cons.mp h).elim (fun h => h ▸ hu) ih
  | case4 u rest hu hnext ih =>
    rw [readOptions_joined hu (by simpa using hnext)] at h
    exact (mem_cons.mp h).elim (fun h => h ▸ hu) ih
  | case5 rest hu =>
    rw [readOptions_operand hu, if_pos rfl] at h
    cases h
  | case6 u rest hu hne =>
    rw [readOptions_operand hu, if_neg hne] at h
    cases h

/-- What the loop returns on inert options, from the place where some words are left. -/
theorem locateLoop_inert (hd : args.drop d = rest) (hfuel : rest.length ≤ fuel)
    (hinert : ∀ w ∈ (readOptions rest).1, Inert w) :
    (∃ more, (readOptions rest).2.2 = [letter '-'] :: more ∧
      locateLoop args fuel d p = .error .singleDash) ∨
    ∃ n, args.drop n = (readOptions rest).2.2 ∧
      locateLoop args fuel d p = .ok (n, ptyAfter p ((readOptions rest).1.flatMap flags)) := by
  induction rest using readOptions.induct generalizing d fuel p with
  | case1 =>
    right
    refine ⟨d, hd, ?_⟩
    cases fuel with
    | zero => rfl
    | succ fuel =>
      rw [locateLoop, ← head?_drop, hd]
      rfl
  | case2 w hw hnext =>
    obtain ⟨fuel, rfl⟩ : ∃ k, fuel = k + 1 := ⟨fuel - 1, by simp at hfuel; omega⟩
    rw [readOptions_missing hw hnext] at hinert ⊢
    right
    have hw' := hinert w mem_cons_self
    have hdrop : args.drop (d + 2) = [] := by
      rw [← drop_drop, hd]
      rfl
    refine ⟨d + 2, hdrop, ?_⟩
    rw [locateLoop_cluster hd hw, lastTakes_tail, hnext, hw'.pty]
    show locateLoop args fuel (d + 2) _ = _
    rw [flatMap_singleton]
    cases fuel with
    | zero => rfl
    | succ fuel =>
      rw [locateLoop, ← head?_drop, hdrop]
      rfl
  | case3 w hw hnext value rest ih =>
    obtain ⟨fuel, rfl⟩ : ∃ k, fuel = k + 1 := ⟨fuel - 1, by simp at hfuel; omega⟩
    rw [readOptions_apart hw hnext] at hinert ⊢
    have hw' := hinert w mem_cons_self
    rw [locateLoop_cluster hd hw, lastTakes_tail, hnext, hw'.pty, flatMap_cons, ptyAfter_append]
    refine ih (drop_succ (drop_succ hd)) (by simp at hfuel; omega) ?_
    exact fun u hu => hinert u (mem_cons_of_mem _ hu)
  | case4 w rest hw hnext ih =>
    obtain ⟨fuel, rfl⟩ : ∃ k, fuel = k + 1 := ⟨fuel - 1, by simp at hfuel; omega⟩
    have hnext : takesNext w = false := by simpa using hnext
    rw [readOptions_joined hw hnext] at hinert ⊢
    have hw' := hinert w mem_cons_self
    rw [locateLoop_cluster hd hw, lastTakes_tail, hnext, hw'.last, hw'.pty, flatMap_cons,
      ptyAfter_append]
    refine ih (drop_succ hd) (by simpa using hfuel) ?_
    exact fun u hu => hinert u (mem_cons_of_mem _ hu)
  | case5 rest hw =>
    obtain ⟨fuel, rfl⟩ : ∃ k, fuel = k + 1 := ⟨fuel - 1, by simp at hfuel; omega⟩
    rw [readOptions_operand hw, if_pos rfl, locateLoop_operand hd hw, if_neg (by decide), if_pos rfl]
    exact .inr ⟨d + 1, drop_succ hd, rfl⟩
  | case6 w rest hw hne =>
    obtain ⟨fuel, rfl⟩ : ∃ k, fuel = k + 1 := ⟨fuel - 1, by simp at hfuel; omega⟩
    rw [readOptions_operand hw, if_neg hne, locateLoop_operand hd hw, if_neg hne]
    by_cases hsingle : w = [letter '-']
    · rw [if_pos hsingle, hsingle]
      exact .inl ⟨rest, rfl, rfl⟩
    · rw [if_neg hsingle]
      exact .inr ⟨d, hd, rfl⟩

/-- On inert options the search finds what the grammar has. -/
theorem locate_inert (hinert : ∀ w ∈ (readOptions args).1, Inert w) :
    (locateOpensshCmdHostname args).toOption = grammarHostname args := by
  have hdrop := readOptions_drop args
  unfold locateOpensshCmdHostname grammarHostname
  rcases locateLoop_inert (p := false) (drop_zero (l := args)) (Nat.le_refl _) hinert with
    ⟨more, hops, hloop⟩ | ⟨n, hn, hloop⟩
  · rw [hloop]
    generalize readOptions args = r at *
    obtain ⟨options, k, ops⟩ := r
    subst hops
    rfl
  · rw [hloop]
    generalize readOptions args = r at *
    obtain ⟨options, k, ops⟩ := r
    dsimp only at hdrop hn ⊢
    cases ops with
    | nil =>
      have hnone : args[n]? = none := by rw [← head?_drop, hn]; rfl
      show (match args[n]? with
      | none => _
      | some arg => _ : Except HostnameError (Nat × Bool)).toOption = none
      rw [hnone]
      rfl
    | cons operand more =>
      have hnk : n = k := by
        have h₁ := congrArg List.length hn
        have h₂ := congrArg List.length hdrop
        simp only [length_drop, length_cons] at h₁ h₂
        omega
      subst hnk
      show (match args[n]? with
        | none => _
        | some arg => _ : Except HostnameError (Nat × Bool)).toOption = _
      rw [getElem?_of_drop hn]
      dsimp only
      split
      · rfl
      · rfl

end Loop

/-- A value that is the next word is not read as letters. -/
theorem inert_of_takesNext (hnext : takesNext w = true) : Inert w := by
  obtain ⟨c, hc⟩ := length_eq_one_iff.mp (of_decide_eq_true hnext)
  have hjoined : joined w = [] := by
    unfold joined
    rw [hc]
    rfl
  have hletter : c ∈ argLetters := by
    have hhead := head?_dropWhile_not isFlag w.tail
    rw [hc] at hhead
    simpa [isFlag] using hhead
  have hsplit : w.tail = flags w ++ [c] := by
    rw [← hc]
    exact takeWhile_append_dropWhile.symm
  constructor
  · rw [hjoined]
    rfl
  · intro p
    have ht : c ≠ letter 't' := by
      rintro rfl
      exact absurd hletter (by decide)
    have hT : c ≠ letter 'T' := by
      rintro rfl
      exact absurd hletter (by decide)
    rw [hsplit, ptyAfter_append, ptyAfter_cons, if_neg ht, if_neg hT]
    rfl

def host : Word := [letter 'h']

theorem host_not_isCluster : ¬ IsCluster host := by decide

theorem readOptions_host (hw : IsCluster w) (hnext : takesNext w = false) :
    readOptions [w, host] = ([w], 1, [host]) := by
  rw [readOptions_joined hw hnext]
  rfl

theorem grammarHostname_host {args options : List Word} {n : Nat}
    (h : readOptions args = (options, n, [host])) :
    grammarHostname args = some (n, ptyAfter false (options.flatMap flags)) := by
  unfold grammarHostname
  rw [h]
  rfl

/-- A word whose value is joined, before the hostname. -/
theorem locateLoop_host {args : List Word} {fuel : Nat} (h : args.drop d = [w, host]) (hw : IsCluster w)
    (hnext : takesNext w = false) (hlast : lastTakes (joined w) = false) :
    locateLoop args (fuel + 2) d p = .ok (d + 1, ptyAfter p w.tail) := by
  rw [locateLoop_cluster h hw, lastTakes_tail, hnext, hlast]
  show locateLoop args (fuel + 1) (d + 1) _ = _
  rw [locateLoop_operand (drop_succ h) host_not_isCluster, if_neg (by decide), if_neg (by decide)]

/-- The search finds the hostname and the terminal letters of all argument lists that are made of some
option words, and of `-t`, if and only if the values that are joined to them are inert. -/
theorem ssh_hostname_iff (options : Set Word) :
    (∀ args, (∀ w ∈ (readOptions args).1, w ∈ options ∨ w = [letter '-', letter 't']) →
      (locateOpensshCmdHostname args).toOption = grammarHostname args) ↔
    ∀ w ∈ options, IsCluster w → Inert w := by
  constructor
  · intro h w hmem hw
    cases hnext : takesNext w with
    | true => exact inert_of_takesNext hnext
    | false =>
      have hread := readOptions_host hw hnext
      have halone := h [w, host] (by simp [hread, hmem])
      -- the hostname is skipped for the end of the value
      have hlast : lastTakes (joined w) = false := by
        by_contra hlast
        have hloop : locateLoop [w, host] 2 0 false = .ok (2, ptyAfter false w.tail) := by
          rw [locateLoop_cluster rfl hw, lastTakes_tail, hnext, eq_true_of_ne_false hlast]
          rfl
        have hcode : locateOpensshCmdHostname [w, host] = .error (.notLocated [w, host]) := by
          unfold locateOpensshCmdHostname
          rw [show [w, host].length = 2 from rfl, hloop]
          rfl
        rw [hcode, grammarHostname_host hread] at halone
        cases halone
      refine ⟨hlast, fun p => ?_⟩
      cases p with
      | false =>
        have hcode : locateOpensshCmdHostname [w, host] = .ok (1, ptyAfter false w.tail) := by
          unfold locateOpensshCmdHostname
          rw [show [w, host].length = 0 + 2 from rfl, locateLoop_host rfl hw hnext hlast]
          rfl
        rw [hcode, grammarHostname_host hread, flatMap_singleton] at halone
        exact congrArg Prod.snd (Option.some.inj halone)
      | true =>
        let args : List Word := [[letter '-', letter 't'], w, host]
        have hread : readOptions args = ([[letter '-', letter 't'], w], 2, [host]) := by
          rw [readOptions_joined (by decide) (by decide), hread]
        have hafter := h args (by simp [hread, hmem])
        have hcode : locateOpensshCmdHostname args = .ok (2, ptyAfter true w.tail) := by
          unfold locateOpensshCmdHostname
          rw [show args.length = 1 + 2 from rfl, locateLoop_cluster rfl (by decide)]
          rw [show lastTakes [letter '-', letter 't'].tail = false from rfl]
          rw [show ptyAfter false [letter '-', letter 't'].tail = true from rfl]
          rw [locateLoop_host rfl hw hnext hlast]
          rfl
        rw [hcode, grammarHostname_host hread] at hafter
        have hpty := congrArg Prod.snd (Option.some.inj hafter)
        rw [flatMap_cons, flatMap_singleton, ptyAfter_append] at hpty
        exact hpty
  · intro h args hargs
    apply locate_inert
    intro w hw
    rcases hargs w hw with hmem | rfl
    · exact h w hmem (readOptions_isCluster hw)
    · exact ⟨rfl, fun p => rfl⟩

/-- With `-lbob` the hostname is skipped, since `b` takes a value; with `-lroot` the `t` of the value
allocates a terminal; and of `-tlfoo host command` the command is taken for the hostname. -/
theorem ssh_value_misread :
    (locateOpensshCmdHostname (["-lbob", "host"].map fun s => s.toList.map letter)).toOption = none ∧
    grammarHostname (["-lbob", "host"].map fun s => s.toList.map letter) = some (1, false) ∧
    (locateOpensshCmdHostname (["-lroot", "host"].map fun s => s.toList.map letter)).toOption =
      some (1, true) ∧
    grammarHostname (["-lroot", "host"].map fun s => s.toList.map letter) = some (1, false) ∧
    (locateOpensshCmdHostname (["-tlfoo", "host", "command"].map fun s =>
      s.toList.map letter)).toOption =
      some (2, true) ∧
    grammarHostname (["-tlfoo", "host", "command"].map fun s => s.toList.map letter) =
      some (1, true) := by
  decide +kernel

end Waypipe.Ssh
