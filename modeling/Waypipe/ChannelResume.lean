import Waypipe.ProcessChannel
import Waypipe.Wayland.Stream

/-!
# Interrupted messages from the channel

A protocol message may be interrupted before any of its Wayland messages, as often as there is a
reason to.  `ChanItem` is a message from the channel as the other instance means it, and
`processItems` processes a list of them without any bytes: what is left of an interrupted message is
the list of the messages that are left.  `processChannel` does the same on the bytes
(`processFrom_items`), so no message is lost, repeated or split, and none is counted twice
(`channel_resumes`).
-/

namespace Waypipe

open Wayland LeBytes Channel Transition List
open Res (bind_eq_ok ok_bind)

variable {s t : Channel}

/-! ## Messages and their bytes -/

/-- The bytes of some Wayland messages. -/
def msgBytes (msgs : List WaylandMsg) : List UInt8 := msgs.flatMap WaylandMsg.bytes

/-- A message from the channel. -/
inductive ChanItem where
  | protocol (msgs : List WaylandMsg) (fits : (msgBytes msgs).length + 4 < 2 ^ 27)
  /-- A message of another type, with the padding. -/
  | other (typ : WmsgType) (length : Nat) (data : List UInt8) (hasHeader : 4 ≤ data.length)
      (header : parseWmsgHeader (leNat (data.take 4)) = some (length, typ))
      (fits : length ≤ data.length) (notProtocol : typ ≠ .protocol)

namespace ChanItem

/-- The bytes that are in the read buffer. -/
def bytes : ChanItem → List UInt8
  | protocol msgs _ => u32le (((msgBytes msgs).length + 4) * 2 ^ 5 + WmsgType.protocol.code) ++
      msgBytes msgs
  | other _ _ data _ _ _ _ => data

/-- The Wayland messages in it. -/
def msgs : ChanItem → List WaylandMsg
  | protocol msgs _ => msgs
  | other _ _ _ _ _ _ _ => []

def counts : ChanItem → Bool
  | protocol _ _ => true
  | other typ _ _ _ _ _ _ => Channel.counts typ

end ChanItem

theorem msgBytes_append (ms ns : List WaylandMsg) :
    msgBytes (ms ++ ns) = msgBytes ms ++ msgBytes ns := flatMap_append

theorem msgBytes_cons (m : WaylandMsg) (ms : List WaylandMsg) :
    msgBytes (m :: ms) = m.bytes ++ msgBytes ms := flatMap_cons

theorem msgBytes_mod (ms : List WaylandMsg) : (msgBytes ms).length % 4 = 0 := by
  induction ms with
  | nil => rfl
  | cons m ms ih =>
    have hm := m.aligned
    rw [msgBytes_cons, length_append]
    omega

/-- Wayland messages are not empty. -/
theorem length_le_msgBytes (ms : List WaylandMsg) : ms.length ≤ (msgBytes ms).length := by
  induction ms with
  | nil => exact Nat.le_refl 0
  | cons m ms ih =>
    have hm := m.hasHeader
    rw [msgBytes_cons, length_append, length_cons]
    omega

theorem splitMsg_append (m : WaylandMsg) (tail : List UInt8) :
    splitMsg (m.bytes ++ tail) = .ok (m, tail) := by
  have h8 := m.hasHeader
  have hheader : leNat (((m.bytes ++ tail).drop 4).take 4) / 2 ^ 16 = m.bytes.length := by
    have hdrop : ((m.bytes ++ tail).drop 4).take 4 = (m.bytes.drop 4).take 4 := by
      rw [drop_append_of_le_length (by omega), take_append_of_le_length]
      rw [length_drop]
      omega
    rw [hdrop]
    exact m.framed
  have hcond : 8 ≤ leNat (((m.bytes ++ tail).drop 4).take 4) / 2 ^ 16 ∧
      leNat (((m.bytes ++ tail).drop 4).take 4) / 2 ^ 16 % 4 = 0 ∧
      leNat (((m.bytes ++ tail).drop 4).take 4) / 2 ^ 16 ≤ (m.bytes ++ tail).length := by
    rw [hheader, length_append]
    have := m.aligned
    omega
  unfold splitMsg
  rw [if_neg (by rw [length_append]; omega)]
  dsimp only
  rw [dif_pos hcond]
  refine congrArg Except.ok (Prod.ext ?_ ?_)
  · refine WaylandMsg.eq_of_bytes ?_
    show (m.bytes ++ tail).take _ = _
    rw [hheader, take_left]
  · show (m.bytes ++ tail).drop _ = _
    rw [hheader, drop_left]

/-! ## Processing without bytes -/

/-- How far the messages of one protocol message have got. -/
structure Progress where
  rest : List WaylandMsg
  waitingFor : Option Rid
  ctx : Ctx
  done : List WaylandMsg

/-- As bytes. -/
def Progress.region (p : Progress) : Region where
  rest := msgBytes p.rest
  waitingFor := p.waitingFor
  ctx := p.ctx
  done := p.done

section

variable (proc : WaylandMsg → Handler)
  (sfdMsg : WmsgType → List UInt8 → GlobAct (Option ApplyTask))

/-- Process messages until one of them has to wait. -/
def processMsgs : List WaylandMsg → Ctx → Res Progress
  | [], c => .ok { rest := [], waitingFor := none, ctx := c, done := [] }
  | msg :: msgs, c => do
    match ← proc msg c with
    | (.done, c) =>
      let p ← processMsgs msgs c
      return { p with done := msg :: p.done }
    | (.waitFor rid, ctx) =>
      return {
        rest := msg :: msgs
        waitingFor := some rid
        ctx := { ctx with core := { ctx.core with out := c.core.out } }
        done := [] }
    | (.needsSpace nbytes nfds, ctx) =>
      let capacity := c.core.out.capacity
      if capacity < nbytes ∨ MAX_OUTGOING_FDS < nfds then
        fail (s!"Failed to send message(s): not enough space, ({nbytes}, {nfds}) vs " ++
          s!"({capacity}, {MAX_OUTGOING_FDS})")
      else return {
        rest := msg :: msgs
        waitingFor := none
        ctx := { ctx with core := { ctx.core with out := c.core.out } }
        done := [] }

/-- No message is lost, and none is done twice. -/
theorem processMsgs_conserves {msgs : List WaylandMsg} {c : Ctx} {p : Progress}
    (h : processMsgs proc msgs c = .ok p) : p.done ++ p.rest = msgs := by
  induction msgs generalizing c p with
  | nil =>
    cases h
    rfl
  | cons msg msgs ih =>
    obtain ⟨⟨r, c'⟩, -, h⟩ := bind_eq_ok.mp h
    cases r with
    | done =>
      obtain ⟨p', hp', h⟩ := bind_eq_ok.mp h
      cases h
      exact congrArg (msg :: ·) (ih hp')
    | waitFor rid =>
      cases h
      rfl
    | needsSpace nbytes nfds =>
      dsimp only at h
      split at h
      · cases h
      · cases h
        rfl

/-- The loop over the bytes of messages is the loop over the messages. -/
theorem processRegion_msgBytes (msgs : List WaylandMsg) (fuel : Nat) (c : Ctx)
    (hfuel : msgs.length ≤ fuel) :
    processRegion proc fuel (msgBytes msgs) c =
      (processMsgs proc msgs c).map Progress.region := by
  induction msgs generalizing fuel c with
  | nil =>
    cases fuel with
    | zero => rfl
    | succ fuel => rfl
  | cons msg msgs ih =>
    obtain ⟨fuel, rfl⟩ : ∃ n, fuel = n + 1 := ⟨fuel - 1, by rw [length_cons] at hfuel; omega⟩
    have hne : (msgBytes (msg :: msgs)).isEmpty = false := by
      have h8 := msg.hasHeader
      rw [isEmpty_eq_false_iff, ← length_pos_iff, msgBytes_cons, length_append]
      omega
    have hsplit : splitMsg (msgBytes (msg :: msgs)) = .ok (msg, msgBytes msgs) := by
      rw [msgBytes_cons]
      exact splitMsg_append msg _
    unfold processRegion processMsgs
    rw [if_neg (by rw [hne]; decide), hsplit, ok_bind]
    dsimp only
    cases hproc : proc msg c with
    | error e => rfl
    | ok x =>
      obtain ⟨r, c'⟩ := x
      rw [ok_bind, ok_bind]
      cases r with
      | done =>
        dsimp only
        rw [ih fuel c' (by rw [length_cons] at hfuel; omega)]
        cases processMsgs proc msgs c' with
        | error e => rfl
        | ok p => rfl
      | waitFor rid => rfl
      | needsSpace nbytes nfds =>
        dsimp only
        split
        · rfl
        · rfl

/-- One message; what is left of it is returned. -/
def processItem (s : Channel) : ChanItem → Res (Option ChanItem × Channel)
  | .protocol msgs fits => do
    assert (s.outputStart == 0) "chan_msg.output.start == 0"
    let p ← processMsgs proc msgs s.ctx
    let t := { s with
      ctx := p.ctx
      hasFirstMessage := true
      waitingFor := p.waitingFor.or s.waitingFor
      done := s.done ++ p.done }
    if h : p.rest ≠ [] ∧ (msgBytes p.rest).length ≤ (msgBytes msgs).length then
      return (some (.protocol p.rest (by omega)), t)
    else return (none, { t with messageCounter := s.messageCounter + 1 })
  | .other typ length data _ _ _ _ => do
    let t := { s with
      messageCounter := s.messageCounter + if Channel.counts typ then 1 else 0
      hasFirstMessage := true }
    return (none, ← Channel.processOther sfdMsg typ (!s.hasFirstMessage) data (data.take length) t)

/-- The messages that are left, and the state. -/
def processItems : List ChanItem → Channel → Res (List ChanItem × Channel)
  | [], s => .ok ([], s)
  | item :: items, s => do
    match ← processItem proc sfdMsg s item with
    | (none, s) => processItems items s
    | (some rest, s) => return (rest :: items, s)

variable {proc sfdMsg}

theorem slice_zero {msg : List UInt8} {stop : Nat} (h : stop ≤ msg.length) :
    slice msg 0 stop = .ok (msg.take stop) := slice_of_le ⟨Nat.zero_le _, h⟩

/-- What is left of a message is made into a message. -/
theorem shorten_protocol {done rest : List WaylandMsg}
    (fits : (msgBytes (done ++ rest)).length + 4 < 2 ^ 27)
    (fits' : (msgBytes rest).length + 4 < 2 ^ 27) :
    shorten (ChanItem.protocol (done ++ rest) fits).bytes
      ((msgBytes (done ++ rest)).length + 4) (msgBytes rest).length =
        .ok (ChanItem.protocol rest fits').bytes := by
  have hmod := msgBytes_mod done
  have hlen : (ChanItem.protocol (done ++ rest) fits).bytes.length =
      (msgBytes (done ++ rest)).length + 4 := by
    show (_ ++ _ : List UInt8).length = _
    rw [length_append, length_u32le]
    omega
  have hsplit : (msgBytes (done ++ rest)).length =
      (msgBytes done).length + (msgBytes rest).length := by
    rw [msgBytes_append, length_append]
  have hskip : (msgBytes (done ++ rest)).length + 4 - ((msgBytes rest).length + 4) =
      (msgBytes done).length := by omega
  obtain ⟨header, hheader⟩ := buildWmsgHeader_ok .protocol fits'
  obtain ⟨-, hvalue⟩ := buildWmsgHeader_eq_ok hheader
  unfold shorten
  dsimp only
  rw [checkedSub_of_le (by omega), ok_bind, hskip, hheader, ok_bind,
    take_of_length_le (by omega), drop_eq_nil_of_le (by omega)]
  unfold writeAt
  rw [if_pos (by rw [length_u32le, hlen]; omega), ok_bind, append_nil, length_u32le]
  -- the new header ends where the messages that are left begin
  have htail : (ChanItem.protocol (done ++ rest) fits).bytes.drop ((msgBytes done).length + 4) =
      msgBytes rest := by
    show (u32le _ ++ msgBytes (done ++ rest)).drop _ = _
    rw [Nat.add_comm, ← drop_drop, drop_left' (length_u32le _), msgBytes_append, drop_left]
  have hhead : ((ChanItem.protocol (done ++ rest) fits).bytes.take (msgBytes done).length).length =
      (msgBytes done).length := by
    rw [length_take, hlen]
    omega
  unfold advance
  rw [assert_of (by rw [beq_iff_eq]; exact hmod), ok_bind]
  dsimp only
  rw [assert_of, ok_bind, htail, append_assoc, drop_left' hhead, hvalue]
  · rfl
  · rw [decide_eq_true_eq]
    simp only [length_append, hhead]
    omega

theorem msgBytes_pos {msgs : List WaylandMsg} (h : msgs ≠ []) : 0 < (msgBytes msgs).length :=
  Nat.lt_of_lt_of_le (length_pos_iff.mpr h) (length_le_msgBytes msgs)

/-- A protocol message is processed message by message. -/
theorem processProtocol_msgs {msgs : List WaylandMsg} (fits : (msgBytes msgs).length + 4 < 2 ^ 27) :
    processProtocol proc (ChanItem.protocol msgs fits).bytes
        (ChanItem.protocol msgs fits).bytes
        { s with messageCounter := s.messageCounter + 1, hasFirstMessage := true } =
      (processItem proc sfdMsg s (.protocol msgs fits)).map
        fun x => (x.1.map ChanItem.bytes, x.2) := by
  have hlen : (ChanItem.protocol msgs fits).bytes.length = (msgBytes msgs).length + 4 := by
    show (_ ++ _ : List UInt8).length = _
    rw [length_append, length_u32le, Nat.add_comm]
  have hdrop : (ChanItem.protocol msgs fits).bytes.drop 4 = msgBytes msgs :=
    drop_left' (length_u32le _)
  unfold processProtocol processItem
  dsimp only
  cases hstart : s.outputStart == 0 with
  | false => rfl
  | true =>
    rw [assert_of rfl, ok_bind, ok_bind, if_neg (by rw [hlen]; omega), hlen, hdrop,
      Nat.add_sub_cancel, processRegion_msgBytes proc msgs _ _ (length_le_msgBytes msgs)]
    cases hp : processMsgs proc msgs s.ctx with
    | error e => rfl
    | ok p =>
      have hmsgs : p.done ++ p.rest = msgs := processMsgs_conserves proc hp
      rw [show Except.map Progress.region (.ok p) = .ok p.region from rfl, ok_bind, ok_bind]
      dsimp only [Progress.region]
      by_cases hrest : p.rest = []
      · have hzero : ¬ 0 < (msgBytes p.rest).length := by
          rw [hrest]
          exact Nat.lt_irrefl 0
        refine (if_neg hzero).trans ?_
        rw [dif_neg fun h => h.1 hrest]
        rfl
      · have hle : (msgBytes p.rest).length ≤ (msgBytes msgs).length := by
          rw [← hmsgs, msgBytes_append, length_append]
          omega
        refine (if_pos (msgBytes_pos hrest)).trans ?_
        rw [dif_pos ⟨hrest, hle⟩]
        subst hmsgs
        rw [shorten_protocol fits (by omega), ok_bind, checkedSub_of_le (by omega), ok_bind,
          Nat.add_sub_cancel]
        rfl

/-- One message, by its bytes and by its meaning. -/
theorem processView_item (item : ChanItem) (s : Channel) :
    processView proc sfdMsg item.bytes s =
      (processItem proc sfdMsg s item).map fun x => (x.1.map ChanItem.bytes, x.2) := by
  cases item with
  | protocol msgs fits =>
    have hlen : (ChanItem.protocol msgs fits).bytes.length = (msgBytes msgs).length + 4 := by
      show (_ ++ _ : List UInt8).length = _
      rw [length_append, length_u32le, Nat.add_comm]
    have htake : (ChanItem.protocol msgs fits).bytes.take 4 =
        u32le (((msgBytes msgs).length + 4) * 2 ^ 5 + WmsgType.protocol.code) :=
      take_left' (length_u32le _)
    obtain ⟨header, hheader⟩ := buildWmsgHeader_ok .protocol fits
    obtain ⟨-, hvalue⟩ := buildWmsgHeader_eq_ok hheader
    have hparse : parseWmsgHeader (leNat ((ChanItem.protocol msgs fits).bytes.take 4)) =
        some ((msgBytes msgs).length + 4, .protocol) := by
      have hcode := WmsgType.protocol.code_lt
      have hword : leNat (u32le header) = header := leNat_leBytes_of_lt (by omega)
      rw [htake, ← hvalue, hword]
      exact parseWmsgHeader_build hheader
    unfold processView
    rw [slice_zero (by omega), ok_bind]
    dsimp only
    rw [hparse]
    dsimp only
    rw [slice_zero (by omega), ok_bind, take_of_length_le (by omega)]
    exact processProtocol_msgs fits
  | other typ length data hasHeader header fits notProtocol =>
    have hbytes : (ChanItem.other typ length data hasHeader header fits notProtocol).bytes = data :=
      rfl
    unfold processView processItem
    rw [hbytes, slice_zero hasHeader, ok_bind]
    dsimp only
    rw [header]
    dsimp only
    rw [slice_zero fits, ok_bind]
    cases typ with
    | protocol => exact absurd rfl notProtocol
    | _ =>
      dsimp only
      cases processOther sfdMsg _ _ data (data.take length) _ with
      | error e => rfl
      | ok t => rfl

/-- The views that are left, in the state. -/
def Channel.withItems (s : Channel) (items : List ChanItem) : Channel :=
  { s with
    nextMsg := items.head?.map ChanItem.bytes
    input := items.tail.map ChanItem.bytes }

theorem processFrom_items (items : List ChanItem) (s : Channel) :
    processFrom proc sfdMsg (items.map ChanItem.bytes) s =
      (processItems proc sfdMsg items s).map fun x => x.2.withItems x.1 := by
  induction items generalizing s with
  | nil => rfl
  | cons item items ih =>
    rw [map_cons]
    unfold processFrom processItems
    rw [processView_item]
    cases processItem proc sfdMsg s item with
    | error e => rfl
    | ok x =>
      obtain ⟨rest, t⟩ := x
      cases rest with
      | none => exact ih t
      | some rest => rfl

/-! ## What is left -/

/-- The record, the counter and the position in the output of one state are those of another. -/
def SameRecord (s t : Channel) : Prop :=
  t.done = s.done ∧ t.messageCounter = s.messageCounter ∧ t.outputStart = s.outputStart

theorem foldlM_injectRid_same {rids : List Rid} (h : rids.foldlM injectRid s = .ok t) :
    SameRecord s t := by
  induction rids generalizing s with
  | nil =>
    cases h
    exact ⟨rfl, rfl, rfl⟩
  | cons rid rids ih =>
    rw [foldlM_cons] at h
    obtain ⟨u, hu, h⟩ := bind_eq_ok.mp h
    have hrest := ih h
    unfold injectRid at hu
    split at hu
    · cases hu
    · cases hu
      exact hrest

/-- Messages of other types do not touch the record. -/
theorem processOther_same {typ : WmsgType} {isFirst : Bool} {data msg : List UInt8}
    (h : processOther sfdMsg typ isFirst data msg s = .ok t) : SameRecord s t := by
  cases typ with
  | version =>
    obtain ⟨version, -, h⟩ := bind_eq_ok.mp h
    repeat' split at h
    all_goals cases h
    exact ⟨rfl, rfl, rfl⟩
  | injectRIDs =>
    unfold processOther processInjectRids at h
    dsimp only at h
    split at h
    · cases h
    · obtain ⟨rids, -, h⟩ := bind_eq_ok.mp h
      exact foldlM_injectRid_same h
  | ackNblocks =>
    unfold processOther at h
    dsimp only at h
    split at h
    · cases h
    · cases h
      exact ⟨rfl, rfl, rfl⟩
  | restart => cases h
  | close =>
    cases h
    exact ⟨rfl, rfl, rfl⟩
  | _ =>
    obtain ⟨x, -, h⟩ := bind_eq_ok.mp h
    cases h
    exact ⟨rfl, rfl, rfl⟩

/-- Of one message: the Wayland messages in it are done or left, and it is counted when nothing is
left. -/
theorem processItem_conserves {item : ChanItem} {rest : Option ChanItem}
    (h : processItem proc sfdMsg s item = .ok (rest, t)) :
    t.done ++ rest.toList.flatMap ChanItem.msgs = s.done ++ item.msgs ∧
      t.messageCounter + rest.toList.countP ChanItem.counts =
        s.messageCounter + [item].countP ChanItem.counts ∧
      t.outputStart = s.outputStart := by
  cases item with
  | protocol msgs fits =>
    obtain ⟨-, -, h⟩ := bind_eq_ok.mp h
    obtain ⟨p, hp, h⟩ := bind_eq_ok.mp h
    have hmsgs : p.done ++ p.rest = msgs := processMsgs_conserves proc hp
    dsimp only at h
    split at h
    · cases h
      refine ⟨?_, rfl, rfl⟩
      show s.done ++ p.done ++ ([_] : List ChanItem).flatMap ChanItem.msgs = s.done ++ msgs
      rw [flatMap_singleton, append_assoc]
      exact congrArg (s.done ++ ·) hmsgs
    · rename_i hnone
      cases h
      have hrest : p.rest = [] := by
        by_contra hne
        refine hnone ⟨hne, ?_⟩
        rw [← hmsgs, msgBytes_append, length_append]
        omega
      refine ⟨?_, rfl, rfl⟩
      show s.done ++ p.done ++ [] = s.done ++ msgs
      rw [append_nil, ← hmsgs, hrest, append_nil]
  | other typ length data hasHeader header fits notProtocol =>
    obtain ⟨u, hu, h⟩ := bind_eq_ok.mp h
    cases h
    obtain ⟨hdone, hcounter, hstart⟩ := processOther_same hu
    refine ⟨?_, ?_, hstart⟩
    · rw [hdone]
      rfl
    · rw [hcounter]
      cases hc : Channel.counts typ with
      | true => simp [ChanItem.counts, hc]
      | false => simp [ChanItem.counts, hc]

theorem processItems_conserves {items rest : List ChanItem}
    (h : processItems proc sfdMsg items s = .ok (rest, t)) :
    t.done ++ rest.flatMap ChanItem.msgs = s.done ++ items.flatMap ChanItem.msgs ∧
      t.messageCounter + rest.countP ChanItem.counts =
        s.messageCounter + items.countP ChanItem.counts := by
  induction items generalizing s with
  | nil =>
    cases h
    exact ⟨rfl, rfl⟩
  | cons item items ih =>
    obtain ⟨⟨left, u⟩, hitem, h⟩ := bind_eq_ok.mp h
    obtain ⟨hmsgs, hcount, -⟩ := processItem_conserves hitem
    rw [countP_cons, flatMap_cons, ← append_assoc, ← hmsgs]
    rw [countP_singleton] at hcount
    cases left with
    | none =>
      obtain ⟨hrest, hcounts⟩ := ih h
      simp only [Option.toList_none, flatMap_nil, append_nil, countP_nil] at hmsgs hcount ⊢
      exact ⟨hrest, by omega⟩
    | some left =>
      cases h
      rw [Option.toList_some, countP_singleton] at hcount
      rw [Option.toList_some, flatMap_singleton, flatMap_cons, countP_cons, append_assoc]
      exact ⟨rfl, by omega⟩

/-- Processing what the message holds, in any state, does not panic. -/
def ChanItem.PanicFree (proc : WaylandMsg → Handler)
    (sfdMsg : WmsgType → List UInt8 → GlobAct (Option ApplyTask)) : ChanItem → Prop
  | .protocol msgs _ => ∀ m ∈ msgs, ∀ c e, proc m c ≠ .error (.panic e)
  | .other typ length data _ _ _ _ => ∀ isFirst t e,
      Channel.processOther sfdMsg typ isFirst data (data.take length) t ≠ .error (.panic e)

/-- What is left of a message holds nothing new. -/
theorem processItem_panicFree {item rest : ChanItem} {proc' : WaylandMsg → Handler}
    {sfdMsg' : WmsgType → List UInt8 → GlobAct (Option ApplyTask)}
    (h : processItem proc sfdMsg s item = .ok (some rest, t))
    (hfree : item.PanicFree proc' sfdMsg') : rest.PanicFree proc' sfdMsg' := by
  cases item with
  | protocol msgs fits =>
    obtain ⟨-, -, h⟩ := bind_eq_ok.mp h
    obtain ⟨p, hp, h⟩ := bind_eq_ok.mp h
    have hmsgs : p.done ++ p.rest = msgs := processMsgs_conserves proc hp
    dsimp only at h
    split at h
    · cases h
      intro m hm
      exact hfree m (hmsgs ▸ mem_append_right _ hm)
    · cases h
  | other typ length data hasHeader header fits notProtocol =>
    obtain ⟨u, -, h⟩ := bind_eq_ok.mp h
    cases h

theorem processItems_panicFree {items rest : List ChanItem} {proc' : WaylandMsg → Handler}
    {sfdMsg' : WmsgType → List UInt8 → GlobAct (Option ApplyTask)}
    (h : processItems proc sfdMsg items s = .ok (rest, t))
    (hfree : ∀ item ∈ items, item.PanicFree proc' sfdMsg') :
    ∀ item ∈ rest, item.PanicFree proc' sfdMsg' := by
  induction items generalizing s with
  | nil =>
    cases h
    exact hfree
  | cons item items ih =>
    obtain ⟨hitem, hitems⟩ := forall_mem_cons.mp hfree
    obtain ⟨⟨left, u⟩, hx, h⟩ := bind_eq_ok.mp h
    cases left with
    | none => exact ih h hitems
    | some left =>
      cases h
      exact forall_mem_cons.mpr ⟨processItem_panicFree hx hitem, hitems⟩

theorem processMsgs_ne_panic {msgs : List WaylandMsg} (c : Ctx) {e : String}
    (hfree : ∀ m ∈ msgs, ∀ c e, proc m c ≠ .error (.panic e)) :
    processMsgs proc msgs c ≠ .error (.panic e) := by
  induction msgs generalizing c with
  | nil => exact nofun
  | cons msg msgs ih =>
    obtain ⟨hmsg, hmsgs⟩ := forall_mem_cons.mp hfree
    intro h
    unfold processMsgs at h
    cases hproc : proc msg c with
    | error fault =>
      rw [hproc] at h
      cases h
      exact hmsg c e hproc
    | ok x =>
      obtain ⟨r, c'⟩ := x
      rw [hproc, ok_bind] at h
      cases r with
      | done =>
        dsimp only at h
        cases hrest : processMsgs proc msgs c' with
        | error fault =>
          rw [hrest] at h
          cases h
          exact ih c' hmsgs hrest
        | ok p =>
          rw [hrest] at h
          cases h
      | waitFor rid => cases h
      | needsSpace nbytes nfds =>
        dsimp only at h
        split at h
        · cases h
        · cases h

/-- Nothing else that is done with a message panics while the output is not being written. -/
theorem processItem_ne_panic {item : ChanItem} {e : String} (hstart : s.outputStart = 0)
    (hfree : item.PanicFree proc sfdMsg) : processItem proc sfdMsg s item ≠ .error (.panic e) := by
  intro h
  unfold processItem at h
  cases item with
  | protocol msgs fits =>
    dsimp only at h
    rw [assert_of (beq_iff_eq.mpr hstart), ok_bind] at h
    cases hp : processMsgs proc msgs s.ctx with
    | error fault =>
      rw [hp] at h
      cases h
      exact processMsgs_ne_panic _ hfree hp
    | ok p =>
      rw [hp, ok_bind] at h
      split at h
      · cases h
      · cases h
  | other typ length data hasHeader header fits notProtocol =>
    dsimp only at h
    cases ho : processOther sfdMsg typ (!s.hasFirstMessage) data (data.take length) { s with
        messageCounter := s.messageCounter + if Channel.counts typ then 1 else 0
        hasFirstMessage := true } with
    | error fault =>
      rw [ho] at h
      cases h
      exact hfree _ _ _ ho
    | ok t =>
      rw [ho] at h
      cases h

theorem processItems_ne_panic {items : List ChanItem} {e : String} (hstart : s.outputStart = 0)
    (hfree : ∀ item ∈ items, item.PanicFree proc sfdMsg) :
    processItems proc sfdMsg items s ≠ .error (.panic e) := by
  induction items generalizing s with
  | nil => exact nofun
  | cons item items ih =>
    obtain ⟨hitem, hitems⟩ := forall_mem_cons.mp hfree
    intro h
    unfold processItems at h
    cases hx : processItem proc sfdMsg s item with
    | error fault =>
      rw [hx] at h
      cases h
      exact processItem_ne_panic hstart hitem hx
    | ok x =>
      obtain ⟨left, t⟩ := x
      rw [hx, ok_bind] at h
      cases left with
      | none => exact ih ((processItem_conserves hx).2.2.trans hstart) hitems h
      | some left => cases h

end

/-! ## Runs -/

/-- What has been received, and what has become of it. -/
structure Receiver where
  chan : Channel
  received : List ChanItem

inductive ReceiverEvent where
  /-- The read buffer has another message. -/
  | receive (item : ChanItem)
  /-- The messages are processed, with any result for each of them. -/
  | process (proc : WaylandMsg → Handler)
      (sfdMsg : WmsgType → List UInt8 → GlobAct (Option ApplyTask))
  /-- The rest of the program changes the tracked state, takes the output, and ends a wait. -/
  | other (ctx : Ctx) (outputStart : Nat) (waitingFor : Option Rid)

/-- The message that arrives. -/
def ReceiverEvent.item? : ReceiverEvent → Option ChanItem
  | .receive item => some item
  | _ => none

namespace Receiver

def start (ctx : Ctx) : Receiver where
  chan := {
    ctx
    outputStart := 0
    nextMsg := none
    input := []
    messageCounter := 0
    waitingFor := none
    wireVersion := MIN_PROTOCOL_VERSION
    hasFirstMessage := false
    hasReceivedClose := false
    decompress := []
    done := [] }
  received := []

/-- One step; an error ends the connection. -/
def step (s : Receiver) : ReceiverEvent → Option Receiver
  | .receive item =>
    some { chan := s.chan.receive item.bytes, received := s.received ++ [item] }
  | .process proc sfdMsg => do
    let chan ← (s.chan.processChannel proc sfdMsg).toOption
    return { s with chan }
  | .other ctx outputStart waitingFor =>
    some { s with chan := { s.chan with ctx, outputStart, waitingFor } }

/-- The messages that are done and those that are left are what has been received. -/
structure InOrder (s : Receiver) (pending : List ChanItem) : Prop where
  views : s.chan = s.chan.withItems pending
  msgs : s.chan.done ++ pending.flatMap ChanItem.msgs = s.received.flatMap ChanItem.msgs
  counted : s.chan.messageCounter + pending.countP ChanItem.counts =
    s.received.countP ChanItem.counts
  panicFree : ∀ proc sfdMsg, (∀ item ∈ s.received, item.PanicFree proc sfdMsg) →
    ∀ item ∈ pending, item.PanicFree proc sfdMsg

theorem start_inOrder (ctx : Ctx) : (start ctx).InOrder [] := ⟨rfl, rfl, rfl, nofun⟩

/-- The bytes in the buffer are processed like the messages that they are. -/
theorem InOrder.processChannel {s : Receiver} {pending : List ChanItem} (hs : s.InOrder pending)
    (proc : WaylandMsg → Handler)
    (sfdMsg : WmsgType → List UInt8 → GlobAct (Option ApplyTask)) :
    s.chan.processChannel proc sfdMsg =
      (processItems proc sfdMsg pending s.chan).map fun x => x.2.withItems x.1 := by
  unfold Channel.processChannel
  rw [hs.views]
  cases pending with
  | nil =>
    show Except.ok _ = Except.map _ (Except.ok _)
    rfl
  | cons item pending => exact processFrom_items (item :: pending) _

theorem InOrder.receive {s : Receiver} {pending : List ChanItem} (hs : s.InOrder pending)
    (item : ChanItem) :
    ({ chan := s.chan.receive item.bytes, received := s.received ++ [item] } : Receiver).InOrder
      (pending ++ [item]) := by
  have hchan := hs.views
  refine ⟨?_, ?_, ?_, ?_⟩
  · show s.chan.receive item.bytes = (s.chan.receive item.bytes).withItems (pending ++ [item])
    rw [hchan]
    cases pending with
    | nil => rfl
    | cons first pending =>
      simp [Channel.receive, withItems]
  · show (s.chan.receive item.bytes).done ++ _ = _
    have hdone : (s.chan.receive item.bytes).done = s.chan.done := by
      unfold Channel.receive
      split
      · rfl
      · split <;> rfl
    rw [hdone, flatMap_append, ← append_assoc, hs.msgs, flatMap_append]
  · show (s.chan.receive item.bytes).messageCounter + _ = _
    have hcounter : (s.chan.receive item.bytes).messageCounter = s.chan.messageCounter := by
      unfold Channel.receive
      split
      · rfl
      · split <;> rfl
    have hcounted := hs.counted
    rw [hcounter, countP_append, countP_append]
    omega
  · intro proc sfdMsg hfree
    obtain ⟨hreceived, hitem⟩ := forall_mem_append.mp hfree
    exact forall_mem_append.mpr ⟨hs.panicFree proc sfdMsg hreceived, hitem⟩

theorem InOrder.step {s t : Receiver} {e : ReceiverEvent} {pending : List ChanItem}
    (hs : s.InOrder pending) (h : s.step e = some t) : ∃ pending', t.InOrder pending' := by
  cases e with
  | receive item =>
    cases h
    exact ⟨_, hs.receive item⟩
  | process proc sfdMsg =>
    obtain ⟨chan, hchan, ht⟩ := Option.bind_eq_some_iff.mp h
    cases ht
    have hok := Res.toOption_eq_some.mp hchan
    rw [hs.processChannel proc sfdMsg] at hok
    cases hitems : processItems proc sfdMsg pending s.chan with
    | error fault =>
      rw [hitems] at hok
      cases hok
    | ok x =>
      obtain ⟨rest, u⟩ := x
      rw [hitems] at hok
      cases hok
      obtain ⟨hmsgs, hcounted⟩ := processItems_conserves hitems
      exact ⟨rest, rfl, hmsgs.trans hs.msgs, hcounted.trans hs.counted, fun proc' sfdMsg' hfree =>
        processItems_panicFree hitems (hs.panicFree proc' sfdMsg' hfree)⟩
  | other ctx outputStart waitingFor =>
    cases h
    refine ⟨pending, ?_, hs.msgs, hs.counted, hs.panicFree⟩
    show ({ s.chan with ctx, outputStart, waitingFor } : Channel) = _
    rw [hs.views]
    rfl

/-- What has been received is what the run has received. -/
theorem received_run {s t : Receiver} {es : List ReceiverEvent}
    (h : Transition.run Receiver.step s es = some t) :
    t.received = s.received ++ es.filterMap ReceiverEvent.item? := by
  induction es generalizing s with
  | nil =>
    cases h
    exact (append_nil _).symm
  | cons e es ih =>
    obtain ⟨u, hu, h⟩ := run_cons h
    rw [ih h]
    cases e with
    | receive item =>
      cases hu
      rw [append_assoc]
      rfl
    | process proc sfdMsg =>
      obtain ⟨chan, -, hu⟩ := Option.bind_eq_some_iff.mp hu
      cases hu
      rfl
    | other ctx outputStart waitingFor =>
      cases hu
      rfl

end Receiver

/-- However often messages from the channel are interrupted: the Wayland messages that are done and
those in the messages that the buffer holds are what has been received, in order, and each message
is counted once; processing the bytes in the buffer is processing those messages; and it does not
panic, in the rewriting of a message or elsewhere, unless what a message holds does. -/
theorem channel_resumes (ctx : Ctx) (es : List ReceiverEvent) (s : Receiver)
    (hrun : Transition.run Receiver.step (.start ctx) es = some s) :
    (∃ pending, s.InOrder pending ∧
      (∀ proc sfdMsg, s.chan.processChannel proc sfdMsg =
        (processItems proc sfdMsg pending s.chan).map fun x => x.2.withItems x.1)) ∧
    (∀ proc sfdMsg e, s.chan.outputStart = 0 →
      (∀ item ∈ s.received, item.PanicFree proc sfdMsg) →
      s.chan.processChannel proc sfdMsg ≠ .error (.panic e)) ∧
    (s.chan.nextMsg = none → s.chan.done = s.received.flatMap ChanItem.msgs ∧
      s.chan.messageCounter = s.received.countP ChanItem.counts) := by
  obtain ⟨pending, hs⟩ : ∃ pending, s.InOrder pending :=
    run_invariant (P := fun s => ∃ pending, s.InOrder pending) (C := fun _ _ => True)
      (fun _ _ _ ⟨_, hs⟩ _ h => hs.step h) ⟨[], Receiver.start_inOrder ctx⟩
      (Transition.Along.of_forall fun _ _ => trivial) hrun
  refine ⟨⟨pending, hs, hs.processChannel⟩, ?_, ?_⟩
  · intro proc sfdMsg e hstart hfree hpanic
    rw [hs.processChannel proc sfdMsg] at hpanic
    cases hitems : processItems proc sfdMsg pending s.chan with
    | error fault =>
      rw [hitems] at hpanic
      cases hpanic
      exact processItems_ne_panic hstart (hs.panicFree proc sfdMsg hfree) hitems
    | ok x =>
      rw [hitems] at hpanic
      cases hpanic
  · intro hnone
    have hnil : pending = [] := by
      rw [hs.views] at hnone
      cases pending with
      | nil => rfl
      | cons item pending => cases hnone
    have hmsgs := hs.msgs
    have hcounted := hs.counted
    rw [hnil] at hmsgs hcounted
    exact ⟨by simpa using hmsgs, by simpa using hcounted⟩

/-- An instance on the display side, with room for one message in its output. -/
def narrowCtx : Ctx where
  core := { glob := .start true .plain, out := .empty 12 }
  transl := .fromChannel [] []

def syncItem : ChanItem :=
  .protocol [.make 1 0 (.obj 8), .make 1 0 (.obj 9)]
    (by decide)

def sfdMsgHeadless := processSfdMsg .headless fun _ => true

/-- The second of two messages has to wait until the output of the first one is written. -/
def narrowEvents : List ReceiverEvent :=
  [.receive syncItem, .process (processWayMsg .headless) sfdMsgHeadless,
    .other narrowCtx 0 none, .process (processWayMsg .headless) sfdMsgHeadless]

theorem channel_resumes_narrow :
    (∃ s, Transition.run Receiver.step (.start narrowCtx) (narrowEvents.take 2) = some s ∧
      (s.chan.nextMsg.isNone, s.chan.done.length) = (false, 1) ∧
      ∀ e, s.chan.processChannel (fun _ c => .ok (.waitFor 7, c)) sfdMsgHeadless ≠
        .error (.panic e)) ∧
    ∃ s, Transition.run Receiver.step (.start narrowCtx) narrowEvents = some s ∧
      s.chan.done = s.received.flatMap ChanItem.msgs ∧
      s.chan.messageCounter = s.received.countP ChanItem.counts := by
  have hruns : ((run Receiver.step (.start narrowCtx) (narrowEvents.take 2)).map fun s =>
        ((s.chan.nextMsg.isNone, s.chan.done.length), s.chan.outputStart)) =
        some ((false, 1), 0) ∧
      ((run Receiver.step (.start narrowCtx) narrowEvents).map fun s =>
        s.chan.nextMsg.isNone) = some true := by
    decide +kernel
  obtain ⟨s, hs, hsplit⟩ := Option.map_eq_some_iff.mp hruns.1
  obtain ⟨t, ht, hnone⟩ := Option.map_eq_some_iff.mp hruns.2
  obtain ⟨hsplit, hstart⟩ := Prod.mk.inj hsplit
  have hreceived : s.received = [syncItem] := Receiver.received_run hs
  obtain ⟨-, hpanic, -⟩ := channel_resumes narrowCtx (narrowEvents.take 2) s hs
  obtain ⟨-, -, hdone⟩ := channel_resumes narrowCtx narrowEvents t ht
  refine ⟨⟨s, hs, hsplit, fun e => hpanic _ _ e hstart ?_⟩, t, ht,
    hdone (Option.isNone_iff_eq_none.mp hnone)⟩
  rw [hreceived]
  refine forall_mem_singleton.mpr ?_
  intro m _ c e h
  cases h

end Waypipe
