import Waypipe.Tracking.Handler

/-!
# Messages in a stream

The length of a Wayland message stands in the upper half of the second word of its header.
`waylandFraming` is that format as a length-prefixed framing, so that a stream has only one
decomposition into messages.  `retagged` is a message with another lower half of that word, where
the opcode is and where Waypipe puts the number of file descriptors.
-/

namespace Waypipe.Wayland

open LeBytes List

/-- Frames of Wayland messages. -/
def waylandFraming : Framing UInt8 where
  width := 8
  size h := if 8 ≤ leNat ((h.drop 4).take 4) / 2 ^ 16 then some (leNat ((h.drop 4).take 4) / 2 ^ 16)
    else none
  width_pos := by decide
  width_le := by
    intro h n hn
    split at hn
    · next hle =>
      cases hn
      exact hle
    · cases hn

namespace WaylandMsg

variable (msg : WaylandMsg)

theorem isFrame : waylandFraming.IsFrame msg.bytes := by
  have h8 := msg.hasHeader
  have htake : ((msg.bytes.take 8).drop 4).take 4 = (msg.bytes.drop 4).take 4 := by
    rw [drop_take, take_take]
    rfl
  show waylandFraming.size (msg.bytes.take 8) = some msg.bytes.length
  unfold waylandFraming
  simp only [htake, msg.framed]
  rw [if_pos h8]

/-- A stream starts with one message only. -/
theorem unique {msg msg' : WaylandMsg} {t t' : List UInt8} (h : msg.bytes ++ t = msg'.bytes ++ t') :
    msg.bytes = msg'.bytes ∧ t = t' := Framing.IsFrame.unique msg.isFrame msg'.isFrame h

theorem eq_of_bytes {msg msg' : WaylandMsg} (h : msg.bytes = msg'.bytes) : msg = msg' := by
  obtain ⟨_, _, _, _⟩ := msg
  obtain ⟨_, _, _, _⟩ := msg'
  cases h
  rfl

theorem header2_lt : msg.header2 < 2 ^ 32 := by
  have h8 := msg.hasHeader
  have hlt := leNat_lt ((msg.bytes.drop 4).take 4)
  rw [length_take, length_drop, Nat.min_eq_left (by omega)] at hlt
  exact hlt

theorem header2_div : msg.header2 / 2 ^ 16 = msg.bytes.length := msg.framed

/-- The second word of the header with other lower bits. -/
def header2With (op : Nat) : Nat := msg.header2 / 2 ^ 16 * 2 ^ 16 + op

theorem drop_retag (h2 : Nat) : ((retag msg h2).bytes.drop 4).take 4 = u32le h2 := by
  have h8 := msg.hasHeader
  have hlen : (msg.bytes.take 4).length = 4 := by
    rw [length_take]
    omega
  show ((msg.bytes.take 4 ++ u32le h2 ++ msg.bytes.drop 8).drop 4).take 4 = _
  rw [append_assoc, drop_left' hlen, take_left' (length_u32le h2)]

theorem length_retag (h2 : Nat) : (retag msg h2).bytes.length = msg.bytes.length := by
  have h8 := msg.hasHeader
  simp only [retag, length_append, length_take, length_u32le, length_drop]
  omega

theorem retag_header2 : (retag msg msg.header2).bytes = msg.bytes := by
  have h8 := msg.hasHeader
  have hword : u32le msg.header2 = (msg.bytes.drop 4).take 4 := by
    have hlen : ((msg.bytes.drop 4).take 4).length = 4 := by
      rw [length_take, length_drop]
      omega
    have := leBytes_leNat ((msg.bytes.drop 4).take 4)
    rwa [hlen] at this
  show msg.bytes.take 4 ++ u32le msg.header2 ++ msg.bytes.drop 8 = _
  rw [hword, append_assoc, show (8 : Nat) = 4 + 4 from rfl, ← drop_drop,
    take_append_drop, take_append_drop]

/-- The message with other lower bits in the second word of its header. -/
def retagged (op : Nat) (hop : op < 2 ^ 16) : WaylandMsg where
  bytes := (retag msg (msg.header2With op)).bytes
  aligned := (retag msg (msg.header2With op)).aligned
  hasHeader := by
    rw [msg.length_retag]
    exact msg.hasHeader
  framed := by
    have hlt := msg.header2_lt
    have hword : leNat (u32le (msg.header2With op)) = msg.header2With op :=
      leNat_leBytes_of_lt (by unfold header2With; omega)
    rw [msg.drop_retag, hword, msg.length_retag, ← msg.header2_div]
    unfold header2With
    omega

variable {op : Nat} (hop : op < 2 ^ 16)

theorem header2_retagged : (msg.retagged op hop).header2 = msg.header2With op := by
  have hlt := msg.header2_lt
  show leNat (((retag msg (msg.header2With op)).bytes.drop 4).take 4) = _
  rw [msg.drop_retag]
  exact leNat_leBytes_of_lt (by unfold header2With; omega)

/-- Only the last tag counts. -/
theorem retag_retagged (h2 : Nat) : (retag (msg.retagged op hop) h2).bytes = (retag msg h2).bytes := by
  have h8 := msg.hasHeader
  have hlen : (msg.bytes.take 4).length = 4 := by
    rw [length_take]
    omega
  show (retag msg _).bytes.take 4 ++ u32le h2 ++ (retag msg _).bytes.drop 8 =
    msg.bytes.take 4 ++ u32le h2 ++ msg.bytes.drop 8
  have htake : (retag msg (msg.header2With op)).bytes.take 4 = msg.bytes.take 4 := by
    show (msg.bytes.take 4 ++ u32le _ ++ msg.bytes.drop 8).take 4 = _
    rw [append_assoc, take_left' hlen]
  have hdrop : (retag msg (msg.header2With op)).bytes.drop 8 = msg.bytes.drop 8 := by
    show (msg.bytes.take 4 ++ u32le _ ++ msg.bytes.drop 8).drop 8 = _
    rw [drop_left' (by rw [length_append, hlen, length_u32le])]
  rw [htake, hdrop]

/-- The original lower bits give the message back. -/
theorem retag_retagged_self (h2 : Nat) (h : h2 = msg.header2) :
    (retag (msg.retagged op hop) h2).bytes = msg.bytes := by
  rw [msg.retag_retagged, h, msg.retag_header2]

end WaylandMsg

end Waypipe.Wayland
