import Mathlib.Data.List.Basic
import Mathlib.Logic.Function.Basic

/-!
# Writes to a memory

A memory is a function from locations to values, and `writeAll m ws` is what the writes `ws` make of
it, one after the other.  Several writers each have a list of writes, numbered in the order in which
they should take effect; `inOrder` performs them in that order.  A writer that is behind may still
write where no later writer has written: the result is the same as if its write had come in its
place (`inOrder_write`).
-/

namespace Writes

variable {L V : Type} [DecidableEq L]

variable (m : L → V)

def write (w : L × V) : L → V := Function.update m w.1 w.2

def writeAll (ws : List (L × V)) : L → V := ws.foldl write m

theorem writeAll_append (ws vs : List (L × V)) :
    writeAll m (ws ++ vs) = writeAll (writeAll m ws) vs := List.foldl_append

theorem write_comm {w v : L × V} (h : v.1 ≠ w.1) :
    write (write m w) v = write (write m v) w := by
  unfold write
  exact Function.update_comm (Ne.symm h) w.2 v.2 m

/-- A write moves past writes to other locations. -/
theorem writeAll_write (w : L × V) (ws : List (L × V)) (h : ∀ v ∈ ws, v.1 ≠ w.1) :
    writeAll (write m w) ws = write (writeAll m ws) w := by
  induction ws generalizing m with
  | nil => rfl
  | cons v ws ih =>
    show writeAll (write (write m w) v) ws = write (writeAll (write m v) ws) w
    rw [write_comm m (h v List.mem_cons_self)]
    exact ih (write m v) fun u hu => h u (List.mem_cons_of_mem v hu)

/-- The writes of the first `n` writers, in the order of the writers. -/
def inOrder (n : Nat) (p : Nat → List (L × V)) : L → V :=
  writeAll m ((List.range n).flatMap p)

theorem inOrder_succ (n : Nat) (p : Nat → List (L × V)) :
    inOrder m (n + 1) p = writeAll (inOrder m n p) (p n) := by
  simp only [inOrder, List.range_succ, List.flatMap_append, List.flatMap_singleton, writeAll_append]

theorem inOrder_congr {n : Nat} {p q : Nat → List (L × V)} (h : ∀ i < n, p i = q i) :
    inOrder m n p = inOrder m n q := by
  induction n with
  | zero => rfl
  | succ n ih =>
    rw [inOrder_succ, inOrder_succ, ih fun i hi => h i (Nat.lt_succ_of_lt hi), h n n.lt_succ_self]

/-- Writer `i` performs one more write, where the writers after it have not written. -/
theorem inOrder_write {n i : Nat} (p : Nat → List (L × V)) (w : L × V) (hi : i < n)
    (h : ∀ j, i < j → j < n → ∀ v ∈ p j, v.1 ≠ w.1) :
    inOrder m n (Function.update p i (p i ++ [w])) = write (inOrder m n p) w := by
  induction n with
  | zero => omega
  | succ n ih =>
    rw [inOrder_succ, inOrder_succ]
    by_cases hin : i = n
    · subst hin
      have hbefore : inOrder m i (Function.update p i (p i ++ [w])) = inOrder m i p :=
        inOrder_congr m fun j hj => Function.update_of_ne (by omega) _ _
      rw [hbefore, Function.update_self, writeAll_append]
      rfl
    · have hlater : Function.update p i (p i ++ [w]) n = p n :=
        Function.update_of_ne (by omega) _ _
      rw [hlater, ih (by omega) fun j hij hj => h j hij (by omega)]
      exact writeAll_write _ w (p n) (h n (by omega) n.lt_succ_self)

end Writes
