import Mathlib.Algebra.Group.Nat.Defs

/-!
# LinuxBtProxy.Lib.Backoff

Capped exponential backoff with a reset: every retry waits twice as long as the
one before it, up to a cap, and an attempt that was healthy starts the doubling
over.

* `delay` — the wait after `n` retries, and `delay_mul_two`, the step from one
  to the next;
* `streak` — how many retries in a row were not healthy, the last attempt
  included;
* `streak_append_singleton` — how one more attempt changes it.
-/

namespace Backoff

/-! ## Delays -/

/-- The delay after `n` retries. -/
def delay (first cap n : Nat) : Nat := min (first * 2 ^ n) cap

variable {first cap : Nat}

/-- The first delay is the given one. -/
theorem delay_zero (h : first ≤ cap) : delay first cap 0 = first := by
  rw [delay, Nat.pow_zero, Nat.mul_one]
  exact Nat.min_eq_left h

/-- Doubling a delay and capping it gives the next one. -/
theorem delay_mul_two (first cap n : Nat) :
    min (delay first cap n * 2) cap = delay first cap (n + 1) := by
  have hpow : first * 2 ^ (n + 1) = first * 2 ^ n * 2 := by
    rw [Nat.pow_succ, Nat.mul_assoc]
  unfold delay
  rw [hpow]
  omega

/-- No delay is longer than the cap. -/
theorem delay_le (first cap n : Nat) : delay first cap n ≤ cap := Nat.min_le_right _ _

/-- No delay is shorter than the first. -/
theorem first_le_delay (h : first ≤ cap) (n : Nat) : first ≤ delay first cap n := by
  have hpos : 0 < 2 ^ n := Nat.two_pow_pos n
  exact Nat.le_min.mpr ⟨Nat.le_mul_of_pos_right first hpos, h⟩

/-! ## Resets -/

variable {α : Type} (healthy : α → Bool)

/-- The attempts at the end that were not healthy.  The first attempt of all is
not a retry and does not count. -/
def streak (attempts : List α) : Nat :=
  (attempts.tail.reverse.takeWhile (!healthy ·)).length

/-- The retries when one more attempt is made. -/
def retries : List α → Nat
  | [] => 0
  | a :: attempts => streak healthy (a :: attempts) + 1

/-- One more retry has been made. -/
theorem retries_append_singleton (past : List α) (a : α) :
    retries healthy (past ++ [a]) = streak healthy (past ++ [a]) + 1 := by
  cases past <;> rfl

/-- A healthy attempt ends the streak, another one makes it longer. -/
theorem streak_append_singleton (past : List α) (a : α) :
    streak healthy (past ++ [a]) = if healthy a then 0 else retries healthy past := by
  cases past with
  | nil =>
      rw [retries, ite_self]
      rfl
  | cons b past =>
      rw [retries, streak, streak, List.cons_append, List.tail_cons, List.tail_cons,
        List.reverse_append, List.reverse_singleton, List.singleton_append, List.takeWhile_cons]
      cases healthy a <;> simp

end Backoff
