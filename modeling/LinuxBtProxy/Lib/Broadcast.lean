/-!
# LinuxBtProxy.Lib.Broadcast

Bounded broadcast channels.  A receiver gets the values sent after it subscribed;
the channel keeps the last values, as many as its capacity, and a receiver that is
further behind is told how many it has missed.

* `Channel` — what the receivers of a channel rely on; `Channel.ring` is one;
* `Account` — what a receiver has been given accounts for every value from its
  start to its position: `Account.values_sublist`, `Account.length_add_lost` and
  `Account.values_eq`.
-/

namespace Broadcast

variable {α : Type}

/-- A value, or the number of values that were missed. -/
inductive Received (α : Type) where
  | value (a : α)
  | lagged (n : Nat)
deriving Repr, DecidableEq

/-- The receivers of a channel for values of this type.  `recv` is what the next
call gives a receiver at a position, and its new position; nothing while it has
to wait. -/
class Channel (α : Type) where
  capacity : Nat
  recv : List α → Nat → Option (Received α × Nat)
  /-- A value is the one at the position of the receiver. -/
  recv_value {sent : List α} {next next' : Nat} {a : α} :
    recv sent next = some (.value a, next') → sent[next]? = some a ∧ next' = next + 1
  /-- A receiver is told how many values it passes, and these have been sent. -/
  recv_lagged {sent : List α} {next next' n : Nat} :
    recv sent next = some (.lagged n, next') → next' = next + n ∧ next' ≤ sent.length
  /-- A receiver that is within the reach of the channel misses nothing. -/
  recv_near {sent : List α} {next : Nat} : sent.length ≤ next + capacity →
    recv sent next = sent[next]?.map fun a => (.value a, next + 1)

/-- A channel that keeps the last `capacity` values; a receiver that is further
behind passes just those that are gone. -/
@[reducible] def Channel.ring (capacity : Nat) : Channel α where
  capacity
  recv sent next :=
    let missed := sent.length - capacity - next
    if missed = 0 then sent[next]?.map fun a => (.value a, next + 1)
    else some (.lagged missed, next + missed)
  recv_value {sent next next' a} h := by
    dsimp only at h
    split at h
    · obtain ⟨b, hb, heq⟩ := Option.map_eq_some_iff.mp h
      obtain ⟨hvalue, rfl⟩ := Prod.mk.inj heq
      obtain rfl := Received.value.inj hvalue
      exact ⟨hb, rfl⟩
    · simp at h
  recv_lagged {sent next next' n} h := by
    dsimp only at h
    split at h
    · obtain ⟨b, -, heq⟩ := Option.map_eq_some_iff.mp h
      simp at heq
    · obtain ⟨hlagged, rfl⟩ := Prod.mk.inj (Option.some.inj h)
      obtain rfl := Received.lagged.inj hlagged
      exact ⟨rfl, by omega⟩
  recv_near {sent next} h := by
    have hmissed : sent.length - capacity - next = 0 := by omega
    rw [hmissed, if_pos rfl]

namespace Received

/-- The value that was received. -/
def value? : Received α → Option α
  | .value a => some a
  | .lagged _ => none

/-- The values that are lost with it. -/
def lost : Received α → Nat
  | .value _ => 0
  | .lagged n => n

end Received

/-- The values among what a receiver has been given. -/
def values (rs : List (Received α)) : List α := rs.filterMap Received.value?

/-- How many values a receiver has been told that it missed. -/
def lost : List (Received α) → Nat
  | [] => 0
  | r :: rs => r.lost + lost rs

/-- Nothing received gives no values. -/
@[simp] theorem values_nil : values ([] : List (Received α)) = [] := rfl

/-- A value is received behind the others. -/
@[simp] theorem values_append_value (rs : List (Received α)) (a : α) :
    values (rs ++ [.value a]) = values rs ++ [a] :=
  List.filterMap_append

/-- A report of a loss is no value. -/
@[simp] theorem values_append_lagged (rs : List (Received α)) (n : Nat) :
    values (rs ++ [.lagged n]) = values rs := by
  simp [values, Received.value?]

/-- Nothing received reports no loss. -/
@[simp] theorem lost_nil : lost ([] : List (Received α)) = 0 := rfl

/-- Losses add up. -/
theorem lost_append_singleton (rs : List (Received α)) (r : Received α) :
    lost (rs ++ [r]) = lost rs + r.lost := by
  induction rs with
  | nil => exact Nat.add_comm r.lost 0
  | cons s rs ih => rw [List.cons_append, lost, lost, ih, Nat.add_assoc]

/-- A value reports no loss. -/
@[simp] theorem lost_append_value (rs : List (Received α)) (a : α) :
    lost (rs ++ [.value a]) = lost rs :=
  lost_append_singleton rs (.value a)

/-- A report adds its loss. -/
@[simp] theorem lost_append_lagged (rs : List (Received α)) (n : Nat) :
    lost (rs ++ [.lagged n]) = lost rs + n :=
  lost_append_singleton rs (.lagged n)

/-! ## Accounts -/

/-- What a receiver that started at a position has been given when it stands at
another one. -/
inductive Account (sent : List α) (start : Nat) : List (Received α) → Nat → Prop
  | nil : Account sent start [] start
  | value {rs next a} (h : Account sent start rs next) (ha : sent[next]? = some a) :
      Account sent start (rs ++ [.value a]) (next + 1)
  | lagged {rs next n} (h : Account sent start rs next) (hn : next + n ≤ sent.length) :
      Account sent start (rs ++ [.lagged n]) (next + n)

namespace Account

variable {sent : List α} {start next : Nat} {rs : List (Received α)}

/-- Values that are sent later change no account. -/
theorem append (h : Account sent start rs next) (more : List α) :
    Account (sent ++ more) start rs next := by
  induction h with
  | nil => exact .nil
  | value h ha ih =>
      refine .value ih ?_
      rw [List.getElem?_append_left (List.getElem?_eq_some_iff.mp ha).1, ha]
  | lagged h hn ih =>
      refine .lagged ih ?_
      rw [List.length_append]
      omega

/-- The next call on a channel goes on with the account. -/
theorem recv [Channel α] {r : Received α} {next' : Nat} (h : Account sent start rs next)
    (hr : Channel.recv sent next = some (r, next')) : Account sent start (rs ++ [r]) next' := by
  cases r with
  | value a =>
      obtain ⟨ha, rfl⟩ := Channel.recv_value hr
      exact h.value ha
  | lagged n =>
      obtain ⟨rfl, hn⟩ := Channel.recv_lagged hr
      exact h.lagged hn

/-- A receiver is never ahead of what was sent. -/
theorem le_length (h : Account sent start rs next) (hstart : start ≤ sent.length) :
    next ≤ sent.length := by
  cases h with
  | nil => exact hstart
  | value h ha => exact (List.getElem?_eq_some_iff.mp ha).1
  | lagged h hn => exact hn

/-- What a receiver is given from its position on accounts for what follows. -/
theorem trans {last : Nat} {rs' : List (Received α)} (h : Account sent start rs next)
    (h' : Account sent next rs' last) : Account sent start (rs ++ rs') last := by
  induction h' with
  | nil => rwa [List.append_nil]
  | value h' ha ih =>
      rw [← List.append_assoc]
      exact ih.value ha
  | lagged h' hn ih =>
      rw [← List.append_assoc]
      exact ih.lagged hn

/-- Nothing is uncounted: the values and the losses are as many as the positions
passed. -/
theorem length_add_lost (h : Account sent start rs next) :
    start + (values rs).length + lost rs = next := by
  induction h with
  | nil => simp
  | value h ha ih =>
      rw [values_append_value, lost_append_value, List.length_append, List.length_singleton]
      omega
  | lagged h hn ih =>
      rw [values_append_lagged, lost_append_lagged]
      omega

/-- Nothing is invented, repeated or out of order. -/
theorem values_sublist (h : Account sent start rs next) :
    (values rs).Sublist ((sent.drop start).take (next - start)) := by
  induction h with
  | nil => simp
  | @value rs next a h ha ih =>
      have hle : start ≤ next := by
        have hcount := h.length_add_lost
        omega
      have hget : (sent.drop start)[next - start]? = some a := by
        rw [List.getElem?_drop, Nat.add_sub_cancel' hle, ha]
      rw [values_append_value, Nat.sub_add_comm hle, List.take_add_one, hget, Option.toList_some]
      exact ih.append (List.Sublist.refl [a])
  | @lagged rs next n h hn ih =>
      rw [values_append_lagged]
      exact ih.trans (List.take_sublist_take_left (by omega))

/-- Without losses it is everything. -/
theorem values_eq (h : Account sent start rs next) (hstart : start ≤ sent.length)
    (hlost : lost rs = 0) : values rs = (sent.drop start).take (next - start) := by
  have hcount := h.length_add_lost
  have hle := h.le_length hstart
  refine h.values_sublist.eq_of_length ?_
  rw [List.length_take, List.length_drop]
  omega

end Account

end Broadcast
