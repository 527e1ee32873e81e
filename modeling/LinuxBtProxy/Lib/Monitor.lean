import LinuxBtProxy.Lib.Reactive

/-!
# LinuxBtProxy.Lib.Monitor

Safety monitors.  A monitor reads what a component does, one thing after the
other, and rejects what is out of turn.

* `watch` — where a monitor gets with a list of things, and `watch_append`;
* `watch_taken` — a component whose every event is accepted from a good state,
  and leads to a good state unless it stops the run, is accepted over whole runs.
-/

namespace Monitor

variable {α σ ε : Type} {next : σ → α → Option σ}

/-- The state of the monitor afterwards, if it has rejected nothing. -/
def watch (next : σ → α → Option σ) (s : σ) : List α → Option σ
  | [] => some s
  | x :: xs => (next s x).bind fun t => watch next t xs

/-- The first observation moves the state, or refuses. -/
theorem watch_cons (s : σ) (x : α) (xs : List α) :
    watch next s (x :: xs) = (next s x).bind fun t => watch next t xs := rfl

/-- Observations in a row are watched one part after the other. -/
theorem watch_append (s : σ) (xs ys : List α) :
    watch next s (xs ++ ys) = (watch next s xs).bind fun t => watch next t ys := by
  induction xs generalizing s with
  | nil => rfl
  | cons x xs ih =>
      rw [List.cons_append, watch_cons, watch_cons, Option.bind_assoc]
      exact congrArg _ (funext fun t => ih t)

/-- Every event is accepted from a good state, and leads to a good state unless
it stops the run: a run is accepted, and leads to a good state unless it has been
stopped. -/
theorem watch_taken (I : σ → Prop) (goesOn : ε → Bool) (gain : ε → List α)
    (h : ∀ s e, I s → ∃ t, watch next s (gain e) = some t ∧ (goesOn e = true → I t))
    {s : σ} (hs : I s) (es : List ε) :
    ∃ t, watch next s ((Reactive.taken goesOn es).flatMap gain) = some t ∧
      ((∀ e ∈ es, goesOn e = true) → I t) := by
  induction es generalizing s with
  | nil => exact ⟨s, rfl, fun _ => hs⟩
  | cons e es ih =>
      obtain ⟨t, ht, hgood⟩ := h s e hs
      rw [Reactive.taken_cons, List.flatMap_cons, watch_append, ht, Option.bind_some]
      cases he : goesOn e with
      | true =>
          obtain ⟨u, hu, hlast⟩ := ih (hgood he)
          exact ⟨u, hu, fun hall => hlast fun x hx => hall x (List.mem_cons_of_mem e hx)⟩
      | false =>
          refine ⟨t, rfl, fun hall => ?_⟩
          rw [hall e List.mem_cons_self] at he
          contradiction

end Monitor
