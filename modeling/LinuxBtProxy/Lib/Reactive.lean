/-!
# LinuxBtProxy.Lib.Reactive

Runs of a component that reacts to events until it stops.  A step takes a state
and an event to the next state and, when the component stops, its outcome;
`run` folds it over the events and ignores those after a stop.

* `run_filter` — events that change nothing can be left out;
* `run_eq_none_iff`, `run_append_of_stop` and `exists_of_run_stop` — when the event alone
  decides whether a step stops, a run goes on when all its events do, and otherwise
  ends with the first that does not;
* `taken` and `run_taken` — the events up to that one are all that a run takes;
* `run_stop_iff` — how a run ends, from how its last event ends a step;
* `run_collect` — what the events add to a list, over a whole run.
-/

namespace Reactive

variable {σ ε ω : Type}

/-- The state after the events, and the outcome if the component stopped. -/
def run (step : σ → ε → σ × Option ω) (s : σ) : List ε → σ × Option ω
  | [] => (s, none)
  | e :: es =>
      match step s e with
      | (s', none) => run step s' es
      | (s', some w) => (s', some w)

section Equations

variable {step : σ → ε → σ × Option ω} {s s' : σ} {e : ε}

@[simp] theorem run_nil : run step s [] = (s, none) := rfl

theorem run_cons_of_continue (h : step s e = (s', none)) (es : List ε) :
    run step s (e :: es) = run step s' es := by
  rw [run, h]

theorem run_cons_of_stop {w : ω} (h : step s e = (s', some w)) (es : List ε) :
    run step s (e :: es) = (s', some w) := by
  rw [run, h]

theorem run_singleton (step : σ → ε → σ × Option ω) (s : σ) (e : ε) :
    run step s [e] = step s e := by
  cases h : step s e with
  | mk s' w => cases w <;> simp [run, h]

end Equations

theorem run_map {α : Type} (step : σ → ε → σ × Option ω) (f : α → ε) (s : σ) (as : List α) :
    run step s (as.map f) = run (fun s a => step s (f a)) s as := by
  induction as generalizing s with
  | nil => rfl
  | cons a as ih =>
      cases hsa : step s (f a) with
      | mk s' o =>
          cases o with
          | none =>
              rw [List.map_cons, run_cons_of_continue hsa, run, hsa]
              exact ih s'
          | some w => rw [List.map_cons, run_cons_of_stop hsa, run, hsa]

/-- Events that change nothing, in any state, can be left out of a run. -/
theorem run_filter {step : σ → ε → σ × Option ω} {keep : ε → Bool} {es : List ε}
    (h : ∀ e ∈ es, keep e = false → ∀ s, step s e = (s, none)) (s : σ) :
    run step s es = run step s (es.filter keep) := by
  induction es generalizing s with
  | nil => rfl
  | cons e es ih =>
      have htail := ih (fun x hx => h x (List.mem_cons_of_mem e hx))
      cases hk : keep e with
      | false =>
          rw [run_cons_of_continue (h e List.mem_cons_self hk s), htail,
            List.filter_cons_of_neg (by simp [hk])]
      | true =>
          rw [List.filter_cons_of_pos hk]
          cases hse : step s e with
          | mk s' w =>
              cases w with
              | none => rw [run_cons_of_continue hse, run_cons_of_continue hse, htail]
              | some w => rw [run_cons_of_stop hse, run_cons_of_stop hse]

/-- Events after a run that goes on are taken in the state it has reached. -/
theorem run_append_of_continue {step : σ → ε → σ × Option ω} {s s' : σ} {es : List ε}
    (h : run step s es = (s', none)) (more : List ε) :
    run step s (es ++ more) = run step s' more := by
  induction es generalizing s with
  | nil =>
      obtain rfl : s = s' := congrArg Prod.fst h
      rfl
  | cons e es ih =>
      rw [List.cons_append]
      cases hse : step s e with
      | mk t o =>
          cases o with
          | none =>
              rw [run_cons_of_continue hse] at h ⊢
              exact ih h
          | some w =>
              rw [run_cons_of_stop hse] at h
              exact absurd (congrArg Prod.snd h) (by simp)

/-- Events after a stop change nothing. -/
theorem run_append_of_stop {step : σ → ε → σ × Option ω} {s : σ} {es : List ε} {w : ω}
    (h : (run step s es).2 = some w) (more : List ε) :
    run step s (es ++ more) = run step s es := by
  induction es generalizing s with
  | nil => simp at h
  | cons e es ih =>
      rw [List.cons_append]
      cases hse : step s e with
      | mk s' o =>
          cases o with
          | some o => rw [run_cons_of_stop hse, run_cons_of_stop hse]
          | none =>
              rw [run_cons_of_continue hse] at h
              rw [run_cons_of_continue hse, run_cons_of_continue hse, ih h]

/-- The event that a run stopped on, and the run up to it. -/
theorem exists_of_run_stop {step : σ → ε → σ × Option ω} {s : σ} {es : List ε} {w : ω}
    (h : (run step s es).2 = some w) :
    ∃ before e after s', es = before ++ e :: after ∧ run step s before = (s', none) ∧
      (step s' e).2 = some w := by
  induction es generalizing s with
  | nil => simp at h
  | cons e es ih =>
      cases hse : step s e with
      | mk s' o =>
          cases o with
          | some o =>
              rw [run_cons_of_stop hse] at h
              exact ⟨[], e, es, s, rfl, rfl, by rw [hse]; exact h⟩
          | none =>
              rw [run_cons_of_continue hse] at h
              obtain ⟨before, f, after, t, rfl, hrun, hstop⟩ := ih h
              exact ⟨e :: before, f, after, t, rfl, by rw [run_cons_of_continue hse, hrun], hstop⟩

/-- Steps that stop on the event alone: a run goes on as long as its events
do. -/
theorem run_eq_none_iff {step : σ → ε → σ × Option ω} {goesOn : ε → Prop}
    (h : ∀ s e, (step s e).2 = none ↔ goesOn e) (s : σ) (es : List ε) :
    (run step s es).2 = none ↔ ∀ e ∈ es, goesOn e := by
  induction es generalizing s with
  | nil => simp
  | cons e es ih =>
      have hstep := h s e
      rw [List.forall_mem_cons, ← hstep]
      cases hse : step s e with
      | mk s' o =>
          cases o with
          | none => rw [run_cons_of_continue hse, ih s']; simp
          | some o => rw [run_cons_of_stop hse]; simp

/-! ## What a run takes and collects -/

/-- The events that a run takes: up to the first that stops it, this one
included. -/
def taken (goesOn : ε → Bool) (es : List ε) : List ε :=
  es.takeWhile goesOn ++ (es.dropWhile goesOn).head?.toList

theorem taken_cons (goesOn : ε → Bool) (e : ε) (es : List ε) :
    taken goesOn (e :: es) = e :: if goesOn e then taken goesOn es else [] := by
  cases h : goesOn e <;> simp [taken, h]

theorem taken_prefix (goesOn : ε → Bool) (es : List ε) : taken goesOn es <+: es := by
  induction es with
  | nil => exact List.prefix_rfl
  | cons e es ih =>
      rw [taken_cons]
      refine (List.prefix_cons_inj e).mpr ?_
      split
      · exact ih
      · exact List.nil_prefix

theorem taken_of_goesOn {goesOn : ε → Bool} {es : List ε} (h : ∀ e ∈ es, goesOn e = true) :
    taken goesOn es = es := by
  induction es with
  | nil => rfl
  | cons e es ih =>
      obtain ⟨he, hes⟩ := List.forall_mem_cons.mp h
      rw [taken_cons, if_pos he, ih hes]

theorem taken_taken (goesOn : ε → Bool) (es : List ε) :
    taken goesOn (taken goesOn es) = taken goesOn es := by
  induction es with
  | nil => rfl
  | cons e es ih =>
      rw [taken_cons, taken_cons]
      cases goesOn e with
      | true => rw [if_pos rfl, if_pos rfl, ih]
      | false => rfl

theorem any_taken (goesOn : ε → Bool) (es : List ε) :
    (taken goesOn es).any (fun e => !goesOn e) = es.any fun e => !goesOn e := by
  induction es with
  | nil => rfl
  | cons e es ih =>
      rw [taken_cons, List.any_cons, List.any_cons]
      cases goesOn e with
      | true => rw [if_pos rfl, ih]
      | false => rfl

/-- A run takes no event behind one that stops it in every state. -/
theorem run_taken {step : σ → ε → σ × Option ω} {goesOn : ε → Bool}
    (h : ∀ s e, goesOn e = false → (step s e).2 ≠ none) (s : σ) (es : List ε) :
    run step s (taken goesOn es) = run step s es := by
  induction es generalizing s with
  | nil => rfl
  | cons e es ih =>
      rw [taken_cons]
      cases hse : step s e with
      | mk s' o =>
          cases o with
          | some o => rw [run_cons_of_stop hse, run_cons_of_stop hse]
          | none =>
              cases he : goesOn e with
              | true => rw [run_cons_of_continue hse, run_cons_of_continue hse, if_pos rfl, ih]
              | false => exact absurd (congrArg Prod.snd hse) (h s e he)

/-- An event that stops a run is the last that it takes. -/
theorem taken_of_stop {goesOn : ε → Bool} {es : List ε} {e : ε} (he : e ∈ taken goesOn es)
    (hstop : goesOn e = false) :
    ∃ before after, es = before ++ e :: after ∧ (∀ x ∈ before, goesOn x = true) ∧
      taken goesOn es = before ++ [e] ∧ es.dropWhile goesOn = e :: after := by
  induction es with
  | nil => exact absurd he List.not_mem_nil
  | cons x es ih =>
      rw [taken_cons] at he ⊢
      cases hx : goesOn x with
      | false =>
          obtain rfl : e = x := by simpa [hx] using he
          exact ⟨[], es, rfl, by simp, by simp, List.dropWhile_cons_of_neg (by simp [hx])⟩
      | true =>
          have hne : e ≠ x := by
            rintro rfl
            rw [hx] at hstop
            contradiction
          rw [hx, if_pos rfl] at he
          obtain ⟨before, after, rfl, hbefore, htaken, hdrop⟩ :=
            ih ((List.mem_cons.mp he).resolve_left hne)
          refine ⟨x :: before, after, rfl, List.forall_mem_cons.mpr ⟨hx, hbefore⟩, ?_, ?_⟩
          · rw [if_pos rfl, htaken, List.cons_append]
          · rw [List.dropWhile_cons_of_pos hx, hdrop]

/-- Steps that stop on the event alone, and in a way that the event tells: the run
stops that way when it takes such an event. -/
theorem run_stop_iff {step : σ → ε → σ × Option ω} {goesOn : ε → Bool} {K : ω → Prop}
    {kind : ε → Prop} (hstop : ∀ s e, (step s e).2 = none ↔ goesOn e = true)
    (hkind : ∀ s e, (∃ w, (step s e).2 = some w ∧ K w) ↔ kind e) (s : σ) (es : List ε) :
    (∃ w, (run step s es).2 = some w ∧ K w) ↔ ∃ e ∈ taken goesOn es, kind e := by
  induction es generalizing s with
  | nil => simp [taken]
  | cons e es ih =>
      have hs := hstop s e
      have hk := hkind s e
      rw [taken_cons]
      cases hse : step s e with
      | mk s' o =>
          rw [hse] at hs hk
          cases o with
          | none =>
              have hnot : ¬ kind e := by simp [← hk]
              rw [run_cons_of_continue hse, ih s', if_pos (hs.mp rfl)]
              simp [hnot]
          | some w =>
              have hne : ¬ goesOn e = true := fun h => absurd (hs.mpr h) (by simp)
              rw [run_cons_of_stop hse, if_neg hne, hk]
              simp

/-- Steps that add something of the event alone to a list: a run adds it for all
the events that it takes. -/
theorem run_collect {β : Type} {step : List β → ε → List β × Option ω} {goesOn : ε → Bool}
    {gain : ε → List β} (hstop : ∀ s e, (step s e).2 = none ↔ goesOn e = true)
    (hgain : ∀ s e, (step s e).1 = s ++ gain e) (s : List β) (es : List ε) :
    (run step s es).1 = s ++ (taken goesOn es).flatMap gain := by
  induction es generalizing s with
  | nil => simp [taken]
  | cons e es ih =>
      have hs := hstop s e
      have hg := hgain s e
      rw [taken_cons, List.flatMap_cons]
      cases hse : step s e with
      | mk s' o =>
          rw [hse] at hs hg
          dsimp only at hg
          cases o with
          | none =>
              rw [run_cons_of_continue hse, ih s', if_pos (hs.mp rfl), ← List.append_assoc, ← hg]
          | some w =>
              have hne : ¬ goesOn e = true := fun h => absurd (hs.mpr h) (by simp)
              rw [run_cons_of_stop hse, if_neg hne, List.flatMap_nil, List.append_nil]
              exact hg

end Reactive
