import LinuxBtProxy.Lib.Reactive

/-!
# LinuxBtProxy.Lib.Incremental

Readers of a byte stream that arrives in pieces.  A `FrontParser` looks at the
front of a buffer: it takes a message off it, says that it needs more bytes, or
crashes.  The reader around it appends each piece to the buffer and takes
messages off until the parser needs more:

* `drain` — the inner loop, `drainLoop` — the same loop with a body that may
  end it, `feed` — the outer loop over the pieces;
* `Consumes` — a run of successful calls; every loop is one
  (`drain_consumes`, `drainLoop_logged`), and it is as short as the buffer
  makes it (`Consumes.length_le`);
* `drainLoop_run` — the loop with a body is a run of the body over the drained
  messages;
* `feed_eq_iff` — for a parser that is not confused by bytes behind a complete
  message (`Stable`), feeding the pieces is draining their concatenation, as
  long as no intermediate buffer crashes;
* `drain_flatten` and `drain_take_crash_iff` — what draining a sequence of
  frames, or the first `n` bytes of it, does.
-/

namespace Incremental

variable {α β ε φ σ ω : Type}

/-! ## Parsers of the front of a buffer -/

/-- A parser of the front of a buffer.  A message shortens the buffer, and a
refusal leaves it as it was. -/
structure FrontParser (α β ε : Type) where
  next : List β → Except ε (Option α × List β)
  shrinks : ∀ {buf a rest}, next buf = .ok (some a, rest) → rest.length < buf.length
  keeps : ∀ {buf rest}, next buf = .ok (none, rest) → rest = buf

/-- Bytes behind a complete message change neither the message nor each
other. -/
def FrontParser.Stable (P : FrontParser α β ε) : Prop :=
  ∀ {buf a rest}, P.next buf = .ok (some a, rest) →
    ∀ more, P.next (buf ++ more) = .ok (some a, rest ++ more)

/-- The parser waits for more bytes on this buffer. -/
def FrontParser.Idle (P : FrontParser α β ε) (buf : List β) : Prop :=
  P.next buf = .ok (none, buf)

theorem FrontParser.idle_of_next {P : FrontParser α β ε} {buf rest : List β}
    (h : P.next buf = .ok (none, rest)) : P.Idle buf := by
  rw [FrontParser.Idle, h, P.keeps h]

/-! ## The loops -/

/-- Take messages off the buffer until the parser waits or crashes: the
messages, what is left of the buffer, and the crash if there was one. -/
def drain (P : FrontParser α β ε) (buf : List β) : List α × List β × Option ε :=
  match _h : P.next buf with
  | .error e => ([], buf, some e)
  | .ok (none, rest) => ([], rest, none)
  | .ok (some a, rest) =>
      let later := drain P rest
      (a :: later.1, later.2)
termination_by buf.length
decreasing_by exact P.shrinks _h

/-- Why a loop with a body stopped. -/
inductive Stop (ε ω : Type) where
  | wait
  | crash (e : ε)
  | exit (w : ω)

/-- The same loop with a body that carries a state and may end the loop. -/
def drainLoop (P : FrontParser α β ε) (body : σ → α → σ × Option ω) (s : σ) (buf : List β) :
    σ × List β × Stop ε ω :=
  match _h : P.next buf with
  | .error e => (s, buf, .crash e)
  | .ok (none, rest) => (s, rest, .wait)
  | .ok (some a, rest) =>
      match body s a with
      | (s', none) => drainLoop P body s' rest
      | (s', some w) => (s', rest, .exit w)
termination_by buf.length
decreasing_by exact P.shrinks _h

/-- Append each piece to the buffer and drain it. -/
def feed (P : FrontParser α β ε) (buf : List β) : List (List β) → List α × List β × Option ε
  | [] => ([], buf, none)
  | piece :: pieces =>
      match drain P (buf ++ piece) with
      | (msgs, rest, none) =>
          let later := feed P rest pieces
          (msgs ++ later.1, later.2)
      | (msgs, rest, some e) => (msgs, rest, some e)

section Equations

variable {P : FrontParser α β ε} {buf rest : List β}

theorem drain_crash {e : ε} (h : P.next buf = .error e) : drain P buf = ([], buf, some e) := by
  rw [drain]
  split <;> simp_all

theorem drain_idle (h : P.Idle buf) : drain P buf = ([], buf, none) := by
  rw [FrontParser.Idle] at h
  rw [drain]
  split <;> simp_all

theorem drain_message {a : α} (h : P.next buf = .ok (some a, rest)) :
    drain P buf = (a :: (drain P rest).1, (drain P rest).2) := by
  rw [drain]
  split <;> simp_all

variable {body : σ → α → σ × Option ω} {s s' : σ}

theorem drainLoop_crash {e : ε} (h : P.next buf = .error e) :
    drainLoop P body s buf = (s, buf, .crash e) := by
  rw [drainLoop]
  split <;> simp_all

theorem drainLoop_idle (h : P.Idle buf) : drainLoop P body s buf = (s, buf, .wait) := by
  rw [FrontParser.Idle] at h
  rw [drainLoop]
  split <;> simp_all

theorem drainLoop_message {a : α} (h : P.next buf = .ok (some a, rest))
    (hb : body s a = (s', none)) :
    drainLoop P body s buf = drainLoop P body s' rest := by
  rw [drainLoop]
  split <;> simp_all

theorem drainLoop_exit {a : α} {w : ω} (h : P.next buf = .ok (some a, rest))
    (hb : body s a = (s', some w)) : drainLoop P body s buf = (s', rest, .exit w) := by
  rw [drainLoop]
  split <;> simp_all

end Equations

/-- Induction along a drained buffer: the parser crashes on it, waits, or takes
a message off and goes on with the rest. -/
theorem drain_induction (P : FrontParser α β ε) {motive : List β → Prop}
    (crash : ∀ buf e, P.next buf = .error e → motive buf)
    (idle : ∀ buf, P.Idle buf → motive buf)
    (message : ∀ buf a rest, P.next buf = .ok (some a, rest) → motive rest → motive buf)
    (buf : List β) : motive buf := by
  induction hn : buf.length using Nat.strongRecOn generalizing buf with
  | ind n ih =>
      cases h : P.next buf with
      | error e => exact crash buf e h
      | ok r =>
          obtain ⟨_ | a, rest⟩ := r
          · exact idle buf (P.idle_of_next h)
          · exact message buf a rest h (ih rest.length (hn ▸ P.shrinks h) rest rfl)

/-! ## Draining -/

section Drain

variable {P : FrontParser α β ε}

/-- What a crash-free drain leaves behind is a buffer the parser waits on. -/
theorem idle_of_drain {buf rest : List β} {msgs : List α}
    (h : drain P buf = (msgs, rest, none)) : P.Idle rest := by
  induction buf using drain_induction P generalizing msgs with
  | crash buf e hn => simp [drain_crash hn] at h
  | idle buf hi =>
      rw [drain_idle hi] at h
      obtain ⟨-, rfl, -⟩ := by simpa using h
      exact hi
  | message buf a rest' hn ih =>
      rw [drain_message hn] at h
      obtain ⟨-, h2⟩ := by simpa only [Prod.mk.injEq] using h
      exact ih (Prod.ext rfl h2)

/-- More bytes behind a drained buffer: the messages found so far stay, and the
drain goes on from what was left. -/
theorem drain_append (hP : P.Stable) {buf rest : List β} {msgs : List α}
    (h : drain P buf = (msgs, rest, none)) (more : List β) :
    drain P (buf ++ more) =
      (msgs ++ (drain P (rest ++ more)).1, (drain P (rest ++ more)).2) := by
  induction buf using drain_induction P generalizing msgs with
  | crash buf e hn => simp [drain_crash hn] at h
  | idle buf hi =>
      rw [drain_idle hi] at h
      obtain ⟨rfl, rfl, -⟩ := by simpa using h
      simp
  | message buf a rest' hn ih =>
      rw [drain_message hn] at h
      obtain ⟨rfl, h2⟩ := by simpa only [Prod.mk.injEq] using h
      rw [drain_message (hP hn more), ih (Prod.ext rfl h2)]
      rfl

/-- The messages found in a buffer are found first when there is more behind
it. -/
theorem drain_prefix_append (hP : P.Stable) (buf more : List β) :
    (drain P buf).1 <+: (drain P (buf ++ more)).1 := by
  induction buf using drain_induction P with
  | crash buf e hn =>
      rw [drain_crash hn]
      exact List.nil_prefix
  | idle buf hi =>
      rw [drain_idle hi]
      exact List.nil_prefix
  | message buf a rest hn ih =>
      rw [drain_message hn, drain_message (hP hn more)]
      exact (List.prefix_cons_inj a).mpr ih

/-- A loop that ends by waiting has run its body on exactly the drained
messages, in order. -/
theorem drainLoop_of_wait {body : σ → α → σ × Option ω} {s s' : σ} {buf rest : List β}
    (h : drainLoop P body s buf = (s', rest, .wait)) :
    drain P buf = ((drain P buf).1, rest, none) ∧
      s' = (drain P buf).1.foldl (fun s a => (body s a).1) s := by
  induction buf using drain_induction P generalizing s with
  | crash buf e hn => simp [drainLoop_crash hn] at h
  | idle buf hi =>
      rw [drainLoop_idle hi] at h
      obtain ⟨rfl, rfl, -⟩ := by simpa using h
      simp [drain_idle hi]
  | message buf a rest' hn ih =>
      cases hb : body s a with
      | mk t w =>
          cases w with
          | some w => simp [drainLoop_exit hn hb] at h
          | none =>
              rw [drainLoop_message hn hb] at h
              obtain ⟨hd, hs⟩ := ih h
              rw [drain_message hn, hd]
              exact ⟨rfl, by rw [hs, List.foldl_cons, hb]⟩

/-- A loop that ends by waiting leaves a buffer the parser waits on. -/
theorem idle_of_wait {body : σ → α → σ × Option ω} {s s' : σ} {buf rest : List β}
    (h : drainLoop P body s buf = (s', rest, .wait)) : P.Idle rest :=
  idle_of_drain (drainLoop_of_wait h).1

end Drain

/-! ## Runs of calls -/

/-- A run of successful calls: the messages they return, and the buffer behind
the last of them. -/
inductive Consumes (P : FrontParser α β ε) : List β → List α → List β → Prop
  | refl (buf) : Consumes P buf [] buf
  | message {buf a rest msgs last} (hn : P.next buf = .ok (some a, rest))
      (h : Consumes P rest msgs last) : Consumes P buf (a :: msgs) last

/-- Messages of at least `k` bytes: a run is no longer than they fit. -/
theorem Consumes.length_le {P : FrontParser α β ε} {k : Nat}
    (hk : ∀ {buf a rest}, P.next buf = .ok (some a, rest) → rest.length + k ≤ buf.length)
    {buf last : List β} {msgs : List α} (h : Consumes P buf msgs last) :
    k * msgs.length + last.length ≤ buf.length := by
  induction h with
  | refl buf => simp
  | message hn _ ih =>
      have hstep := hk hn
      rw [List.length_cons, Nat.mul_succ]
      omega

theorem drain_consumes (P : FrontParser α β ε) (buf : List β) :
    Consumes P buf (drain P buf).1 (drain P buf).2.1 := by
  induction buf using drain_induction P with
  | crash buf e hn => rw [drain_crash hn]; exact .refl buf
  | idle buf hi => rw [drain_idle hi]; exact .refl buf
  | message buf a rest hn ih => rw [drain_message hn]; exact .message hn ih

/-- The body, with a log of the messages it was run on. -/
def logged (body : σ → α → σ × Option ω) (s : σ × List α) (a : α) : (σ × List α) × Option ω :=
  (((body s.1 a).1, s.2 ++ [a]), (body s.1 a).2)

/-- The log does not change the loop, and it grows by a run of calls. -/
theorem drainLoop_logged (P : FrontParser α β ε) (body : σ → α → σ × Option ω) (s : σ)
    (log : List α) (buf : List β) :
    ∃ msgs, Consumes P buf msgs (drainLoop P body s buf).2.1 ∧
      drainLoop P (logged body) (s, log) buf =
        (((drainLoop P body s buf).1, log ++ msgs), (drainLoop P body s buf).2) := by
  induction buf using drain_induction P generalizing s log with
  | crash buf e hn =>
      rw [drainLoop_crash hn, drainLoop_crash hn]
      exact ⟨[], .refl buf, by simp⟩
  | idle buf hi =>
      rw [drainLoop_idle hi, drainLoop_idle hi]
      exact ⟨[], .refl buf, by simp⟩
  | message buf a rest hn ih =>
      cases hb : body s a with
      | mk s' w =>
          have hlog : logged body (s, log) a = ((s', log ++ [a]), w) := by
            simp [logged, hb]
          cases w with
          | some w =>
              rw [drainLoop_exit hn hb, drainLoop_exit hn hlog]
              exact ⟨[a], .message hn (.refl rest), rfl⟩
          | none =>
              obtain ⟨msgs, hrun, hloop⟩ := ih s' (log ++ [a])
              rw [drainLoop_message hn hb, drainLoop_message hn hlog, hloop]
              exact ⟨a :: msgs, .message hn hrun, by simp⟩

/-! ## The body as a reactive component -/

/-- Why the loop stops: the body ends it, or else the drain of the buffer does. -/
def stopOf (exit : Option ω) (crash : Option ε) : Stop ε ω :=
  match exit, crash with
  | some w, _ => .exit w
  | none, some e => .crash e
  | none, none => .wait

/-- **The loop is a run of its body**: over the messages that draining the buffer
gives, with the buffer that it leaves unless the body ends the loop. -/
theorem drainLoop_run (P : FrontParser α β ε) (body : σ → α → σ × Option ω) (s : σ)
    (buf : List β) :
    (drainLoop P body s buf).1 = (Reactive.run body s (drain P buf).1).1 ∧
      (drainLoop P body s buf).2.2 =
        stopOf (Reactive.run body s (drain P buf).1).2 (drain P buf).2.2 ∧
      ((Reactive.run body s (drain P buf).1).2 = none →
        (drainLoop P body s buf).2.1 = (drain P buf).2.1) := by
  induction buf using drain_induction P generalizing s with
  | crash buf e hn =>
      rw [drainLoop_crash hn, drain_crash hn]
      exact ⟨rfl, rfl, fun _ => rfl⟩
  | idle buf hi =>
      rw [drainLoop_idle hi, drain_idle hi]
      exact ⟨rfl, rfl, fun _ => rfl⟩
  | message buf a rest hn ih =>
      rw [drain_message hn]
      cases hb : body s a with
      | mk s' w =>
          cases w with
          | none =>
              rw [drainLoop_message hn hb, Reactive.run_cons_of_continue hb]
              exact ih s'
          | some w =>
              rw [drainLoop_exit hn hb, Reactive.run_cons_of_stop hb]
              exact ⟨rfl, rfl, fun h => by contradiction⟩

/-! ## Feeding pieces -/

section Feed

variable {P : FrontParser α β ε}

theorem feed_cons_of_drain {buf piece rest : List β} {msgs : List α}
    (h : drain P (buf ++ piece) = (msgs, rest, none)) (pieces : List (List β)) :
    feed P buf (piece :: pieces) =
      (msgs ++ (feed P rest pieces).1, (feed P rest pieces).2) := by
  rw [feed, h]

theorem feed_cons_of_crash {buf piece rest : List β} {msgs : List α} {e : ε}
    (h : drain P (buf ++ piece) = (msgs, rest, some e)) (pieces : List (List β)) :
    feed P buf (piece :: pieces) = (msgs, rest, some e) := by
  rw [feed, h]

/-- Behind a piece that drains, the drain of the buffer with the piece and more
bytes is the drain of what was left with these bytes. -/
theorem drain_append_piece (hP : P.Stable) {buf piece left : List β} {found : List α}
    (hd : drain P (buf ++ piece) = (found, left, none)) (more : List β) :
    drain P (buf ++ (piece ++ more)) =
      (found ++ (drain P (left ++ more)).1, (drain P (left ++ more)).2) := by
  rw [← List.append_assoc]
  exact drain_append hP hd more

/-- Behind a first piece that drains, no buffer on the way crashes exactly when
none does on the way from what that piece left. -/
theorem drain_prefixes_cons_iff (hP : P.Stable) {buf piece left : List β} {found : List α}
    (hbuf : P.Idle buf) (hd : drain P (buf ++ piece) = (found, left, none))
    (pieces : List (List β)) :
    (∀ first, first <+: piece :: pieces → (drain P (buf ++ first.flatten)).2.2 = none) ↔
      ∀ first, first <+: pieces → (drain P (left ++ first.flatten)).2.2 = none := by
  constructor
  · intro h first hpre
    have hfirst := h (piece :: first) (List.prefix_cons_inj piece |>.mpr hpre)
    rwa [List.flatten_cons, drain_append_piece hP hd] at hfirst
  · intro h first hpre
    cases first with
    | nil => simp [drain_idle hbuf]
    | cons c first =>
        obtain ⟨rfl, htail⟩ := List.cons_prefix_cons.mp hpre
        rw [List.flatten_cons, drain_append_piece hP hd]
        exact h first htail

/-- **Chunk independence**: pieces are fed without a crash exactly when their
concatenation drains without one and so does every concatenation of the first
few pieces; the messages and the rest are then those of the concatenation. -/
theorem feed_eq_iff (hP : P.Stable) {buf rest : List β} (hbuf : P.Idle buf) {msgs : List α}
    (pieces : List (List β)) :
    feed P buf pieces = (msgs, rest, none) ↔
      drain P (buf ++ pieces.flatten) = (msgs, rest, none) ∧
        ∀ first, first <+: pieces → (drain P (buf ++ first.flatten)).2.2 = none := by
  induction pieces generalizing buf msgs with
  | nil => simp [feed, drain_idle hbuf]
  | cons piece pieces ih =>
      cases hd : drain P (buf ++ piece) with
      | mk found left =>
          obtain ⟨left, _ | e⟩ := left
          · -- the first piece drains: what is left is a buffer the parser waits on
            have hleft := idle_of_drain hd
            rw [drain_prefixes_cons_iff hP hbuf hd, feed_cons_of_drain hd, List.flatten_cons,
              drain_append_piece hP hd]
            constructor
            · intro h
              obtain ⟨rfl, h2⟩ := by simpa only [Prod.mk.injEq] using h
              have hrest := (ih hleft).mp (Prod.ext rfl h2)
              rw [hrest.1]
              exact ⟨rfl, hrest.2⟩
            · rintro ⟨h, hpre⟩
              obtain ⟨rfl, h2⟩ := by simpa only [Prod.mk.injEq] using h
              rw [(ih hleft).mpr ⟨Prod.ext rfl h2, hpre⟩]
          · -- the first piece crashes: both sides fail
            constructor
            · intro h
              simp [feed_cons_of_crash hd] at h
            · rintro ⟨-, h⟩
              have hfirst := h [piece] (List.prefix_append [piece] pieces)
              simp [hd] at hfirst

theorem drain_of_feed (hP : P.Stable) {buf rest : List β} (hbuf : P.Idle buf) {msgs : List α}
    {pieces : List (List β)} (h : feed P buf pieces = (msgs, rest, none)) :
    drain P (buf ++ pieces.flatten) = (msgs, rest, none) :=
  ((feed_eq_iff hP hbuf pieces).mp h).1

end Feed

/-! ## Sequences of frames -/

section Frames

variable {P : FrontParser α β ε} (bytes : φ → List β) (msg : φ → α)

/-- Frames the parser takes off whatever follows them drain one by one. -/
theorem drain_flatten {frames : List φ}
    (hfull : ∀ f ∈ frames, ∀ rest, P.next (bytes f ++ rest) = .ok (some (msg f), rest))
    (tail : List β) :
    drain P ((frames.map bytes).flatten ++ tail) =
      (frames.map msg ++ (drain P tail).1, (drain P tail).2) := by
  induction frames with
  | nil => simp
  | cons f frames ih =>
      rw [List.map_cons, List.flatten_cons, List.append_assoc,
        drain_message (hfull f List.mem_cons_self _),
        ih (fun g hg => hfull g (List.mem_cons_of_mem f hg))]
      simp

/-- Cutting the stream of frames after `n` bytes avoids the bad positions: `n`
falls on a frame boundary, or inside a frame at a position that is not bad. -/
def CleanCut (bad : φ → Nat → Prop) : List φ → Nat → Prop
  | [], _ => True
  | f :: frames, n =>
      if n < (bytes f).length then ¬ bad f n else CleanCut bad frames (n - (bytes f).length)

instance decidableCleanCut (bad : φ → Nat → Prop) [∀ f n, Decidable (bad f n)] :
    (frames : List φ) → (n : Nat) → Decidable (CleanCut bytes bad frames n)
  | [], _ => isTrue trivial
  | f :: frames, n =>
      have := decidableCleanCut bad frames (n - (bytes f).length)
      inferInstanceAs (Decidable (if n < (bytes f).length then ¬ bad f n
        else CleanCut bytes bad frames (n - (bytes f).length)))

/-- A parser that crashes on a proper prefix of a frame exactly at the bad
positions drains the first `n` bytes of a stream of frames without a crash
exactly when the cut is clean. -/
theorem drain_take_crash_iff {bad : φ → Nat → Prop} (hnil : P.Idle [])
    {frames : List φ}
    (hfull : ∀ f ∈ frames, ∀ rest, P.next (bytes f ++ rest) = .ok (some (msg f), rest))
    (hbad : ∀ f ∈ frames, ∀ r < (bytes f).length, bad f r →
      ∃ e, P.next ((bytes f).take r) = .error e)
    (hgood : ∀ f ∈ frames, ∀ r < (bytes f).length, ¬ bad f r → P.Idle ((bytes f).take r))
    (n : Nat) :
    (drain P ((frames.map bytes).flatten.take n)).2.2 = none ↔ CleanCut bytes bad frames n := by
  induction frames generalizing n with
  | nil => simp [CleanCut, drain_idle hnil]
  | cons f frames ih =>
      rw [List.map_cons, List.flatten_cons]
      by_cases hn : n < (bytes f).length
      · have htake : (bytes f ++ (frames.map bytes).flatten).take n = (bytes f).take n :=
          List.take_append_of_le_length (Nat.le_of_lt hn)
        rw [htake, CleanCut, if_pos hn]
        by_cases hb : bad f n
        · obtain ⟨e, he⟩ := hbad f List.mem_cons_self n hn hb
          simp [drain_crash he, hb]
        · simp [drain_idle (hgood f List.mem_cons_self n hn hb), hb]
      · have htake : (bytes f ++ (frames.map bytes).flatten).take n =
            bytes f ++ (frames.map bytes).flatten.take (n - (bytes f).length) := by
          rw [List.take_append, List.take_of_length_le (by omega)]
        rw [htake, drain_message (hfull f List.mem_cons_self _), CleanCut, if_neg hn]
        exact ih (fun g hg => hfull g (List.mem_cons_of_mem f hg))
          (fun g hg => hbad g (List.mem_cons_of_mem f hg))
          (fun g hg => hgood g (List.mem_cons_of_mem f hg)) _

end Frames

end Incremental
