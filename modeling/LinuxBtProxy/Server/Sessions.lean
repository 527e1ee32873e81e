import LinuxBtProxy.Handlers.Effects
import LinuxBtProxy.Server.System

/-!
# LinuxBtProxy.Server.Sessions

What holds of every client of the running server, in whatever order its tasks,
the listener and the sender take their steps.

* `Session.Sound` — a task is a run of `handle_client` on its own history, and
  its receptions account for the advertisements sent since it was accepted
  (`sound_of_run`);
* `sentSince_of_run` — the channel holds what was sent before a client came, and
  what was sent since;
* `session_alone` — a client fares as if it were the only one.
-/

namespace LinuxBtProxy

open Broadcast

/-! ## Tasks -/

namespace Input

/-- What was received from the channel. -/
def received? : Input → Option (Received BleAdvertisement)
  | .received r => some r
  | .read _ | .readError => none

end Input

/-- What a task has been given by the channel. -/
def receptions (history : List Input) : List (Received BleAdvertisement) :=
  history.filterMap Input.received?

/-- The receptions of a longer history. -/
theorem receptions_append_singleton (history : List Input) (input : Input) :
    receptions (history ++ [input]) = receptions history ++ input.received?.toList := by
  cases h : input.received? <;> simp [receptions, h]

/-- The advertisement that is sent. -/
def Action.sends : Action → Option BleAdvertisement
  | .send adv => some adv
  | _ => none

/-- The connection of a client is accepted. -/
def Action.accepts (id : Nat) : Action → Bool
  | .accept id' _ => id' == id
  | _ => false

/-- The advertisements that are sent. -/
def sends (actions : List Action) : List BleAdvertisement := actions.filterMap Action.sends

/-- The advertisements that are sent after a client's connection was accepted. -/
def sentSince (id : Nat) (actions : List Action) : List BleAdvertisement :=
  sends (actions.dropWhile fun a => !a.accepts id)

/-- What is sent by a first step and those behind it. -/
theorem sends_cons (a : Action) (actions : List Action) :
    sends (a :: actions) = a.sends.toList ++ sends actions := by
  cases h : a.sends <;> simp [sends, h]

section

variable [Protobuf] [Channel BleAdvertisement] {ctx : ProxyContext}

namespace Session

/-- What holds of a task when these advertisements have been sent. -/
structure Sound (ctx : ProxyContext) (sent : List BleAdvertisement) (c : Session) : Prop where
  runs : handleClient c.env ctx (c.history.map Input.event) = (c.conn, c.exit)
  account : Account sent c.start (receptions c.history) c.next
  start_le : c.start ≤ sent.length

omit [Channel BleAdvertisement] in
/-- A client that has just been accepted is sound. -/
theorem sound_spawn (ctx : ProxyContext) (env : Env) (sent : List BleAdvertisement) :
    Sound ctx sent (spawn env sent) where
  runs := rfl
  account := .nil
  start_le := Nat.le_refl _

omit [Channel BleAdvertisement] in
/-- One more step of a task is one more event of its run. -/
theorem runs_wake {c : Session} (h : handleClient c.env ctx (c.history.map Input.event) =
    (c.conn, c.exit)) (halive : c.exit = none) (input : Input) :
    handleClient c.env ctx ((c.wake ctx input).history.map Input.event) =
      ((c.wake ctx input).conn, (c.wake ctx input).exit) := by
  rw [halive] at h
  have hrun := Reactive.run_append_of_continue h [input.event]
  rw [Reactive.run_singleton] at hrun
  show handleClient c.env ctx ((c.history ++ [input]).map Input.event) = _
  rw [List.map_append, handleClient]
  exact hrun

/-- What an action does to one task. -/
inductive Moves (ctx : ProxyContext) (sent : List BleAdvertisement) (id : Nat)
    (a : Action) : Option Session → Option Session → Prop
  | stay (o : Option Session) (ha : a.accepts id = false) : Moves ctx sent id a o o
  | spawn (env : Env) (ha : a = .accept id env) :
      Moves ctx sent id a none (some (.spawn env sent))
  | socket {c : Session} {input : Input} (halive : c.exit = none) (hin : input.received? = none) :
      Moves ctx sent id a (some c) (some (c.wake ctx input))
  | recv {c : Session} {r : Received BleAdvertisement} {next : Nat} (halive : c.exit = none)
      (hr : Channel.recv sent c.next = some (r, next)) :
      Moves ctx sent id a (some c) (some { c.wake ctx (.received r) with next })

end Session

namespace System

omit [Protobuf] [Channel BleAdvertisement] in
/-- A step that wakes a client finds it running and replaces it. -/
theorem wake_eq_some {s s' : System} {id : Nat} {f : Session → Option Session}
    (h : s.wake id f = some s') :
    ∃ c c', s.sessions id = some c ∧ c.exit = none ∧ f c = some c' ∧ s' = s.put id c' := by
  unfold wake at h
  split at h
  · next c hc =>
      split at h
      · next halive =>
          obtain ⟨c', hf, rfl⟩ := Option.map_eq_some_iff.mp h
          exact ⟨c, c', hc, halive, hf, rfl⟩
      · contradiction
  · contradiction

omit [Protobuf] [Channel BleAdvertisement] in
/-- The client that was put is found. -/
@[simp] theorem put_sessions_self (s : System) (id : Nat) (c : Session) :
    (s.put id c).sessions id = some c := if_pos rfl

omit [Protobuf] [Channel BleAdvertisement] in
/-- The other clients are as they were. -/
theorem put_sessions_of_ne (s : System) {id id' : Nat} (h : id ≠ id') (c : Session) :
    (s.put id' c).sessions id = s.sessions id := if_neg h

/-- Putting one client moves this one alone. -/
theorem moves_put {s : System} {id' : Nat} {a : Action} {c : Session}
    (ha : ∀ id, id ≠ id' → a.accepts id = false)
    (h : Session.Moves ctx s.sent id' a (s.sessions id') (some c)) (id : Nat) :
    Session.Moves ctx s.sent id a (s.sessions id) ((s.put id' c).sessions id) := by
  by_cases hid : id = id'
  · rw [hid, put_sessions_self]
    exact h
  · rw [put_sessions_of_ne s hid]
    exact .stay _ (ha id hid)

/-- What an action does to the system, as one of its clients sees it. -/
theorem step_moves {s s' : System} {a : Action} (h : s.step ctx a = some s') (id : Nat) :
    s'.sent = s.sent ++ a.sends.toList ∧
      Session.Moves ctx s.sent id a (s.sessions id) (s'.sessions id) := by
  unfold step at h
  split at h
  · cases a with
    | send adv =>
        obtain rfl := Option.some.inj h
        exact ⟨rfl, .stay _ rfl⟩
    | acceptError =>
        obtain rfl := Option.some.inj h
        exact ⟨(List.append_nil _).symm, .stay _ rfl⟩
    | accept id' env =>
        have hother : ∀ id, id ≠ id' → (Action.accept id' env).accepts id = false :=
          fun id hne => beq_false_of_ne (Ne.symm hne)
        dsimp only at h
        split at h
        · next hfree =>
            obtain rfl := Option.some.inj h
            have hmove : Session.Moves ctx s.sent id' (.accept id' env) (s.sessions id')
                (some (.spawn env s.sent)) := by
              rw [Option.isNone_iff_eq_none.mp hfree]
              exact .spawn env rfl
            exact ⟨(List.append_nil _).symm, moves_put hother hmove id⟩
        · contradiction
    | read id' bytes =>
        obtain ⟨c, c', hc, halive, hf, rfl⟩ := wake_eq_some h
        obtain rfl := Option.some.inj hf
        exact ⟨(List.append_nil _).symm,
          moves_put (fun _ _ => rfl) (hc ▸ .socket halive rfl) id⟩
    | readError id' =>
        obtain ⟨c, c', hc, halive, hf, rfl⟩ := wake_eq_some h
        obtain rfl := Option.some.inj hf
        exact ⟨(List.append_nil _).symm,
          moves_put (fun _ _ => rfl) (hc ▸ .socket halive rfl) id⟩
    | recv id' =>
        obtain ⟨c, c', hc, halive, hf, rfl⟩ := wake_eq_some h
        obtain ⟨r, hr, rfl⟩ := Option.map_eq_some_iff.mp hf
        exact ⟨(List.append_nil _).symm,
          moves_put (fun _ _ => rfl) (hc ▸ .recv halive hr) id⟩
  · contradiction

/-- What holds at the start and is kept by every action holds in every state
reached. -/
theorem run_invariant {I : System → Prop}
    (hI : ∀ {s s' a}, I s → s.step ctx a = some s' → I s') {s s' : System}
    {actions : List Action} (hs : I s) (h : s.run ctx actions = some s') : I s' := by
  induction actions generalizing s with
  | nil =>
      obtain rfl := Option.some.inj h
      exact hs
  | cons a actions ih =>
      obtain ⟨t, ht, hrun⟩ := Option.bind_eq_some_iff.mp h
      exact ih (hI hs ht) hrun

/-- Steps in a row are taken one part after the other. -/
theorem run_append {s t : System} {actions : List Action}
    (h : s.run ctx actions = some t) (later : List Action) :
    s.run ctx (actions ++ later) = t.run ctx later := by
  induction actions generalizing s with
  | nil =>
      obtain rfl := Option.some.inj h
      rfl
  | cons a actions ih =>
      obtain ⟨u, hu, hrun⟩ := Option.bind_eq_some_iff.mp h
      rw [List.cons_append, run, hu, Option.bind_some]
      exact ih hrun

/-- The tasks of the system are sound. -/
def Sound (ctx : ProxyContext) (s : System) : Prop :=
  ∀ id c, s.sessions id = some c → c.Sound ctx s.sent

/-- A step leaves every client sound. -/
theorem Sound.step {s s' : System} {a : Action} (h : Sound ctx s)
    (hstep : s.step ctx a = some s') : Sound ctx s' := by
  intro id c hc
  obtain ⟨hmore, hmove⟩ := step_moves hstep id
  generalize a.sends.toList = more at hmore
  have hgrow : ∀ {start}, start ≤ s.sent.length → start ≤ (s.sent ++ more).length := by
    intro start hle
    rw [List.length_append]
    omega
  rw [hc] at hmove
  rw [hmore]
  generalize hold : s.sessions id = o at hmove
  cases hmove with
  | stay =>
      obtain ⟨hruns, haccount, hle⟩ := h id c hold
      exact ⟨hruns, haccount.append more, hgrow hle⟩
  | spawn env ha =>
      obtain ⟨hruns, haccount, hle⟩ := Session.sound_spawn ctx env s.sent
      exact ⟨hruns, haccount.append more, hgrow hle⟩
  | @socket c input halive hin =>
      obtain ⟨hruns, haccount, hle⟩ := h id c hold
      refine ⟨Session.runs_wake hruns halive input, ?_, hgrow hle⟩
      show Account _ c.start (receptions (c.history ++ [input])) c.next
      rw [receptions_append_singleton, hin, Option.toList_none, List.append_nil]
      exact haccount.append more
  | @recv c r next halive hr =>
      obtain ⟨hruns, haccount, hle⟩ := h id c hold
      refine ⟨Session.runs_wake hruns halive _, ?_, hgrow hle⟩
      show Account _ c.start (receptions (c.history ++ [.received r])) next
      rw [receptions_append_singleton]
      exact (haccount.recv hr).append more

/-- The tasks of every state reached are sound. -/
theorem sound_of_run {s : System} {actions : List Action}
    (h : start.run ctx actions = some s) : Sound ctx s :=
  run_invariant Sound.step (fun id c hc => absurd hc (by simp [start])) h

/-! ## What is sent to a client -/

/-- What was sent is what the steps send. -/
theorem sent_of_run {s s' : System} {actions : List Action}
    (h : s.run ctx actions = some s') : s'.sent = s.sent ++ sends actions := by
  induction actions generalizing s with
  | nil =>
      obtain rfl := Option.some.inj h
      exact (List.append_nil _).symm
  | cons a actions ih =>
      obtain ⟨t, ht, hrun⟩ := Option.bind_eq_some_iff.mp h
      obtain ⟨hsent, -⟩ := step_moves ht 0
      rw [ih hrun, hsent, List.append_assoc, sends, sends]
      cases hsends : a.sends <;> simp [hsends]

/-- A task keeps its environment and its start. -/
theorem session_of_run {s s' : System} {actions : List Action}
    (h : s.run ctx actions = some s') {id : Nat} {c c' : Session}
    (hc : s.sessions id = some c) (hc' : s'.sessions id = some c') :
    c'.env = c.env ∧ c'.start = c.start := by
  induction actions generalizing s c with
  | nil =>
      obtain rfl := Option.some.inj h
      obtain rfl := Option.some.inj (hc.symm.trans hc')
      exact ⟨rfl, rfl⟩
  | cons a actions ih =>
      obtain ⟨t, ht, hrun⟩ := Option.bind_eq_some_iff.mp h
      obtain ⟨-, hmove⟩ := step_moves ht id
      rw [hc] at hmove
      generalize hnew : t.sessions id = o at hmove
      cases hmove with
      | stay => exact ih hrun hnew
      | socket =>
          have hlater := ih hrun hnew
          exact hlater
      | recv =>
          have hlater := ih hrun hnew
          exact hlater

/-- The channel holds what was sent before a client came, and what was sent
since. -/
theorem sentSince_of_run {s s' : System} {actions : List Action}
    (h : s.run ctx actions = some s') {id : Nat} {c : Session}
    (hnone : s.sessions id = none) (hc : s'.sessions id = some c) :
    s'.sent.drop c.start = sentSince id actions ∧ .accept id c.env ∈ actions := by
  induction actions generalizing s with
  | nil =>
      obtain rfl := Option.some.inj h
      exact absurd (hnone.symm.trans hc) (by simp)
  | cons a actions ih =>
      obtain ⟨t, ht, hrun⟩ := Option.bind_eq_some_iff.mp h
      obtain ⟨-, hmove⟩ := step_moves ht id
      rw [hnone] at hmove
      generalize hnew : t.sessions id = o at hmove
      cases hmove with
      | stay _ ha =>
          obtain ⟨hdrop, hmem⟩ := ih hrun hnew
          have hskip : sentSince id (a :: actions) = sentSince id actions := by
            rw [sentSince, sentSince, List.dropWhile_cons_of_pos (by simp [ha])]
          exact ⟨hdrop.trans hskip.symm, List.mem_cons_of_mem a hmem⟩
      | spawn env ha =>
          obtain ⟨henv, hstart⟩ := session_of_run hrun hnew hc
          have haccepts : (Action.accept id env).accepts id = true := beq_self_eq_true id
          have hsince : sentSince id (a :: actions) = sends actions := by
            rw [ha, sentSince, List.dropWhile_cons_of_neg (by simp [haccepts]), sends_cons]
            rfl
          have hlength : c.start = s.sent.length := hstart
          constructor
          · rw [hsince, sent_of_run h, sends_cons, ha, hlength, List.drop_left]
            rfl
          · rw [henv, ha]
            exact List.mem_cons_self

/-! ## Isolation -/

end System

/-- The actions that a client's task depends on: its own, and those of the
sender. -/
def Action.concerns (id : Nat) : Action → Bool
  | .send _ => true
  | .acceptError => false
  | .accept id' _ | .read id' _ | .readError id' | .recv id' => id' == id

namespace System

/-- Two systems that are the same to a client. -/
structure Agree (id : Nat) (s t : System) : Prop where
  sent : t.sent = s.sent
  session : t.sessions id = s.sessions id
  running : s.running = true → t.running = true

omit [Protobuf] [Channel BleAdvertisement] in
/-- Putting the same client leaves two servers in agreement about it. -/
theorem Agree.put {id : Nat} {s t : System} (h : Agree id s t) (c : Session) :
    Agree id (s.put id c) (t.put id c) where
  sent := h.sent
  session := by rw [put_sessions_self, put_sessions_self]
  running := h.running

omit [Protobuf] [Channel BleAdvertisement] in
/-- Putting another client leaves the agreement as it was. -/
theorem Agree.put_of_ne {id id' : Nat} {s t : System} (h : Agree id s t) (hne : id ≠ id')
    (c : Session) : Agree id (s.put id' c) t where
  sent := h.sent
  session := by rw [put_sessions_of_ne s hne, h.session]
  running := h.running

omit [Protobuf] [Channel BleAdvertisement] in
/-- A client wakes alike on servers that agree about it. -/
theorem Agree.wake {id : Nat} {s t s' : System} {f : Session → Option Session}
    (h : Agree id s t) (hwake : s.wake id f = some s') :
    ∃ t', t.wake id f = some t' ∧ Agree id s' t' := by
  obtain ⟨c, c', hc, halive, hf, rfl⟩ := wake_eq_some hwake
  refine ⟨t.put id c', ?_, h.put c'⟩
  rw [System.wake, h.session, hc]
  dsimp only
  rw [if_pos halive, hf]
  rfl

/-- Steps are taken while the server runs. -/
theorem running_of_step {s s' : System} {a : Action} (h : s.step ctx a = some s') :
    s.running = true := by
  unfold step at h
  split at h
  · assumption
  · contradiction

/-- An action that concerns the client does the same in both systems. -/
theorem Agree.step {id : Nat} {s t s' : System} {a : Action} (h : Agree id s t)
    (hstep : s.step ctx a = some s') (ha : a.concerns id = true) :
    ∃ t', t.step ctx a = some t' ∧ Agree id s' t' := by
  have hs := running_of_step hstep
  unfold System.step at hstep ⊢
  rw [if_pos hs] at hstep
  rw [if_pos (h.running hs)]
  cases a with
  | send adv =>
      obtain rfl := Option.some.inj hstep
      exact ⟨_, rfl, ⟨by rw [h.sent], h.session, h.running⟩⟩
  | acceptError => exact absurd ha (by simp [Action.concerns])
  | accept id' env =>
      obtain rfl : id' = id := by simpa [Action.concerns] using ha
      dsimp only at hstep ⊢
      rw [h.session, h.sent]
      split at hstep
      · next hfree =>
          obtain rfl := Option.some.inj hstep
          rw [if_pos hfree]
          exact ⟨_, rfl, h.put _⟩
      · contradiction
  | read id' bytes =>
      obtain rfl : id' = id := by simpa [Action.concerns] using ha
      exact h.wake hstep
  | readError id' =>
      obtain rfl : id' = id := by simpa [Action.concerns] using ha
      exact h.wake hstep
  | recv id' =>
      obtain rfl : id' = id := by simpa [Action.concerns] using ha
      rw [h.sent]
      exact h.wake hstep

/-- An action that does not concern the client can be left out. -/
theorem Agree.skip {id : Nat} {s t s' : System} {a : Action} (h : Agree id s t)
    (hstep : s.step ctx a = some s') (ha : a.concerns id = false) : Agree id s' t := by
  have hs := running_of_step hstep
  unfold System.step at hstep
  rw [if_pos hs] at hstep
  have hwake : ∀ {id' : Nat} {f : Session → Option Session}, id' ≠ id → s.wake id' f = some s' →
      Agree id s' t := by
    intro id' f hne hwake
    obtain ⟨c, c', -, -, -, rfl⟩ := wake_eq_some hwake
    exact h.put_of_ne (Ne.symm hne) c'
  cases a with
  | send adv => exact absurd ha (by simp [Action.concerns])
  | acceptError =>
      obtain rfl := Option.some.inj hstep
      exact ⟨h.sent, h.session, fun hrunning => absurd hrunning (by simp)⟩
  | accept id' env =>
      have hne : id' ≠ id := by simpa [Action.concerns] using ha
      dsimp only at hstep
      split at hstep
      · obtain rfl := Option.some.inj hstep
        exact h.put_of_ne (Ne.symm hne) _
      · contradiction
  | read id' bytes => exact hwake (by simpa [Action.concerns] using ha) hstep
  | readError id' => exact hwake (by simpa [Action.concerns] using ha) hstep
  | recv id' => exact hwake (by simpa [Action.concerns] using ha) hstep

/-- Servers agree about a client after any steps, less those that do not concern it.
-/
theorem Agree.run {id : Nat} {s t s' : System} {actions : List Action} (h : Agree id s t)
    (hrun : s.run ctx actions = some s') :
    ∃ t', t.run ctx (actions.filter (Action.concerns id)) = some t' ∧ Agree id s' t' := by
  induction actions generalizing s t with
  | nil =>
      obtain rfl := Option.some.inj hrun
      exact ⟨t, rfl, h⟩
  | cons a actions ih =>
      obtain ⟨u, hu, hrun⟩ := Option.bind_eq_some_iff.mp hrun
      cases ha : a.concerns id with
      | true =>
          obtain ⟨v, hv, hagree⟩ := h.step hu ha
          obtain ⟨t', ht', hagree'⟩ := ih hagree hrun
          refine ⟨t', ?_, hagree'⟩
          rw [List.filter_cons_of_pos ha, System.run, hv, Option.bind_some, ht']
      | false =>
          rw [List.filter_cons_of_neg (by simp [ha])]
          exact ih (h.skip hu ha) hrun

/-- **Isolation**: whatever the other clients do, and even when their tasks fail
or the listener does, a client fares exactly as if it were the only one. -/
theorem session_alone {s : System} {actions : List Action}
    (h : start.run ctx actions = some s) (id : Nat) :
    ∃ t, start.run ctx (actions.filter (Action.concerns id)) = some t ∧
      t.sessions id = s.sessions id ∧ t.sent = s.sent := by
  have hstart : Agree id start start := ⟨rfl, rfl, fun h => h⟩
  obtain ⟨t, ht, hagree⟩ := hstart.run h
  exact ⟨t, ht, hagree.session, hagree.sent⟩

end System

end

/-! ## A sample run -/

/-- An advertisement is sent; a client comes and subscribes; another one comes,
sends a ping and fails; a second advertisement reaches the first client. -/
def sampleActions : List Action :=
  [.send ⟨{}, {}⟩, .accept 1 .quiet, .read 1 [0x00, 0x02, 0x42, 0x08, 0x01], .accept 2 .quiet,
    .send ⟨{}, {}⟩, .read 2 [0x00, 0x00, 0x07], .readError 2, .recv 1]

/-- The state that the sample run reaches. -/
def sampleSystem : System :=
  (@System.run defaultProtobuf (.ring 128) sampleContext .start sampleActions).get
    (by decide +kernel)

/-- The steps can be taken. -/
theorem run_sampleActions :
    @System.run defaultProtobuf (.ring 128) sampleContext .start sampleActions =
      some sampleSystem :=
  (Option.some_get _).symm

/-- The first client of the sample run. -/
def sampleSession : Session := (sampleSystem.sessions 1).get (by decide +kernel)

/-- The first client is there. -/
theorem sessions_sampleSystem : sampleSystem.sessions 1 = some sampleSession :=
  (Option.some_get _).symm

/-- The first client without the second one. -/
theorem session_alone_sample :
    ∃ t, @System.run defaultProtobuf (.ring 128) sampleContext .start
        [.send ⟨{}, {}⟩, .accept 1 .quiet, .read 1 [0x00, 0x02, 0x42, 0x08, 0x01],
          .send ⟨{}, {}⟩, .recv 1] = some t ∧
      t.sessions 1 = some sampleSession ∧ t.sent = sampleSystem.sent := by
  have hrun := @System.session_alone defaultProtobuf (.ring 128) sampleContext sampleSystem
    sampleActions run_sampleActions 1
  rw [sessions_sampleSystem] at hrun
  exact hrun

end LinuxBtProxy
