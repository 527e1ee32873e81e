import LinuxBtProxy.Server.Arrivals
import LinuxBtProxy.Server.Standing

/-!
# LinuxBtProxy.Server.Disconnect

What happens on a connection after its stream has been shut down.

The disconnect handler returns `Ok(())` after the shutdown, so neither loop of
`handle_client` ends: a frame that is still in the buffer, or that arrives
later, is dispatched, and an advertisement is still forwarded.

* `Standing.disconnected` — the first `DisconnectRequest` that is answered, with
  the stream shut down behind the answer;
* `Quiet` — what may follow there;
* `closed_iff_quiet` — exactly then nothing happens after the disconnect, and the
  task goes on, or ends with `Ok(())`, as its events say.
-/

namespace LinuxBtProxy

open Incremental

/-! ## Acts after the shutdown -/

/-- The acts after the first shutdown that succeeded. -/
def afterShutdown : List Act → List Act
  | [] => []
  | a :: acts => if a.isShutdown then acts else afterShutdown acts

/-- Something received that no branch for its message type, and no write, answers:
a broadcast event, or a message of a type that `handle_client` does not know. -/
def Act.isQuiet : Act → Bool
  | .message msgType _ => route msgType == .unknown
  | .advert _ | .lagged _ => true
  | .write _ _ | .shutdown _ => false

/-- After the shutdown no message is dispatched to a handler and nothing is
attempted on the stream. -/
def Silent (trace : List Act) : Prop :=
  ∀ a ∈ afterShutdown trace, a.isQuiet = true

/-- Once the stream has been shut down nothing happens, and the task has ended as
it is due to, or goes on if it is not due to end. -/
def Closed (c : Client) (exit due : Option Exit) : Prop :=
  c.sock.shut = true → Silent c.sock.trace ∧ exit = due

/-- On an open stream nothing is behind the shutdown. -/
theorem afterShutdown_of_open {trace : List Act} (h : trace.any Act.isShutdown = false)
    (acts : List Act) : afterShutdown (trace ++ acts) = afterShutdown acts := by
  induction trace with
  | nil => rfl
  | cons a trace ih =>
      simp only [List.any_cons, Bool.or_eq_false_iff] at h
      rw [List.cons_append, afterShutdown, h.1]
      simpa using ih h.2

/-- Behind the shutdown comes everything that follows. -/
theorem afterShutdown_of_shut {trace : List Act} (h : trace.any Act.isShutdown = true)
    (acts : List Act) : afterShutdown (trace ++ acts) = afterShutdown trace ++ acts := by
  induction trace with
  | nil => simp at h
  | cons a trace ih =>
      rw [List.cons_append, afterShutdown, afterShutdown]
      cases ha : a.isShutdown with
      | true => simp
      | false =>
          rw [List.any_cons, ha, Bool.false_or] at h
          simpa using ih h

/-- Without a shutdown there is nothing to be silent behind. -/
theorem silent_of_open {trace : List Act} (h : trace.any Act.isShutdown = false) :
    Silent trace := by
  have hnil := afterShutdown_of_open h []
  rw [List.append_nil] at hnil
  simp [Silent, hnil, afterShutdown]

/-- A silent trace stays silent by quiet acts. -/
theorem silent_append_iff {trace : List Act} (hs : trace.any Act.isShutdown = true)
    (acts : List Act) :
    Silent (trace ++ acts) ↔ Silent trace ∧ ∀ a ∈ acts, a.isQuiet = true := by
  rw [Silent, afterShutdown_of_shut hs, List.forall_mem_append]
  rfl

section

variable [Protobuf] {env : Env} {ctx : ProxyContext}

/-! ## The shutdown -/

/-- An input shuts an open stream down just when it is a `DisconnectRequest` that
does not end the task; the shutdown is the last thing it does. -/
theorem serveInput_of_open (env : Env) (ctx : ProxyContext) {c : Client}
    (hopen : c.sock.shut = false) {a : Act} (ha : a.isInput = true) :
    ((serveInput env ctx c a).1.sock.shut = true ↔
        a.isDisconnect = true ∧ (serveInput env ctx c a).2 = none) ∧
      Silent (serveInput env ctx c a).1.sock.trace := by
  cases a with
  | message msgType payload =>
      have hnote : (c.note (msgType, payload)).sock.shut = false := by
        simp [Client.note, hopen, Act.isShutdown]
      obtain ⟨happ, hexit⟩ | ⟨s', happ, hsock, htype, hexit⟩ :=
        dispatch_appends env ctx c (msgType, payload)
      · have hshut : (serveInput env ctx c (.message msgType payload)).1.sock.shut = false :=
          happ.shut_eq.trans hnote
        refine ⟨?_, silent_of_open hshut⟩
        rw [hshut]
        refine ⟨fun h => by contradiction, fun h => absurd h.2 (hexit ?_)⟩
        simpa [Act.isDisconnect] using h.1
      · have hopen' : s'.trace.any Act.isShutdown = false := happ.leavesOpen.shut_eq.trans hnote
        have hafter : afterShutdown (s'.trace ++ [.shutdown true]) = [] := by
          rw [afterShutdown_of_open hopen']
          rfl
        have hdis : (Act.message msgType payload).isDisconnect = true := by
          simpa [Act.isDisconnect] using htype
        rw [serveInput, hsock, Socket.record_trace, Silent, hafter]
        exact ⟨by simp [Act.isShutdown, hdis, hexit], by simp⟩
  | advert adv =>
      have hshut : (forward env c adv).1.sock.shut = false := by
        rw [(forward_trace env c adv).leavesOpen.shut_eq, Socket.shut_record, hopen]
        rfl
      refine ⟨?_, silent_of_open hshut⟩
      rw [serveInput, hshut]
      simp [Act.isDisconnect]
  | lagged n =>
      have hshut : (c.sock.record (.lagged n)).shut = false := by
        rw [Socket.shut_record, hopen]
        rfl
      refine ⟨?_, silent_of_open hshut⟩
      rw [serveInput, hshut]
      simp [Act.isDisconnect]
  | write | shutdown => contradiction

/-! ## Behind the shutdown -/

section

omit [Protobuf]

/-- What may follow the shutdown: messages of unknown types, with the calls of
their log lines succeeding, and advertisements that find no subscription. -/
structure Quiet (env : Env) (st : Standing) (later : List Act) : Prop where
  unknown : ∀ msgType payload, .message msgType payload ∈ later → route msgType = .unknown
  unsubscribed : ∀ adv, .advert adv ∈ later → st.sub = .off
  logged : env.Succeeds st.calls (env.lineCalls .warn * (messages later).length)

/-- Where nothing comes, nothing is answered. -/
theorem quiet_nil (env : Env) (st : Standing) : Quiet env st [] where
  unknown := fun _ _ h => absurd h List.not_mem_nil
  unsubscribed := fun _ h => absurd h List.not_mem_nil
  logged := Env.succeeds_zero

/-- A message is quiet if its type is unknown and its log line succeeds. -/
theorem quiet_message_iff {st : Standing} {msgType : UInt32} {payload : List UInt8}
    {later : List Act} :
    Quiet env st (.message msgType payload :: later) ↔
      route msgType = .unknown ∧ env.Succeeds st.calls (env.lineCalls .warn) ∧
        Quiet env { st with calls := st.calls + env.lineCalls .warn } later := by
  have hcount : env.lineCalls .warn * (messages (.message msgType payload :: later)).length =
      env.lineCalls .warn + env.lineCalls .warn * (messages later).length := by
    rw [messages, List.length_cons, Nat.mul_succ, Nat.add_comm]
  constructor
  · intro h
    have hlogged := h.logged
    rw [hcount, Env.succeeds_add] at hlogged
    exact ⟨h.unknown _ _ List.mem_cons_self, hlogged.1,
      { unknown := fun t p hmem => h.unknown t p (List.mem_cons_of_mem _ hmem)
        unsubscribed := fun adv hmem => h.unsubscribed adv (List.mem_cons_of_mem _ hmem)
        logged := hlogged.2 }⟩
  · rintro ⟨hroute, hline, hlater⟩
    constructor
    · intro t p hmem
      obtain heq | hmem := List.mem_cons.mp hmem
      · obtain ⟨rfl, -⟩ := by simpa using heq
        exact hroute
      · exact hlater.unknown t p hmem
    · intro adv hmem
      exact hlater.unsubscribed adv ((List.mem_cons.mp hmem).resolve_left (by simp))
    · rw [hcount, Env.succeeds_add]
      exact ⟨hline, hlater.logged⟩

/-- An advertisement is quiet without a subscription. -/
theorem quiet_advert_iff {st : Standing} {adv : BleAdvertisement} {later : List Act} :
    Quiet env st (.advert adv :: later) ↔ st.sub = .off ∧ Quiet env st later := by
  constructor
  · intro h
    exact ⟨h.unsubscribed adv List.mem_cons_self,
      { unknown := fun t p hmem => h.unknown t p (List.mem_cons_of_mem _ hmem)
        unsubscribed := fun adv hmem => h.unsubscribed adv (List.mem_cons_of_mem _ hmem)
        logged := h.logged }⟩
  · rintro ⟨hsub, hlater⟩
    exact
      { unknown := fun t p hmem =>
          hlater.unknown t p ((List.mem_cons.mp hmem).resolve_left (by simp))
        unsubscribed := fun _ _ => hsub
        logged := hlater.logged }

/-- A lag report is quiet. -/
theorem quiet_lagged_iff {st : Standing} {n : UInt64} {later : List Act} :
    Quiet env st (.lagged n :: later) ↔ Quiet env st later := by
  constructor
  · intro h
    exact
      { unknown := fun t p hmem => h.unknown t p (List.mem_cons_of_mem _ hmem)
        unsubscribed := fun adv hmem => h.unsubscribed adv (List.mem_cons_of_mem _ hmem)
        logged := h.logged }
  · intro hlater
    exact
      { unknown := fun t p hmem =>
          hlater.unknown t p ((List.mem_cons.mp hmem).resolve_left (by simp))
        unsubscribed := fun adv hmem =>
          hlater.unsubscribed adv ((List.mem_cons.mp hmem).resolve_left (by simp))
        logged := hlater.logged }

/-- Only no subscription has both flags off. -/
theorem Subscription.flags_eq_none_iff {sub : Subscription} : sub.flags = .none ↔ sub = .off := by
  cases sub <;> simp [flags, SubscriptionFlags.none]

end

/-- With a subscription, an advertisement after the shutdown ends the task with an
error. -/
theorem forward_of_shut (env : Env) {c : Client} (hshut : c.sock.shut = true)
    (hflags : c.flags ≠ .none) (adv : BleAdvertisement) : (forward env c adv).2 ≠ none := by
  have hrec : (c.sock.record (.advert adv)).shut = true := by simp [hshut]
  unfold forward
  dsimp only
  cases hraw : c.flags.raw with
  | true =>
      obtain ⟨e, s', hw⟩ := logWrite_of_shut env hrec .debug
        (responseFrame (.bluetoothLERawAdvertisements { advertisements := [adv.raw] }))
      simp [Client.await, forwardRawBleAdvertisement, hw]
  | false =>
      cases hreg : c.flags.regular with
      | true =>
          obtain ⟨e, s', hw⟩ := logWrite_of_shut env hrec .debug
            (responseFrame (.bluetoothLEAdvertisement adv.legacy))
          simp [Client.await, forwardBleAdvertisement, hw]
      | false => exact absurd (SubscriptionFlags.eq_none hreg hraw) hflags

/-- Without a subscription nothing is forwarded. -/
theorem forward_of_off {c : Client} (hflags : c.flags = .none) (adv : BleAdvertisement) :
    forward env c adv = ({ c with sock := c.sock.record (.advert adv) }, none) := by
  unfold forward
  simp [hflags, SubscriptionFlags.none]

omit [Protobuf] in
/-- A stream that has been shut down stays so. -/
theorem shut_of_grows {s s' : Socket} (h : s.trace <+: s'.trace) (hshut : s.shut = true) :
    s'.shut = true := by
  obtain ⟨acts, htrace⟩ := h
  rw [Socket.shut, ← htrace, List.any_append, ← Socket.shut, hshut, Bool.true_or]

/-- A message of an unknown type is only logged. -/
theorem serveInput_of_unknown (env : Env) (ctx : ProxyContext) {c : Client} {st : Standing}
    (hst : Stands c st) {msgType : UInt32} (hroute : route msgType = .unknown)
    (payload : List UInt8) :
    (env.Succeeds st.calls (env.lineCalls .warn) ∧
        ∃ c', serveInput env ctx c (.message msgType payload) = (c', none) ∧
          c'.sock.trace = c.sock.trace ++ [.message msgType payload] ∧
          Stands c' { st with calls := st.calls + env.lineCalls .warn }) ∨
      (¬ env.Succeeds st.calls (env.lineCalls .warn) ∧
        (serveInput env ctx c (.message msgType payload)).2 ≠ none) := by
  have hrun : serveInput env ctx c (.message msgType payload) =
      (c.note (msgType, payload)).await (logPeer env .warn) := by
    rw [serveInput, dispatch]
    dsimp only
    rw [hroute]
    rfl
  have hcosts := logPeer_costs env .warn (c.note (msgType, payload)).sock
  have hmade : (c.note (msgType, payload)).sock.calls = st.calls := hst.calls
  by_cases hline : env.Succeeds st.calls (env.lineCalls .warn)
  · obtain ⟨s', hlog, hcalls⟩ := hcosts.ok (hmade ▸ hline)
    have htrace := logPeer_trace env .warn (c.note (msgType, payload)).sock
    rw [hlog] at htrace
    rw [Client.await, hlog] at hrun
    rw [hmade] at hcalls
    exact .inl ⟨hline, _, hrun, htrace, { calls := hcalls, flags := hst.flags }⟩
  · obtain ⟨e, s', hlog⟩ := hcosts.fails (hmade ▸ hline)
    refine .inr ⟨hline, ?_⟩
    rw [hrun, Client.await, hlog]
    simp

/-- Behind the shutdown the task goes on in silence just as long as its inputs are
quiet. -/
theorem silent_run_iff (env : Env) (ctx : ProxyContext) {c : Client}
    (hshut : c.sock.shut = true) (hsilent : Silent c.sock.trace) {st : Standing}
    (hst : Stands c st) {later : List Act} (hin : ∀ a ∈ later, a.isInput = true) :
    Silent (Reactive.run (serveInput env ctx) c later).1.sock.trace ∧
        (Reactive.run (serveInput env ctx) c later).2 = none ↔
      Quiet env st later := by
  induction later generalizing c st with
  | nil => exact ⟨fun _ => quiet_nil env st, fun _ => ⟨hsilent, rfl⟩⟩
  | cons a later ih =>
      obtain ⟨ha, hlater⟩ := List.forall_mem_cons.mp hin
      -- an input that is recorded and leaves this standing
      have hrecord : ∀ st' c', serveInput env ctx c a = (c', none) → a.isQuiet = true →
          c'.sock.trace = c.sock.trace ++ [a] → Stands c' st' →
          (Silent (Reactive.run (serveInput env ctx) c (a :: later)).1.sock.trace ∧
              (Reactive.run (serveInput env ctx) c (a :: later)).2 = none ↔
            Quiet env st' later) := by
        intro st' c' hrun hquiet htrace hst'
        have hshut' : c'.sock.shut = true :=
          shut_of_grows ⟨[a], htrace.symm⟩ hshut
        have hsilent' : Silent c'.sock.trace := by
          rw [htrace, silent_append_iff hshut]
          exact ⟨hsilent, by simpa using hquiet⟩
        rw [Reactive.run_cons_of_continue hrun]
        exact ih hshut' hsilent' hst' hlater
      -- an input that ends the task
      have hstop : (serveInput env ctx c a).2 ≠ none →
          ¬ (Silent (Reactive.run (serveInput env ctx) c (a :: later)).1.sock.trace ∧
            (Reactive.run (serveInput env ctx) c (a :: later)).2 = none) := by
        rintro hne ⟨-, hnone⟩
        rcases hrun : serveInput env ctx c a with ⟨c', _ | w⟩
        · exact hne (by rw [hrun])
        · rw [Reactive.run_cons_of_stop hrun] at hnone
          contradiction
      cases a with
      | lagged n =>
          rw [quiet_lagged_iff]
          exact hrecord st _ rfl rfl rfl { calls := hst.calls, flags := hst.flags }
      | advert adv =>
          have hoff : c.flags = .none ↔ st.sub = .off := by
            rw [hst.flags, Subscription.flags_eq_none_iff]
          rw [quiet_advert_iff]
          by_cases hsub : st.sub = .off
          · rw [and_iff_right hsub]
            exact hrecord st _ (forward_of_off (hoff.mpr hsub) adv) rfl rfl
              { calls := hst.calls, flags := hst.flags }
          · have hloud := forward_of_shut env hshut (fun h => hsub (hoff.mp h)) adv
            exact iff_of_false (hstop hloud) fun h => hsub h.1
      | message msgType payload =>
          rw [quiet_message_iff]
          by_cases hroute : route msgType = .unknown
          · rw [and_iff_right hroute]
            obtain ⟨hline, c', hrun, htrace, hst'⟩ | ⟨hline, hne⟩ :=
              serveInput_of_unknown env ctx hst hroute payload
            · rw [and_iff_right hline]
              exact hrecord _ c' hrun (by simp [Act.isQuiet, hroute]) htrace hst'
            · exact iff_of_false (hstop hne) fun h => hline h.1
          · refine iff_of_false (fun h => ?_) fun h => hroute h.1
            obtain ⟨out, hout⟩ := run_serveInput_cons_grows env ctx c ha hlater
            have hloud := h.1
            rw [← hout, List.append_assoc, silent_append_iff hshut] at hloud
            have hquiet := hloud.2 (.message msgType payload) (by simp)
            exact hroute (by simpa [Act.isQuiet] using hquiet)
      | write | shutdown => contradiction

/-! ## Whole runs -/

/-- Inputs end the task only by an error. -/
theorem run_serveInput_exit (env : Env) (ctx : ProxyContext) (c : Client) (acts : List Act) :
    (Reactive.run (serveInput env ctx) c acts).2 = none ∨
      ∃ e, (Reactive.run (serveInput env ctx) c acts).2 = some (.err e) := by
  cases hexit : (Reactive.run (serveInput env ctx) c acts).2 with
  | none => exact .inl rfl
  | some w =>
      obtain ⟨before, a, after, c', -, -, hstop⟩ := Reactive.exists_of_run_stop hexit
      obtain hnone | ⟨e, he⟩ := serveInput_exit env ctx c' a
      · rw [hnone] at hstop
        contradiction
      · exact .inr ⟨e, hstop.symm.trans he⟩

/-- The inputs of a run, from an open stream: it is closed behind the disconnect
just as long as what follows is quiet, with `last` the way it ends if no input ends
it. -/
theorem closed_run_iff {last due : Option Exit} (hdue : ∀ e, due ≠ some (.err e)) {c : Client}
    (hopen : c.sock.shut = false) {st : Standing} (hst : Stands c st) {acts : List Act}
    (hin : ∀ a ∈ acts, a.isInput = true) :
    Closed (Reactive.run (serveInput env ctx) c acts).1
        ((Reactive.run (serveInput env ctx) c acts).2.or last) due ↔
      ∀ st' later, st.disconnected env ctx acts = some (st', later) →
        Quiet env st' later ∧ last = due := by
  induction acts generalizing c st with
  | nil =>
      refine iff_of_true (fun h => ?_) fun st' later h => by contradiction
      rw [Reactive.run_nil, hopen] at h
      contradiction
  | cons a acts ih =>
      obtain ⟨ha, hin⟩ := List.forall_mem_cons.mp hin
      have hgoes : Goes env ctx st a (serveInput env ctx c a) := goes_serveInput hopen hst a
      obtain ⟨hshut, hsilent⟩ := serveInput_of_open env ctx hopen ha
      rw [Standing.disconnected]
      generalize hrun : serveInput env ctx c a = r at hgoes hshut hsilent
      cases hgoes with
      | @stop c' e hnext =>
          -- the task ends on an open stream
          rw [Reactive.run_cons_of_stop hrun, hnext]
          refine iff_of_true (fun h => ?_) fun st' later h => by contradiction
          exact absurd (hshut.mp h).2 (by simp)
      | @on c' st' hnext hst' =>
          rw [Reactive.run_cons_of_continue hrun, hnext, Option.bind_some]
          cases hdis : a.isDisconnect with
          | false =>
              have hopen' : c'.sock.shut = false := by
                rw [Bool.eq_false_iff]
                exact fun h => absurd (hshut.mp h).1 (by simp [hdis])
              rw [if_neg Bool.false_ne_true]
              exact ih hopen' hst' hin
          | true =>
              have hshut' : c'.sock.shut = true := hshut.mpr ⟨hdis, rfl⟩
              have hquiet := silent_run_iff env ctx hshut' hsilent hst' hin
              have hexit := run_serveInput_exit env ctx c' acts
              have hgrows := run_serveInput_grows env ctx c' hin
              generalize Reactive.run (serveInput env ctx) c' acts = r at hquiet hexit hgrows
              obtain ⟨c'', exit⟩ := r
              rw [if_pos rfl]
              constructor
              · intro hclosed st'' later heq
                obtain ⟨rfl, rfl⟩ : st' = st'' ∧ acts = later := by simpa using heq
                obtain ⟨hsilent', hends⟩ := hclosed (shut_of_grows hgrows hshut')
                obtain hexit | ⟨e, hexit⟩ := hexit
                · obtain rfl : exit = none := hexit
                  exact ⟨hquiet.mp ⟨hsilent', rfl⟩, hends⟩
                · obtain rfl : exit = some (.err e) := hexit
                  exact absurd hends.symm (hdue e)
              · intro hall _
                obtain ⟨hq, rfl⟩ := hall st' acts rfl
                obtain ⟨hsilent', hexit⟩ := hquiet.mpr hq
                obtain rfl : exit = none := hexit
                exact ⟨hsilent', rfl⟩

/-- **After the disconnect**: once a `DisconnectRequest` has been answered and the
stream shut down, nothing happens on the connection and the task ends with
`Ok(())`, exactly when what its events deliver behind the request is quiet and an
event ends the task with `Ok(())`; and nothing happens and the task goes on exactly
when what they deliver is quiet and no event ends it. -/
theorem closed_iff_quiet (env : Env) (ctx : ProxyContext) (events : List Event) :
    let run := handleClient env ctx events
    let due := arrivals [] events
    (Closed run.1.client run.2 (some .ok) ↔
        ∀ st later, Standing.start.disconnected env ctx due.1 = some (st, later) →
          Quiet env st later ∧ due.2 = some .ok) ∧
      (Closed run.1.client run.2 none ↔
        ∀ st later, Standing.start.disconnected env ctx due.1 = some (st, later) →
          Quiet env st later ∧ due.2 = none) := by
  obtain ⟨hclient, hexit⟩ := handleClient_eq_serveInput env ctx events
  have hstart : Stands Conn.start.client .start := { calls := rfl, flags := rfl }
  have hin : ∀ a ∈ (arrivals [] events).1, a.isInput = true := fun a ha => isInput_of_arrivals ha
  dsimp only
  rw [hclient, hexit]
  exact ⟨closed_run_iff (by simp) rfl hstart hin, closed_run_iff (by simp) rfl hstart hin⟩

end

/-- A disconnect and a ping in one read: the ping is answered, after the
shutdown, and the run ends with an error. -/
theorem not_closed_pipelined :
    let run := @handleClient defaultProtobuf .quiet sampleContext
      [.read [0x00, 0x00, 0x05, 0x00, 0x00, 0x07]]
    run.1.client.sock.trace =
        [.message 0x05 [], .write [0x00, 0x00, 0x06] true, .shutdown true,
          .message 0x07 [], .write [0x00, 0x00, 0x08] false] ∧
      run.2 = some (.err .socket) ∧ ∀ due, due ≠ some (.err .socket) →
        ¬ Closed run.1.client run.2 due := by
  have hrun : (@handleClient defaultProtobuf .quiet sampleContext
      [.read [0x00, 0x00, 0x05, 0x00, 0x00, 0x07]]).2 = some (.err .socket) := by decide +kernel
  have hshut : (@handleClient defaultProtobuf .quiet sampleContext
      [.read [0x00, 0x00, 0x05, 0x00, 0x00, 0x07]]).1.client.sock.shut = true := by decide +kernel
  exact ⟨by decide +kernel, hrun, fun due hdue h => hdue ((h hshut).2.symm.trans hrun)⟩

/-- A message of an unknown type behind the disconnect is only logged. -/
example :
    let run := @handleClient defaultProtobuf .quiet sampleContext
      [.read [0x00, 0x00, 0x05, 0x00, 0x00, 0x60], .read []]
    run.1.client.sock.trace =
        [.message 0x05 [], .write [0x00, 0x00, 0x06] true, .shutdown true, .message 0x60 []] ∧
      run.2 = some .ok := by
  decide +kernel

end LinuxBtProxy
