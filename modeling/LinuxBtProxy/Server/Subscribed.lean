import LinuxBtProxy.Server.Published

/-!
# LinuxBtProxy.Server.Subscribed

What a subscribed client is sure to get.  `decoded_published` says that it gets
nothing but what was sent; here, over a part of a run in which it stays
subscribed and keeps up, it gets all of it (`subscribed_receives`).
-/

namespace LinuxBtProxy

open Broadcast

section

variable [Protobuf]

/-! ## Answers while the subscription stays -/

/-- The law of a longer history continues that of its first part. -/
theorem lawfulTrace_append (ctx : ProxyContext) (past acts later : List Act) :
    lawfulTrace ctx past (acts ++ later) =
      lawfulTrace ctx past acts ++ lawfulTrace ctx (past ++ acts) later := by
  induction acts generalizing past with
  | nil => rw [List.append_nil]; rfl
  | cons a acts ih =>
      rw [List.cons_append, lawfulTrace, lawfulTrace, ih, List.append_assoc, List.append_assoc]
      rfl

/-- The inputs of a lawful trace are in it. -/
theorem mem_lawfulTrace {ctx : ProxyContext} {past acts : List Act} {a : Act} (h : a ∈ acts) :
    a ∈ lawfulTrace ctx past acts := by
  induction acts generalizing past with
  | nil => exact absurd h List.not_mem_nil
  | cons b acts ih =>
      rw [lawfulTrace]
      obtain rfl | h := List.mem_cons.mp h
      · exact List.mem_cons_self
      · exact List.mem_cons_of_mem b (List.mem_append_right _ (ih h))

/-- The flags of a subscription to one of the two forms. -/
def subscribed (raw : Bool) : Subscription := if raw then .raw else .regular

/-- A subscriber is answered with the advertisement in its form. -/
theorem answers_advert {ctx : ProxyContext} {past : List Act} {raw : Bool}
    (h : current past = subscribed raw) (adv : BleAdvertisement) :
    answers ctx past (.advert adv) = [Response.ofAdvert adv raw] := by
  rw [answers, h]
  cases raw <;> rfl

/-- Every advertisement is answered with its form, also when the client subscribes
to this form again. -/
theorem filter_lawfulAnswers_of_subscribed {ctx : ProxyContext} {past acts : List Act} {raw : Bool}
    (h : current past = subscribed raw)
    (hacts : ∀ a ∈ acts, ∀ sub, a.subscription = some sub → sub = subscribed raw) :
    (lawfulAnswers ctx past acts).filter Response.isAdvert =
      (adverts acts).map (Response.ofAdvert · raw) := by
  induction acts generalizing past with
  | nil => rfl
  | cons a acts ih =>
      obtain ⟨ha, hlater⟩ := List.forall_mem_cons.mp hacts
      have hcurrent : current (past ++ [a]) = subscribed raw := by
        rw [current_append_singleton]
        cases hsub : a.subscription with
        | none => exact h
        | some sub => exact ha sub hsub
      have hsplit : adverts (a :: acts) = adverts [a] ++ adverts acts := adverts_append [a] acts
      have hone : (answers ctx past a).filter Response.isAdvert =
          (adverts [a]).map (Response.ofAdvert · raw) := by
        cases a with
        | advert adv =>
            rw [answers_advert h]
            cases raw <;> rfl
        | message msgType payload =>
            rw [answers]
            split
            · next req resp hans =>
                have hnot := isAdvert_answer hans
                split <;> simp [hnot, adverts, Act.advert?]
            · rfl
        | lagged | write | shutdown => rfl
      rw [lawfulAnswers, List.filter_append, hone, ih hcurrent hlater, hsplit, List.map_append]

/-! ## A task over a part of a run -/

omit [Protobuf] in
/-- The receptions of a history in order. -/
theorem receptions_cons (input : Input) (history : List Input) :
    receptions (input :: history) = input.received?.toList ++ receptions history := by
  cases h : input.received? <;> simp [receptions, h]

/-- What wakes a task between two states: the channel accounts for the positions
that it passes, with no loss if it keeps up. -/
theorem System.later_of_run [Channel BleAdvertisement] {ctx : ProxyContext} {s t : System}
    {actions : List Action} (h : s.run ctx actions = some t) {id : Nat} {c c' : Session}
    (hc : s.sessions id = some c) (hc' : t.sessions id = some c') :
    ∃ more, c'.history = c.history ++ more ∧
      Account t.sent c.next (receptions more) c'.next ∧
      (System.KeepsUp ctx id s actions → lost (receptions more) = 0) := by
  induction actions generalizing s c with
  | nil =>
      obtain rfl := Option.some.inj h
      obtain rfl := Option.some.inj (hc.symm.trans hc')
      exact ⟨[], (List.append_nil _).symm, .nil, fun _ => rfl⟩
  | cons a actions ih =>
      have hsent := System.sent_of_run h
      obtain ⟨u, hu, hrun⟩ := Option.bind_eq_some_iff.mp h
      obtain ⟨-, hmove⟩ := System.step_moves hu id
      rw [hc] at hmove
      generalize hnew : u.sessions id = o at hmove
      cases hmove with
      | stay =>
          obtain ⟨more, hhistory, haccount, hlost⟩ := ih hrun hnew
          exact ⟨more, hhistory, haccount, fun hup => hlost (hup.2 u hu)⟩
      | @socket c input halive hin =>
          obtain ⟨more, hhistory, haccount, hlost⟩ := ih hrun hnew
          have hreceptions : receptions (input :: more) = receptions more := by
            rw [receptions_cons, hin]
            rfl
          refine ⟨input :: more, hhistory.trans (List.append_assoc _ _ _), ?_, fun hup => ?_⟩
          · rw [hreceptions]
            exact haccount
          · rw [hreceptions]
            exact hlost (hup.2 u hu)
      | @recv c r next halive hr =>
          obtain ⟨more, hhistory, haccount, hlost⟩ := ih hrun hnew
          have hreceptions : receptions (.received r :: more) = [r] ++ receptions more :=
            receptions_cons _ _
          refine ⟨.received r :: more, hhistory.trans (List.append_assoc _ _ _), ?_, fun hup => ?_⟩
          · rw [hreceptions, hsent]
            rw [hsent] at haccount
            exact ((Account.nil.recv hr).append _).trans haccount
          · have hnear := hup.1 c hc
            rw [Channel.recv_near hnear] at hr
            obtain ⟨adv, -, heq⟩ := Option.map_eq_some_iff.mp hr
            obtain ⟨rfl, -⟩ := Prod.mk.inj heq
            rw [hreceptions]
            exact (Nat.zero_add _).trans (hlost (hup.2 u hu))

/-- A task that goes on did so before. -/
theorem continue_of_later {env : Env} {ctx : ProxyContext} {history more : List Event} {c c' : Conn}
    {exit : Option Exit} (h : handleClient env ctx history = (c, exit))
    (h' : handleClient env ctx (history ++ more) = (c', none)) : exit = none := by
  cases hexit : exit with
  | none => rfl
  | some w =>
      have hstop : (Reactive.run (step env ctx) Conn.start history).2 = some w := by
        rw [← handleClient, h]
        exact hexit
      have hsame := Reactive.run_append_of_stop hstop more
      rw [← handleClient, ← handleClient, h, h', hexit] at hsame
      exact absurd (congrArg Prod.snd hsame) (by simp)

/-- The law of a task that goes on without a disconnect, at an earlier state and
from there on. -/
theorem law_of_later {env : Env} (hfast : env.FailsFast) {ctx : ProxyContext}
    {history more : List Event} {c c' : Conn} (h : handleClient env ctx history = (c, none))
    (h' : handleClient env ctx (history ++ more) = (c', none))
    (hconnected : c'.client.sock.trace.any Act.isDisconnect = false) :
    ∃ past acts, (∀ a ∈ past ++ acts, a.isInput = true) ∧
      adverts past = history.filterMap Event.advert? ∧ adverts acts = more.filterMap Event.advert? ∧
      c.client.sock.trace = lawfulTrace ctx [] past ∧ c.client.flags = (current past).flags ∧
      c'.client.sock.trace = c.client.sock.trace ++ lawfulTrace ctx past acts := by
  have hnone : (handleClient env ctx history).2 = none := by rw [h]
  have hnone' : (handleClient env ctx (history ++ more)).2 = none := by rw [h']
  have hdue : (arrivals [] history).2 = none := by
    rw [(handleClient_eq_serveInput env ctx history).2] at hnone
    exact (Option.or_eq_none_iff.mp hnone).2
  have hdue' : (arrivals [] (history ++ more)).2 = none := by
    rw [(handleClient_eq_serveInput env ctx (history ++ more)).2] at hnone'
    exact (Option.or_eq_none_iff.mp hnone').2
  obtain ⟨rest, hmore⟩ := arrivals_append [] history hdue
  have hinputs := (inputs_handleClient env ctx history).2 hnone
  have hinputs' := (inputs_handleClient env ctx (history ++ more)).2 hnone'
  have hconnected' : (handleClient env ctx (history ++ more)).1.client.sock.trace.any
      Act.isDisconnect = false := by
    rw [h']
    exact hconnected
  have hbefore : (handleClient env ctx history).1.client.sock.trace.any Act.isDisconnect =
      false := by
    rw [← any_isDisconnect_inputs, hinputs', hmore, List.any_append,
      Bool.or_eq_false_iff] at hconnected'
    rw [← any_isDisconnect_inputs, hinputs]
    exact hconnected'.1
  obtain ⟨htrace, hflags⟩ := trace_of_continue hfast hnone hbefore
  obtain ⟨htrace', -⟩ := trace_of_continue hfast hnone' hconnected'
  have hadverts := (adverts_arrivals [] history).2 hdue
  have hadverts' := (adverts_arrivals [] (history ++ more)).2 hdue'
  rw [hmore] at htrace' hadverts'
  rw [adverts_append, hadverts, List.filterMap_append] at hadverts'
  rw [h] at htrace hflags
  rw [h', lawfulTrace_append, ← htrace] at htrace'
  refine ⟨(arrivals [] history).1, (arrivals rest more).1, fun a ha => ?_, hadverts,
    List.append_cancel_left hadverts', htrace, hflags, htrace'⟩
  obtain ha | ha := List.mem_append.mp ha
  · exact isInput_of_arrivals ha
  · exact isInput_of_arrivals ha

end

/-- What a client decodes of a longer lawful trace: as of its first part, and then the
answers of the rest. -/
theorem received_of_later [ProtobufRuntime] {ctx : ProxyContext} {past acts : List Act}
    (hinfo : (Response.deviceInfo (deviceInfoResponse ctx)).Fits)
    (hin : ∀ a ∈ past ++ acts, a.isInput = true)
    (hadverts : ∀ adv ∈ adverts past ++ adverts acts, AdvertFits adv) :
    received (sent (lawfulTrace ctx [] past ++ lawfulTrace ctx past acts)).flatten =
      received (sent (lawfulTrace ctx [] past)).flatten ++
        (lawfulAnswers ctx past acts).map some := by
  obtain ⟨hin, hin'⟩ := List.forall_mem_append.mp hin
  obtain ⟨hadverts, hadverts'⟩ := List.forall_mem_append.mp hadverts
  have hfits := fits_lawfulAnswers hinfo hadverts []
  have hfits' := fits_lawfulAnswers hinfo hadverts' past
  rw [sent_append, sent_lawfulTrace ctx hin [], sent_lawfulTrace ctx hin' past,
    ← List.map_append, received_responseFrames hfits,
    received_responseFrames (List.forall_mem_append.mpr ⟨hfits, hfits'⟩), List.map_append]

/-- **Everything while subscribed**: over a part of a run in which a client stays
connected and subscribed to one of the two forms, and keeps up with the channel,
it decodes every advertisement that was sent and that it had not been handed
before, in this form, once and in order. -/
theorem subscribed_receives [ProtobufRuntime] [Channel BleAdvertisement] {ctx : ProxyContext}
    {before after : List Action} {s t : System} (hs : System.start.run ctx before = some s)
    (ht : s.run ctx after = some t) {id : Nat} {c c' : Session}
    (hc : s.sessions id = some c) (hc' : t.sessions id = some c')
    (hfast : ∀ env, .accept id env ∈ before → env.FailsFast)
    (hinfo : (Response.deviceInfo (deviceInfoResponse ctx)).Fits)
    (hadverts : ∀ adv ∈ sends (before ++ after), AdvertFits adv)
    (hup : System.KeepsUp ctx id s after) (hcaught : c'.next = t.sent.length)
    (hopen : c'.exit = none)
    (hconnected : c'.conn.client.sock.trace.any Act.isDisconnect = false)
    {raw : Bool} (hsub : c.conn.client.flags = (subscribed raw).flags)
    (hstays : ∀ a ∈ c'.conn.client.sock.trace.drop c.conn.client.sock.trace.length,
      ∀ sub, a.subscription = some sub → sub = subscribed raw) :
    ∃ later, received (LinuxBtProxy.sent c'.conn.client.sock.trace).flatten =
        received (LinuxBtProxy.sent c.conn.client.sock.trace).flatten ++ later ∧
      later.filter (fun r => r.any Response.isAdvert) =
        (s.sent.drop c.next ++ sends after).map fun adv => some (Response.ofAdvert adv raw) := by
  have hst : System.start.run ctx (before ++ after) = some t :=
    (System.run_append hs after).trans ht
  have hsound := System.sound_of_run hs id c hc
  have hruns := hsound.runs
  have hruns' := (System.sound_of_run hst id c' hc').runs
  obtain ⟨-, hmem⟩ := System.sentSince_of_run hs rfl hc
  obtain ⟨henv, -⟩ := System.session_of_run ht hc hc'
  obtain ⟨more, hhistory, hmore, hlost⟩ := System.later_of_run ht hc hc'
  have hfast := hfast c.env hmem
  have hnext : c.next ≤ s.sent.length := hsound.account.le_length hsound.start_le
  have hsent : t.sent = s.sent ++ sends after := System.sent_of_run ht
  have hhanded := handed_sublist hst hc'
  rw [hhistory, List.map_append] at hhanded
  rw [henv, hhistory, List.map_append, hopen] at hruns'
  rw [continue_of_later hruns hruns'] at hruns
  obtain ⟨past, acts, hin, hpast, hacts, htrace, hflags, htrace'⟩ :=
    law_of_later hfast hruns hruns' hconnected
  -- the advertisements among the inputs of the part
  have hvalues : adverts acts = s.sent.drop c.next ++ sends after := by
    rw [hacts, adverts_history, hmore.values_eq (by rw [hsent, List.length_append]; omega)
      (hlost hup), hcaught, List.take_of_length_le (Nat.le_of_eq List.length_drop), hsent,
      List.drop_append_of_le_length hnext]
  have hcurrent : current past = subscribed raw := by
    have heq := hsub.symm.trans hflags
    cases raw <;> cases hcur : current past <;>
      simp_all [subscribed, Subscription.flags, SubscriptionFlags.none]
  have hsteady : ∀ a ∈ acts, ∀ sub, a.subscription = some sub → sub = subscribed raw := by
    intro a ha
    refine hstays a ?_
    rw [htrace', List.drop_left]
    exact mem_lawfulTrace ha
  -- the answers to them
  have hfits : ∀ adv ∈ adverts past ++ adverts acts, AdvertFits adv := by
    rw [hpast, hacts, ← List.filterMap_append]
    exact fun adv hadv => hadverts adv ((sentSince_sublist id _).mem (hhanded.mem hadv))
  refine ⟨(lawfulAnswers ctx past acts).map some, ?_, ?_⟩
  · rw [htrace', htrace]
    exact received_of_later hinfo hin hfits
  · rw [List.filter_map, ← hvalues]
    show ((lawfulAnswers ctx _ _).filter Response.isAdvert).map some = _
    rw [filter_lawfulAnswers_of_subscribed hcurrent hsteady, List.map_map]
    rfl

/-- A client subscribes to the raw form; then two advertisements are sent. -/
def subscribeActions : List Action :=
  [.accept 1 .quiet, .read 1 [0x00, 0x02, 0x42, 0x08, 0x01]]

/-- Two advertisements that the client receives at once. -/
def forwardActions : List Action :=
  [.send ⟨{}, { address := 1 }⟩, .recv 1, .send ⟨{}, { address := 2 }⟩, .recv 1]

/-- A server with one client that has subscribed to the raw form. -/
def subscribeSystem : System :=
  (@System.run (@generatedProtobuf canonicalRuntime) (.ring 128) sampleContext .start
    subscribeActions).get (by decide +kernel)

/-- The server two advertisements later. -/
def forwardSystem : System :=
  (@System.run (@generatedProtobuf canonicalRuntime) (.ring 128) sampleContext subscribeSystem
    forwardActions).get (by decide +kernel)

/-- The client after its subscription. -/
def subscribeSession : Session := (subscribeSystem.sessions 1).get (by decide +kernel)

/-- The client two advertisements later. -/
def forwardSession : Session := (forwardSystem.sessions 1).get (by decide +kernel)

/-- The client decodes both of them. -/
theorem subscribed_receives_sample :
    ∃ later, @received canonicalRuntime
        (LinuxBtProxy.sent forwardSession.conn.client.sock.trace).flatten =
      @received canonicalRuntime
        (LinuxBtProxy.sent subscribeSession.conn.client.sock.trace).flatten ++ later ∧
      later.filter (fun r => r.any Response.isAdvert) =
        (subscribeSystem.sent.drop subscribeSession.next ++ sends forwardActions).map
          fun adv => some (Response.ofAdvert adv true) := by
  have hfast : ∀ env, .accept 1 env ∈ subscribeActions → env.FailsFast := by
    intro env henv
    obtain rfl : env = .quiet := by simpa [subscribeActions] using henv
    exact Or.inl fun _ => rfl
  exact @subscribed_receives canonicalRuntime (.ring 128) sampleContext subscribeActions
    forwardActions subscribeSystem forwardSystem (Option.some_get _).symm (Option.some_get _).symm 1
    subscribeSession forwardSession (Option.some_get _).symm (Option.some_get _).symm hfast
    (by decide +kernel) (by decide +kernel) (by decide +kernel) (by decide +kernel)
    (by decide +kernel) (by decide +kernel) true (by decide +kernel) (by decide +kernel)

end LinuxBtProxy
