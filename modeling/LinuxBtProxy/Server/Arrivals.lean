import LinuxBtProxy.Server.Served
import LinuxBtProxy.Proto.Wedge

/-!
# LinuxBtProxy.Server.Arrivals

What a connection receives is what its events deliver.

* `arrivals` — the inputs that the events deliver, and how they end the task;
* `handleClient_eq_serveInput` — `handle_client` serves just these inputs, and ends
  where an input ends it or else where the events do;
* `feed_handleClient` — as long as it runs, the buffer holds what the read loop
  leaves over;
* `handleClient_delivers_iff` — how the bytes of frames may be cut into reads;
* `follows_handleClient` — the trace law, and `handleClient_lawful` where no call
  on the socket fails;
* `completable_handleClient_iff` — what the bytes in the buffer wait for.
-/

namespace LinuxBtProxy

open Incremental

/-! ## What the events deliver -/

/-- The reads among the events. -/
def reads : List Event → List (List UInt8)
  | [] => []
  | .read bytes :: events => bytes :: reads events
  | _ :: events => reads events

/-- What one event delivers to a connection with this buffer: its inputs, the
buffer behind them, and how it ends the task. -/
def arrive (buf : List UInt8) : Event → List Act × List UInt8 × Option Exit
  | .read bytes =>
      if bytes = [] then ([], buf, some .ok)
      else
        let (found, rest, crash) := drain nextMessageParser (buf ++ bytes)
        (found.map fun m => Act.message m.1 m.2, rest, crash.map Exit.panic)
  | .advert adv => ([.advert adv], buf, none)
  | .lagged n => ([.lagged n], buf, none)
  | .readError | .closed => ([], buf, some .ok)

/-- The inputs that the events deliver to a connection with this buffer, up to
the first event that ends the task, and how it ends it: with `Ok(())` at the end
of the stream, a read error or the end of the channel, and with a panic in
`next_message`. -/
def arrivals (buf : List UInt8) : List Event → List Act × Option Exit
  | [] => ([], none)
  | e :: events =>
      match arrive buf e with
      | (acts, rest, none) =>
          let later := arrivals rest events
          (acts ++ later.1, later.2)
      | (acts, _, some w) => (acts, some w)

/-- The client messages among the inputs. -/
def messages : List Act → List (UInt32 × List UInt8)
  | [] => []
  | .message t payload :: acts => (t, payload) :: messages acts
  | _ :: acts => messages acts

theorem messages_append (acts acts' : List Act) :
    messages (acts ++ acts') = messages acts ++ messages acts' := by
  induction acts with
  | nil => rfl
  | cons a acts ih => cases a <;> simp [messages, ih]

theorem messages_map (msgs : List (UInt32 × List UInt8)) :
    messages (msgs.map fun m => Act.message m.1 m.2) = msgs := by
  induction msgs with
  | nil => rfl
  | cons m msgs ih => simp [messages, ih]

section

variable {buf rest : List UInt8} {e : Event} {acts : List Act} {last : List UInt8 × Option Exit}

theorem arrivals_cons_of_continue (h : arrive buf e = (acts, rest, none)) (events : List Event) :
    arrivals buf (e :: events) =
      (acts ++ (arrivals rest events).1, (arrivals rest events).2) := by
  rw [arrivals, h]

theorem arrivals_cons_of_end {w : Exit} (h : arrive buf e = (acts, rest, some w))
    (events : List Event) : arrivals buf (e :: events) = (acts, some w) := by
  rw [arrivals, h]

theorem isInput_of_arrive {a : Act} (h : arrive buf e = (acts, last)) (ha : a ∈ acts) :
    a.isInput = true := by
  obtain rfl : (arrive buf e).1 = acts := congrArg Prod.fst h
  cases e with
  | read bytes =>
      rw [arrive] at ha
      split at ha
      · contradiction
      · obtain ⟨m, -, rfl⟩ := List.mem_map.mp ha
        rfl
  | advert | lagged =>
      obtain rfl := List.mem_singleton.mp ha
      rfl
  | readError | closed => contradiction

theorem isInput_of_arrivals {events : List Event} {a : Act} (ha : a ∈ (arrivals buf events).1) :
    a.isInput = true := by
  induction events generalizing buf with
  | nil => contradiction
  | cons e events ih =>
      rcases hone : arrive buf e with ⟨acts, rest, _ | w⟩
      · rw [arrivals_cons_of_continue hone] at ha
        obtain ha | ha := List.mem_append.mp ha
        · exact isInput_of_arrive hone ha
        · exact ih ha
      · rw [arrivals_cons_of_end hone] at ha
        exact isInput_of_arrive hone ha

/-- What a longer sequence of events delivers behind one that does not end the
task. -/
theorem arrivals_append (buf : List UInt8) (events : List Event) :
    (arrivals buf events).2 = none →
      ∃ rest, ∀ more, arrivals buf (events ++ more) =
        ((arrivals buf events).1 ++ (arrivals rest more).1, (arrivals rest more).2) := by
  induction events generalizing buf with
  | nil => exact fun _ => ⟨buf, fun more => rfl⟩
  | cons e events ih =>
      intro h
      rcases hone : arrive buf e with ⟨acts, rest, _ | w⟩
      · rw [arrivals_cons_of_continue hone] at h ⊢
        obtain ⟨rest', hmore⟩ := ih rest h
        refine ⟨rest', fun more => ?_⟩
        rw [List.cons_append, arrivals_cons_of_continue hone, hmore, List.append_assoc]
      · rw [arrivals_cons_of_end hone] at h
        contradiction

/-- Reads that drain deliver their messages and end nothing. -/
theorem arrivals_reads {buf rest : List UInt8} {pieces : List (List UInt8)}
    {msgs : List (UInt32 × List UInt8)} (hne : ∀ piece ∈ pieces, piece ≠ [])
    (h : feed nextMessageParser buf pieces = (msgs, rest, none)) :
    arrivals buf (pieces.map .read) = (msgs.map fun m => .message m.1 m.2, none) := by
  induction pieces generalizing buf msgs with
  | nil =>
      obtain rfl : msgs = [] := (congrArg Prod.fst h).symm
      rfl
  | cons piece pieces ih =>
      obtain ⟨hpiece, hlater⟩ := List.forall_mem_cons.mp hne
      rcases hdrain : drain nextMessageParser (buf ++ piece) with ⟨found, left, _ | p⟩
      · rw [feed_cons_of_drain hdrain, Prod.mk.injEq] at h
        obtain ⟨rfl, htail⟩ := h
        have harrive : arrive buf (.read piece) =
            (found.map fun m => Act.message m.1 m.2, left, none) := by
          rw [arrive, if_neg hpiece, hdrain]
          rfl
        rw [List.map_cons, arrivals_cons_of_continue harrive, ih hlater (Prod.ext rfl htail),
          List.map_append]
      · rw [feed_cons_of_crash hdrain] at h
        simp at h

theorem reads_map_read (pieces : List (List UInt8)) : reads (pieces.map .read) = pieces := by
  induction pieces with
  | nil => rfl
  | cons piece pieces ih => rw [List.map_cons, reads, ih]

end

section

variable [Protobuf]

/-! ## What a connection serves -/

/-- The read branch serves the messages that it finds. -/
theorem receive_eq_serveInput (env : Env) (ctx : ProxyContext) (c : Conn) (bytes : List UInt8) :
    let found := drain nextMessageParser (c.buf ++ bytes)
    let acts := found.1.map fun m => Act.message m.1 m.2
    let run := Reactive.run (serveInput env ctx) c.client acts
    (receive env ctx c bytes).1.client = run.1 ∧
      (receive env ctx c bytes).2 = run.2.or (found.2.2.map Exit.panic) ∧
      ((receive env ctx c bytes).2 = none → (receive env ctx c bytes).1.buf = found.2.1) := by
  obtain ⟨hclient, hstop, hrest⟩ := drainLoop_run nextMessageParser (dispatch env ctx) c.client
    (c.buf ++ bytes)
  have hserve : Reactive.run (serveInput env ctx) c.client
      ((drain nextMessageParser (c.buf ++ bytes)).1.map fun m => Act.message m.1 m.2) =
        Reactive.run (dispatch env ctx) c.client (drain nextMessageParser (c.buf ++ bytes)).1 :=
    Reactive.run_map (serveInput env ctx) _ c.client _
  dsimp only
  rw [hserve, receive_client]
  refine ⟨hclient, ?_⟩
  rw [receive]
  generalize drainLoop nextMessageParser (dispatch env ctx) c.client (c.buf ++ bytes) = loop
    at hstop hrest
  generalize Reactive.run (dispatch env ctx) c.client (drain nextMessageParser (c.buf ++ bytes)).1
    = run at hstop hrest
  obtain ⟨client, buf, stop⟩ := loop
  obtain ⟨c', exit⟩ := run
  dsimp only at hstop hrest
  subst hstop
  generalize (drain nextMessageParser (c.buf ++ bytes)).2.2 = crash
  cases exit with
  | some w => exact ⟨rfl, fun h => by contradiction⟩
  | none =>
      cases crash with
      | some p => exact ⟨rfl, fun h => by contradiction⟩
      | none => exact ⟨rfl, fun _ => hrest rfl⟩

/-- One event is served as the inputs it delivers. -/
theorem step_eq_serveInput (env : Env) (ctx : ProxyContext) (c : Conn) (e : Event) :
    let due := arrive c.buf e
    let run := Reactive.run (serveInput env ctx) c.client due.1
    (step env ctx c e).1.client = run.1 ∧ (step env ctx c e).2 = run.2.or due.2.2 ∧
      ((step env ctx c e).2 = none → (step env ctx c e).1.buf = due.2.1) := by
  cases e with
  | read bytes =>
      by_cases hb : bytes = []
      · subst hb
        exact ⟨rfl, rfl, fun h => by contradiction⟩
      · rw [step_read env ctx c hb, arrive, if_neg hb]
        exact receive_eq_serveInput env ctx c bytes
  | advert adv =>
      dsimp only [arrive]
      rw [Reactive.run_singleton, Option.or_none]
      exact ⟨rfl, rfl, fun _ => rfl⟩
  | lagged n => exact ⟨rfl, rfl, fun _ => rfl⟩
  | readError | closed => exact ⟨rfl, rfl, fun h => by contradiction⟩

theorem run_eq_serveInput (env : Env) (ctx : ProxyContext) (c : Conn) (events : List Event) :
    let due := arrivals c.buf events
    let run := Reactive.run (serveInput env ctx) c.client due.1
    (Reactive.run (step env ctx) c events).1.client = run.1 ∧
      (Reactive.run (step env ctx) c events).2 = run.2.or due.2 := by
  induction events generalizing c with
  | nil => exact ⟨rfl, rfl⟩
  | cons e events ih =>
      obtain ⟨hclient, hexit, hbuf⟩ := step_eq_serveInput env ctx c e
      cases hstep : step env ctx c e with
      | mk c' exit =>
          rw [hstep] at hclient hexit hbuf
          dsimp only at hclient hexit hbuf ⊢
          rcases hone : arrive c.buf e with ⟨acts, rest, last⟩
          rw [hone] at hclient hexit hbuf
          dsimp only at hclient hexit hbuf
          rcases hacts : Reactive.run (serveInput env ctx) c.client acts with ⟨client, _ | w⟩
          · -- the inputs of this event are served, and the event may end the task
            rw [hacts] at hclient hexit
            dsimp only at hclient hexit
            cases last with
            | some w =>
                obtain rfl : exit = some w := hexit
                rw [Reactive.run_cons_of_stop hstep, arrivals_cons_of_end hone, hacts]
                exact ⟨hclient, rfl⟩
            | none =>
                obtain rfl : exit = none := hexit
                have htail := ih c'
                rw [hbuf rfl, hclient] at htail
                rw [Reactive.run_cons_of_continue hstep, arrivals_cons_of_continue hone,
                  Reactive.run_append_of_continue hacts]
                exact htail
          · -- one of them ends the task
            rw [hacts] at hclient hexit
            obtain rfl : exit = some w := hexit
            have hstop : (Reactive.run (serveInput env ctx) c.client acts).2 = some w :=
              congrArg Prod.snd hacts
            rw [Reactive.run_cons_of_stop hstep]
            cases last with
            | some w' =>
                rw [arrivals_cons_of_end hone, hacts]
                exact ⟨hclient, rfl⟩
            | none =>
                rw [arrivals_cons_of_continue hone, Reactive.run_append_of_stop hstop, hacts]
                exact ⟨hclient, rfl⟩

/-- **A connection serves what its events deliver**: in order, each once, up to
the input that ends the task; and it ends there, or else where the events end
it. -/
theorem handleClient_eq_serveInput (env : Env) (ctx : ProxyContext) (events : List Event) :
    let due := arrivals [] events
    let run := Reactive.run (serveInput env ctx) Conn.start.client due.1
    (handleClient env ctx events).1.client = run.1 ∧
      (handleClient env ctx events).2 = run.2.or due.2 :=
  run_eq_serveInput env ctx Conn.start events

/-- What a connection has received is the first of what its events deliver, and all
of it as long as the connection runs. -/
theorem inputs_handleClient (env : Env) (ctx : ProxyContext) (events : List Event) :
    inputs (handleClient env ctx events).1.client.sock.trace <+: (arrivals [] events).1 ∧
      ((handleClient env ctx events).2 = none →
        inputs (handleClient env ctx events).1.client.sock.trace = (arrivals [] events).1) := by
  obtain ⟨hclient, hexit⟩ := handleClient_eq_serveInput env ctx events
  have hin : ∀ a ∈ (arrivals [] events).1, a.isInput = true := fun a ha => isInput_of_arrivals ha
  obtain ⟨got, hpre, hgot, hall⟩ := inputs_run env ctx Conn.start.client hin
  rw [hclient, hexit, hgot]
  exact ⟨hpre, fun h => hall (Option.or_eq_none_iff.mp h).1⟩

theorem feed_run {env : Env} {ctx : ProxyContext} {c : Conn} {events : List Event}
    (h : (Reactive.run (step env ctx) c events).2 = none) :
    feed nextMessageParser c.buf (reads events) =
      (messages (arrivals c.buf events).1, (Reactive.run (step env ctx) c events).1.buf, none) := by
  induction events generalizing c with
  | nil => rfl
  | cons e events ih =>
      obtain ⟨-, hexit, hbuf⟩ := step_eq_serveInput env ctx c e
      cases hstep : step env ctx c e with
      | mk c' exit =>
          cases exit with
          | some w => rw [Reactive.run_cons_of_stop hstep] at h; contradiction
          | none =>
              rw [Reactive.run_cons_of_continue hstep] at h ⊢
              rw [hstep] at hexit hbuf
              have hrest := hbuf rfl
              have hlast : (arrive c.buf e).2.2 = none :=
                (Option.or_eq_none_iff.mp hexit.symm).2
              have htail := ih h
              have hone : arrive c.buf e = ((arrive c.buf e).1, c'.buf, none) :=
                Prod.ext rfl (Prod.ext hrest.symm hlast)
              rw [arrivals_cons_of_continue hone, messages_append]
              cases e with
              | read bytes =>
                  by_cases hb : bytes = []
                  · subst hb
                    contradiction
                  · rw [arrive, if_neg hb] at hrest hlast ⊢
                    have hdrain : drain nextMessageParser (c.buf ++ bytes) =
                        ((drain nextMessageParser (c.buf ++ bytes)).1, c'.buf, none) :=
                      Prod.ext rfl (Prod.ext hrest.symm (Option.map_eq_none_iff.mp hlast))
                    rw [reads, feed_cons_of_drain hdrain, messages_map, htail]
              | advert | lagged =>
                  have hsame : c'.buf = c.buf := hrest
                  rw [hsame] at htail ⊢
                  exact htail
              | readError | closed => contradiction

/-- While a connection runs, its reads are fed to `next_message`: the messages it
has served and the buffer it waits with are those of `feed`. -/
theorem feed_handleClient {env : Env} {ctx : ProxyContext} {events : List Event}
    (h : (handleClient env ctx events).2 = none) :
    feed nextMessageParser [] (reads events) =
      (messages (arrivals [] events).1, (handleClient env ctx events).1.buf, none) :=
  feed_run h

/-! ## The trace law -/

/-- The inputs of a connection with these events, and how its task ends: a
request that does not parse ends it, and else the events do. -/
def delivered (ctx : ProxyContext) (events : List Event) : List Act × Option Exit :=
  let due := arrivals [] events
  (served ctx due.1, (refusal ctx due.1).or due.2)

theorem isInput_of_delivered {ctx : ProxyContext} {events : List Event} {a : Act}
    (ha : a ∈ (delivered ctx events).1) : a.isInput = true :=
  isInput_of_arrivals ((Reactive.taken_prefix _ _).mem ha)

/-- The law of a connection that has taken its inputs: before a `DisconnectRequest`
the trace is the lawful one, and without one the task ends as it has to. -/
structure Obeys (ctx : ProxyContext) (due : List Act × Option Exit) (r : Conn × Option Exit) :
    Prop where
  law : beforeDisconnect r.1.client.sock.trace = lawfulTrace ctx [] (beforeDisconnect due.1)
  ends : due.1.any Act.isDisconnect = false → r.2 = due.2

/-- A connection that has ended with the failure of a call: the trace before a
`DisconnectRequest` is a part of the lawful one. -/
structure Fails (env : Env) (ctx : ProxyContext) (due : List Act × Option Exit)
    (r : Conn × Option Exit) : Prop where
  law : CutOf (lawfulTrace ctx [] (beforeDisconnect due.1))
    (beforeDisconnect r.1.client.sock.trace)
  ends : r.2 = some (.err .socket)
  call : ∃ n, r.1.client.sock.calls = n + 1 ∧ env.io n = false

theorem follows_handleClient {env : Env} (hfast : env.FailsFast) (ctx : ProxyContext)
    (events : List Event) :
    Obeys ctx (delivered ctx events) (handleClient env ctx events) ∨
      Fails env ctx (delivered ctx events) (handleClient env ctx events) := by
  obtain ⟨hclient, hexit⟩ := handleClient_eq_serveInput env ctx events
  have hin : ∀ a ∈ served ctx (arrivals [] events).1, a.isInput = true :=
    fun a ha => isInput_of_arrivals ((Reactive.taken_prefix _ _).mem ha)
  rw [← run_served] at hclient hexit
  have hbefore := beforeDisconnect_run env ctx (c := Conn.start.client) rfl hin
  rw [← hclient] at hbefore
  -- the run up to the disconnect follows the law
  have hfollows : Follows env ctx [] Conn.start.client
      (beforeDisconnect (served ctx (arrivals [] events).1)) _ :=
    follows_serveInput hfast ctx
      (fun a ha => ⟨hin a ((beforeDisconnect_sub _).mem ha), not_isDisconnect_of_mem ha⟩)
      rfl rfl
  have hserved : served ctx (beforeDisconnect (served ctx (arrivals [] events).1)) =
      beforeDisconnect (served ctx (arrivals [] events).1) := by
    rw [← served_beforeDisconnect, served, served, Reactive.taken_taken]
  obtain ⟨more, hmore⟩ := beforeDisconnect_sub (served ctx (arrivals [] events).1)
  generalize hrun : Reactive.run (serveInput env ctx) Conn.start.client
    (beforeDisconnect (served ctx (arrivals [] events).1)) = r at hfollows hbefore
  cases hfollows with
  | whole htrace hflags hstop =>
      refine .inl { law := ?_, ends := fun hnone => ?_ }
      · rw [hbefore, htrace, hserved]
        exact List.nil_append _
      · rw [delivered] at hnone ⊢
        rw [beforeDisconnect_of_none hnone] at hrun hstop
        rw [hexit, hrun, hstop, refusal_served]
  | @failed c' n part hcalls hio hcut htrace =>
      have hstop : (Reactive.run (serveInput env ctx) Conn.start.client
          (beforeDisconnect (served ctx (arrivals [] events).1))).2 = some (.err .socket) := by
        rw [hrun]
      have hwhole := Reactive.run_append_of_stop hstop more
      rw [hmore, hrun] at hwhole
      refine .inr { law := ?_, ends := ?_, call := ⟨n, ?_, hio⟩ }
      · rw [hbefore, htrace]
        rw [hserved] at hcut
        exact hcut
      · rw [hexit, hwhole]
        rfl
      · rw [hclient, hwhole]
        exact hcalls

/-- Without failing calls a connection obeys the law. -/
theorem obeys_handleClient {env : Env} (hio : ∀ n, env.io n = true) (ctx : ProxyContext)
    (events : List Event) : Obeys ctx (delivered ctx events) (handleClient env ctx events) := by
  obtain h | h := follows_handleClient (.inl hio) ctx events
  · exact h
  · obtain ⟨n, -, hn⟩ := h.call
    rw [hio n] at hn
    contradiction

/-- **Chunk independence of a connection**: a connection whose calls succeed, and
which gets frames that parse and are no `DisconnectRequest`, is handed just the
messages of these frames and waits with an empty buffer exactly when the frames
are representable and no read ends at a premature position. -/
theorem handleClient_delivers_iff {env : Env} (hio : ∀ n, env.io n = true) {ctx : ProxyContext}
    {frames : List Frame} {pieces : List (List UInt8)}
    (hpieces : pieces.flatten = (frames.map Frame.bytes).flatten)
    (hne : ∀ piece ∈ pieces, piece ≠ [])
    (hframes : ∀ f ∈ frames, (Act.message f.message.1 f.message.2).isDisconnect = false ∧
      (Act.message f.message.1 f.message.2).refused ctx = false) :
    let run := handleClient env ctx (pieces.map .read)
    (messages (inputs run.1.client.sock.trace) = frames.map Frame.message ∧ run.1.buf = [] ∧
        run.2 = none) ↔ CutCleanly frames pieces := by
  dsimp only
  rw [← feed_frames_iff hpieces]
  constructor
  · rintro ⟨hmessages, hbuf, hgoes⟩
    have hfeed := feed_handleClient hgoes
    rw [← (inputs_handleClient env ctx _).2 hgoes, hmessages, hbuf, reads_map_read] at hfeed
    exact hfeed
  · intro hfeed
    have hdue := arrivals_reads hne hfeed
    have hacts : ∀ a ∈ (arrivals [] (pieces.map .read)).1,
        a.isDisconnect = false ∧ a.refused ctx = false := by
      rw [hdue, List.map_map, List.forall_mem_map]
      exact hframes
    have hrefusal : refusal ctx (arrivals [] (pieces.map .read)).1 = none := by
      rw [refusal, if_neg]
      simpa using fun a ha => (hacts a ha).2
    have hgoes : (handleClient env ctx (pieces.map .read)).2 = none := by
      have hobeys := obeys_handleClient hio ctx (pieces.map .read)
      rw [delivered, served_of_refusal hrefusal, hrefusal, hdue] at hobeys
      rw [hdue] at hacts
      exact hobeys.ends (List.any_eq_false.mpr fun a ha => by simp [(hacts a ha).1])
    have hmessages := (inputs_handleClient env ctx _).2 hgoes
    have hbuf := feed_handleClient hgoes
    rw [hdue] at hmessages hbuf
    rw [reads_map_read, hfeed] at hbuf
    refine ⟨by rw [hmessages, messages_map], ?_, hgoes⟩
    exact (congrArg (·.2.1) hbuf).symm

/-- A connection that goes on, with no disconnect so far: the law holds of all
that its events deliver, and its flags stand for the subscription in force. -/
theorem trace_of_continue {env : Env} (hfast : env.FailsFast) {ctx : ProxyContext}
    {events : List Event} (h : (handleClient env ctx events).2 = none)
    (hnone : (handleClient env ctx events).1.client.sock.trace.any Act.isDisconnect = false) :
    (handleClient env ctx events).1.client.sock.trace =
        lawfulTrace ctx [] (arrivals [] events).1 ∧
      (handleClient env ctx events).1.client.flags =
        (current (arrivals [] events).1).flags := by
  rw [← any_isDisconnect_inputs, (inputs_handleClient env ctx events).2 h,
    List.any_eq_false] at hnone
  obtain ⟨hclient, hexit⟩ := handleClient_eq_serveInput env ctx events
  have hfollows : Follows env ctx [] Conn.start.client (arrivals [] events).1 _ :=
    follows_serveInput hfast ctx
      (fun a ha => ⟨isInput_of_arrivals ha, by simpa using hnone a ha⟩) rfl rfl
  rw [hexit] at h
  rw [hclient]
  generalize Reactive.run (serveInput env ctx) Conn.start.client (arrivals [] events).1 = r
    at hfollows h
  have hgoes := (Option.or_eq_none_iff.mp h).1
  cases hfollows with
  | whole htrace hflags hstop =>
      have hserved : served ctx (arrivals [] events).1 = (arrivals [] events).1 :=
        served_of_refusal (hstop.symm.trans hgoes)
      rw [hserved] at htrace hflags
      exact ⟨htrace, hflags⟩
  | failed => contradiction

/-- **The trace law of a connection**: on a run whose socket calls succeed, the
acts before a `DisconnectRequest` are the inputs that the events deliver up to a
request that does not parse, each followed by the writes of the replies that the
history before it gives; and as long as there is no disconnect among them, the
task goes on or ends just as that request or the events say. -/
theorem handleClient_lawful (env : Env) (ctx : ProxyContext) (hio : ∀ n, env.io n = true)
    (events : List Event) :
    let run := handleClient env ctx events
    let due := delivered ctx events
    beforeDisconnect run.1.client.sock.trace = lawfulTrace ctx [] (beforeDisconnect due.1) ∧
      (due.1.any Act.isDisconnect = false → run.2 = due.2) :=
  have h := obeys_handleClient hio ctx events
  ⟨h.law, h.ends⟩

/-- **A waiting connection**: while a connection runs, the buffer it waits with
can become a message exactly when the bytes it has read are not malformed. -/
theorem completable_handleClient_iff (env : Env) (ctx : ProxyContext) {events : List Event}
    (h : (handleClient env ctx events).2 = none) :
    Completable (handleClient env ctx events).1.buf ↔ ¬ Malformed (reads events).flatten :=
  completable_iff_not_malformed (feed_handleClient h)

end

/-- A raw subscription, a ping in the same read, an advertisement, the end of the
subscription, an advertisement. -/
def sampleEvents : List Event :=
  [.read [0x00, 0x02, 0x42, 0x08, 0x01, 0x00, 0x00, 0x07], .advert ⟨{}, {}⟩,
    .read [0x00, 0x00, 0x57], .advert ⟨{}, {}⟩]

theorem handleClient_lawful_sample :
    let run := @handleClient defaultProtobuf .quiet sampleContext sampleEvents
    run.1.client.sock.trace =
        [.message 0x42 [0x08, 0x01], .message 0x07 [], .write [0x00, 0x00, 0x08] true,
          .advert ⟨{}, {}⟩, .write [0x00, 0x02, 0x5D, 0x0A, 0x00] true,
          .message 0x57 [], .advert ⟨{}, {}⟩] ∧
      beforeDisconnect run.1.client.sock.trace = @lawfulTrace defaultProtobuf sampleContext []
        (beforeDisconnect (@delivered defaultProtobuf sampleContext sampleEvents).1) ∧
      run.2 = (@delivered defaultProtobuf sampleContext sampleEvents).2 := by
  have hlaw := @handleClient_lawful defaultProtobuf .quiet sampleContext (fun _ => rfl) sampleEvents
  exact ⟨by decide +kernel, hlaw.1, hlaw.2 (by decide +kernel)⟩

/-- Half a frame: the connection waits, and three more bytes complete it. -/
theorem completable_half_frame :
    let run := @handleClient defaultProtobuf .quiet sampleContext [.read [0x00], .read [0x02]]
    run.1.buf = [0x00, 0x02] ∧ Completable run.1.buf ∧ ¬ Malformed [0x00, 0x02] := by
  have hbuf : (@handleClient defaultProtobuf .quiet sampleContext
      [.read [0x00], .read [0x02]]).1.buf = [0x00, 0x02] := by decide +kernel
  have hrun := @completable_handleClient_iff defaultProtobuf .quiet sampleContext
    [.read [0x00], .read [0x02]] (by decide +kernel)
  have hc : Completable [0x00, 0x02] := ⟨[0x07, 0x00, 0x00], _, [], rfl⟩
  rw [hbuf] at hrun
  refine ⟨hbuf, ?_, hrun.mp hc⟩
  rw [hbuf]
  exact hc

/-- One byte of any other protocol: the connection goes on waiting, and no
continuation ever makes a message of it. -/
theorem not_completable_wrong_start :
    let run := @handleClient defaultProtobuf .quiet sampleContext [.read [0x01]]
    run.2 = none ∧ run.1.buf = [0x01] ∧ ¬ Completable run.1.buf := by
  have hbuf : (@handleClient defaultProtobuf .quiet sampleContext [.read [0x01]]).1.buf =
      [0x01] := by decide +kernel
  refine ⟨by decide +kernel, hbuf, ?_⟩
  rw [hbuf]
  exact not_completable_of_hopeless (Hopeless.start (by decide))

end LinuxBtProxy
