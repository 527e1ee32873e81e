import LinuxBtProxy.Handlers.Effects
import LinuxBtProxy.Server

/-!
# LinuxBtProxy.Server.Trace

The law of the trace of a client connection.

The law speaks about the history only: what a message or an advertisement is
answered with is a function of the acts before it.  `handle_client` keeps two
flags instead, which stand for the subscription that the history gives.

* `lawfulTrace` — the law, over a sequence of inputs;
* `serveInput` — what `handle_client` does with one input;
* `Replied` — one input on an open stream is answered as the law says, or a call
  on the socket fails (`serveInput_replied`).

A failed call ends the task, except in the handler of a subscription: its error
is only logged, and its one call on the socket is the `peer_addr` of an `info!`
line.  The law under failures is for surroundings where that call does not fail
(`Env.FailsFast`).
-/

namespace LinuxBtProxy

open Incremental

variable [Protobuf]

/-! ## The law -/

/-- The form in which a client gets its advertisements. -/
inductive Subscription where
  | off
  | regular
  | raw
deriving Repr, DecidableEq

namespace Act

/-- A `DisconnectRequest`, whether it parses or not. -/
def isDisconnect : Act → Bool
  | .message msgType _ => msgType == 0x05
  | _ => false

/-- What an act asks for: a subscription that parses, or its end. -/
def subscription : Act → Option Subscription
  | .message 0x42 payload =>
      (Protobuf.parseSubscribe payload).map fun req =>
        if req.flags.toNat.testBit 0 then .raw else .regular
  | .message 0x57 _ => some .off
  | _ => none

end Act

/-- The subscription in force after a history: the most recent one asked for. -/
def current (past : List Act) : Subscription :=
  (past.reverse.findSome? Act.subscription).getD .off

/-- The requests that are answered, and their answers. -/
def answer (ctx : ProxyContext) (msgType : UInt32) : Option (RequestType × Response) :=
  match msgType with
  | 0x01 => some (.hello, .hello helloResponse)
  | 0x03 => some (.connect, .connect {})
  | 0x07 => some (.ping, .ping {})
  | 0x09 => some (.deviceInfo, .deviceInfo (deviceInfoResponse ctx))
  | 0x0B => some (.listEntities, .listEntitiesDone {})
  | 0x50 => some (.subscribeBluetoothConnectionsFree,
      .bluetoothConnectionsFree { free := 0, limit := 0 })
  | _ => none

/-- The frames an act is answered with after a history. -/
def replies (ctx : ProxyContext) (past : List Act) : Act → List (List UInt8)
  | .message msgType payload =>
      match answer ctx msgType with
      | some (req, resp) => if Protobuf.parses req payload then [responseFrame resp] else []
      | none => []
  | .advert adv =>
      match current past with
      | .raw => [responseFrame (.bluetoothLERawAdvertisements { advertisements := [adv.raw] })]
      | .regular => [responseFrame (.bluetoothLEAdvertisement adv.legacy)]
      | .off => []
  | _ => []

/-- A request that is answered, with a payload that does not parse. -/
def Act.refused (ctx : ProxyContext) : Act → Bool
  | .message msgType payload =>
      match answer ctx msgType with
      | some (req, _) => !Protobuf.parses req payload
      | none => false
  | _ => false

/-- The inputs that are served: up to a request that does not parse, this one
included. -/
def served (ctx : ProxyContext) (acts : List Act) : List Act :=
  Reactive.taken (fun a => !a.refused ctx) acts

/-- How a request that does not parse ends the task. -/
def refusal (ctx : ProxyContext) (acts : List Act) : Option Exit :=
  if acts.any (Act.refused ctx) then some (.err .parse) else none

/-- The trace that the law gives for a sequence of inputs: each one, then the
writes of its replies. -/
def lawfulTrace (ctx : ProxyContext) (past : List Act) : List Act → List Act
  | [] => []
  | a :: later =>
      a :: (replies ctx past a).map (Act.write · true) ++ lawfulTrace ctx (past ++ [a]) later

/-- The acts before the first `DisconnectRequest`. -/
def beforeDisconnect (trace : List Act) : List Act :=
  trace.takeWhile fun a => !a.isDisconnect

/-- Only an input can change the subscription. -/
theorem current_append_singleton (past : List Act) (a : Act) :
    current (past ++ [a]) = (a.subscription).getD (current past) := by
  cases h : a.subscription <;> simp [current, h]

/-! ## The branches of the drain loop -/

namespace Client

omit [Protobuf] in
/-- A handler leaves its socket. -/
@[simp] theorem await_sock (c : Client) (handler : Handler Unit) :
    (c.await handler).1.sock = (handler c.sock).2 := by
  unfold await
  split <;> simp_all

omit [Protobuf] in
/-- A handler leaves the subscription alone. -/
@[simp] theorem await_flags (c : Client) (handler : Handler Unit) :
    (c.await handler).1.flags = c.flags := by
  unfold await
  split <;> rfl

omit [Protobuf] in
/-- A handler ends the task only by an error. -/
theorem await_exit (c : Client) (handler : Handler Unit) :
    (c.await handler).2 = none ∨ ∃ e, (c.await handler).2 = some (.err e) := by
  unfold await
  cases handler c.sock with
  | mk r s =>
      cases r with
      | ok u => exact .inl rfl
      | error e => exact .inr ⟨e, rfl⟩

/-- The client with a message recorded. -/
def note (c : Client) (m : UInt32 × List UInt8) : Client :=
  { c with sock := c.sock.record (.message m.1 m.2) }

omit [Protobuf] in
/-- A message is recorded. -/
@[simp] theorem note_trace (c : Client) (m : UInt32 × List UInt8) :
    (c.note m).sock.trace = c.sock.trace ++ [.message m.1 m.2] := rfl

omit [Protobuf] in
/-- Recording leaves the subscription alone. -/
@[simp] theorem note_flags (c : Client) (m : UInt32 × List UInt8) :
    (c.note m).flags = c.flags := rfl

end Client

/-- What the body of the drain loop does with a message. -/
inductive Dispatched (env : Env) (ctx : ProxyContext) (c : Client) (m : UInt32 × List UInt8) :
    Client × Option Exit → Prop
  | answered (req : RequestType) (resp : Response) (h : answer ctx m.1 = some (req, resp)) :
      Dispatched env ctx c m ((c.note m).await (respond env req resp m.2))
  | disconnect (h : m.1 = 0x05) :
      Dispatched env ctx c m ((c.note m).await (disconnectRequest env m.2))
  | subscribe (h : m.1 = 0x42) :
      Dispatched env ctx c m
        (match subscribeBluetoothLEAdvertisementsRequest env m.2 (c.note m).sock with
          | (.ok flags, sock) => ({ flags, sock }, none)
          | (.error _, sock) => ({ c with sock }, none))
  | unsubscribe (h : m.1 = 0x57) :
      Dispatched env ctx c m ({ c.note m with flags := .none }, none)
  | unknown (hroute : route m.1 = .unknown) (hans : answer ctx m.1 = none)
      (hsub : (Act.message m.1 m.2).subscription = none) :
      Dispatched env ctx c m ((c.note m).await (logPeer env .warn))

/-- Every message is dispatched to one of the cases. -/
theorem dispatch_dispatched (env : Env) (ctx : ProxyContext) (c : Client)
    (m : UInt32 × List UInt8) : Dispatched env ctx c m (dispatch env ctx c m) := by
  obtain ⟨t, payload⟩ := m
  unfold dispatch
  dsimp only
  generalize hr : route t = r
  unfold route at hr
  split at hr <;> subst hr
  case h_1 => exact .answered .hello _ rfl
  case h_2 => exact .answered .connect _ rfl
  case h_3 => exact .disconnect rfl
  case h_4 => exact .answered .ping _ rfl
  case h_5 => exact .answered .deviceInfo _ rfl
  case h_6 => exact .answered .listEntities _ rfl
  case h_7 => exact .subscribe rfl
  case h_8 => exact .answered .subscribeBluetoothConnectionsFree _ rfl
  case h_9 => exact .unsubscribe rfl
  case h_10 =>
      have hans : answer ctx t = none := by
        unfold answer
        split <;> simp_all
      have hsub : (Act.message t payload).subscription = none := by
        unfold Act.subscription
        split <;> simp_all
      have hroute : route t = .unknown := by
        unfold route
        split <;> simp_all
      exact .unknown hroute hans hsub

/-- A message is recorded and then followed by writes and failed shutdowns, or, if
it is a `DisconnectRequest`, by writes and the shutdown of the stream, which does
not end the loop. -/
theorem dispatch_appends (env : Env) (ctx : ProxyContext) (c : Client)
    (m : UInt32 × List UInt8) :
    (Socket.Appends Act.leavesOpen (c.note m).sock (dispatch env ctx c m).1.sock ∧
        (m.1 = 0x05 → (dispatch env ctx c m).2 ≠ none)) ∨
      ∃ s', Socket.Appends Act.isWrite (c.note m).sock s' ∧
        (dispatch env ctx c m).1.sock = s'.record (.shutdown true) ∧ m.1 = 0x05 ∧
        (dispatch env ctx c m).2 = none := by
  have hd := dispatch_dispatched env ctx c m
  generalize dispatch env ctx c m = r at hd
  cases hd with
  | answered req resp h =>
      have hne : m.1 ≠ 0x05 := by
        unfold answer at h
        split at h <;> simp_all
      refine .inl ⟨?_, fun heq => absurd heq hne⟩
      rw [Client.await_sock]
      exact (respond_appends env req resp m.2 _).leavesOpen
  | disconnect h =>
      obtain ⟨e, s', hd, happ⟩ | ⟨s', hd, happ⟩ := disconnectRequest_cases env m.2 (c.note m).sock
      · refine .inl ⟨?_, fun _ => by simp [Client.await, hd]⟩
        rw [Client.await_sock, hd]
        exact happ
      · exact .inr ⟨s', happ, by rw [Client.await_sock, hd], h, by simp [Client.await, hd]⟩
  | subscribe h =>
      refine .inl ⟨?_, fun heq => absurd (h.symm.trans heq) (by decide)⟩
      have happ := (subscribe_appends env m.2 (c.note m).sock).leavesOpen
      generalize subscribeBluetoothLEAdvertisementsRequest env m.2 (c.note m).sock = r at happ ⊢
      obtain ⟨_ | flags, s'⟩ := r
      · exact happ
      · exact happ
  | unsubscribe h =>
      exact .inl ⟨Socket.Appends.refl _ _, fun heq => absurd (h.symm.trans heq) (by decide)⟩
  | unknown hroute hans hsub =>
      refine .inl ⟨?_, fun heq => by rw [heq] at hroute; contradiction⟩
      rw [Client.await_sock]
      exact logPeer_appends env .warn _

/-- The flags of `handle_client` stand for a subscription. -/
def Subscription.flags : Subscription → SubscriptionFlags
  | .off => .none
  | .regular => ⟨true, false⟩
  | .raw => ⟨false, true⟩

/-! ## The other branches of the select loop -/

/-- A message is recorded before what it leads to. -/
theorem dispatch_trace (env : Env) (ctx : ProxyContext) (c : Client) (m : UInt32 × List UInt8) :
    ∃ acts, (dispatch env ctx c m).1.sock.trace =
        c.sock.trace ++ .message m.1 m.2 :: acts ∧ ∀ a ∈ acts, a.isInput = false := by
  obtain ⟨⟨acts, h, hacts⟩, -⟩ | ⟨s', ⟨acts, h, hacts⟩, hd, -⟩ := dispatch_appends env ctx c m
  · exact ⟨acts, by simp [h], fun a ha => Act.not_isInput_of_leavesOpen (hacts a ha)⟩
  · refine ⟨acts ++ [.shutdown true], by simp [hd, h], fun a ha => ?_⟩
    rw [List.mem_append, List.mem_singleton] at ha
    obtain ha | rfl := ha
    · exact Act.not_isInput_of_leavesOpen (Act.leavesOpen_of_isWrite (hacts a ha))
    · rfl

/-- Forwarding appends nothing but writes. -/
theorem forward_trace (env : Env) (c : Client) (adv : BleAdvertisement) :
    Socket.Appends Act.isWrite (c.sock.record (.advert adv)) (forward env c adv).1.sock := by
  unfold forward
  generalize c.sock.record (.advert adv) = s
  dsimp only
  split
  · rw [Client.await_sock]
    exact bind_appends (logPeer_appends env .debug s) fun _ s' => writeAll_appends ..
  · split
    · rw [Client.await_sock]
      exact bind_appends (logPeer_appends env .debug s) fun _ s' => writeAll_appends ..
    · exact Socket.Appends.refl _ s

/-- Forwarding leaves the subscription alone. -/
@[simp] theorem forward_flags (env : Env) (c : Client) (adv : BleAdvertisement) :
    (forward env c adv).1.flags = c.flags := by
  unfold forward
  dsimp only
  split
  · rw [Client.await_flags]
  · split
    · rw [Client.await_flags]
    · rfl

/-! ## One input -/

/-- What `handle_client` does with an input. -/
def serveInput (env : Env) (ctx : ProxyContext) (c : Client) : Act → Client × Option Exit
  | .message msgType payload => dispatch env ctx c (msgType, payload)
  | .advert adv => forward env c adv
  | .lagged n => ({ c with sock := c.sock.record (.lagged n) }, none)
  | .write _ _ | .shutdown _ => (c, none)

/-- An input is recorded, and what follows it is not an input. -/
theorem serveInput_trace (env : Env) (ctx : ProxyContext) (c : Client) {a : Act}
    (ha : a.isInput = true) :
    ∃ acts, (serveInput env ctx c a).1.sock.trace = c.sock.trace ++ a :: acts ∧
      ∀ b ∈ acts, b.isInput = false := by
  cases a with
  | message msgType payload => exact dispatch_trace env ctx c (msgType, payload)
  | advert adv =>
      obtain ⟨acts, htrace, hacts⟩ := forward_trace env c adv
      refine ⟨acts, ?_, fun b hb => ?_⟩
      · rw [serveInput, htrace, Socket.record_trace, List.append_assoc, List.singleton_append]
      · exact Act.not_isInput_of_leavesOpen (Act.leavesOpen_of_isWrite (hacts b hb))
  | lagged n => exact ⟨[], rfl, by simp⟩
  | write | shutdown => contradiction

/-- A request that does not parse ends the task. -/
theorem serveInput_of_refused (env : Env) {ctx : ProxyContext} (c : Client) {a : Act}
    (h : a.refused ctx = true) : (serveInput env ctx c a).2 ≠ none := by
  cases a with
  | message msgType payload =>
      unfold Act.refused at h
      have hd := dispatch_dispatched env ctx c (msgType, payload)
      rw [serveInput]
      generalize dispatch env ctx c (msgType, payload) = r at hd
      cases hd with
      | answered req resp hans =>
          have hparse : Protobuf.parses req payload = false := by simpa [hans] using h
          obtain ⟨e, s, hresp⟩ := respond_of_refused env resp hparse
            (c.note (msgType, payload)).sock
          simp [Client.await, hresp]
      | disconnect ht | subscribe ht | unsubscribe ht =>
          obtain rfl := ht
          contradiction
      | unknown hroute hans hsub => simp [hans] at h
  | advert | lagged | write | shutdown => contradiction

/-- An input that ends the task ends it with an error. -/
theorem serveInput_exit (env : Env) (ctx : ProxyContext) (c : Client) (a : Act) :
    (serveInput env ctx c a).2 = none ∨ ∃ e, (serveInput env ctx c a).2 = some (.err e) := by
  cases a with
  | message msgType payload =>
      have hd := dispatch_dispatched env ctx c (msgType, payload)
      rw [serveInput]
      generalize dispatch env ctx c (msgType, payload) = r at hd
      cases hd with
      | answered | disconnect | unknown => exact Client.await_exit _ _
      | subscribe h =>
          left
          split <;> rfl
      | unsubscribe h => exact .inl rfl
  | advert adv =>
      rw [serveInput, forward]
      dsimp only
      split
      · exact Client.await_exit _ _
      · split
        · exact Client.await_exit _ _
        · exact .inl rfl
  | lagged | write | shutdown => exact .inl rfl

/-- A subscription that does not parse changes nothing. -/
theorem subscription_of_unparsed {m : UInt32 × List UInt8} (h : m.1 = 0x42)
    (hp : Protobuf.parseSubscribe m.2 = none) :
    (Act.message m.1 m.2).subscription = none := by
  simp [h, Act.subscription, hp]

/-- A subscription that parses has the flags that the handler reads off it. -/
theorem flags_of_parsed {m : UInt32 × List UInt8} (h : m.1 = 0x42)
    {req : SubscribeBluetoothLEAdvertisementsRequest}
    (hp : Protobuf.parseSubscribe m.2 = some req) (sub : Subscription) :
    SubscriptionFlags.fromFlags req.flags =
      ((Act.message m.1 m.2).subscription.getD sub).flags := by
  rw [SubscriptionFlags.fromFlags_eq]
  cases hbit : req.flags.toNat.testBit 0 <;>
    simp [h, Act.subscription, hp, hbit, Subscription.flags, -Nat.testBit_zero]

/-- An input on an open stream: it is answered as the law says, or a call on the
socket fails, before the frame of the answer or in its write. -/
inductive Replied (env : Env) (ctx : ProxyContext) (past : List Act) (c : Client) (a : Act) :
    Client × Option Exit → Prop
  | whole {c' exit}
      (htrace : c'.sock.trace =
        c.sock.trace ++ a :: (replies ctx past a).map (Act.write · true))
      (hflags : c'.flags = (current (past ++ [a])).flags)
      (hexit : exit = if a.refused ctx then some (.err .parse) else none) :
      Replied env ctx past c a (c', exit)
  | failed {c' n tail} (hcalls : c'.sock.calls = n + 1) (hio : env.io n = false)
      (htail : tail = [] ∨ ∃ frame, replies ctx past a = [frame] ∧ tail = [.write frame false])
      (htrace : c'.sock.trace = c.sock.trace ++ a :: tail) :
      Replied env ctx past c a (c', some (.err .socket))

section

variable {env : Env} {c : Client} {past : List Act}

/-- A message is replied to as the law says, or a call fails. -/
theorem dispatch_replied (hfast : env.FailsFast) (ctx : ProxyContext) (hopen : c.sock.shut = false)
    (hflags : c.flags = (current past).flags) {m : UInt32 × List UInt8} (hm : m.1 ≠ 0x05) :
    Replied env ctx past c (.message m.1 m.2) (dispatch env ctx c m) := by
  have hnote : (c.note m).sock.shut = false := by simp [Client.note, hopen, Act.isShutdown]
  have hsame : (Act.message m.1 m.2).subscription = none →
      c.flags = (current (past ++ [.message m.1 m.2])).flags := by
    intro hsub
    rw [current_append_singleton, hsub, hflags]
    rfl
  have hd := dispatch_dispatched env ctx c m
  generalize dispatch env ctx c m = r at hd
  cases hd with
  | answered req resp h =>
      have hsub : (Act.message m.1 m.2).subscription = none := by
        unfold answer at h
        split at h <;> simp_all [Act.subscription]
      obtain ⟨n, hrespond⟩ := hfast.respond req resp m.2 (c.note m).sock
      rw [Client.await, hrespond]
      cases hp : Protobuf.parses req m.2 with
      | false =>
          exact .whole (by simp [replies, h, hp]) (hsame hsub) (by simp [Act.refused, h, hp])
      | true =>
          have hreplies : replies ctx past (.message m.1 m.2) = [responseFrame resp] := by
            simp [replies, h, hp]
          have hopen' : Socket.shut { (c.note m).sock with calls := n } = false := hnote
          rw [if_pos rfl]
          obtain hwrite | ⟨hio, hwrite⟩ := writeAll_cases env hopen' (responseFrame resp)
          · rw [hwrite]
            exact .whole (by simp [hreplies]) (hsame hsub) (by simp [Act.refused, h, hp])
          · rw [hwrite]
            exact .failed rfl hio (.inr ⟨_, hreplies, rfl⟩) (by simp)
  | disconnect h => exact absurd h hm
  | subscribe h =>
      obtain ⟨n, hsubscribe⟩ := hfast.subscribe m.2 (c.note m).sock
      rw [hsubscribe]
      have hreplies : replies ctx past (.message m.1 m.2) = [] := by simp [replies, answer, h]
      have hrefused : (Act.message m.1 m.2).refused ctx = false := by
        simp [Act.refused, answer, h]
      cases hp : Protobuf.parseSubscribe m.2 with
      | none =>
          exact .whole (by simp [hreplies]) (hsame (subscription_of_unparsed h hp))
            (by simp [hrefused])
      | some req =>
          refine .whole (by simp [hreplies]) ?_ (by simp [hrefused])
          rw [current_append_singleton]
          exact flags_of_parsed h hp _
  | unsubscribe h =>
      refine .whole (by simp [replies, answer, h]) ?_ (by simp [Act.refused, answer, h])
      rw [current_append_singleton]
      simp [h, Act.subscription, Subscription.flags]
  | unknown hroute hans hsub =>
      rw [Client.await]
      obtain ⟨n, hlog⟩ | ⟨hio, hlog⟩ := logPeer_cases env .warn (c.note m).sock
      · rw [hlog]
        exact .whole (by simp [replies, hans]) (hsame hsub) (by simp [Act.refused, hans])
      · rw [hlog]
        exact .failed rfl hio (.inl rfl) (by simp)

/-- An advertisement is replied to as the law says, or a call fails. -/
theorem forward_replied (env : Env) (ctx : ProxyContext) (hopen : c.sock.shut = false)
    (hflags : c.flags = (current past).flags) (adv : BleAdvertisement) :
    Replied env ctx past c (.advert adv) (forward env c adv) := by
  have hsame : c.flags = (current (past ++ [.advert adv])).flags := by
    rw [current_append_singleton, hflags]
    rfl
  -- a frame behind the log line of the branch
  have hframe : ∀ frame, replies ctx past (.advert adv) = [frame] →
      Replied env ctx past c (.advert adv)
        (Client.await { c with sock := c.sock.record (.advert adv) }
          (do logPeer env .debug; writeAll env frame)) := by
    intro frame hreplies
    have hrec : (c.sock.record (.advert adv)).shut = false := by simp [hopen, Act.isShutdown]
    rw [Client.await, Handler.bind_run]
    obtain ⟨n, hlog⟩ | ⟨hio, hlog⟩ := logPeer_cases env .debug (c.sock.record (.advert adv))
    · have hopen' : Socket.shut { c.sock.record (.advert adv) with calls := n } = false := hrec
      rw [hlog]
      dsimp only
      obtain hwrite | ⟨hio, hwrite⟩ := writeAll_cases env hopen' frame
      · rw [hwrite]
        exact .whole (by simp [hreplies]) hsame rfl
      · rw [hwrite]
        exact .failed rfl hio (.inr ⟨_, hreplies, rfl⟩) (by simp)
    · rw [hlog]
      exact .failed rfl hio (.inl rfl) (by simp)
  unfold forward
  dsimp only
  cases hcur : current past with
  | off =>
      have hnone : c.flags = .none := by rw [hflags, hcur]; rfl
      rw [if_neg (by simp [hnone, SubscriptionFlags.none]),
        if_neg (by simp [hnone, SubscriptionFlags.none])]
      exact .whole (by simp [replies, hcur]) hsame rfl
  | regular =>
      have hregular : c.flags = ⟨true, false⟩ := by rw [hflags, hcur]; rfl
      rw [if_neg (by simp [hregular]), if_pos (by simp [hregular])]
      exact hframe _ (by simp [replies, hcur])
  | raw =>
      have hraw : c.flags = ⟨false, true⟩ := by rw [hflags, hcur]; rfl
      rw [if_pos (by simp [hraw])]
      exact hframe _ (by simp [replies, hcur])

/-- Every input is replied to as the law says, or a call fails. -/
theorem serveInput_replied (hfast : env.FailsFast) (ctx : ProxyContext)
    (hopen : c.sock.shut = false) (hflags : c.flags = (current past).flags) {a : Act}
    (ha : a.isInput = true) (hne : a.isDisconnect = false) :
    Replied env ctx past c a (serveInput env ctx c a) := by
  cases a with
  | message msgType payload =>
      exact dispatch_replied hfast ctx hopen hflags (m := (msgType, payload))
        (by simpa [Act.isDisconnect] using hne)
  | advert adv => exact forward_replied env ctx hopen hflags adv
  | lagged n =>
      refine .whole rfl ?_ rfl
      rw [current_append_singleton]
      exact hflags
  | write | shutdown => contradiction

end

end LinuxBtProxy
