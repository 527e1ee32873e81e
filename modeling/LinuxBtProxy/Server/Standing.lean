import LinuxBtProxy.Handlers.Calls
import LinuxBtProxy.Server.Trace

/-!
# LinuxBtProxy.Server.Standing

What the inputs of a connection leave behind them on an open stream, in any
surroundings: the number of calls made on the socket, which decides which of
them fail, and the subscription in force.  `Standing.next` computes it from the
inputs alone, and `handle_client` goes on, or ends the task, as it says
(`goes_serveInput`).
-/

namespace LinuxBtProxy

variable [Protobuf] {env : Env} {ctx : ProxyContext}

/-- What the inputs leave behind them as long as the stream is open: the calls
made on the socket, and the subscription in force. -/
structure Standing where
  calls : Nat
  sub : Subscription
deriving Repr, DecidableEq

namespace Standing

def start : Standing := ⟨0, .off⟩

/-- `n` calls that all have to succeed. -/
def call (env : Env) (st : Standing) (n : Nat) : Option Standing :=
  if env.Succeeds st.calls n then some { st with calls := st.calls + n } else none

/-- What an input leaves behind it, unless it ends the task.  A subscription whose
log line fails is passed over. -/
def next (env : Env) (ctx : ProxyContext) (st : Standing) : Act → Option Standing
  | .message msgType payload =>
      if msgType = 0x42 then
        some
          { calls := st.calls + env.lineCalls .info
            sub := if env.Succeeds st.calls (env.lineCalls .info) then
                ((Act.message msgType payload).subscription).getD st.sub
              else st.sub }
      else if msgType = 0x57 then some { st with sub := .off }
      else if msgType = 0x05 then
        if Protobuf.parses .disconnect payload then st.call env (env.lineCalls .info + 2)
        else none
      else match answer ctx msgType with
        | some (req, _) =>
            if Protobuf.parses req payload then st.call env (env.lineCalls .info + 1) else none
        | none => st.call env (env.lineCalls .warn)
  | .advert _ => if st.sub = .off then some st else st.call env (env.lineCalls .debug + 1)
  | .lagged _ | .write _ _ | .shutdown _ => some st

/-- The first `DisconnectRequest` that is answered, with the stream shut down
behind the answer: what it leaves behind it, and the inputs that follow. -/
def disconnected (env : Env) (ctx : ProxyContext) (st : Standing) :
    List Act → Option (Standing × List Act)
  | [] => none
  | a :: acts => (st.next env ctx a).bind fun st' =>
      if a.isDisconnect then some (st', acts) else st'.disconnected env ctx acts

end Standing

/-- A client with these calls made and this subscription. -/
structure Stands (c : Client) (st : Standing) : Prop where
  calls : c.sock.calls = st.calls
  flags : c.flags = st.sub.flags

/-- An input that goes on as its standing says, or ends the task. -/
inductive Goes (env : Env) (ctx : ProxyContext) (st : Standing) (a : Act) :
    Client × Option Exit → Prop
  | on {c' st'} (hnext : st.next env ctx a = some st') (hst : Stands c' st') :
      Goes env ctx st a (c', none)
  | stop {c' e} (hnext : st.next env ctx a = none) : Goes env ctx st a (c', some (.err e))

/-- A handler whose calls the standing counts. -/
theorem goes_await {c : Client} {st : Standing} (hst : Stands c st) {a : Act} {n : Nat}
    {handler : Handler Unit} (hcosts : Costs env n handler c.sock)
    (hnext : st.next env ctx a = st.call env n) : Goes env ctx st a (c.await handler) := by
  rw [Standing.call, ← hst.calls] at hnext
  by_cases hsucceeds : env.Succeeds c.sock.calls n
  · rw [if_pos hsucceeds] at hnext
    obtain ⟨s', hrun, hcalls⟩ := hcosts.ok hsucceeds
    rw [Client.await, hrun]
    exact .on hnext { calls := hcalls, flags := hst.flags }
  · rw [if_neg hsucceeds] at hnext
    obtain ⟨e, s', hrun⟩ := hcosts.fails hsucceeds
    rw [Client.await, hrun]
    exact .stop hnext

/-- A handler that ends with an error, where the standing says so. -/
theorem goes_of_error {c : Client} {st : Standing} {a : Act} {handler : Handler Unit}
    {e : IoError} {s : Socket} (hrun : handler c.sock = (.error e, s))
    (hnext : st.next env ctx a = none) : Goes env ctx st a (c.await handler) := by
  rw [Client.await, hrun]
  exact .stop hnext

/-- A subscription goes on, in force unless its log line fails or its payload does not
parse. -/
theorem goes_subscribe {c : Client} {st : Standing} (hst : Stands c st)
    {m : UInt32 × List UInt8} (h : m.1 = 0x42) :
    Goes env ctx st (.message m.1 m.2)
      (match subscribeBluetoothLEAdvertisementsRequest env m.2 (c.note m).sock with
        | (.ok flags, sock) => ({ flags, sock }, none)
        | (.error _, sock) => ({ c with sock }, none)) := by
  obtain ⟨hcalls, hresult⟩ := subscribe_calls env m.2 (c.note m).sock
  have hmade : (c.note m).sock.calls = st.calls := hst.calls
  rcases hrun : subscribeBluetoothLEAdvertisementsRequest env m.2 (c.note m).sock with ⟨r, s⟩
  rw [hrun, hmade] at hcalls hresult
  dsimp only at hcalls hresult
  have hnext : st.next env ctx (.message m.1 m.2) = some
      { calls := s.calls
        sub := if env.Succeeds st.calls (env.lineCalls .info) then
            ((Act.message m.1 m.2).subscription).getD st.sub
          else st.sub } := by
    rw [Standing.next, if_pos h, hcalls]
  by_cases hline : env.Succeeds st.calls (env.lineCalls .info)
  · rw [if_pos hline] at hresult hnext
    cases hp : Protobuf.parseSubscribe m.2 with
    | none =>
        rw [subscription_of_unparsed h hp] at hnext
        obtain rfl : r = .error .parse := by rw [hresult, hp]
        exact .on hnext { calls := rfl, flags := hst.flags }
    | some req =>
        obtain rfl : r = .ok (SubscriptionFlags.fromFlags req.flags) := by rw [hresult, hp]
        exact .on hnext { calls := rfl, flags := flags_of_parsed h hp st.sub }
  · rw [if_neg hline] at hresult hnext
    obtain rfl : r = .error .socket := hresult
    exact .on hnext { calls := rfl, flags := hst.flags }

/-- A message goes on as its standing says, whichever handler it is dispatched to. -/
theorem goes_dispatch {c : Client} (hopen : c.sock.shut = false) {st : Standing}
    (hst : Stands c st) (m : UInt32 × List UInt8) :
    Goes env ctx st (.message m.1 m.2) (dispatch env ctx c m) := by
  have hnote : (c.note m).sock.shut = false := by simp [Client.note, hopen, Act.isShutdown]
  have hstands : Stands (c.note m) st := { calls := hst.calls, flags := hst.flags }
  have hd := dispatch_dispatched env ctx c m
  generalize dispatch env ctx c m = r at hd
  cases hd with
  | answered req resp h =>
      have hne : m.1 ≠ 0x42 ∧ m.1 ≠ 0x57 ∧ m.1 ≠ 0x05 := by
        unfold answer at h
        split at h <;> simp_all
      cases hp : Protobuf.parses req m.2 with
      | true =>
          exact goes_await hstands (respond_costs env hnote resp hp)
            (by simp [Standing.next, hne, h, hp])
      | false =>
          obtain ⟨e, s, hrun⟩ := respond_of_refused env resp hp (c.note m).sock
          exact goes_of_error hrun (by simp [Standing.next, hne, h, hp])
  | disconnect h =>
      cases hp : Protobuf.parses .disconnect m.2 with
      | true =>
          exact goes_await hstands (disconnectRequest_costs env hnote hp)
            (by simp [Standing.next, h, hp])
      | false =>
          obtain ⟨e, s, hrun⟩ := respond_of_refused env (.disconnect {}) hp (c.note m).sock
          refine goes_of_error (e := e) (s := s) ?_ (by simp [Standing.next, h, hp])
          rw [disconnectRequest, Handler.bind_run, hrun]
  | subscribe h => exact goes_subscribe hst h
  | unsubscribe h =>
      have hnext : st.next env ctx (.message m.1 m.2) = some { st with sub := .off } := by
        simp [Standing.next, h]
      exact .on hnext { calls := hst.calls, flags := rfl }
  | unknown hroute hans hsub =>
      have hne : m.1 ≠ 0x42 ∧ m.1 ≠ 0x57 ∧ m.1 ≠ 0x05 := by
        refine ⟨?_, ?_, ?_⟩ <;> (intro h; rw [h] at hroute; contradiction)
      exact goes_await hstands (logPeer_costs env .warn _) (by simp [Standing.next, hne, hans])

theorem goes_forward {c : Client} (hopen : c.sock.shut = false) {st : Standing}
    (hst : Stands c st) (adv : BleAdvertisement) :
    Goes env ctx st (.advert adv) (forward env c adv) := by
  have hrec : (c.sock.record (.advert adv)).shut = false := by simp [hopen, Act.isShutdown]
  have hstands : Stands { c with sock := c.sock.record (.advert adv) } st :=
    { calls := hst.calls, flags := hst.flags }
  have hframe : st.sub ≠ .off → ∀ frame, Goes env ctx st (.advert adv)
      (Client.await { c with sock := c.sock.record (.advert adv) }
        (do logPeer env .debug; writeAll env frame)) :=
    fun hsub frame => goes_await hstands (logWrite_costs env hrec .debug frame)
      (by simp [Standing.next, hsub])
  unfold forward
  dsimp only
  cases hsub : st.sub with
  | off =>
      have hnone : c.flags = .none := by rw [hst.flags, hsub]; rfl
      rw [if_neg (by simp [hnone, SubscriptionFlags.none]),
        if_neg (by simp [hnone, SubscriptionFlags.none])]
      exact .on (by simp [Standing.next, hsub]) hstands
  | regular =>
      have hregular : c.flags = ⟨true, false⟩ := by rw [hst.flags, hsub]; rfl
      rw [if_neg (by simp [hregular]), if_pos (by simp [hregular])]
      exact hframe (by simp [hsub]) _
  | raw =>
      have hraw : c.flags = ⟨false, true⟩ := by rw [hst.flags, hsub]; rfl
      rw [if_pos (by simp [hraw])]
      exact hframe (by simp [hsub]) _

/-- One input on an open stream. -/
theorem goes_serveInput {c : Client} (hopen : c.sock.shut = false) {st : Standing}
    (hst : Stands c st) (a : Act) : Goes env ctx st a (serveInput env ctx c a) := by
  cases a with
  | message msgType payload => exact goes_dispatch hopen hst (msgType, payload)
  | advert adv => exact goes_forward hopen hst adv
  | lagged n => exact .on rfl { calls := hst.calls, flags := hst.flags }
  | write | shutdown => exact .on rfl hst

end LinuxBtProxy
