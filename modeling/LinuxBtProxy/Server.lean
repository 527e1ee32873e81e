import LinuxBtProxy.Handlers
import LinuxBtProxy.Proto.Frame
import LinuxBtProxy.Lib.Reactive

/-!
# LinuxBtProxy.Server

One client connection (`handle_client` of `src/server.rs`).

The events of a run are what `tokio::select!` finds ready, in the order it
takes them: reads of the TCP stream and receptions from the broadcast channel.
-/

namespace LinuxBtProxy

open Incremental

/-! ## Dispatch -/

/-- The branches of the match on the message type. -/
inductive Route where
  | hello
  | connect
  | disconnect
  | ping
  | deviceInfo
  | listEntities
  | subscribe
  | connectionsFree
  | unsubscribe
  | unknown
deriving Repr, DecidableEq

def route (msgType : UInt32) : Route :=
  match msgType with
  | 0x01 => .hello
  | 0x03 => .connect
  | 0x05 => .disconnect
  | 0x07 => .ping
  | 0x09 => .deviceInfo
  | 0x0B => .listEntities
  | 0x42 => .subscribe
  | 0x50 => .connectionsFree
  | 0x57 => .unsubscribe
  | _ => .unknown

/-- How `handle_client` ends: with `Ok(())`, with an error, or not by itself. -/
inductive Exit where
  | ok
  | err (e : IoError)
  | panic (p : Panic)
deriving Repr, DecidableEq

/-- The locals of `handle_client` that a message or an advertisement touches. -/
structure Client where
  flags : SubscriptionFlags
  sock : Socket

namespace Client

/-- `handler.await?` where the value is dropped. -/
def await (c : Client) (handler : Handler Unit) : Client × Option Exit :=
  match handler c.sock with
  | (.ok _, sock) => ({ c with sock }, none)
  | (.error e, sock) => ({ c with sock }, some (.err e))

end Client

section

variable [Protobuf]

/-- The body of the drain loop. -/
def dispatch (env : Env) (ctx : ProxyContext) (c : Client) (m : UInt32 × List UInt8) :
    Client × Option Exit :=
  let c := { c with sock := c.sock.record (.message m.1 m.2) }
  match route m.1 with
  | .hello => c.await (helloRequest env m.2)
  | .connect => c.await (connectRequest env m.2)
  | .disconnect => c.await (disconnectRequest env m.2)
  | .ping => c.await (pingRequest env m.2)
  | .deviceInfo => c.await (deviceInfoRequest env ctx m.2)
  | .listEntities => c.await (listEntitiesRequest env m.2)
  | .subscribe =>
      match subscribeBluetoothLEAdvertisementsRequest env m.2 c.sock with
      | (.ok flags, sock) => ({ flags, sock }, none)
      | (.error _, sock) => ({ c with sock }, none)
  | .connectionsFree => c.await (subscribeBluetoothConnectionsFreeRequest env m.2)
  | .unsubscribe => ({ c with flags := .none }, none)
  | .unknown => c.await (logPeer env .warn)

/-! ## Events -/

/-- A ready branch of the `select!`.  `read []` is `Ok(0)`, the end of the
stream. -/
inductive Event where
  | read (bytes : List UInt8)
  | readError
  | advert (adv : BleAdvertisement)
  | lagged (n : UInt64)
  | closed
deriving Repr

/-- The state at the head of the `select!` loop. -/
structure Conn where
  buf : List UInt8
  client : Client

namespace Conn

def start : Conn := ⟨[], ⟨.none, .start⟩⟩

end Conn

/-- The broadcast branch on an advertisement. -/
def forward (env : Env) (c : Client) (adv : BleAdvertisement) : Client × Option Exit :=
  let c := { c with sock := c.sock.record (.advert adv) }
  if c.flags.raw then
    c.await do
      logPeer env .debug
      forwardRawBleAdvertisement env adv.raw
  else if c.flags.regular then
    c.await do
      logPeer env .debug
      forwardBleAdvertisement env adv.legacy
  else (c, none)

/-- The read branch: append to the buffer, drain it. -/
def receive (env : Env) (ctx : ProxyContext) (c : Conn) (bytes : List UInt8) :
    Conn × Option Exit :=
  match drainLoop nextMessageParser (dispatch env ctx) c.client (c.buf ++ bytes) with
  | (client, buf, .wait) => (⟨buf, client⟩, none)
  | (client, buf, .crash p) => (⟨buf, client⟩, some (.panic p))
  | (client, buf, .exit w) => (⟨buf, client⟩, some w)

/-- One iteration of the `select!` loop. -/
def step (env : Env) (ctx : ProxyContext) (c : Conn) : Event → Conn × Option Exit
  | .read bytes => if bytes = [] then (c, some .ok) else receive env ctx c bytes
  | .readError => (c, some .ok)
  | .advert adv =>
      let (client, exit) := forward env c.client adv
      ({ c with client }, exit)
  | .lagged n => ({ c with client.sock := c.client.sock.record (.lagged n) }, none)
  | .closed => (c, some .ok)

theorem receive_client (env : Env) (ctx : ProxyContext) (c : Conn) (bytes : List UInt8) :
    (receive env ctx c bytes).1.client =
      (drainLoop nextMessageParser (dispatch env ctx) c.client (c.buf ++ bytes)).1 := by
  unfold receive
  split <;> simp_all

theorem step_read (env : Env) (ctx : ProxyContext) (c : Conn) {bytes : List UInt8}
    (h : bytes ≠ []) : step env ctx c (.read bytes) = receive env ctx c bytes := if_neg h

/-- `handle_client` on a sequence of events. -/
def handleClient (env : Env) (ctx : ProxyContext) (events : List Event) : Conn × Option Exit :=
  Reactive.run (step env ctx) Conn.start events

end

end LinuxBtProxy
