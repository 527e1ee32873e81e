import LinuxBtProxy.Api
import LinuxBtProxy.Proto
import LinuxBtProxy.Utils

/-!
# LinuxBtProxy.Handlers

The request handlers (`src/handlers.rs`).

A handler runs on a `Socket`, whose trace records what an observer of the
connection sees.  Every call on the TCP stream can fail: `Env.io` decides the
`n`-th one, and a write after a shutdown fails whatever it says.  The logging
macros evaluate their arguments only when their level is enabled, so
`stream.peer_addr()?` inside them is a socket call or nothing.

`Protobuf` stands for rust-protobuf: parsing, and the encoding of a message.
-/

namespace LinuxBtProxy

/-! ## rust-protobuf -/

/-- `protobuf::Message`, as far as `encode_response` uses it. -/
class Message (M : Type) where
  computeSize : M → UInt64
  /-- The bytes `write_to_writer` appends to a `Vec`. -/
  writeToWriter : M → List UInt8

/-- Parsing and writing of the messages of the API. -/
class Protobuf where
  /-- `M::parse_from_bytes(payload).is_ok()`; the handlers drop the message. -/
  parses : RequestType → List UInt8 → Bool
  parseSubscribe : List UInt8 → Option SubscribeBluetoothLEAdvertisementsRequest
  response : Message Response

/-- Responses are messages of the generated code. -/
instance messageResponse [Protobuf] : Message Response := Protobuf.response

/-- A frame with the message as its payload. -/
def encodeResponse {M : Type} [Message M] (msgType : UInt32) (message : M) : List UInt8 :=
  let size := (Message.computeSize message).toNat
  [0x00] ++ encodeVarint (UInt64.ofNat size) ++ encodeVarint msgType.toUInt64 ++
    Message.writeToWriter message

/-! ## Subscriptions -/

def SUBSCRIPTION_RAW_ADVERTISEMENTS : UInt32 := (1 : UInt32) <<< 0

/-- The forms of advertisement that a client gets. -/
structure SubscriptionFlags where
  regular : Bool
  raw : Bool
deriving Repr, DecidableEq

namespace SubscriptionFlags

/-- Before a subscription and behind an unsubscription. -/
def none : SubscriptionFlags := ⟨false, false⟩

/-- Both forms are read off the one bit, so exactly one of them is on. -/
def fromFlags (flags : UInt32) : SubscriptionFlags where
  regular := flags == 0 || (flags &&& SUBSCRIPTION_RAW_ADVERTISEMENTS) == 0
  raw := (flags &&& SUBSCRIPTION_RAW_ADVERTISEMENTS) != 0

end SubscriptionFlags

/-- What the handlers answer with. -/
structure ProxyContext where
  hostname : String
  port : UInt16
  netMac : Vector UInt8 6
  btMac : Vector UInt8 6
  buildTime : String
  version : String

/-! ## The connection as seen from outside -/

/-- What happens on a connection: messages and broadcast events that come in,
writes and shutdowns that are attempted. -/
inductive Act where
  | message (msgType : UInt32) (payload : List UInt8)
  | advert (adv : BleAdvertisement)
  | lagged (n : UInt64)
  | write (frame : List UInt8) (ok : Bool)
  | shutdown (ok : Bool)
deriving Repr, DecidableEq

/-- The levels of the log lines that a connection writes. -/
inductive Level where
  | warn
  | info
  | debug
deriving Repr, DecidableEq

/-- What the outside decides: the enabled log levels, and which socket calls
succeed. -/
structure Env where
  logEnabled : Level → Bool
  io : Nat → Bool

/-- What ends a handler early: a call on the socket, or a payload that does not
parse. -/
inductive IoError where
  | socket
  | parse
deriving Repr, DecidableEq

/-- The TCP stream: the number of fallible calls made on it so far, and the
trace of the connection. -/
structure Socket where
  calls : Nat
  trace : List Act

namespace Act

/-- A shutdown that succeeded. -/
def isShutdown : Act → Bool
  | .shutdown ok => ok
  | _ => false

end Act

namespace Socket

/-- No call has been made. -/
def start : Socket := ⟨0, []⟩

/-- The trace is kept in the order of the acts. -/
def record (s : Socket) (act : Act) : Socket := { s with trace := s.trace ++ [act] }

/-- The write half has been shut down. -/
def shut (s : Socket) : Bool := s.trace.any Act.isShutdown

/-- An act is recorded behind the others. -/
@[simp] theorem record_trace (s : Socket) (act : Act) :
    (s.record act).trace = s.trace ++ [act] := rfl

end Socket

/-! ## Handlers as programs -/

/-- An `async fn` on the stream that returns `Result<α, std::io::Error>`. -/
def Handler (α : Type) := Socket → Except IoError α × Socket

instance : Monad Handler where
  pure a := fun s => (.ok a, s)
  bind x f := fun s => match x s with
    | (.ok a, s') => f a s'
    | (.error e, s') => (.error e, s')

namespace Handler

variable {α β : Type}

/-- The `?` of the handlers. -/
def throw (e : IoError) : Handler α := fun s => (.error e, s)

/-- Handlers in sequence, up to the first error. -/
theorem bind_run (x : Handler α) (f : α → Handler β) (s : Socket) :
    (x >>= f) s = match x s with
      | (.ok a, s') => f a s'
      | (.error e, s') => (.error e, s') := rfl

end Handler

/-- A log line that mentions the peer: `stream.peer_addr()?` if the level is
enabled. -/
def logPeer (env : Env) (level : Level) : Handler Unit := fun s =>
  if env.logEnabled level then
    (if env.io s.calls then .ok () else .error .socket, { s with calls := s.calls + 1 })
  else (.ok (), s)

/-- `stream.write_all(frame).await`. -/
def writeAll (env : Env) (frame : List UInt8) : Handler Unit := fun s =>
  let ok := env.io s.calls && !s.shut
  (if ok then .ok () else .error .socket,
    { s with calls := s.calls + 1 }.record (.write frame ok))

/-- `stream.shutdown().await`. -/
def shutdownStream (env : Env) : Handler Unit := fun s =>
  let ok := env.io s.calls
  (if ok then .ok () else .error .socket, { s with calls := s.calls + 1 }.record (.shutdown ok))

section

variable [Protobuf]

/-- The frame `encode_response(get_message_id::<M>() as u32, &resp)`. -/
def responseFrame (resp : Response) : List UInt8 :=
  encodeResponse resp.messageId.toUInt32 resp

/-- Parse the request and write the response: what the request handlers
share. -/
def respond (env : Env) (req : RequestType) (resp : Response) (payload : List UInt8) :
    Handler Unit := do
  logPeer env .info
  if Protobuf.parses req payload then writeAll env (responseFrame resp)
  else Handler.throw .parse

/-- The answer to a hello is the same for every client. -/
def helloResponse : HelloResponse where
  apiVersionMajor := 1
  apiVersionMinor := 10
  serverInfo := "linux_bt_proxy"
  name := "Linux Bluetooth Proxy"

/-- `hello_request`: version 1.10 of the protocol. -/
def helloRequest (env : Env) (payload : List UInt8) : Handler Unit :=
  respond env .hello (.hello helloResponse) payload

/-- `connect_request`: any password is accepted. -/
def connectRequest (env : Env) (payload : List UInt8) : Handler Unit :=
  respond env .connect (.connect {}) payload

/-- `disconnect_request`: the answer, then the shutdown of the stream. -/
def disconnectRequest (env : Env) (payload : List UInt8) : Handler Unit := do
  respond env .disconnect (.disconnect {}) payload
  shutdownStream env

/-- `ping_request`. -/
def pingRequest (env : Env) (payload : List UInt8) : Handler Unit :=
  respond env .ping (.ping {}) payload

/-- `subscribe_bluetooth_connections_free_request`: no connection is ever free. -/
def subscribeBluetoothConnectionsFreeRequest (env : Env) (payload : List UInt8) : Handler Unit :=
  respond env .subscribeBluetoothConnectionsFree
    (.bluetoothConnectionsFree { free := 0, limit := 0 }) payload

/-- The fields that `device_info_request` sets; the others keep their defaults. -/
def deviceInfoResponse (ctx : ProxyContext) : DeviceInfoResponse where
  name := "Linux BT Proxy: " ++ ctx.hostname
  macAddress := formatMac ctx.netMac.toList ":"
  esphomeVersion := ctx.version
  compilationTime := ctx.buildTime
  model := "Linux"
  legacyBluetoothProxyVersion := 5
  bluetoothProxyFeatureFlags := 0x20
  friendlyName := "Linux BT Proxy: " ++ ctx.hostname
  bluetoothMacAddress := formatMac ctx.btMac.toList ":"
  apiEncryptionSupported := false

/-- `device_info_request`. -/
def deviceInfoRequest (env : Env) (ctx : ProxyContext) (payload : List UInt8) : Handler Unit :=
  respond env .deviceInfo (.deviceInfo (deviceInfoResponse ctx)) payload

/-- `list_entities_request`: the proxy has no entities. -/
def listEntitiesRequest (env : Env) (payload : List UInt8) : Handler Unit :=
  respond env .listEntities (.listEntitiesDone {}) payload

/-- `subscribe_bluetooth_le_advertisements_request`: it answers nothing. -/
def subscribeBluetoothLEAdvertisementsRequest (env : Env) (payload : List UInt8) :
    Handler SubscriptionFlags := do
  logPeer env .info
  match Protobuf.parseSubscribe payload with
  | none => Handler.throw .parse
  | some req => return SubscriptionFlags.fromFlags req.flags

/-- `forward_ble_advertisement`. -/
def forwardBleAdvertisement (env : Env) (adv : BluetoothLEAdvertisementResponse) : Handler Unit :=
  writeAll env (responseFrame (.bluetoothLEAdvertisement adv))

/-- `forward_raw_ble_advertisement`: a list of one advertisement. -/
def forwardRawBleAdvertisement (env : Env) (adv : BluetoothLERawAdvertisement) : Handler Unit :=
  writeAll env (responseFrame (.bluetoothLERawAdvertisements { advertisements := [adv] }))

end

end LinuxBtProxy
