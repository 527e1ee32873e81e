import LinuxBtProxy.Lib.Schema
import LinuxBtProxy.Handlers

/-!
# LinuxBtProxy.Api.Generated

The generated code of `src/api/api.rs` for the messages that the proxy reads
and writes: for each one the fields, in the order in which they are written.

`generatedProtobuf` is what the handlers use of it.  The `special_fields` are
left out: they are empty in what the proxy builds, and nothing reads them from
what it parses.
-/

namespace LinuxBtProxy

open Wire

/-- rust-protobuf as generated code uses it: the runtime, and for each scalar
type its functions of `rt`, `CodedOutputStream` and `CodedInputStream`. -/
class ProtobufRuntime extends Wire.Runtime where
  bool : Codec Bool
  uint32 : Codec UInt32
  uint64 : Codec UInt64
  sint32 : Codec Int32
  bytes : Codec (List UInt8)
  string : Codec String
  packedUint32 : Codec (List UInt32)
  packedUint64 : Codec (List UInt64)
  packedUint32_nil : ∀ number,
    packedUint32.write number [] = [] ∧ packedUint32.size number [] = 0
  packedUint64_nil : ∀ number,
    packedUint64.write number [] = [] ∧ packedUint64.size number [] = 0
  bool_fits : ∀ b, bool.Fits b
  bool_image : ∀ b, bool.image b = .varint b.toNat
  uint32_fits : ∀ v, uint32.Fits v
  uint32_image : ∀ v, uint32.image v = .varint v.toNat
  uint64_fits : ∀ v, uint64.Fits v
  uint64_image : ∀ v, uint64.image v = .varint v.toNat
  sint32_fits : ∀ v, sint32.Fits v
  sint32_image : ∀ v, sint32.image v = .varint (zigzag v.toInt)
  bytes_fits : ∀ {bs : List UInt8}, bs.length < 2 ^ 32 → bytes.Fits bs
  bytes_image : ∀ bs, bytes.image bs = .delimited bs
  string_fits : ∀ {s : String}, s.toUTF8.data.toList.length < 2 ^ 32 → string.Fits s
  string_image : ∀ s, string.image s = .delimited s.toUTF8.data.toList

section

variable [ProtobufRuntime]

open ProtobufRuntime

/-! ## Requests -/

/-- Three singular fields, each left out at its default. -/
def HelloRequest.schema : Schema HelloRequest where
  fields := [
    .singular 1 (.mk (·.clientInfo) fun a m => { m with clientInfo := a }) string "",
    .singular 2 (.mk (·.apiVersionMajor) fun a m => { m with apiVersionMajor := a }) uint32 0,
    .singular 3 (.mk (·.apiVersionMinor) fun a m => { m with apiVersionMinor := a }) uint32 0]
  new := {}

def ConnectRequest.schema : Schema ConnectRequest where
  fields := [
    .singular 1 (.mk (·.password) fun a m => { m with password := a }) string ""]
  new := {}

/-- A message without fields keeps none of the records that it reads. -/
def DisconnectRequest.schema : Schema DisconnectRequest := .empty {} fun _ => rfl

def PingRequest.schema : Schema PingRequest := .empty {} fun _ => rfl

def DeviceInfoRequest.schema : Schema DeviceInfoRequest := .empty {} fun _ => rfl

def ListEntitiesRequest.schema : Schema ListEntitiesRequest := .empty {} fun _ => rfl

def SubscribeBluetoothConnectionsFreeRequest.schema :
    Schema SubscribeBluetoothConnectionsFreeRequest := .empty {} fun _ => rfl

def SubscribeBluetoothLEAdvertisementsRequest.schema :
    Schema SubscribeBluetoothLEAdvertisementsRequest where
  fields := [
    .singular 1 (.mk (·.flags) fun a m => { m with flags := a }) uint32 0]
  new := {}

/-! ## Responses -/

/-- The protocol's version and the server's name. -/
def HelloResponse.schema : Schema HelloResponse where
  fields := [
    .singular 1 (.mk (·.apiVersionMajor) fun a m => { m with apiVersionMajor := a }) uint32 0,
    .singular 2 (.mk (·.apiVersionMinor) fun a m => { m with apiVersionMinor := a }) uint32 0,
    .singular 3 (.mk (·.serverInfo) fun a m => { m with serverInfo := a }) string "",
    .singular 4 (.mk (·.name) fun a m => { m with name := a }) string ""]
  new := {}

def ConnectResponse.schema : Schema ConnectResponse where
  fields := [
    .singular 1 (.mk (·.invalidPassword) fun a m => { m with invalidPassword := a }) bool false]
  new := {}

def DisconnectResponse.schema : Schema DisconnectResponse := .empty {} fun _ => rfl

def PingResponse.schema : Schema PingResponse := .empty {} fun _ => rfl

/-- The message nested in a device info. -/
def AreaInfo.schema : Schema AreaInfo where
  fields := [
    .singular 1 (.mk (·.areaId) fun a m => { m with areaId := a }) uint32 0,
    .singular 2 (.mk (·.name) fun a m => { m with name := a }) string ""]
  new := {}

/-- The other message nested in a device info. -/
def DeviceInfo.schema : Schema DeviceInfo where
  fields := [
    .singular 1 (.mk (·.deviceId) fun a m => { m with deviceId := a }) uint32 0,
    .singular 2 (.mk (·.name) fun a m => { m with name := a }) string "",
    .singular 3 (.mk (·.areaId) fun a m => { m with areaId := a }) uint32 0]
  new := {}

/-- The fields are written in the order of `api.proto`, not of their numbers. -/
def DeviceInfoResponse.schema : Schema DeviceInfoResponse where
  fields := [
    .singular 1 (.mk (·.usesPassword) fun a m => { m with usesPassword := a }) bool false,
    .singular 2 (.mk (·.name) fun a m => { m with name := a }) string "",
    .singular 3 (.mk (·.macAddress) fun a m => { m with macAddress := a }) string "",
    .singular 4 (.mk (·.esphomeVersion) fun a m => { m with esphomeVersion := a }) string "",
    .singular 5 (.mk (·.compilationTime) fun a m => { m with compilationTime := a }) string "",
    .singular 6 (.mk (·.model) fun a m => { m with model := a }) string "",
    .singular 7 (.mk (·.hasDeepSleep) fun a m => { m with hasDeepSleep := a }) bool false,
    .singular 8 (.mk (·.projectName) fun a m => { m with projectName := a }) string "",
    .singular 9 (.mk (·.projectVersion) fun a m => { m with projectVersion := a }) string "",
    .singular 10 (.mk (·.webserverPort) fun a m => { m with webserverPort := a }) uint32 0,
    .singular 11
      (.mk (·.legacyBluetoothProxyVersion) fun a m => { m with legacyBluetoothProxyVersion := a })
      uint32 0,
    .singular 15
      (.mk (·.bluetoothProxyFeatureFlags) fun a m => { m with bluetoothProxyFeatureFlags := a })
      uint32 0,
    .singular 12 (.mk (·.manufacturer) fun a m => { m with manufacturer := a }) string "",
    .singular 13 (.mk (·.friendlyName) fun a m => { m with friendlyName := a }) string "",
    .singular 14
      (.mk (·.legacyVoiceAssistantVersion) fun a m => { m with legacyVoiceAssistantVersion := a })
      uint32 0,
    .singular 17
      (.mk (·.voiceAssistantFeatureFlags) fun a m => { m with voiceAssistantFeatureFlags := a })
      uint32 0,
    .singular 16 (.mk (·.suggestedArea) fun a m => { m with suggestedArea := a }) string "",
    .singular 18
      (.mk (·.bluetoothMacAddress) fun a m => { m with bluetoothMacAddress := a }) string "",
    .singular 19
      (.mk (·.apiEncryptionSupported) fun a m => { m with apiEncryptionSupported := a })
      bool false,
    .repeated 20 (.mk (·.devices) fun a m => { m with devices := a }) DeviceInfo.schema.codec,
    .repeated 21 (.mk (·.areas) fun a m => { m with areas := a }) AreaInfo.schema.codec,
    .optional 22 (.mk (·.area) fun a m => { m with area := a }) AreaInfo.schema.slot]
  new := {}

def ListEntitiesDoneResponse.schema : Schema ListEntitiesDoneResponse := .empty {} fun _ => rfl

/-- The list is repeated and packed. -/
def BluetoothConnectionsFreeResponse.schema : Schema BluetoothConnectionsFreeResponse where
  fields := [
    .singular 1 (.mk (·.free) fun a m => { m with free := a }) uint32 0,
    .singular 2 (.mk (·.limit) fun a m => { m with limit := a }) uint32 0,
    .packed 3 (.mk (·.allocated) fun a m => { m with allocated := a }) packedUint64 uint64
      (packedUint64_nil 3).1 (packedUint64_nil 3).2]
  new := {}

/-- The old form of the data is a packed list of integers. -/
def BluetoothServiceData.schema : Schema BluetoothServiceData where
  fields := [
    .singular 1 (.mk (·.uuid) fun a m => { m with uuid := a }) string "",
    .packed 2 (.mk (·.legacyData) fun a m => { m with legacyData := a }) packedUint32 uint32
      (packedUint32_nil 2).1 (packedUint32_nil 2).2,
    .singular 3 (.mk (·.data) fun a m => { m with data := a }) bytes []]
  new := {}

/-- The signal strength is zigzag coded, and two fields are repeated messages. -/
def BluetoothLEAdvertisementResponse.schema : Schema BluetoothLEAdvertisementResponse where
  fields := [
    .singular 1 (.mk (·.address) fun a m => { m with address := a }) uint64 0,
    .singular 2 (.mk (·.name) fun a m => { m with name := a }) bytes [],
    .singular 3 (.mk (·.rssi) fun a m => { m with rssi := a }) sint32 0,
    .repeated 4 (.mk (·.serviceUuids) fun a m => { m with serviceUuids := a }) string,
    .repeated 5 (.mk (·.serviceData) fun a m => { m with serviceData := a })
      BluetoothServiceData.schema.codec,
    .repeated 6 (.mk (·.manufacturerData) fun a m => { m with manufacturerData := a })
      BluetoothServiceData.schema.codec,
    .singular 7 (.mk (·.addressType) fun a m => { m with addressType := a }) uint32 0]
  new := {}

/-- The nested message of the raw form. -/
def BluetoothLERawAdvertisement.schema : Schema BluetoothLERawAdvertisement where
  fields := [
    .singular 1 (.mk (·.address) fun a m => { m with address := a }) uint64 0,
    .singular 2 (.mk (·.rssi) fun a m => { m with rssi := a }) sint32 0,
    .singular 3 (.mk (·.addressType) fun a m => { m with addressType := a }) uint32 0,
    .singular 4 (.mk (·.data) fun a m => { m with data := a }) bytes []]
  new := {}

/-- One repeated message. -/
def BluetoothLERawAdvertisementsResponse.schema : Schema BluetoothLERawAdvertisementsResponse where
  fields := [
    .repeated 1 (.mk (·.advertisements) fun a m => { m with advertisements := a })
      BluetoothLERawAdvertisement.schema.codec]
  new := {}

/-! ## The interface of the handlers -/

/-- A message with its type. -/
structure Typed : Type 1 where
  {M : Type}
  schema : Schema M
  message : M

namespace Response

/-- A response with the schema of its message. -/
def typed : Response → Typed
  | .hello r => ⟨HelloResponse.schema, r⟩
  | .connect r => ⟨ConnectResponse.schema, r⟩
  | .disconnect r => ⟨DisconnectResponse.schema, r⟩
  | .ping r => ⟨PingResponse.schema, r⟩
  | .deviceInfo r => ⟨DeviceInfoResponse.schema, r⟩
  | .listEntitiesDone r => ⟨ListEntitiesDoneResponse.schema, r⟩
  | .bluetoothConnectionsFree r => ⟨BluetoothConnectionsFreeResponse.schema, r⟩
  | .bluetoothLEAdvertisement r => ⟨BluetoothLEAdvertisementResponse.schema, r⟩
  | .bluetoothLERawAdvertisements r => ⟨BluetoothLERawAdvertisementsResponse.schema, r⟩

/-- `compute_size`, by the schema of the response. -/
def computeSize (r : Response) : UInt64 := r.typed.schema.computeSize r.typed.message

/-- `write_to_with_cached_sizes`, by the schema of the response. -/
def writeTo (r : Response) : List UInt8 := r.typed.schema.writeTo r.typed.message

/-- The message of an id. -/
def parse (messageId : UInt32) (payload : List UInt8) : Option Response :=
  match messageId with
  | 2 => (HelloResponse.schema.parse payload).map .hello
  | 4 => (ConnectResponse.schema.parse payload).map .connect
  | 6 => (DisconnectResponse.schema.parse payload).map .disconnect
  | 8 => (PingResponse.schema.parse payload).map .ping
  | 10 => (DeviceInfoResponse.schema.parse payload).map .deviceInfo
  | 19 => (ListEntitiesDoneResponse.schema.parse payload).map .listEntitiesDone
  | 81 => (BluetoothConnectionsFreeResponse.schema.parse payload).map .bluetoothConnectionsFree
  | 67 => (BluetoothLEAdvertisementResponse.schema.parse payload).map .bluetoothLEAdvertisement
  | 93 =>
      (BluetoothLERawAdvertisementsResponse.schema.parse payload).map .bluetoothLERawAdvertisements
  | _ => none

end Response

/-- `M::parse_from_bytes(payload).is_ok()`. -/
def RequestType.parses (payload : List UInt8) : RequestType → Bool
  | .hello => (HelloRequest.schema.parse payload).isSome
  | .connect => (ConnectRequest.schema.parse payload).isSome
  | .disconnect => (DisconnectRequest.schema.parse payload).isSome
  | .ping => (PingRequest.schema.parse payload).isSome
  | .deviceInfo => (DeviceInfoRequest.schema.parse payload).isSome
  | .listEntities => (ListEntitiesRequest.schema.parse payload).isSome
  | .subscribeBluetoothConnectionsFree =>
      (SubscribeBluetoothConnectionsFreeRequest.schema.parse payload).isSome

/-- What the handlers use, from the generated code. -/
instance generatedProtobuf : Protobuf where
  parses req payload := req.parses payload
  parseSubscribe := SubscribeBluetoothLEAdvertisementsRequest.schema.parse
  response :=
    { computeSize := Response.computeSize
      writeToWriter := Response.writeTo }

end

end LinuxBtProxy
