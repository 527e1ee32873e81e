/-!
# LinuxBtProxy.Api

The messages of `proto/api.proto` that the proxy writes, with the defaults that
`..Default::default()` fills in, and their ids, and the ones it reads.
-/

namespace LinuxBtProxy

/-- Message 2: the version of the protocol. -/
structure HelloResponse where
  apiVersionMajor : UInt32 := 0
  apiVersionMinor : UInt32 := 0
  serverInfo : String := ""
  name : String := ""
deriving Repr, DecidableEq

/-- Message 4. -/
structure ConnectResponse where
  invalidPassword : Bool := false
deriving Repr, DecidableEq

/-- Message 6. -/
structure DisconnectResponse where
deriving Repr, DecidableEq

/-- Message 8. -/
structure PingResponse where
deriving Repr, DecidableEq

/-- An area of a device info. -/
structure AreaInfo where
  areaId : UInt32 := 0
  name : String := ""
deriving Repr, DecidableEq

/-- A device of a device info. -/
structure DeviceInfo where
  deviceId : UInt32 := 0
  name : String := ""
  areaId : UInt32 := 0
deriving Repr, DecidableEq

/-- Message 10. -/
structure DeviceInfoResponse where
  usesPassword : Bool := false
  name : String := ""
  macAddress : String := ""
  esphomeVersion : String := ""
  compilationTime : String := ""
  model : String := ""
  hasDeepSleep : Bool := false
  projectName : String := ""
  projectVersion : String := ""
  webserverPort : UInt32 := 0
  legacyBluetoothProxyVersion : UInt32 := 0
  bluetoothProxyFeatureFlags : UInt32 := 0
  manufacturer : String := ""
  friendlyName : String := ""
  legacyVoiceAssistantVersion : UInt32 := 0
  voiceAssistantFeatureFlags : UInt32 := 0
  suggestedArea : String := ""
  bluetoothMacAddress : String := ""
  apiEncryptionSupported : Bool := false
  devices : List DeviceInfo := []
  areas : List AreaInfo := []
  area : Option AreaInfo := none
deriving Repr, DecidableEq

/-- Message 19: the end of an empty list. -/
structure ListEntitiesDoneResponse where
deriving Repr, DecidableEq

/-- Message 81. -/
structure BluetoothConnectionsFreeResponse where
  free : UInt32 := 0
  limit : UInt32 := 0
  allocated : List UInt64 := []
deriving Repr, DecidableEq

/-- Service or manufacturer data in the regular form. -/
structure BluetoothServiceData where
  uuid : String := ""
  legacyData : List UInt32 := []
  data : List UInt8 := []
deriving Repr, DecidableEq

/-- Message 67: an advertisement in the regular form. -/
structure BluetoothLEAdvertisementResponse where
  address : UInt64 := 0
  name : List UInt8 := []
  rssi : Int32 := 0
  serviceUuids : List String := []
  serviceData : List BluetoothServiceData := []
  manufacturerData : List BluetoothServiceData := []
  addressType : UInt32 := 0
deriving Repr, DecidableEq

/-- An advertisement in the raw form, with its AD structures as bytes. -/
structure BluetoothLERawAdvertisement where
  address : UInt64 := 0
  rssi : Int32 := 0
  addressType : UInt32 := 0
  data : List UInt8 := []
deriving Repr, DecidableEq

/-- Message 93: a list of raw advertisements. -/
structure BluetoothLERawAdvertisementsResponse where
  advertisements : List BluetoothLERawAdvertisement := []
deriving Repr, DecidableEq

/-- The messages the proxy sends. -/
inductive Response where
  | hello (r : HelloResponse)
  | connect (r : ConnectResponse)
  | disconnect (r : DisconnectResponse)
  | ping (r : PingResponse)
  | deviceInfo (r : DeviceInfoResponse)
  | listEntitiesDone (r : ListEntitiesDoneResponse)
  | bluetoothConnectionsFree (r : BluetoothConnectionsFreeResponse)
  | bluetoothLEAdvertisement (r : BluetoothLEAdvertisementResponse)
  | bluetoothLERawAdvertisements (r : BluetoothLERawAdvertisementsResponse)
deriving Repr, DecidableEq

/-- `get_message_id`: the `id` option of the message in `api.proto`. -/
def Response.messageId : Response → UInt8
  | .hello _ => 2
  | .connect _ => 4
  | .disconnect _ => 6
  | .ping _ => 8
  | .deviceInfo _ => 10
  | .listEntitiesDone _ => 19
  | .bluetoothConnectionsFree _ => 81
  | .bluetoothLEAdvertisement _ => 67
  | .bluetoothLERawAdvertisements _ => 93

/-- Message 1. -/
structure HelloRequest where
  clientInfo : String := ""
  apiVersionMajor : UInt32 := 0
  apiVersionMinor : UInt32 := 0
deriving Repr, DecidableEq

/-- Message 3. -/
structure ConnectRequest where
  password : String := ""
deriving Repr, DecidableEq

/-- Message 5. -/
structure DisconnectRequest where
deriving Repr, DecidableEq

/-- Message 7. -/
structure PingRequest where
deriving Repr, DecidableEq

/-- Message 9. -/
structure DeviceInfoRequest where
deriving Repr, DecidableEq

/-- Message 11. -/
structure ListEntitiesRequest where
deriving Repr, DecidableEq

/-- Message 80. -/
structure SubscribeBluetoothConnectionsFreeRequest where
deriving Repr, DecidableEq

/-- The requests whose content the handlers only parse. -/
inductive RequestType where
  | hello
  | connect
  | disconnect
  | ping
  | deviceInfo
  | listEntities
  | subscribeBluetoothConnectionsFree
deriving Repr, DecidableEq

/-- Message 66: the flags choose the form of the advertisements. -/
structure SubscribeBluetoothLEAdvertisementsRequest where
  flags : UInt32 := 0
deriving Repr, DecidableEq

/-- An advertisement in both of its forms. -/
structure BleAdvertisement where
  legacy : BluetoothLEAdvertisementResponse
  raw : BluetoothLERawAdvertisement
deriving Repr, DecidableEq

end LinuxBtProxy
