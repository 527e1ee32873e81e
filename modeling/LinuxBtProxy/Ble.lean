import LinuxBtProxy.Api
import LinuxBtProxy.RawAdv
import LinuxBtProxy.Lib.Reactive

/-!
# LinuxBtProxy.Ble

Advertisements from BlueZ (`src/ble.rs`): the two forms of an advertisement
built from the properties of a device, and the listener on the three D-Bus
signal streams.

The events of a run of the listener are the items that `tokio::select!` takes
off the streams, in order, each with the replies of the D-Bus calls that
handling it makes.
-/

namespace LinuxBtProxy

/-! ## Advertisements -/

/-- The parts are shifted in, whatever their number; one that is no byte counts as
zero. -/
def parseBleAddress (address : String) : UInt64 :=
  (address.toList.splitOn ':').foldl
    (fun acc part => (acc <<< 8) ||| ((fromStrRadix16 part).getD 0).toUInt64) 0

section

variable {V : Type} [Variant V]

/-- The loop over the dictionary of `extract_service_data`. -/
def extractEntries (isService : Bool) : List (V × V) → List BluetoothServiceData
  | [] => []
  | (k, v) :: dict =>
      let uuid :=
        if isService then Variant.downcastString k
        else (Variant.downcastU16 k).map fun id => String.ofList (lowerHex4 id)
      match uuid, Variant.downcastBytes v with
      | some uuid, some data => { uuid, data } :: extractEntries isService dict
      | _, _ => extractEntries isService dict

/-- `none` stands for the error of a value that is no dictionary. -/
def extractServiceData (valueOpt : Option V) (isService : Bool) :
    Option (List BluetoothServiceData) :=
  match valueOpt with
  | none => some []
  | some v => (Variant.tryDict v).map (extractEntries isService)

/-- `build_advertisement`: nothing for a device without an address. -/
def buildAdvertisement (props : Props V) : Except Panic (Option BleAdvertisement) := do
  let macOpt := (props "Address").bind Variant.downcastRefString
  let addressType : UInt32 :=
    (((props "AddressType").bind Variant.downcastRefString).map fun s =>
      if s == "random" then 1 else 0).getD 0
  let rssi : Int32 := (((props "RSSI").bind Variant.downcastRefI16).map Int16.toInt32).getD (-127)
  let name : List UInt8 :=
    ((props "Name").bind Variant.downcastRefString).elim [] fun s => s.toUTF8.data.toList
  let serviceUuids := ((props "UUIDs").bind Variant.tryStrings).getD []
  let serviceData := (extractServiceData (props "ServiceData") true).getD []
  let manufacturerData := (extractServiceData (props "ManufacturerData") false).getD []
  match macOpt with
  | none => return none
  | some macStr =>
      let address := parseBleAddress macStr
      let legacy : BluetoothLEAdvertisementResponse :=
        { address, addressType, name, rssi, serviceUuids, serviceData, manufacturerData }
      let out ← buildRawAdvertisementData props
      let raw : BluetoothLERawAdvertisement := { address, addressType, rssi, data := out.bytes }
      return some { legacy, raw }

/-- The text of the address, if it is a string. -/
def addressOf (props : Props V) : Option String :=
  (props "Address").bind Variant.downcastRefString

/-- Without an address nothing is built. -/
theorem buildAdvertisement_of_no_address {props : Props V} (h : addressOf props = none) :
    buildAdvertisement props = .ok none := by
  rw [addressOf] at h
  simp [buildAdvertisement, h, pure, Except.pure]

/-- A panic in the raw form is one of the whole advertisement. -/
theorem buildAdvertisement_of_panic {props : Props V} {address : String} {p : Panic}
    (h : addressOf props = some address) (hraw : buildRawAdvertisementData props = .error p) :
    buildAdvertisement props = .error p := by
  rw [addressOf] at h
  simp [buildAdvertisement, h, hraw, bind, Except.bind]

/-- Both forms of the advertisement have the address that `parse_ble_address`
reads, and the raw form has the advertising data. -/
theorem buildAdvertisement_of_raw {props : Props V} {address : String} {out : AdBuf}
    (h : addressOf props = some address) (hraw : buildRawAdvertisementData props = .ok out) :
    ∃ adv, buildAdvertisement props = .ok (some adv) ∧
      adv.legacy.address = parseBleAddress address ∧
      adv.raw.address = parseBleAddress address ∧ adv.raw.data = out.bytes := by
  rw [addressOf] at h
  simp [buildAdvertisement, h, hraw, bind, Except.bind, pure, Except.pure]

end

/-! ## D-Bus -/

/-- What a call on the bus fails with. -/
inductive ZbusError where
  | methodError (name : String)
  | other
deriving Repr, DecidableEq

/-- The body of a message, as far as the listener deserializes it.  A body of
another signature has its first argument, if that is a string. -/
inductive Body (V : Type) where
  | propertiesChanged (interface : String) (changed : Props V) (invalidated : List String)
  | interfacesAdded (path : String) (interfaces : String → Option (Props V))
  | other (arg0 : Option String)

/-- A signal as the listener reads it. -/
structure Signal (V : Type) where
  path : Option String
  interface : String
  member : String
  body : Body V

/-- `zbus::MatchRule` on signals; a field that is `none` matches anything. -/
structure MatchRule where
  interface : Option String := none
  member : Option String := none
  arg0 : Option String := none
  path : Option String := none

/-- The first argument of a message, if it is a string. -/
def Body.arg0 {V : Type} : Body V → Option String
  | .propertiesChanged interface _ _ => some interface
  | .interfacesAdded _ _ => none
  | .other arg0 => arg0

/-- The bus delivers a signal to the streams whose rules admit it. -/
def MatchRule.admits {V : Type} (rule : MatchRule) (msg : Signal V) : Bool :=
  (rule.interface.all (· == msg.interface)) && (rule.member.all (· == msg.member)) &&
    (rule.arg0.all (some · == msg.body.arg0)) && (rule.path.all (some · == msg.path))

/-- The rule for property changes of adapters: of every adapter. -/
def adapterRule : MatchRule where
  interface := some "org.freedesktop.DBus.Properties"
  member := some "PropertiesChanged"
  arg0 := some "org.bluez.Adapter1"

/-- The rule for property changes of devices: of every adapter's devices. -/
def propsRule : MatchRule where
  interface := some "org.freedesktop.DBus.Properties"
  member := some "PropertiesChanged"
  arg0 := some "org.bluez.Device1"

/-- The rule for new objects: of every adapter. -/
def ifaceRule : MatchRule where
  interface := some "org.freedesktop.DBus.ObjectManager"
  member := some "InterfacesAdded"

/-! ## The listener -/

/-- What `MessageStream::next` returns. -/
abbrev Next (V : Type) := Option (Except ZbusError (Signal V))

/-- The replies to the calls of `try_start_discovery`. -/
structure DiscoveryReply where
  proxy : Except ZbusError Unit
  setDiscoveryFilter : Except ZbusError Unit
  startDiscovery : Except ZbusError Unit

/-- A ready branch of the `select!`, with the reply to the discovery call or to
`get_device_properties` that it may lead to. -/
inductive BusEvent (V : Type) where
  | adapter (next : Next V) (reply : DiscoveryReply)
  | props (next : Next V) (reply : Except ZbusError (Props V))
  | iface (next : Next V)

/-- What the listener does to its surroundings. -/
inductive Output where
  | broadcast (adv : BleAdvertisement)
  | setDiscoveryFilter (path : String) (duplicateData : Bool)
  | startDiscovery (path : String)
deriving DecidableEq

/-- How the listener ends: it returns an error, or it panics. -/
inductive ListenerExit where
  | err (e : ZbusError)
  | panic (p : Panic)
deriving DecidableEq

/-- The object of the configured adapter. -/
def adapterPath (adapterIndex : UInt16) : String :=
  "/org/bluez/hci" ++ toString adapterIndex.toNat

/-- `try_start_discovery`: the filter, then the start; one that is in progress is
fine. -/
def tryStartDiscovery (adapterIndex : UInt16) (reply : DiscoveryReply) :
    List Output × Except ZbusError Unit :=
  let path := adapterPath adapterIndex
  match reply.proxy with
  | .error e => ([], .error e)
  | .ok () =>
      match reply.setDiscoveryFilter with
      | .error e => ([.setDiscoveryFilter path true], .error e)
      | .ok () =>
          ([.setDiscoveryFilter path true, .startDiscovery path],
            match reply.startDiscovery with
            | .ok () => .ok ()
            | .error (.methodError name) =>
                if name == "org.bluez.Error.InProgress" then .ok ()
                else .error (.methodError name)
            | .error e => .error e)

/-- `try_start_discovery(..).await?` -/
def restartDiscovery (adapterIndex : UInt16) (reply : DiscoveryReply) (outputs : List Output) :
    List Output × Option ListenerExit :=
  match tryStartDiscovery adapterIndex reply with
  | (calls, .ok ()) => (outputs ++ calls, none)
  | (calls, .error e) => (outputs ++ calls, some (.err e))

section

variable {V : Type} [Variant V]

/-- `tx.send(build_advertisement(props))`, if there is one. -/
def sendAdvertisement (props : Props V) (outputs : List Output) :
    List Output × Option ListenerExit :=
  match buildAdvertisement props with
  | .ok (some adv) => (outputs ++ [.broadcast adv], none)
  | .ok none => (outputs, none)
  | .error p => (outputs, some (.panic p))

/-- The adapter branch of `select!`: discovery that was turned off is restarted. -/
def onAdapter (adapterIndex : UInt16) (next : Next V) (reply : DiscoveryReply)
    (outputs : List Output) : List Output × Option ListenerExit :=
  match next with
  | some (.ok msg) =>
      match msg.body with
      | .propertiesChanged interface changed _ =>
          if interface == "org.bluez.Adapter1" then
            match (changed "Discovering").bind Variant.downcastRefBool with
            | some isDiscovering =>
                if !isDiscovering then restartDiscovery adapterIndex reply outputs
                else (outputs, none)
            | none => (outputs, none)
          else (outputs, none)
      | _ => (outputs, some (.err .other))
  | _ => (outputs, none)

/-- The device branch of `select!`: the device's properties are fetched and
broadcast. -/
def onProps (next : Next V) (reply : Except ZbusError (Props V)) (outputs : List Output) :
    List Output × Option ListenerExit :=
  match next with
  | some (.error e) => (outputs, some (.err e))
  | none => (outputs, none)
  | some (.ok msg) =>
      match msg.path with
      | none => (outputs, none)
      | some _ =>
          match reply with
          | .ok props => sendAdvertisement props outputs
          | .error _ => (outputs, none)

/-- The manager branch of `select!`: a new device is broadcast with what the signal
says. -/
def onIface (next : Next V) (outputs : List Output) : List Output × Option ListenerExit :=
  match next with
  | some (.error e) => (outputs, some (.err e))
  | none => (outputs, none)
  | some (.ok msg) =>
      match msg.body with
      | .interfacesAdded _ interfaces =>
          match interfaces "org.bluez.Device1" with
          | some props => sendAdvertisement props outputs
          | none => (outputs, none)
      | _ => (outputs, some (.err .other))

/-- One iteration of the `select!` loop. -/
def listenerStep (adapterIndex : UInt16) (outputs : List Output) :
    BusEvent V → List Output × Option ListenerExit
  | .adapter next reply => onAdapter adapterIndex next reply outputs
  | .props next reply => onProps next reply outputs
  | .iface next => onIface next outputs

/-- `run_bluez_advertisement_listener`, once its streams are ready: the outputs
so far, and how it ended if it did. -/
def runListener (adapterIndex : UInt16) (startup : DiscoveryReply) (events : List (BusEvent V)) :
    List Output × Option ListenerExit :=
  match restartDiscovery adapterIndex startup [] with
  | (outputs, none) => Reactive.run (listenerStep adapterIndex) outputs events
  | (outputs, some exit) => (outputs, some exit)

end

end LinuxBtProxy
