import LinuxBtProxy.Ble
import LinuxBtProxy.RawAdv.Items

/-!
# LinuxBtProxy.Ble.Agreement

The raw and the legacy form of an advertisement carry the same information.

* `Tells` — what the legacy form says of its device (`tells_buildAdvertisement`);
* `Agree` — the content of the raw form, `deviceItems`, has the same parts.
-/

namespace LinuxBtProxy

open AdStructure AdItem

/-! ## Reading an id off its text -/

/-- The number that hexadecimal digits spell. -/
def readHex (s : String) : Option Nat :=
  s.toList.foldlM (fun acc c => (hexDigit c).map (acc * 16 + ·)) 0

/-- The company's identifier is read back from its four digits. -/
theorem readHex_lowerHex4 (id : UInt16) :
    readHex (String.ofList (lowerHex4 id)) = some id.toNat := by
  have hid := id.toNat_lt
  have h3 : id.toNat / 4096 < 16 := by omega
  have h2 : id.toNat / 256 % 16 < 16 := by omega
  have h1 : id.toNat / 16 % 16 < 16 := by omega
  have h0 : id.toNat % 16 < 16 := by omega
  simp only [readHex, String.toList_ofList, lowerHex4, List.foldlM_cons, List.foldlM_nil,
    hexDigit_lowerHexDigit h3, hexDigit_lowerHexDigit h2, hexDigit_lowerHexDigit h1,
    hexDigit_lowerHexDigit h0, Option.map_some, Option.bind_eq_bind, Option.bind_some]
  show some _ = some _
  congr 1
  omega

/-! ## The legacy form -/

section

variable {V : Type} [Variant V]

/-- The legacy form says what the device does, the address aside. -/
structure Tells (props : Props V) (legacy : BluetoothLEAdvertisementResponse) : Prop where
  addressType : legacy.addressType =
    if (props "AddressType").bind Variant.downcastRefString = some "random" then 1 else 0
  rssi : legacy.rssi.toInt = ((props "RSSI").bind Variant.downcastRefI16).elim (-127) Int16.toInt
  name : legacy.name = (nameOf props).elim [] fun name => name.toUTF8.data.toList
  serviceUuids : legacy.serviceUuids = uuidsOf props
  serviceData : legacy.serviceData.map (fun e => (e.uuid, e.data)) =
    dictEntries Variant.downcastString (props "ServiceData")
  manufacturerData : legacy.manufacturerData.map (fun e => (readHex e.uuid, e.data)) =
    (dictEntries Variant.downcastU16 (props "ManufacturerData")).map
      fun e => (some e.1.toNat, e.2)

/-- The entries of service data, under the keys as they are. -/
theorem extractEntries_service (dict : List (V × V)) :
    extractEntries true dict = (entriesOf Variant.downcastString dict).map fun e =>
      { uuid := e.1, data := e.2 } := by
  induction dict with
  | nil => rfl
  | cons e dict ih =>
      obtain ⟨k, v⟩ := e
      unfold extractEntries entriesOf
      cases Variant.downcastString k <;> cases Variant.downcastBytes v <;> simp [ih]

/-- The entries of manufacturer data, under their keys in four digits. -/
theorem extractEntries_manufacturer (dict : List (V × V)) :
    extractEntries false dict = (entriesOf Variant.downcastU16 dict).map fun e =>
      { uuid := String.ofList (lowerHex4 e.1), data := e.2 } := by
  induction dict with
  | nil => rfl
  | cons e dict ih =>
      obtain ⟨k, v⟩ := e
      unfold extractEntries entriesOf
      cases Variant.downcastU16 k <;> cases Variant.downcastBytes v <;> simp [ih]

/-- The service data of a device, none where it has no dictionary. -/
theorem extractServiceData_service (valueOpt : Option V) :
    (extractServiceData valueOpt true).getD [] =
      (dictEntries Variant.downcastString valueOpt).map fun e => { uuid := e.1, data := e.2 } := by
  unfold extractServiceData dictEntries
  cases valueOpt with
  | none => rfl
  | some v => cases h : Variant.tryDict v <;> simp [h, entriesOf, extractEntries_service]

/-- The manufacturer data of a device, none where it has no dictionary. -/
theorem extractServiceData_manufacturer (valueOpt : Option V) :
    (extractServiceData valueOpt false).getD [] =
      (dictEntries Variant.downcastU16 valueOpt).map fun e =>
        { uuid := String.ofList (lowerHex4 e.1), data := e.2 } := by
  unfold extractServiceData dictEntries
  cases valueOpt with
  | none => rfl
  | some v => cases h : Variant.tryDict v <;> simp [h, entriesOf, extractEntries_manufacturer]

/-- An advertisement that is built is that of the device: its legacy form says
what the device does, and its raw form has the same address, address type and
signal strength. -/
theorem tells_buildAdvertisement {props : Props V} {adv : BleAdvertisement}
    (h : buildAdvertisement props = .ok (some adv)) :
    Tells props adv.legacy ∧ adv.raw.address = adv.legacy.address ∧
      adv.raw.addressType = adv.legacy.addressType ∧ adv.raw.rssi = adv.legacy.rssi := by
  cases haddr : addressOf props with
  | none => simp [buildAdvertisement_of_no_address haddr] at h
  | some address =>
      cases hraw : buildRawAdvertisementData props with
      | error p => simp [buildAdvertisement_of_panic haddr hraw] at h
      | ok out =>
          rw [addressOf] at haddr
          simp only [buildAdvertisement, haddr, hraw, bind, Except.bind, pure, Except.pure,
            Except.ok.injEq, Option.some.injEq] at h
          subst h
          refine ⟨?_, rfl, rfl, rfl⟩
          constructor
          · dsimp only
            cases (props "AddressType").bind Variant.downcastRefString with
            | none => rfl
            | some s =>
                simp only [Option.map_some, Option.getD_some, beq_iff_eq, Option.some.injEq]
          · dsimp only
            cases (props "RSSI").bind Variant.downcastRefI16 with
            | none => rfl
            | some v => exact Int16.toInt_toInt32 v
          · rfl
          · rfl
          · dsimp only
            rw [extractServiceData_service, List.map_map]
            exact List.map_id _
          · dsimp only
            rw [extractServiceData_manufacturer, List.map_map]
            simp only [Function.comp_def, readHex_lowerHex4]

/-! ## What a scanner reports -/

section

omit [Variant V]

/-- A list of UUIDs says nothing but UUIDs. -/
theorem filterMap_uuidItems {β : Type} {f : Item → Option β} (hf : ∀ w us, f (.uuids w us) = none)
    (w : Width) (us : List Uuid) : (uuidItems w us).filterMap f = [] := by
  unfold uuidItems
  split <;> simp [hf]

/-- The list of a form gives the UUIDs that it is the shortest form of. -/
theorem uuidsOf_uuidItems (us : List Uuid) (w w' : Width) :
    (uuidItems w us).flatMap (Item.uuidsOf w') =
      if w = w' then us.filter (narrowest · = w) else [] := by
  unfold uuidItems
  split
  · next h => simp only [h, List.flatMap_nil, ite_self]
  · simp only [List.flatMap_cons, List.flatMap_nil, List.append_nil, Item.uuidsOf]

end

section

variable (props : Props V) (us : List Uuid) (services : List (Uuid × List UInt8))

/-- What a part of the report that ignores the lists of UUIDs sees. -/
theorem filterMap_advertisementItems {β : Type} {f : Item → Option β}
    (hf : ∀ w us, f (.uuids w us) = none) :
    (advertisementItems props us services).filterMap f =
      (nameOf props).toList.filterMap (fun name => f (.name name.toUTF8.data.toList)) ++
        services.filterMap (fun e => f (.serviceData (narrowest e.1) e.1 e.2)) ++
        (dictEntries Variant.downcastU16 (props "ManufacturerData")).filterMap
          (fun e => f (.manufacturerData e.1 e.2)) ++
        (txPowerOf props).toList.filterMap (fun level => f (.txPower level)) := by
  unfold advertisementItems
  simp only [List.filterMap_append, filterMap_uuidItems hf, List.filterMap_map,
    Function.comp_def, List.append_nil]

/-- A scanner finds the name of the device. -/
theorem localName_advertisementItems :
    localName (advertisementItems props us services) =
      (nameOf props).elim [] fun name => name.toUTF8.data.toList := by
  rw [localName, filterMap_advertisementItems props us services (fun _ _ => rfl)]
  cases nameOf props <;> simp [Item.name?]

/-- A scanner finds the UUIDs of each form in their order. -/
theorem serviceUuids_advertisementItems (w : Width) :
    serviceUuids w (advertisementItems props us services) = us.filter (narrowest · = w) := by
  have hothers {β : Type} (l : List β) : l.flatMap (fun _ => ([] : List Uuid)) = [] := by simp
  unfold serviceUuids advertisementItems
  simp only [List.flatMap_append, uuidsOf_uuidItems, List.flatMap_map, Item.uuidsOf, hothers]
  cases w <;> simp

/-- A scanner finds the service data. -/
theorem serviceData_advertisementItems :
    serviceData (advertisementItems props us services) = services := by
  rw [serviceData, filterMap_advertisementItems props us services (fun _ _ => rfl)]
  simp [Item.serviceData?]

/-- A scanner finds the manufacturer data. -/
theorem manufacturerData_advertisementItems :
    manufacturerData (advertisementItems props us services) =
      dictEntries Variant.downcastU16 (props "ManufacturerData") := by
  rw [manufacturerData, filterMap_advertisementItems props us services (fun _ _ => rfl)]
  simp [Item.manufacturerData?]

/-- A scanner finds the transmit power. -/
theorem txPower_advertisementItems :
    AdItem.txPower (advertisementItems props us services) = txPowerOf props := by
  rw [AdItem.txPower, filterMap_advertisementItems props us services (fun _ _ => rfl)]
  cases txPowerOf props <;> simp [Item.txPower?]

end

/-! ## Agreement -/

/-- The UUID strings of the device are canonical. -/
structure CanonicalUuids (props : Props V) : Prop where
  uuids : ∀ s ∈ uuidsOf props, ∃ u, uuidText u = s
  serviceData : ∀ e ∈ dictEntries Variant.downcastString (props "ServiceData"),
    ∃ u, uuidText u = e.1

/-- What a scanner reads off the raw form is what the legacy form says, and that
is what the device does. -/
structure Agree (props : Props V) (adv : BleAdvertisement) (items : List Item) : Prop where
  tells : Tells props adv.legacy
  address : adv.raw.address = adv.legacy.address
  addressType : adv.raw.addressType = adv.legacy.addressType
  rssi : adv.raw.rssi = adv.legacy.rssi
  name : localName items = adv.legacy.name
  /-- The UUIDs of each width, each as often as it occurs and in order. -/
  serviceUuids : ∃ us : List Uuid, us.map uuidText = adv.legacy.serviceUuids ∧
    ∀ w, AdItem.serviceUuids w items = us.filter (narrowest · = w)
  serviceData : (AdItem.serviceData items).map (fun e => (uuidText e.1, e.2)) =
    adv.legacy.serviceData.map fun e => (e.uuid, e.data)
  manufacturerData : (AdItem.manufacturerData items).map (fun e => (some e.1.toNat, e.2)) =
    adv.legacy.manufacturerData.map fun e => (readHex e.uuid, e.data)
  /-- The legacy form has no transmission power; the raw form has it if it fits
  a byte. -/
  txPower : ∀ level, AdItem.txPower items = some level ↔
    ∃ v, (props "TxPower").bind Variant.downcastRefI16 = some v ∧ v.toInt = level.toInt

omit [Variant V] in
/-- Canonical strings are the texts of the UUIDs that they spell. -/
theorem map_uuidText_spelledUuids {uuids : List String} (h : ∀ s ∈ uuids, ∃ u, uuidText u = s) :
    (spelledUuids uuids).map uuidText = uuids := by
  induction uuids with
  | nil => rfl
  | cons s uuids ih =>
      obtain ⟨⟨u, rfl⟩, hlater⟩ := List.forall_mem_cons.mp h
      rw [spelledUuids, List.filterMap_cons_some (spelledUuid_uuidText u), List.map_cons]
      exact congrArg (uuidText u :: ·) (ih hlater)

omit [Variant V] in
/-- Keys in the canonical form are spelled as they were. -/
theorem map_uuidText_spelledServices {entries : List (String × List UInt8)}
    (h : ∀ e ∈ entries, ∃ u, uuidText u = e.1) :
    (spelledServices entries).map (fun e => (uuidText e.1, e.2)) = entries := by
  induction entries with
  | nil => rfl
  | cons e entries ih =>
      obtain ⟨⟨u, hu⟩, hlater⟩ := List.forall_mem_cons.mp h
      have hspelled : spelledServices (e :: entries) = (u, e.2) :: spelledServices entries := by
        simp [spelledServices, ← hu]
      rw [hspelled, List.map_cons, ih hlater, hu]

/-- Every text that is parsed is in the canonical form. -/
theorem CanonicalUuids.strings {props : Props V} (h : CanonicalUuids props) :
    ∀ s ∈ uuidStrings props, ∃ u, uuidText u = s := by
  rw [uuidStrings, List.forall_mem_append, List.forall_mem_map]
  exact ⟨h.uuids, h.serviceData⟩

/-- Canonical texts do not panic. -/
theorem CanonicalUuids.returns {props : Props V} (h : CanonicalUuids props) :
    UuidsReturn props := by
  have hreturns : ∀ s, (∃ u, uuidText u = s) → UuidReturns s := by
    intro s hs
    obtain ⟨u, rfl⟩ := hs
    exact uuidReturns_of_parseUuid (parseUuid_uuidText u)
  exact
    { uuids := fun s hs => hreturns s (h.uuids s hs)
      serviceData := fun e he => hreturns e.1 (h.serviceData e he) }

/-- The raw form of a device with canonical UUIDs is decoded to its items. -/
theorem decode_buildRawAdvertisementData {props : Props V} (hcanon : CanonicalUuids props)
    (hfit : PayloadsFit props) :
    ∃ out, buildRawAdvertisementData props = .ok out ∧
      decode out.bytes = some (deviceItems props) := by
  have hsigned : ∀ s ∈ uuidStrings props, ¬ SignedUuid s := by
    intro s hs
    obtain ⟨u, rfl⟩ := hcanon.strings s hs
    exact not_signedUuid_uuidText u
  obtain ⟨out, hout⟩ := exists_pushed (advertisementAds props)
  have hlen := (advertisementAds_fit_iff props).mpr hfit
  refine ⟨out, (buildRawAdvertisementData_iff props out).mpr ⟨hcanon.returns, hout⟩, ?_⟩
  rw [← hout] at hlen
  exact decode_deviceItems (hout.trans (advertisementAds_eq hsigned)) hlen

/-- **Agreement of the two forms**: for a device with an address, canonical
UUIDs and properties that fit their AD structures, both forms are built, and
decoding the raw one gives the content of the legacy one. -/
theorem buildAdvertisement_agree {props : Props V}
    (haddress : ((props "Address").bind Variant.downcastRefString).isSome = true)
    (hcanon : CanonicalUuids props) (hfit : PayloadsFit props) :
    ∃ adv items, buildAdvertisement props = .ok (some adv) ∧ decode adv.raw.data = some items ∧
      Agree props adv items := by
  obtain ⟨out, hbuild, hdecode⟩ := decode_buildRawAdvertisementData hcanon hfit
  obtain ⟨address, haddr⟩ := Option.isSome_iff_exists.mp haddress
  obtain ⟨adv, hadv, -, -, hdata⟩ := buildAdvertisement_of_raw haddr hbuild
  obtain ⟨htells, haddress, haddressType, hrssi⟩ := tells_buildAdvertisement hadv
  refine ⟨adv, deviceItems props, hadv, by rw [hdata, hdecode], ?_⟩
  constructor
  · exact htells
  · exact haddress
  · exact haddressType
  · exact hrssi
  · rw [htells.name]
    exact localName_advertisementItems props _ _
  · refine ⟨spelledUuids (uuidsOf props), ?_, serviceUuids_advertisementItems props _ _⟩
    rw [htells.serviceUuids, map_uuidText_spelledUuids hcanon.uuids]
  · rw [htells.serviceData, deviceItems, serviceData_advertisementItems,
      map_uuidText_spelledServices hcanon.serviceData]
  · rw [htells.manufacturerData, deviceItems, manufacturerData_advertisementItems]
  · intro level
    rw [deviceItems, txPower_advertisementItems, txPowerOf, Option.bind_eq_some_iff]
    simp only [i8TryFrom_eq_some_iff]

end

/-- A device with a name, a UUID, service data and a transmit power. -/
theorem buildAdvertisement_agree_sample :
    ∃ adv items, buildAdvertisement sampleProps = .ok (some adv) ∧
      decode adv.raw.data = some items ∧ Agree sampleProps adv items := by
  have huuids : uuidsOf sampleProps = ["0000180f-0000-1000-8000-00805f9b34fb",
      "12345678-1234-5678-1234-56789abcdef0"] := rfl
  have hentries : dictEntries Variant.downcastString (sampleProps "ServiceData") =
      [("0000fe9f-0000-1000-8000-00805f9b34fb", [0x01])] := rfl
  have hcanon : CanonicalUuids sampleProps := by
    constructor
    · rw [huuids]
      simp only [List.forall_mem_cons, List.not_mem_nil, false_implies, implies_true, and_true]
      constructor
      · exact ⟨#v[0x00, 0x00, 0x18, 0x0F, 0x00, 0x00, 0x10, 0x00, 0x80, 0x00, 0x00, 0x80, 0x5F,
          0x9B, 0x34, 0xFB], by decide +kernel⟩
      · exact ⟨#v[0x12, 0x34, 0x56, 0x78, 0x12, 0x34, 0x56, 0x78, 0x12, 0x34, 0x56, 0x78, 0x9A,
          0xBC, 0xDE, 0xF0], by decide +kernel⟩
    · rw [hentries]
      simp only [List.forall_mem_cons, List.not_mem_nil, false_implies, implies_true, and_true]
      exact ⟨#v[0x00, 0x00, 0xFE, 0x9F, 0x00, 0x00, 0x10, 0x00, 0x80, 0x00, 0x00, 0x80, 0x5F, 0x9B,
        0x34, 0xFB], by decide +kernel⟩
  have hfit : PayloadsFit sampleProps :=
    (advertisementAds_fit_iff sampleProps).mp (by decide +kernel)
  exact buildAdvertisement_agree (by rfl) hcanon hfit

end LinuxBtProxy
