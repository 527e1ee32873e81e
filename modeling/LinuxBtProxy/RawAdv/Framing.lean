import LinuxBtProxy.RawAdv.Uuid

/-!
# LinuxBtProxy.RawAdv.Framing

Which advertising data can be walked by its length bytes.

* `buildRawAdvertisementData_iff` — the AD structures as a function of the
  properties, in the order in which they are pushed;
* `walk_buildRawAdvertisementData_iff` — the length byte is narrowed from the
  payload's length, so the walk finds the structures again exactly when every
  property fits one structure.
-/

namespace LinuxBtProxy

open AdStructure AdItem

/-! ## What is pushed -/

/-- The UUIDs of one width, behind each other. -/
def uuidGroup (w : Width) (uuids : List String) : List UInt8 :=
  ((uuids.filterMap uuidForm).filter (·.width = w)).flatMap ShortUuid.leBytes

/-- The list of one form, unless it is empty. -/
def uuidGroupAds (w : Width) (uuids : List String) : List Ad :=
  if (uuidGroup w uuids).isEmpty then [] else [(w.listType, uuidGroup w uuids)]

/-- One structure for each group of UUIDs that is not empty. -/
def uuidListAds (uuids : List String) : List Ad :=
  uuidGroupAds .bit16 uuids ++ uuidGroupAds .bit32 uuids ++ uuidGroupAds .bit128 uuids

/-- One structure for each entry whose key is a UUID. -/
def serviceDataAds (entries : List (String × List UInt8)) : List Ad :=
  entries.filterMap fun e =>
    (uuidForm e.1).map fun u => (u.width.serviceType, u.leBytes ++ e.2)

/-- One structure for each identifier and its data. -/
def manufacturerDataAds (entries : List (UInt16 × List UInt8)) : List Ad :=
  entries.map fun e => (0xFF, u16ToLeBytes e.1 ++ e.2)

section

variable {V : Type} [Variant V] {κ : Type}

/-- The entries whose key and data have the right types. -/
def entriesOf (key : V → Option κ) : List (V × V) → List (κ × List UInt8)
  | [] => []
  | (k, v) :: dict =>
      match key k, Variant.downcastBytes v with
      | some k, some data => (k, data) :: entriesOf key dict
      | _, _ => entriesOf key dict

/-- The entries of a value that is a dictionary. -/
def dictEntries (key : V → Option κ) (valueOpt : Option V) : List (κ × List UInt8) :=
  entriesOf key ((valueOpt.bind Variant.tryDict).getD [])

/-- The name, when it is a string. -/
def nameOf (props : Props V) : Option String :=
  (props "Name").bind Variant.downcastRefString

/-- The UUIDs, when they are an array of strings. -/
def uuidsOf (props : Props V) : List String :=
  ((props "UUIDs").bind Variant.tryStrings).getD []

/-- The transmit power, when it is an `i16` that fits an `i8`. -/
def txPowerOf (props : Props V) : Option Int8 :=
  ((props "TxPower").bind Variant.downcastRefI16).bind i8TryFrom

/-- The complete local name. -/
def nameAds (props : Props V) : List Ad :=
  (nameOf props).toList.map fun name => (0x09, name.toUTF8.data.toList)

/-- The transmit power level. -/
def txPowerAds (props : Props V) : List Ad :=
  (txPowerOf props).toList.map fun txPower => (0x0A, [txPower.toUInt8])

/-- The AD structures of a device, in order. -/
def advertisementAds (props : Props V) : List Ad :=
  nameAds props ++ uuidListAds (uuidsOf props) ++
    serviceDataAds (dictEntries Variant.downcastString (props "ServiceData")) ++
    manufacturerDataAds (dictEntries Variant.downcastU16 (props "ManufacturerData")) ++
    txPowerAds props

end

/-- A structure is pushed behind the others. -/
@[simp] theorem pushAd_pushed (out : AdBuf) (adType : UInt8) (payload : List UInt8) :
    (pushAd out adType payload).pushed = out.pushed ++ [(adType, payload)] := rfl

/-- The bytes are determined by what was pushed. -/
theorem AdBuf.ext_pushed {out out' : AdBuf} (h : out.pushed = out'.pushed) : out = out' := by
  obtain ⟨bytes, pushed, hbytes⟩ := out
  obtain ⟨bytes', pushed', hbytes'⟩ := out'
  subst hbytes hbytes' h
  rfl

/-- `parse_uuid` returns on this string. -/
def UuidReturns (uuidStr : String) : Prop := parseUuid uuidStr = .ok (uuidForm uuidStr)

/-- A call that returned is one that returns. -/
theorem uuidReturns_of_parseUuid {uuidStr : String} {form : Option ShortUuid}
    (h : parseUuid uuidStr = .ok form) : UuidReturns uuidStr := by
  rw [UuidReturns, uuidForm_of_parseUuid h, h]

/-- A call that panicked is none that returns. -/
theorem not_uuidReturns_of_panic {uuidStr : String} {p : Panic}
    (h : parseUuid uuidStr = .error p) : ¬ UuidReturns uuidStr := by
  rw [UuidReturns, h]
  simp

/-- The vectors of `push_uuid_list_ad` are the groups. -/
theorem collectUuids_iff (uuids : List String) (lists lists' : UuidLists) :
    collectUuids lists uuids = .ok lists' ↔
      (∀ uuid ∈ uuids, UuidReturns uuid) ∧
        lists' = ⟨lists.bit16 ++ uuidGroup .bit16 uuids, lists.bit32 ++ uuidGroup .bit32 uuids,
          lists.bit128 ++ uuidGroup .bit128 uuids⟩ := by
  induction uuids generalizing lists with
  | nil => simp [collectUuids, uuidGroup, eq_comm]
  | cons uuid uuids ih =>
      rw [List.forall_mem_cons]
      cases hp : parseUuid uuid with
      | error p => simp [collectUuids, hp, bind, Except.bind, not_uuidReturns_of_panic hp]
      | ok form =>
          have hform := uuidForm_of_parseUuid hp
          have hret := uuidReturns_of_parseUuid hp
          simp only [collectUuids, hp, bind, Except.bind]
          cases form with
          | none => simp [ih, hret, uuidGroup, hform]
          | some u =>
              cases u <;>
                simp [ih, hret, uuidGroup, hform, ShortUuid.width, ShortUuid.leBytes]

/-- A buffer is determined by what was pushed. -/
theorem eq_iff_pushed {out out' : AdBuf} : out = out' ↔ out'.pushed = out.pushed :=
  ⟨fun h => by rw [h], fun h => AdBuf.ext_pushed h.symm⟩

/-- Every list of structures can be pushed. -/
theorem exists_pushed (ads : List Ad) : ∃ out : AdBuf, out.pushed = ads :=
  ⟨⟨_, ads, rfl⟩, rfl⟩

/-- A sequence returns if both parts do. -/
theorem bind_eq_ok_iff {α β ε : Type} {x : Except ε α} {f : α → Except ε β} {b : β} :
    (x >>= f) = .ok b ↔ ∃ a, x = .ok a ∧ f a = .ok b := by
  cases x <;> simp [bind, Except.bind]

/-- A group is pushed unless it is empty. -/
theorem pushed_unless_empty (out : AdBuf) (adType : UInt8) (group : List UInt8) :
    (if group.isEmpty then out else pushAd out adType group).pushed =
      out.pushed ++ if group.isEmpty then [] else [(adType, group)] := by
  split
  · rw [List.append_nil]
  · rw [pushAd_pushed]

/-- `push_uuid_list_ad` returns if every UUID does, and pushes the three lists. -/
theorem pushUuidListAd_iff (out out' : AdBuf) (uuids : List String) :
    pushUuidListAd out uuids = .ok out' ↔
      (∀ uuid ∈ uuids, UuidReturns uuid) ∧ out'.pushed = out.pushed ++ uuidListAds uuids := by
  have hiff := collectUuids_iff uuids ⟨[], [], []⟩
  cases hc : collectUuids ⟨[], [], []⟩ uuids with
  | error p =>
      have hno : ¬ ∀ uuid ∈ uuids, UuidReturns uuid := by
        intro hall
        have hok := (hiff _).mpr ⟨hall, rfl⟩
        simp [hc] at hok
      simp only [pushUuidListAd, hc, bind, Except.bind, hno, false_and, reduceCtorEq]
  | ok lists =>
      obtain ⟨hall, rfl⟩ := (hiff lists).mp hc
      have hret : (∀ uuid ∈ uuids, UuidReturns uuid) ↔ True := iff_true_intro hall
      simp only [pushUuidListAd, hc, bind, Except.bind, pure, Except.pure, Except.ok.injEq,
        List.nil_append, hret, true_and, eq_iff_pushed, pushed_unless_empty, uuidListAds,
        uuidGroupAds, Width.listType, List.append_assoc]

section

variable {V : Type} [Variant V]

/-- The loop returns if every key with data does, and pushes its entries. -/
theorem pushServiceDataEntries_iff (out out' : AdBuf) (dict : List (V × V)) :
    pushServiceDataEntries out dict = .ok out' ↔
      (∀ e ∈ entriesOf Variant.downcastString dict, UuidReturns e.1) ∧
        out'.pushed = out.pushed ++ serviceDataAds (entriesOf Variant.downcastString dict) := by
  induction dict generalizing out with
  | nil => simp [pushServiceDataEntries, entriesOf, serviceDataAds, eq_iff_pushed]
  | cons e dict ih =>
      obtain ⟨k, v⟩ := e
      unfold pushServiceDataEntries entriesOf
      split
      · next uuidStr data hk hv =>
          rw [hk, hv]
          simp only [List.forall_mem_cons]
          cases hp : parseUuid uuidStr with
          | error p => simp [bind, Except.bind, not_uuidReturns_of_panic hp]
          | ok form =>
              have hform := uuidForm_of_parseUuid hp
              have hret := uuidReturns_of_parseUuid hp
              simp only [bind, Except.bind, hret, true_and]
              cases form with
              | none => simp [ih, serviceDataAds, hform]
              | some u =>
                  cases u <;>
                    simp [ih, serviceDataAds, hform, ShortUuid.width, ShortUuid.leBytes,
                      Width.serviceType]
      · next hno =>
          split
          · next uuidStr data hk hv => exact absurd hv (hno uuidStr data hk)
          · exact ih out

/-- `push_service_data_ad` returns if every key with data does. -/
theorem pushServiceDataAd_iff (out out' : AdBuf) (valueOpt : Option V) :
    pushServiceDataAd out valueOpt = .ok out' ↔
      (∀ e ∈ dictEntries Variant.downcastString valueOpt, UuidReturns e.1) ∧
        out'.pushed =
          out.pushed ++ serviceDataAds (dictEntries Variant.downcastString valueOpt) := by
  unfold pushServiceDataAd dictEntries
  split
  · simp [entriesOf, serviceDataAds, eq_iff_pushed]
  · split
    · next h => simp [h, entriesOf, serviceDataAds, eq_iff_pushed]
    · next h => simp [h, pushServiceDataEntries_iff]

/-- The loop pushes the entries with an identifier and data. -/
theorem pushManufacturerDataEntries_pushed (out : AdBuf) (dict : List (V × V)) :
    (pushManufacturerDataEntries out dict).pushed =
      out.pushed ++ manufacturerDataAds (entriesOf Variant.downcastU16 dict) := by
  induction dict generalizing out with
  | nil => simp [pushManufacturerDataEntries, entriesOf, manufacturerDataAds]
  | cons e dict ih =>
      obtain ⟨k, v⟩ := e
      unfold pushManufacturerDataEntries entriesOf
      split
      · next companyId data hk hv =>
          rw [hk, hv, ih]
          simp [manufacturerDataAds]
      · next hno =>
          split
          · next companyId data hk hv => exact absurd hv (hno companyId data hk)
          · exact ih out

/-- `push_manufacturer_data_ad` pushes the entries of the dictionary. -/
theorem pushManufacturerDataAd_pushed (out : AdBuf) (valueOpt : Option V) :
    (pushManufacturerDataAd out valueOpt).pushed =
      out.pushed ++ manufacturerDataAds (dictEntries Variant.downcastU16 valueOpt) := by
  unfold pushManufacturerDataAd dictEntries
  split
  · simp [entriesOf, manufacturerDataAds]
  · split
    · next h => simp [h, entriesOf, manufacturerDataAds]
    · next h => simp [h, pushManufacturerDataEntries_pushed]

/-- The name is pushed if there is one. -/
theorem pushed_name (props : Props V) (out : AdBuf) :
    (((props "Name").bind Variant.downcastRefString).elim out fun name =>
      pushAd out 0x09 name.toUTF8.data.toList).pushed = out.pushed ++ nameAds props := by
  unfold nameAds nameOf
  cases (props "Name").bind Variant.downcastRefString <;> simp

/-- The UUIDs are pushed if there are any, and all return. -/
theorem pushUuids_iff (props : Props V) (out out' : AdBuf) :
    (((props "UUIDs").bind Variant.tryStrings).elim (.ok out) fun uuids =>
      pushUuidListAd out uuids) = .ok out' ↔
      (∀ uuid ∈ uuidsOf props, UuidReturns uuid) ∧
        out'.pushed = out.pushed ++ uuidListAds (uuidsOf props) := by
  unfold uuidsOf
  cases (props "UUIDs").bind Variant.tryStrings with
  | none => simp [eq_iff_pushed, uuidListAds, uuidGroupAds, uuidGroup]
  | some uuids => exact pushUuidListAd_iff out out' uuids

/-- The transmit power is pushed if it fits. -/
theorem pushed_txPower (props : Props V) (out : AdBuf) :
    (((props "TxPower").bind Variant.downcastRefI16).elim out fun txPower =>
      (i8TryFrom txPower).elim out fun txPowerI8 =>
        pushAd out 0x0A [txPowerI8.toUInt8]).pushed = out.pushed ++ txPowerAds props := by
  unfold txPowerAds txPowerOf
  cases (props "TxPower").bind Variant.downcastRefI16 with
  | none => simp
  | some txPower => cases h : i8TryFrom txPower <;> simp [h]

/-- `parse_uuid` returns on every UUID string of the device. -/
structure UuidsReturn (props : Props V) : Prop where
  uuids : ∀ uuid ∈ uuidsOf props, UuidReturns uuid
  serviceData : ∀ e ∈ dictEntries Variant.downcastString (props "ServiceData"), UuidReturns e.1

/-- The advertising data of a device: if it is built at all, the structures are
those of its properties. -/
theorem buildRawAdvertisementData_iff (props : Props V) (out : AdBuf) :
    buildRawAdvertisementData props = .ok out ↔
      UuidsReturn props ∧ out.pushed = advertisementAds props := by
  unfold buildRawAdvertisementData advertisementAds
  simp only [bind_eq_ok_iff, pure, Except.pure, pushUuids_iff, pushServiceDataAd_iff,
    Except.ok.injEq, eq_iff_pushed, pushed_txPower, pushManufacturerDataAd_pushed, pushed_name]
  constructor
  · intro h
    obtain ⟨out₂, ⟨hu, h₂⟩, out₃, ⟨hs, h₃⟩, hout⟩ := h
    rw [hout, h₃, h₂]
    exact ⟨⟨hu, hs⟩, rfl⟩
  · intro h
    obtain ⟨⟨hu, hs⟩, hout⟩ := h
    obtain ⟨out₂, h₂⟩ := exists_pushed (nameAds props ++ uuidListAds (uuidsOf props))
    obtain ⟨out₃, h₃⟩ := exists_pushed (out₂.pushed ++
      serviceDataAds (dictEntries Variant.downcastString (props "ServiceData")))
    refine ⟨out₂, ⟨hu, h₂⟩, out₃, ⟨hs, h₃⟩, ?_⟩
    rw [hout, h₃, h₂]

/-! ## Payloads and their length byte -/

/-- Every property fits one AD structure: the name, the UUIDs of one width
together, each entry of service or manufacturer data with its id. -/
structure PayloadsFit (props : Props V) : Prop where
  name : ∀ name, nameOf props = some name → name.toUTF8.data.toList.length ≤ maxPayload
  uuids : ∀ w : Width,
    w.bytes * (((uuidsOf props).filterMap uuidForm).filter (·.width = w)).length ≤ maxPayload
  serviceData : ∀ e ∈ dictEntries Variant.downcastString (props "ServiceData"),
    ∀ u, uuidForm e.1 = some u → u.width.bytes + e.2.length ≤ maxPayload
  manufacturerData : ∀ e ∈ dictEntries Variant.downcastU16 (props "ManufacturerData"),
    2 + e.2.length ≤ maxPayload

omit [Variant V] in
/-- A list takes the bytes of its form for each UUID. -/
theorem length_uuidGroup (w : Width) (uuids : List String) :
    (uuidGroup w uuids).length =
      w.bytes * ((uuids.filterMap uuidForm).filter (·.width = w)).length := by
  unfold uuidGroup
  induction uuids.filterMap uuidForm with
  | nil => rfl
  | cons u us ih =>
      by_cases h : u.width = w
      · have hu := u.length_leBytes
        simp only [h, decide_true, List.filter_cons_of_pos, List.flatMap_cons, List.length_append,
          List.length_cons, ih, hu, Nat.mul_add, Nat.mul_one]
        omega
      · simpa [h] using ih

omit [Variant V] in
/-- The three lists fit when each group does. -/
theorem uuidListAds_fit_iff (uuids : List String) :
    (∀ ad ∈ uuidListAds uuids, ad.2.length ≤ maxPayload) ↔
      ∀ w, (uuidGroup w uuids).length ≤ maxPayload := by
  have hgroup : ∀ w, (∀ ad ∈ uuidGroupAds w uuids, ad.2.length ≤ maxPayload) ↔
      (uuidGroup w uuids).length ≤ maxPayload := by
    intro w
    unfold uuidGroupAds
    cases hw : (uuidGroup w uuids).isEmpty with
    | true => simp [List.isEmpty_iff.mp hw]
    | false => simp
  have hall : (∀ w, (uuidGroup w uuids).length ≤ maxPayload) ↔
      (uuidGroup .bit16 uuids).length ≤ maxPayload ∧
        (uuidGroup .bit32 uuids).length ≤ maxPayload ∧
        (uuidGroup .bit128 uuids).length ≤ maxPayload := by
    constructor
    · exact fun h => ⟨h .bit16, h .bit32, h .bit128⟩
    · intro h w
      obtain ⟨h16, h32, h128⟩ := h
      cases w with
      | bit16 => exact h16
      | bit32 => exact h32
      | bit128 => exact h128
  unfold uuidListAds
  simp only [List.forall_mem_append, hgroup, hall, and_assoc]

omit [Variant V] in
/-- Service data fits when the UUID and the data do together. -/
theorem serviceDataAds_fit_iff (entries : List (String × List UInt8)) :
    (∀ ad ∈ serviceDataAds entries, ad.2.length ≤ maxPayload) ↔
      ∀ e ∈ entries, ∀ u, uuidForm e.1 = some u →
        u.width.bytes + e.2.length ≤ maxPayload := by
  unfold serviceDataAds
  simp only [List.mem_filterMap, Option.map_eq_some_iff]
  constructor
  · intro h e he u hu
    have hlen := h _ ⟨e, he, u, hu, rfl⟩
    rwa [List.length_append, ShortUuid.length_leBytes] at hlen
  · intro h ad had
    obtain ⟨e, he, u, hu, rfl⟩ := had
    rw [List.length_append, ShortUuid.length_leBytes]
    exact h e he u hu

/-- The structures of a device fit their length bytes exactly when its
properties do. -/
theorem advertisementAds_fit_iff (props : Props V) :
    (∀ ad ∈ advertisementAds props, ad.2.length ≤ maxPayload) ↔ PayloadsFit props := by
  have hname : (∀ ad ∈ nameAds props, ad.2.length ≤ maxPayload) ↔
      ∀ name, nameOf props = some name → name.toUTF8.data.toList.length ≤ maxPayload := by
    unfold nameAds
    cases nameOf props <;> simp
  have hmanufacturer : ∀ entries, (∀ ad ∈ manufacturerDataAds entries, ad.2.length ≤ maxPayload) ↔
      ∀ e ∈ entries, 2 + e.2.length ≤ maxPayload := by
    intro entries
    simp only [manufacturerDataAds, List.forall_mem_map, List.length_append, u16ToLeBytes,
      Endian.length_leBytes]
  have htx : ∀ ad ∈ txPowerAds props, ad.2.length ≤ maxPayload := by
    simp [txPowerAds, maxPayload]
  unfold advertisementAds
  simp only [List.forall_mem_append, hname, uuidListAds_fit_iff, length_uuidGroup,
    serviceDataAds_fit_iff, hmanufacturer]
  constructor
  · intro h
    obtain ⟨⟨⟨⟨hn, hu⟩, hs⟩, hm⟩, -⟩ := h
    exact ⟨hn, hu, hs, hm⟩
  · intro h
    exact ⟨⟨⟨⟨h.name, h.uuids⟩, h.serviceData⟩, h.manufacturerData⟩, htx⟩

/-- The walk of an output finds what was pushed exactly when every payload fits
its length byte. -/
theorem AdBuf.walk_iff (out : AdBuf) :
    walk out.bytes = some out.pushed ↔ ∀ ad ∈ out.pushed, ad.2.length ≤ maxPayload := by
  rw [out.bytes_eq, walk_flatten_iff]

/-- **Framing**: walking the advertising data of a device by its length bytes
finds the structures that were pushed exactly when every property fits one
structure. -/
theorem walk_buildRawAdvertisementData_iff {props : Props V} {out : AdBuf}
    (h : buildRawAdvertisementData props = .ok out) :
    walk out.bytes = some out.pushed ↔ PayloadsFit props := by
  obtain ⟨-, hpushed⟩ := (buildRawAdvertisementData_iff props out).mp h
  rw [out.walk_iff, hpushed, advertisementAds_fit_iff]

end

/-- A device with a name, two services, service and manufacturer data and a
transmission power. -/
def sampleProps : Props Value :=
  .ofList [("Address", .str "AA:BB:CC:DD:EE:FF"), ("Name", .str "pi"),
    ("UUIDs", .strs ["0000180f-0000-1000-8000-00805f9b34fb",
      "12345678-1234-5678-1234-56789abcdef0"]),
    ("ServiceData", .dict [(.str "0000fe9f-0000-1000-8000-00805f9b34fb", .bytes [0x01])]),
    ("ManufacturerData", .dict [(.u16 0x004C, .bytes [0x02, 0x15])]), ("TxPower", .i16 4)]

/-- The AD structures of this device. -/
def sampleAds : List Ad :=
  [(0x09, [0x70, 0x69]), (0x03, [0x0F, 0x18]),
    (0x07, [0xF0, 0xDE, 0xBC, 0x9A, 0x78, 0x56, 0x34, 0x12, 0x78, 0x56, 0x34, 0x12, 0x78, 0x56,
      0x34, 0x12]), (0x16, [0x9F, 0xFE, 0x01]), (0xFF, [0x4C, 0x00, 0x02, 0x15]), (0x0A, [0x04])]

/-- A device whose structures fit is walked structure by structure. -/
theorem walk_buildRawAdvertisementData_sample :
    ∃ out, buildRawAdvertisementData sampleProps = .ok out ∧ out.pushed = sampleAds ∧
      (walk out.bytes = some out.pushed ↔ PayloadsFit sampleProps) := by
  have hpushed : (buildRawAdvertisementData sampleProps).toOption.map AdBuf.pushed =
      some sampleAds := by decide +kernel
  cases h : buildRawAdvertisementData sampleProps with
  | error p => simp [h, Except.toOption] at hpushed
  | ok out =>
      rw [h] at hpushed
      exact ⟨out, rfl, Option.some.inj hpushed, walk_buildRawAdvertisementData_iff h⟩

/-- Sixteen UUIDs that are not of the Bluetooth base. -/
def ownUuids : List Uuid :=
  (List.range 16).map fun i => #v[0x12, 0x34, 0x56, 0x78, 0x12, 0x34, 0x56, 0x78, 0x12, 0x34, 0x56,
    0x78, 0x9A, 0xBC, 0xDE, UInt8.ofNat i]

/-- A device with sixteen services of its own. -/
def sixteenServices : Props Value :=
  .ofList [("UUIDs", .strs (ownUuids.map uuidText))]

/-- The UUIDs take 256 bytes: the length byte of their structure is 1, and the
walk fails. -/
theorem not_walk_sixteen_services :
    ∃ out, buildRawAdvertisementData sixteenServices = .ok out ∧
      out.bytes.take 2 = [0x01, 0x07] ∧ walk out.bytes ≠ some out.pushed := by
  have huuids : uuidsOf sixteenServices = ownUuids.map uuidText := rfl
  have hnone : dictEntries Variant.downcastString (sixteenServices "ServiceData") = [] := rfl
  have hreturns : UuidsReturn sixteenServices :=
    { uuids := by
        rw [huuids, List.forall_mem_map]
        exact fun u _ => uuidReturns_of_parseUuid (parseUuid_uuidText u)
      serviceData := by rw [hnone]; simp }
  have hgroup : uuidGroupAds .bit16 (ownUuids.map uuidText) = [] ∧
      uuidGroupAds .bit32 (ownUuids.map uuidText) = [] ∧
      (uuidGroupAds .bit128 (ownUuids.map uuidText)).map (fun ad => (ad.1, ad.2.length)) =
        [(0x07, 256)] := by
    simp only [uuidGroupAds, uuidGroup, filterMap_uuidForm_uuidText]
    decide +kernel
  have hads : advertisementAds sixteenServices = uuidGroupAds .bit128 (ownUuids.map uuidText) := by
    have hothers : nameAds sixteenServices = [] ∧ txPowerAds sixteenServices = [] ∧
        dictEntries Variant.downcastU16 (sixteenServices "ManufacturerData") = [] := ⟨rfl, rfl, rfl⟩
    simp [advertisementAds, huuids, hnone, hothers, uuidListAds, hgroup, serviceDataAds,
      manufacturerDataAds]
  obtain ⟨out, hout⟩ := exists_pushed (advertisementAds sixteenServices)
  obtain ⟨ad, had, hpair⟩ : ∃ ad, uuidGroupAds .bit128 (ownUuids.map uuidText) = [ad] ∧
      (ad.1, ad.2.length) = (0x07, 256) := by
    simpa [List.map_eq_cons_iff] using hgroup.2.2
  obtain ⟨htype, hlen⟩ := Prod.mk.inj hpair
  rw [hads, had] at hout
  have hpushed : out.pushed = advertisementAds sixteenServices := by rw [hout, hads, had]
  refine ⟨out, (buildRawAdvertisementData_iff _ out).mpr ⟨hreturns, hpushed⟩, ?_, ?_⟩
  · rw [out.bytes_eq, hout]
    simp [encode, hlen, htype]
  · intro hwalk
    have hfit := out.walk_iff.mp hwalk ad (by rw [hout]; exact List.mem_singleton_self ad)
    rw [hlen] at hfit
    exact absurd hfit (by decide)

end LinuxBtProxy
