import Mathlib.Data.List.Basic
import LinuxBtProxy.RawAdv.Framing

/-!
# LinuxBtProxy.RawAdv.Items

The content of the advertising data, read off the properties of a device and not
off what `parse_uuid` returns.

* `spelledUuid` — the UUID of a string of 32 hexadecimal digits, dashes aside;
* `uuidForm_of_not_signed` — `parse_uuid` reads the same one, unless a sign
  stands for a digit;
* `deviceItems` — the name, UUIDs and data of the device as items, whose encoding
  is what is pushed (`advertisementAds_eq`).
-/

namespace LinuxBtProxy

open AdStructure AdItem

/-! ## UUID strings -/

/-- The text of a UUID, dashes aside. -/
def WellFormedUuid (uuidStr : String) : Prop :=
  (undashed uuidStr).length = 32 ∧ AllHex (undashed uuidStr)

instance (uuidStr : String) : Decidable (WellFormedUuid uuidStr) :=
  inferInstanceAs (Decidable (_ ∧ _))

/-- The UUID that a string spells. -/
def spelledUuid (uuidStr : String) : Option Uuid :=
  if WellFormedUuid uuidStr then AdItem.ofList? (spelledBytes (undashed uuidStr)) else none

/-- The text has the length of a UUID and consists of pairs that are numbers, but
a sign stands for a digit. -/
def SignedUuid (uuidStr : String) : Prop :=
  (undashed uuidStr).length = 32 ∧ SignedPairs (undashed uuidStr) ∧ '+' ∈ undashed uuidStr

/-- A UUID is read off sixteen pairs that are numbers. -/
theorem uuidForm_eq_some_iff {uuidStr : String} {form : ShortUuid} :
    uuidForm uuidStr = some form ↔
      ∃ u : Uuid, readPairs (undashed uuidStr) = some u.toList ∧ form = shrink u := by
  constructor
  · intro h
    rcases parseUuid_cases uuidStr with ⟨-, hp⟩ | ⟨-, hp, -⟩ | ⟨u, -, hp, -, hread⟩
    · simp [uuidForm, hp] at h
    · simp [uuidForm, hp] at h
    · rw [uuidForm_of_parseUuid hp] at h
      exact ⟨u, hread, (Option.some.inj h).symm⟩
  · rintro ⟨u, hread, rfl⟩
    exact uuidForm_of_parseUuid (parseUuid_of_readPairs hread)

/-- A UUID is spelled by sixteen pairs of digits. -/
theorem spelledUuid_eq_some_iff {uuidStr : String} {u : Uuid} :
    spelledUuid uuidStr = some u ↔
      AllHex (undashed uuidStr) ∧ readPairs (undashed uuidStr) = some u.toList := by
  constructor
  · intro h
    unfold spelledUuid at h
    split at h
    · next hwell =>
        obtain ⟨hlen, hhex⟩ := hwell
        have hpairs := ((allHex_iff_signedPairs (by rw [hlen])).mp hhex).1
        obtain ⟨u', hread⟩ := readPairs_of_signedPairs hlen hpairs
        have hspelled := readPairs_eq_spelledBytes hhex hread
        exact ⟨hhex, by rw [hread, hspelled, toList_of_ofList? h]⟩
    · contradiction
  · rintro ⟨hhex, hread⟩
    have hlen := length_of_readPairs hread
    have hspelled := readPairs_eq_spelledBytes hhex hread
    rw [Vector.length_toList] at hlen
    rw [spelledUuid, if_pos ⟨hlen, hhex⟩, ← hspelled, ofList?_toList]

theorem spelledUuid_isSome_iff (uuidStr : String) :
    (spelledUuid uuidStr).isSome ↔ WellFormedUuid uuidStr := by
  constructor
  · intro h
    unfold spelledUuid at h
    split at h
    · next hwell => exact hwell
    · contradiction
  · intro hwell
    obtain ⟨hlen, hhex⟩ := hwell
    have hpairs := ((allHex_iff_signedPairs (by rw [hlen])).mp hhex).1
    obtain ⟨u, hread⟩ := readPairs_of_signedPairs hlen hpairs
    rw [spelledUuid_eq_some_iff.mpr ⟨hhex, hread⟩]
    rfl

/-- **Without a sign**, `parse_uuid` reads the UUID that the string spells, in its
narrowest form, and no other string. -/
theorem uuidForm_of_not_signed {uuidStr : String} (h : ¬ SignedUuid uuidStr) :
    uuidForm uuidStr = (spelledUuid uuidStr).map shrink := by
  apply Option.ext
  intro form
  rw [Option.map_eq_some_iff, uuidForm_eq_some_iff]
  constructor
  · rintro ⟨u, hread, rfl⟩
    have hlen := length_of_readPairs hread
    rw [Vector.length_toList] at hlen
    have hpairs := (readPairs_isSome_iff (undashed uuidStr)).mp (by rw [hread]; rfl)
    have hhex := (allHex_iff_signedPairs (by omega)).mpr
      ⟨hpairs, fun hplus => h ⟨hlen, hpairs, hplus⟩⟩
    exact ⟨u, spelledUuid_eq_some_iff.mpr ⟨hhex, hread⟩, rfl⟩
  · rintro ⟨u, hu, rfl⟩
    exact ⟨u, (spelledUuid_eq_some_iff.mp hu).2, rfl⟩

/-- A sign in the place of a digit is accepted. -/
theorem uuidForm_of_signed {uuidStr : String} (h : SignedUuid uuidStr) :
    uuidForm uuidStr ≠ none ∧ ¬ WellFormedUuid uuidStr := by
  obtain ⟨hlen, hpairs, hplus⟩ := h
  obtain ⟨u, hread⟩ := readPairs_of_signedPairs hlen hpairs
  constructor
  · rw [uuidForm_eq_some_iff.mpr ⟨u, hread, rfl⟩]
    simp
  · exact fun hwell => not_isHex_plus (hwell.2 '+' hplus)

/-- The canonical text of a UUID spells it. -/
@[simp] theorem spelledUuid_uuidText (u : Uuid) : spelledUuid (uuidText u) = some u := by
  have hundashed : undashed (uuidText u) = hexText u.toList := filter_dash_uuidText u
  rw [spelledUuid_eq_some_iff, hundashed]
  exact ⟨allHex_hexText u.toList, readPairs_hexText u.toList⟩

theorem not_signedUuid_uuidText (u : Uuid) : ¬ SignedUuid (uuidText u) := by
  intro h
  have hwell := (spelledUuid_isSome_iff (uuidText u)).mp (by rw [spelledUuid_uuidText]; rfl)
  exact (uuidForm_of_signed h).2 hwell

/-- The UUIDs of the strings that spell one. -/
def spelledUuids (uuids : List String) : List Uuid := uuids.filterMap spelledUuid

/-- The entries whose key spells a UUID. -/
def spelledServices (entries : List (String × List UInt8)) : List (Uuid × List UInt8) :=
  entries.filterMap fun e => (spelledUuid e.1).map (·, e.2)

/-! ## Items -/

/-- The UUIDs of one width, as one item if there are any. -/
def uuidItems (w : Width) (us : List Uuid) : List Item :=
  if us.filter (narrowest · = w) = [] then [] else [.uuids w (us.filter (narrowest · = w))]

section

variable {V : Type} [Variant V]

/-- The strings that are parsed as UUIDs: the service UUIDs and the keys of the
service data. -/
def uuidStrings (props : Props V) : List String :=
  uuidsOf props ++ (dictEntries Variant.downcastString (props "ServiceData")).map Prod.fst

/-- The content of the advertising data of a device with these UUIDs and this
service data. -/
def advertisementItems (props : Props V) (us : List Uuid) (services : List (Uuid × List UInt8)) :
    List Item :=
  (nameOf props).toList.map (fun name => .name name.toUTF8.data.toList) ++
    uuidItems .bit16 us ++ uuidItems .bit32 us ++ uuidItems .bit128 us ++
    services.map (fun e => .serviceData (narrowest e.1) e.1 e.2) ++
    (dictEntries Variant.downcastU16 (props "ManufacturerData")).map
      (fun e => .manufacturerData e.1 e.2) ++
    (txPowerOf props).toList.map .txPower

/-- The content of the advertising data of a device: its name, the UUIDs and the
service data whose strings spell UUIDs, its manufacturer data and its
transmission power. -/
def deviceItems (props : Props V) : List Item :=
  advertisementItems props (spelledUuids (uuidsOf props))
    (spelledServices (dictEntries Variant.downcastString (props "ServiceData")))

omit [Variant V] in
theorem uuidGroup_eq (w : Width) {uuids : List String} (h : ∀ s ∈ uuids, ¬ SignedUuid s) :
    uuidGroup w uuids = ((spelledUuids uuids).filter (narrowest · = w)).flatMap w.leBytes := by
  have hforms : uuids.filterMap uuidForm = (spelledUuids uuids).map shrink := by
    rw [spelledUuids, List.map_filterMap]
    exact List.filterMap_congr fun s hs => uuidForm_of_not_signed (h s hs)
  rw [uuidGroup, hforms]
  induction spelledUuids uuids with
  | nil => rfl
  | cons u us ih =>
      obtain ⟨hwidth, hbytes⟩ := shrink_spec u
      by_cases h : narrowest u = w
      · simp [hwidth, hbytes, h, ih]
      · simp [hwidth, h, ih]

omit [Variant V] in
theorem uuidGroupAds_eq (w : Width) {uuids : List String} (h : ∀ s ∈ uuids, ¬ SignedUuid s) :
    uuidGroupAds w uuids = (uuidItems w (spelledUuids uuids)).map Item.encode := by
  unfold uuidGroupAds uuidItems
  rw [uuidGroup_eq w h]
  cases hg : (spelledUuids uuids).filter (narrowest · = w) with
  | nil => simp
  | cons u us' =>
      have hne : ¬ w.leBytes u = [] := by
        intro hnil
        have hlen := w.length_leBytes u
        have hpos := w.bytes_pos
        rw [hnil, List.length_nil] at hlen
        omega
      simp [hne, Item.encode]

omit [Variant V] in
theorem serviceDataAds_eq {entries : List (String × List UInt8)}
    (h : ∀ e ∈ entries, ¬ SignedUuid e.1) :
    serviceDataAds entries =
      ((spelledServices entries).map fun e => Item.serviceData (narrowest e.1) e.1 e.2).map
        Item.encode := by
  unfold serviceDataAds spelledServices
  rw [List.map_filterMap, List.map_filterMap]
  refine List.filterMap_congr fun e he => ?_
  rw [uuidForm_of_not_signed (h e he)]
  cases spelledUuid e.1 with
  | none => rfl
  | some u =>
      obtain ⟨hwidth, hbytes⟩ := shrink_spec u
      simp [hwidth, hbytes, Item.encode]

/-- What is pushed is the encoding of the items of the device. -/
theorem advertisementAds_eq {props : Props V} (h : ∀ s ∈ uuidStrings props, ¬ SignedUuid s) :
    advertisementAds props = (deviceItems props).map Item.encode := by
  obtain ⟨huuids, hservices⟩ := List.forall_mem_append.mp h
  rw [List.forall_mem_map] at hservices
  unfold advertisementAds deviceItems advertisementItems
  rw [uuidListAds, uuidGroupAds_eq .bit16 huuids, uuidGroupAds_eq .bit32 huuids,
    uuidGroupAds_eq .bit128 huuids, serviceDataAds_eq hservices]
  simp only [List.map_append, List.map_map, nameAds, txPowerAds, manufacturerDataAds,
    List.append_assoc, Function.comp_def, Item.encode]
  rfl

theorem narrow_deviceItems (props : Props V) : ∀ item ∈ deviceItems props, item.Narrow := by
  have huuids : ∀ w us, ∀ item ∈ uuidItems w us, item.Narrow := by
    intro w us
    unfold uuidItems
    split <;> simp [Item.Narrow]
  unfold deviceItems advertisementItems
  simp only [List.forall_mem_append, List.forall_mem_map]
  exact ⟨⟨⟨⟨⟨⟨fun _ _ => trivial, huuids .bit16 _⟩, huuids .bit32 _⟩, huuids .bit128 _⟩,
    fun _ _ => rfl⟩, fun _ _ => trivial⟩, fun _ _ => trivial⟩

/-- Advertising data with the structures of the items of a device is decoded to
them, if they fit their length bytes. -/
theorem decode_deviceItems {props : Props V} {out : AdBuf}
    (hout : out.pushed = (deviceItems props).map Item.encode)
    (hfit : ∀ ad ∈ out.pushed, ad.2.length ≤ maxPayload) :
    decode out.bytes = some (deviceItems props) := by
  rw [hout, List.forall_mem_map] at hfit
  rw [out.bytes_eq, hout]
  exact decode_encode (narrow_deviceItems props) hfit

end

end LinuxBtProxy
