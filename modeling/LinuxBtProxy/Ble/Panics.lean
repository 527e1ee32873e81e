import LinuxBtProxy.Ble
import LinuxBtProxy.RawAdv.Items

/-!
# LinuxBtProxy.Ble.Panics

Which devices `build_advertisement` survives.  The only slices it takes are
those of `parse_uuid`, one UUID string after the other, and only if the device
has an address.  A string that is not split and is no UUID is skipped, but for
one with signs in the place of digits (`buildsSafely_iff`).
-/

namespace LinuxBtProxy

open AdItem

section

variable {V : Type} [Variant V]

/-- Nothing on the way panics, and strings that are no UUIDs are skipped: the
advertising data has the structures of the others. -/
structure BuildsSafely (props : Props V) : Prop where
  returns : ∃ adv, buildAdvertisement props = .ok adv
  raw : addressOf props ≠ none → ∃ out, buildRawAdvertisementData props = .ok out ∧
    out.pushed = (deviceItems props).map Item.encode
  parses : addressOf props ≠ none → ∀ uuidStr ∈ uuidStrings props,
    ∃ form, parseUuid uuidStr = .ok form ∧ (form = none ↔ ¬ WellFormedUuid uuidStr)

theorem uuidReturns_iff (uuidStr : String) : UuidReturns uuidStr ↔ ¬ SplitsUuid uuidStr := by
  rw [← parseUuid_returns_iff]
  constructor
  · intro h
    exact ⟨uuidForm uuidStr, h⟩
  · rintro ⟨form, hform⟩
    exact uuidReturns_of_parseUuid hform

theorem uuidsReturn_iff (props : Props V) :
    UuidsReturn props ↔ ∀ uuidStr ∈ uuidStrings props, ¬ SplitsUuid uuidStr := by
  simp only [uuidStrings, List.forall_mem_append, List.forall_mem_map, ← uuidReturns_iff]
  constructor
  · intro h
    exact ⟨h.uuids, h.serviceData⟩
  · intro h
    exact ⟨h.1, h.2⟩

/-- The advertising data is built when no UUID string is split. -/
theorem buildRawAdvertisementData_returns_iff (props : Props V) :
    (∃ out, buildRawAdvertisementData props = .ok out ∧ out.pushed = advertisementAds props) ↔
      ∀ uuidStr ∈ uuidStrings props, ¬ SplitsUuid uuidStr := by
  rw [← uuidsReturn_iff]
  constructor
  · rintro ⟨out, hout, -⟩
    exact ((buildRawAdvertisementData_iff props out).mp hout).1
  · intro h
    obtain ⟨out, hout⟩ := exists_pushed (advertisementAds props)
    exact ⟨out, (buildRawAdvertisementData_iff props out).mpr ⟨h, hout⟩, hout⟩

/-- A device has an advertisement when it has an address and no UUID string is
split. -/
theorem buildAdvertisement_returns_iff (props : Props V) :
    (∃ adv, buildAdvertisement props = .ok adv) ↔
      addressOf props = none ∨ ∀ uuidStr ∈ uuidStrings props, ¬ SplitsUuid uuidStr := by
  rw [← buildRawAdvertisementData_returns_iff]
  cases haddr : addressOf props with
  | none => simp [buildAdvertisement_of_no_address haddr]
  | some address =>
      cases hraw : buildRawAdvertisementData props with
      | error p => simp [buildAdvertisement_of_panic haddr hraw]
      | ok out =>
          obtain ⟨adv, hadv, -⟩ := buildAdvertisement_of_raw haddr hraw
          have hpushed := ((buildRawAdvertisementData_iff props out).mp hraw).2
          simp [hadv, hpushed]

/-- A string that is not split is skipped when it is no UUID, but for a sign. -/
theorem parseUuid_skips_iff (uuidStr : String) :
    (∃ form, parseUuid uuidStr = .ok form ∧ (form = none ↔ ¬ WellFormedUuid uuidStr)) ↔
      ¬ SplitsUuid uuidStr ∧ ¬ SignedUuid uuidStr := by
  rw [← uuidReturns_iff]
  constructor
  · rintro ⟨form, hform, hskip⟩
    refine ⟨uuidReturns_of_parseUuid hform, fun hsigned => ?_⟩
    obtain ⟨hsome, hno⟩ := uuidForm_of_signed hsigned
    rw [uuidForm_of_parseUuid hform] at hsome
    exact hsome (hskip.mpr hno)
  · rintro ⟨hreturns, hsigned⟩
    refine ⟨uuidForm uuidStr, hreturns, ?_⟩
    rw [uuidForm_of_not_signed hsigned, Option.map_eq_none_iff, ← spelledUuid_isSome_iff,
      Option.not_isSome_iff_eq_none]

/-- **No panics**: an advertisement is built safely unless the device has an
address and a UUID string that is split, or one that has a sign in the place of a
digit and is not skipped. -/
theorem buildsSafely_iff (props : Props V) :
    BuildsSafely props ↔ addressOf props = none ∨
      ∀ uuidStr ∈ uuidStrings props, ¬ SplitsUuid uuidStr ∧ ¬ SignedUuid uuidStr := by
  constructor
  · intro h
    by_cases hnone : addressOf props = none
    · exact .inl hnone
    · exact .inr fun uuidStr hmem => (parseUuid_skips_iff uuidStr).mp (h.parses hnone uuidStr hmem)
  · intro h
    have hsafe (hne : addressOf props ≠ none) : ∀ uuidStr ∈ uuidStrings props,
        ¬ SplitsUuid uuidStr ∧ ¬ SignedUuid uuidStr := by
      cases h with
      | inl hnone => exact absurd hnone hne
      | inr hsafe => exact hsafe
    have hreturns : addressOf props = none ∨
        ∀ uuidStr ∈ uuidStrings props, ¬ SplitsUuid uuidStr :=
      h.imp_right fun hall uuidStr hmem => (hall uuidStr hmem).1
    refine ⟨(buildAdvertisement_returns_iff props).mpr hreturns, ?_, ?_⟩
    · intro hne
      obtain ⟨out, hout, hpushed⟩ := (buildRawAdvertisementData_returns_iff props).mpr
        fun uuidStr hmem => (hsafe hne uuidStr hmem).1
      rw [advertisementAds_eq fun uuidStr hmem => (hsafe hne uuidStr hmem).2] at hpushed
      exact ⟨out, hout, hpushed⟩
    · exact fun hne uuidStr hmem => (parseUuid_skips_iff uuidStr).mpr (hsafe hne uuidStr hmem)

end

/-- A device whose service UUID starts with a character of three bytes. -/
def euroService : Props Value :=
  .ofList [("Address", .str "AA:BB:CC:DD:EE:FF"),
    ("UUIDs", .strs ["€00000-0000-1000-8000-00805f9b34fb"])]

/-- The text has 32 bytes, and its first slice ends inside the first
character. -/
theorem not_buildsSafely_euro : ¬ BuildsSafely euroService := by
  intro h
  obtain ⟨adv, hadv⟩ := h.returns
  have hpanic : (buildAdvertisement euroService).toOption.isSome = false := by decide +kernel
  rw [hadv] at hpanic
  contradiction

end LinuxBtProxy
