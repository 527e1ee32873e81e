import LinuxBtProxy.Ble.Panics
import LinuxBtProxy.Utils.Mac

/-!
# LinuxBtProxy.Ble.Address

Which addresses are forwarded as they are.  `parse_ble_address` folds any number
of groups and reads a group that is no number as zero; on the text that
`parse_mac` accepts, it gives the same address (`toNat_parseBleAddress`).  On
every other text it gives one too, which is then another device's
(`trueAddress_iff`).
-/

namespace LinuxBtProxy

/-! ## Addresses as numbers -/

/-- The number of a MAC address, the first byte in front. -/
def macValue (m : Vector UInt8 6) : Nat :=
  m[0].toNat * 2 ^ 40 + m[1].toNat * 2 ^ 32 + m[2].toNat * 2 ^ 24 + m[3].toNat * 2 ^ 16 +
    m[4].toNat * 2 ^ 8 + m[5].toNat

theorem macValue_eq_beValue (m : Vector UInt8 6) : macValue m = Endian.beValue m.toList := by
  obtain ⟨⟨bytes⟩, hsize⟩ := m
  match bytes, hsize with
  | [a, b, c, d, e, f], _ =>
      simp only [macValue, Endian.beValue, Vector.toList, List.foldl_cons, List.foldl_nil]
      show a.toNat * 2 ^ 40 + b.toNat * 2 ^ 32 + c.toNat * 2 ^ 24 + d.toNat * 2 ^ 16 +
        e.toNat * 2 ^ 8 + f.toNat = _
      omega

theorem macValue_inj {m m' : Vector UInt8 6} (h : macValue m = macValue m') : m = m' := by
  rw [macValue_eq_beValue, macValue_eq_beValue] at h
  have hm := Endian.leBytes_beValue m.toList
  have hm' := Endian.leBytes_beValue m'.toList
  rw [Vector.length_toList] at hm hm'
  rw [h, hm'] at hm
  exact Vector.toList_inj.mp (List.reverse_inj.mp hm.symm)

/-- A byte that is shifted in below an address of at most seven bytes. -/
theorem toNat_shiftIn {acc : UInt64} (h : acc.toNat < 2 ^ 56) (b : UInt8) :
    ((acc <<< 8) ||| b.toUInt64).toNat = acc.toNat * 256 + b.toNat := by
  have hb := b.toNat_lt
  have hshift : (acc <<< 8).toNat = 2 ^ 8 * acc.toNat := by
    rw [UInt64.toNat_shiftLeft]
    simp only [UInt64.reduceToNat, Nat.reduceMod, Nat.shiftLeft_eq]
    omega
  rw [UInt64.toNat_or, hshift, UInt8.toNat_toUInt64, ← Nat.two_pow_add_eq_or_of_lt hb]
  omega

/-- The fold over groups that are numbers. -/
theorem toNat_foldl_address {groups : List (List Char)} {bytes : List UInt8}
    (h : groups.map fromStrRadix16 = bytes.map some) {acc : UInt64} (hlen : bytes.length ≤ 8)
    (hacc : acc.toNat < 256 ^ (8 - bytes.length)) :
    (groups.foldl (fun (acc : UInt64) part =>
        (acc <<< 8) ||| ((fromStrRadix16 part).getD 0).toUInt64) acc).toNat =
      bytes.foldl (fun acc b => acc * 256 + b.toNat) acc.toNat := by
  induction groups generalizing bytes acc with
  | nil =>
      obtain rfl : bytes = [] := List.map_eq_nil_iff.mp h.symm
      rfl
  | cons g groups ih =>
      cases bytes with
      | nil => simp at h
      | cons b bytes =>
          obtain ⟨hb, hlater⟩ := List.cons.inj h
          rw [List.length_cons] at hlen hacc
          have hword : 256 ^ (8 - (bytes.length + 1)) ≤ 256 ^ 7 :=
            Nat.pow_le_pow_right (by decide) (by omega)
          have hstep : ((acc <<< 8) ||| b.toUInt64).toNat = acc.toNat * 256 + b.toNat :=
            toNat_shiftIn (by omega) b
          have hnext : ((acc <<< 8) ||| b.toUInt64).toNat < 256 ^ (8 - bytes.length) := by
            have hpow : 256 ^ (8 - bytes.length) = 256 ^ (8 - (bytes.length + 1)) * 256 := by
              rw [← Nat.pow_succ]
              congr 1
              omega
            have hlt := b.toNat_lt
            rw [hstep, hpow]
            omega
          have htail := ih hlater (by omega) hnext
          rw [List.foldl_cons, List.foldl_cons, hb, Option.getD_some, htail, hstep]

/-- The two parsers agree on the text that `parse_mac` accepts. -/
theorem toNat_parseBleAddress {s : String} {m : Vector UInt8 6} (h : parseMac s = .ok m) :
    (parseBleAddress s).toNat = macValue m := by
  have hlen : m.toList.length = 6 := Vector.length_toList
  have hzero : (0 : UInt64).toNat < 256 ^ (8 - m.toList.length) := by
    rw [hlen]
    decide
  rw [macValue_eq_beValue]
  exact toNat_foldl_address (parseMac_eq_ok_iff.mp h) (by omega) hzero

/-! ## Advertisements -/

section

variable {V : Type} [Variant V]

/-- If the device has an advertisement, `parse_mac` accepts its address, and both
forms of the advertisement have that address. -/
def TrueAddress (props : Props V) : Prop :=
  ∀ address adv, addressOf props = some address → buildAdvertisement props = .ok (some adv) →
    ∃ m, parseMac address = .ok m ∧ adv.legacy.address.toNat = macValue m ∧
      adv.raw.address.toNat = macValue m

/-- Two devices whose advertisements have the same address have the same MAC
address. -/
def SharedOnlyBySame (props props' : Props V) : Prop :=
  ∀ address address' adv adv', addressOf props = some address →
    addressOf props' = some address' → buildAdvertisement props = .ok (some adv) →
    buildAdvertisement props' = .ok (some adv') →
    adv.legacy.address = adv'.legacy.address ∨ adv.raw.address = adv'.raw.address →
    ∃ m, parseMac address = .ok m ∧ parseMac address' = .ok m

/-- The address of the device reads as six bytes, or the device has no
advertisement since a UUID string of it is split. -/
def AddressReads (props : Props V) : Prop :=
  ∀ address, addressOf props = some address →
    (∃ groups, SixGroups IsByteGroup address groups) ∨
      ∃ uuidStr ∈ uuidStrings props, SplitsUuid uuidStr

theorem addressReads_of_trueAddress {props : Props V} (h : TrueAddress props) :
    AddressReads props := by
  intro address haddr
  cases hraw : buildRawAdvertisementData props with
  | ok out =>
      obtain ⟨adv, hadv, -⟩ := buildAdvertisement_of_raw haddr hraw
      obtain ⟨m, hm, -⟩ := h address adv haddr hadv
      exact .inl ((parseMac_returns_iff address).mp ⟨m, hm⟩)
  | error p =>
      right
      have hnot := mt (buildRawAdvertisementData_returns_iff props).mpr (by simp [hraw])
      simpa using hnot

theorem trueAddress_of_addressReads {props : Props V} (h : AddressReads props) :
    TrueAddress props := by
  intro address adv haddr hadv
  cases hraw : buildRawAdvertisementData props with
  | error p =>
      rw [buildAdvertisement_of_panic haddr hraw] at hadv
      contradiction
  | ok out =>
      have hreturns := (buildRawAdvertisementData_iff props out).mp hraw
      have hsafe := (uuidsReturn_iff props).mp hreturns.1
      obtain ⟨adv', hadv', hlegacy, hrawAddr, -⟩ := buildAdvertisement_of_raw haddr hraw
      rw [hadv] at hadv'
      obtain rfl : adv = adv' := by simpa using hadv'
      cases h address haddr with
      | inl hgroups =>
          obtain ⟨m, hm⟩ := (parseMac_returns_iff address).mpr hgroups
          rw [hlegacy, hrawAddr]
          exact ⟨m, hm, toNat_parseBleAddress hm, toNat_parseBleAddress hm⟩
      | inr hsplit =>
          obtain ⟨uuidStr, hmem, hsplits⟩ := hsplit
          exact absurd hsplits (hsafe uuidStr hmem)

/-- Devices with true addresses share one only if they share the MAC address. -/
theorem TrueAddress.shared {props props' : Props V} (h : TrueAddress props)
    (h' : TrueAddress props') : SharedOnlyBySame props props' := by
  intro address address' adv adv' haddr haddr' hadv hadv' hsame
  obtain ⟨m, hm, hlegacy, hraw⟩ := h address adv haddr hadv
  obtain ⟨m', hm', hlegacy', hraw'⟩ := h' address' adv' haddr' hadv'
  have hvalue : macValue m = macValue m' := by
    cases hsame with
    | inl hsame => rw [← hlegacy, ← hlegacy', hsame]
    | inr hsame => rw [← hraw, ← hraw', hsame]
  rw [← macValue_inj hvalue] at hm'
  exact ⟨m, hm, hm'⟩

/-- **True addresses**: a device is forwarded under its own address exactly when
the text of the address reads as six bytes, or nothing is forwarded; and such
devices do not share addresses. -/
theorem trueAddress_iff (props : Props V) :
    (TrueAddress props ↔ AddressReads props) ∧
      ∀ props' : Props V, AddressReads props → AddressReads props' →
        SharedOnlyBySame props props' := by
  refine ⟨⟨addressReads_of_trueAddress, trueAddress_of_addressReads⟩, ?_⟩
  intro props' h h'
  exact (trueAddress_of_addressReads h).shared (trueAddress_of_addressReads h')

end

/-- A device with an address of two groups. -/
def shortAddress : Props Value := .ofList [("Address", .str "AA:BB")]

/-- It is forwarded under the address `00:00:00:00:AA:BB`. -/
theorem not_trueAddress_short : ¬ TrueAddress shortAddress := by
  intro h
  have hraw : buildRawAdvertisementData shortAddress = .ok AdBuf.empty := by rfl
  have haddr : addressOf shortAddress = some "AA:BB" := by rfl
  obtain ⟨adv, hadv, -⟩ := buildAdvertisement_of_raw haddr hraw
  obtain ⟨m, hm, -⟩ := h "AA:BB" adv haddr hadv
  have hcount := congrArg List.length (parseMac_eq_ok_iff.mp hm)
  have htwo : ("AA:BB".toList.splitOn ':').length = 2 := by decide +kernel
  rw [List.length_map, List.length_map, Vector.length_toList, htwo] at hcount
  exact absurd hcount (by decide)

end LinuxBtProxy
