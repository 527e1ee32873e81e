import LinuxBtProxy.Ble.Address
import LinuxBtProxy.Ble.Agreement
import LinuxBtProxy.Ble.Outputs

/-!
# LinuxBtProxy.Ble.Observed

What is broadcast over the whole life of the supervisor: the advertisements of
the devices that BlueZ reports to its listeners, each once and in order.

* `Shows` — what an advertisement says of the device it was built from;
* `observed` — the events that some listener takes: those of the attempts up to
  the first that does not fail, in each up to the one that ends it;
* `published_runSupervised` — the advertisements of these are what is sent;
* `observed_published` — one for each report of a device with an address, up to
  the one that the task panics on.
-/

namespace LinuxBtProxy

open AdStructure AdItem

/-! ## What is broadcast -/

def Output.advert? : Output → Option BleAdvertisement
  | .broadcast adv => some adv
  | _ => none

def Supervision.advert? : Supervision → Option BleAdvertisement
  | .listener output => output.advert?
  | _ => none

/-- The advertisements among the outputs of the listener. -/
def broadcasts (outputs : List Output) : List BleAdvertisement :=
  outputs.filterMap Output.advert?

/-- The advertisements among what the supervisor does. -/
def published (done : List Supervision) : List BleAdvertisement :=
  done.filterMap Supervision.advert?

/-- What is published is broadcast by a listener. -/
theorem published_eq (done : List Supervision) :
    published done = broadcasts (done.filterMap Supervision.output?) := by
  rw [published, broadcasts, List.filterMap_filterMap]
  refine List.filterMap_congr fun s _ => ?_
  cases s <;> rfl

section

variable {V : Type}

variable [Variant V]

/-! ## The content of an advertisement -/

/-- The advertisement is that of the device.  The legacy form says what the device
does, under its address if that reads as six bytes; the raw form has the same
header, and the items of the device as its data, if no sign stands for a digit of
a UUID. -/
structure Shows (device : Props V) (adv : BleAdvertisement) : Prop where
  address : ∃ text, addressOf device = some text ∧
    ∀ m, parseMac text = .ok m → adv.legacy.address.toNat = macValue m
  legacy : Tells device adv.legacy
  header : adv.raw.address = adv.legacy.address ∧
    adv.raw.addressType = adv.legacy.addressType ∧ adv.raw.rssi = adv.legacy.rssi
  data : (∀ uuidStr ∈ uuidStrings device, ¬ SignedUuid uuidStr) →
    adv.raw.data = (((deviceItems device).map Item.encode).map encode).flatten
  decodes : (∀ uuidStr ∈ uuidStrings device, ¬ SignedUuid uuidStr) →
    (∀ item ∈ deviceItems device, item.encode.2.length ≤ maxPayload) →
    decode adv.raw.data = some (deviceItems device)

theorem shows_of_buildAdvertisement {device : Props V} {adv : BleAdvertisement}
    (h : buildAdvertisement device = .ok (some adv)) : Shows device adv := by
  obtain ⟨htells, hheader⟩ := tells_buildAdvertisement h
  cases haddr : addressOf device with
  | none => simp [buildAdvertisement_of_no_address haddr] at h
  | some text =>
      cases hraw : buildRawAdvertisementData device with
      | error p => simp [buildAdvertisement_of_panic haddr hraw] at h
      | ok out =>
          obtain ⟨adv', hadv, haddress, -, hdata⟩ := buildAdvertisement_of_raw haddr hraw
          obtain rfl : adv = adv' := by simpa [h] using hadv
          have hpushed := ((buildRawAdvertisementData_iff device out).mp hraw).2
          constructor
          · refine ⟨text, haddr, fun m hm => ?_⟩
            rw [haddress, toNat_parseBleAddress hm]
          · exact htells
          · exact hheader
          · intro hsigned
            rw [hdata, out.bytes_eq, hpushed, advertisementAds_eq hsigned]
          · intro hsigned hfit
            rw [advertisementAds_eq hsigned] at hpushed
            rw [hdata]
            refine decode_deviceItems hpushed ?_
            rwa [hpushed, List.forall_mem_map]

/-- The advertisement shows the device that the event reports. -/
def Forwards (e : BusEvent V) (adv : BleAdvertisement) : Prop :=
  ∃ device, e.device = some device ∧ Shows device adv

theorem forwards_of_advert {e : BusEvent V} {adv : BleAdvertisement} (h : e.advert = some adv) :
    Forwards e adv := by
  obtain ⟨device, hdevice, hadvert⟩ := Option.bind_eq_some_iff.mp h
  refine ⟨device, hdevice, shows_of_buildAdvertisement ?_⟩
  unfold advertOf at hadvert
  split at hadvert
  · next hbuild => rw [hbuild, hadvert]
  · contradiction

/-! ## Whole runs -/

theorem broadcasts_tryStartDiscovery (adapterIndex : UInt16) (reply : DiscoveryReply) :
    broadcasts (tryStartDiscovery adapterIndex reply).1 = [] := by
  unfold tryStartDiscovery
  cases reply.proxy <;> cases reply.setDiscoveryFilter <;> rfl

/-- An event broadcasts its own advertisement, if it has one. -/
theorem broadcasts_outputs (adapterIndex : UInt16) (e : BusEvent V) :
    broadcasts (e.outputs adapterIndex) = e.advert.toList := by
  rw [outputs_eq]
  cases hoff : e.off with
  | some reply =>
      rw [BusEvent.advert, device_eq_none_of_off hoff, Option.elim_some]
      exact broadcasts_tryStartDiscovery adapterIndex reply
  | none => cases e.advert <;> rfl

theorem broadcasts_attempt (adapterIndex : UInt16) (a : Attempt V) :
    broadcasts (a.run adapterIndex).1 = (a.taken adapterIndex).filterMap BusEvent.advert := by
  have hstartup : broadcasts (a.startup adapterIndex) = [] := by
    unfold Attempt.startup
    cases a.setup.streams with
    | error e => rfl
    | ok u => exact broadcasts_tryStartDiscovery adapterIndex a.setup.discovery
  have hevents : ∀ events : List (BusEvent V),
      broadcasts (events.flatMap (·.outputs adapterIndex)) = events.filterMap BusEvent.advert := by
    intro events
    rw [broadcasts, List.filterMap_flatMap, List.filterMap_eq_flatMap_toList]
    exact congrArg (events.flatMap ·) (funext (broadcasts_outputs adapterIndex))
  rw [outputs_attempt, broadcasts, List.filterMap_append]
  show broadcasts _ ++ broadcasts _ = _
  rw [hstartup, hevents, List.nil_append]

/-- The events that the listeners of the supervisor take. -/
def observed (adapterIndex : UInt16) (attempts : List (Attempt V)) : List (BusEvent V) :=
  (made adapterIndex attempts).flatMap (·.taken adapterIndex)

/-- What is sent in the life of the supervisor are the advertisements of the
events that its listeners take, across their failures. -/
theorem published_runSupervised (adapterIndex : UInt16) (attempts : List (Attempt V)) :
    published (runSupervised adapterIndex attempts).1.done =
      (observed adapterIndex attempts).filterMap BusEvent.advert := by
  rw [published_eq, outputs_runSupervised, broadcasts, List.filterMap_flatMap, observed,
    List.filterMap_flatMap]
  exact congrArg (List.flatMap · _) (funext (broadcasts_attempt adapterIndex))

/-! ## One advertisement for each report -/

/-- The event reports a device that has an address. -/
def BusEvent.reports (e : BusEvent V) : Bool := (e.device.bind addressOf).isSome

/-- An event that does not crash has an advertisement when it reports a device with
an address. -/
theorem advert_isSome_of_not_crashes {e : BusEvent V} (h : ¬ e.Crashes) :
    e.advert.isSome = e.reports := by
  rw [BusEvent.crashes_iff] at h
  unfold BusEvent.advert BusEvent.reports
  cases hdevice : e.device with
  | none => rfl
  | some device =>
      rw [Option.bind_some, Option.bind_some, advertOf]
      cases haddr : addressOf device with
      | none =>
          rw [buildAdvertisement_of_no_address haddr]
          rfl
      | some text =>
          cases hraw : buildRawAdvertisementData device with
          | error p => exact absurd ⟨device, p, hdevice, buildAdvertisement_of_panic haddr hraw⟩ h
          | ok out =>
              obtain ⟨adv, hadv, -⟩ := buildAdvertisement_of_raw haddr hraw
              rw [hadv]
              rfl

/-- Events that do not crash have one advertisement for each report. -/
theorem forwards_of_not_crashes {events : List (BusEvent V)} (h : ∀ e ∈ events, ¬ e.Crashes) :
    List.Forall₂ Forwards (events.filter BusEvent.reports) (events.filterMap BusEvent.advert) := by
  induction events with
  | nil => exact .nil
  | cons e events ih =>
      obtain ⟨he, hlater⟩ := List.forall_mem_cons.mp h
      have hreports := advert_isSome_of_not_crashes he
      cases hadvert : e.advert with
      | none =>
          rw [List.filterMap_cons_none hadvert,
            List.filter_cons_of_neg (by simp [← hreports, hadvert])]
          exact ih hlater
      | some adv =>
          rw [List.filterMap_cons_some hadvert,
            List.filter_cons_of_pos (by simp [← hreports, hadvert])]
          exact .cons (forwards_of_advert hadvert) (ih hlater)

/-- A device that crashes the listener has an address and a UUID string that is
split, and no advertisement. -/
theorem splits_of_crashes {e : BusEvent V} (h : e.Crashes) :
    ∃ device, e.device = some device ∧ addressOf device ≠ none ∧
      (∃ uuidStr ∈ uuidStrings device, SplitsUuid uuidStr) ∧ e.advert = none := by
  obtain ⟨device, p, hdevice, hbuild⟩ := BusEvent.crashes_iff.mp h
  have hnot := mt (buildAdvertisement_returns_iff device).mpr (by simp [hbuild])
  rw [not_or] at hnot
  refine ⟨device, hdevice, hnot.1, by simpa using hnot.2, ?_⟩
  rw [BusEvent.advert, hdevice, Option.bind_some, advertOf, hbuild]

/-- A listener takes nothing behind an event that crashes. -/
theorem taken_of_crashes {adapterIndex : UInt16} {a : Attempt V} {e : BusEvent V}
    (he : e ∈ a.taken adapterIndex) (h : e.Crashes) :
    ∃ before, a.taken adapterIndex = before ++ [e] ∧ ∀ x ∈ before, ¬ x.Crashes := by
  have hstop : e.passes adapterIndex = false := by simp [BusEvent.passes, h]
  unfold Attempt.taken at he ⊢
  split at he
  · next hstarts =>
      obtain ⟨before, -, -, hbefore, htaken, -⟩ := Reactive.taken_of_stop he hstop
      refine ⟨before, by rw [if_pos hstarts, htaken], fun x hx => ?_⟩
      have hpasses := hbefore x hx
      rw [BusEvent.passes, decide_eq_true_eq] at hpasses
      exact hpasses.2
  · exact absurd he List.not_mem_nil

/-- An attempt that takes an event that crashes is the last one, and the task ends
with a panic. -/
theorem made_of_crashes {adapterIndex : UInt16} {attempts : List (Attempt V)} {a : Attempt V}
    (ha : a ∈ made adapterIndex attempts) (h : ∃ e ∈ a.taken adapterIndex, e.Crashes) :
    ∃ earlier, made adapterIndex attempts = earlier ++ [a] ∧
      (∀ b ∈ earlier, ∀ e ∈ b.taken adapterIndex, ¬ e.Crashes) ∧
      ∃ p, (runSupervised adapterIndex attempts).2 = some (.panic p) := by
  obtain ⟨p, hpanic⟩ := (exists_panic_iff adapterIndex a).mpr h
  have hfailed : a.failed adapterIndex = false := by rw [Attempt.failed, hpanic]
  have hexit : a.exit adapterIndex = .panic p := by rw [Attempt.exit, hpanic]
  rw [made_eq] at ha ⊢
  obtain ⟨earlier, later, -, hearlier, hattempts, hdrop⟩ := Reactive.taken_of_stop ha hfailed
  refine ⟨earlier, hattempts, fun b hb e he hcrash => ?_, p, ?_⟩
  · obtain ⟨q, hq⟩ := (exists_panic_iff adapterIndex b).mpr ⟨e, he, hcrash⟩
    have hb := hearlier b hb
    rw [Attempt.failed, hq] at hb
    contradiction
  · rw [exit_runSupervised, hdrop, List.head?_cons, Option.map_some, hexit]

/-- An event that crashes is the last one that is observed. -/
theorem observed_of_crashes {adapterIndex : UInt16} {attempts : List (Attempt V)} {e : BusEvent V}
    (he : e ∈ observed adapterIndex attempts) (h : e.Crashes) :
    ∃ before, observed adapterIndex attempts = before ++ [e] ∧ (∀ x ∈ before, ¬ x.Crashes) ∧
      ∃ p, (runSupervised adapterIndex attempts).2 = some (.panic p) := by
  obtain ⟨a, ha, hea⟩ := List.mem_flatMap.mp he
  obtain ⟨earlier, hmade, hearlier, hpanic⟩ := made_of_crashes ha ⟨e, hea, h⟩
  obtain ⟨before, htaken, hbefore⟩ := taken_of_crashes hea h
  refine ⟨earlier.flatMap (·.taken adapterIndex) ++ before, ?_, ?_, hpanic⟩
  · rw [observed, hmade, List.flatMap_append, List.flatMap_singleton, htaken, List.append_assoc]
  · rw [List.forall_mem_append, List.forall_mem_flatMap]
    exact ⟨hearlier, hbefore⟩

/-- **Every device or silence**: each device with an address that BlueZ reports to
a listener is broadcast, one advertisement for each report and in their order,
unless the task of the supervisor has panicked on the last report, of a device with
a UUID string that is split; then this is so of all the others. -/
theorem observed_published (adapterIndex : UInt16) (attempts : List (Attempt V)) :
    List.Forall₂ Forwards ((observed adapterIndex attempts).filter BusEvent.reports)
        (published (runSupervised adapterIndex attempts).1.done) ∨
      ∃ before e device, observed adapterIndex attempts = before ++ [e] ∧
        List.Forall₂ Forwards (before.filter BusEvent.reports)
          (published (runSupervised adapterIndex attempts).1.done) ∧
        e.device = some device ∧ addressOf device ≠ none ∧
        (∃ uuidStr ∈ uuidStrings device, SplitsUuid uuidStr) ∧
        ∃ p, (runSupervised adapterIndex attempts).2 = some (.panic p) := by
  rw [published_runSupervised]
  by_cases hcrash : ∃ e ∈ observed adapterIndex attempts, e.Crashes
  · right
    obtain ⟨e, he, hcrash⟩ := hcrash
    obtain ⟨before, hobserved, hbefore, hpanic⟩ := observed_of_crashes he hcrash
    obtain ⟨device, hdevice, haddress, hsplits, hnone⟩ := splits_of_crashes hcrash
    refine ⟨before, e, device, hobserved, ?_, hdevice, haddress, hsplits, hpanic⟩
    have hlast : [e].filterMap BusEvent.advert = [] := List.filterMap_cons_none hnone
    rw [hobserved, List.filterMap_append, hlast, List.append_nil]
    exact forwards_of_not_crashes hbefore
  · left
    exact forwards_of_not_crashes fun e he hcrashes => hcrash ⟨e, he, hcrashes⟩

end

/-- Every call of the setup succeeds. -/
def Setup.success : Setup where
  connection := .ok ()
  adapterStream := .ok ()
  propsStream := .ok ()
  ifaceStream := .ok ()
  discovery := .success

/-- BlueZ adds a device. -/
def deviceAdded (device : Props Value) : BusEvent Value :=
  .iface
    (some (.ok
      { path := some "/"
        interface := "org.freedesktop.DBus.ObjectManager"
        member := "InterfacesAdded"
        body := .interfacesAdded "/org/bluez/hci0/dev" fun interface =>
          if interface == "org.bluez.Device1" then some device else none }))

/-- There is no bus. -/
def noBus : Attempt Value where
  setup := { Setup.success with connection := .error .other }
  events := []
  ranFor := .fromSecs 0

/-- A device is added. -/
def oneDevice : Attempt Value where
  setup := .success
  events := [deviceAdded sampleProps]
  ranFor := .fromSecs 5

def sampleAttempts : List (Attempt Value) := [noBus, oneDevice]

theorem observed_sampleAttempts : observed 0 sampleAttempts = [deviceAdded sampleProps] := by
  have hpasses : (deviceAdded sampleProps).passes 0 = true := by decide +kernel
  have hfails : oneDevice.fails 0 = false := by decide +kernel
  have htaken : oneDevice.taken 0 = [deviceAdded sampleProps] := by
    show Reactive.taken (·.passes 0) [deviceAdded sampleProps] = _
    rw [Reactive.taken_cons, hpasses]
    rfl
  rw [observed, made, sampleAttempts, Reactive.taken_cons, Reactive.taken_cons, hfails]
  show noBus.taken 0 ++ (oneDevice.taken 0 ++ []) = _
  rw [htaken]
  rfl

end LinuxBtProxy
