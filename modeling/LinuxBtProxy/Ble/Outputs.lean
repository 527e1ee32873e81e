import Mathlib.Data.List.Basic
import LinuxBtProxy.Ble.Supervised

/-!
# LinuxBtProxy.Ble.Outputs

What the listener does in a whole run, as the outputs of its startup and of the
events it takes, one after the other.

* `BusEvent.off` and `BusEvent.device` — the two kinds of events that lead to
  something, and what (`listenerStep_of_off`, `listenerStep_of_device`);
* `BusEvent.outputs` — what an event leads to, whatever was done before it
  (`listenerStep_eq_append`);
* `DiscoveryReply.granted` — the replies with which discovery is started;
* `Attempt.taken` — the events that the listener takes in an attempt, up to the
  first that fails or crashes;
* `Attempt.fails` — the attempts that fail, told from their replies and events
  (`failed_eq_fails`);
* `outputs_attempt` — the outputs of an attempt;
* `made` — the attempts of the supervisor, and `outputs_runSupervised`, what they
  do.
-/

namespace LinuxBtProxy

section

variable {V : Type}

/-! ## One event -/

theorem restartDiscovery_fst (adapterIndex : UInt16) (reply : DiscoveryReply)
    (outputs : List Output) :
    (restartDiscovery adapterIndex reply outputs).1 =
      outputs ++ (tryStartDiscovery adapterIndex reply).1 := by
  unfold restartDiscovery
  rcases tryStartDiscovery adapterIndex reply with ⟨calls, e | u⟩ <;> rfl

/-- The device that the event reports, with its properties. -/
def BusEvent.device : BusEvent V → Option (Props V)
  | .props (some (.ok msg)) (.ok device) => if msg.path.isSome then some device else none
  | .iface (some (.ok msg)) =>
      match msg.body with
      | .interfacesAdded _ interfaces => interfaces "org.bluez.Device1"
      | _ => none
  | _ => none

variable [Variant V]

/-- The event reports that the discovery of an adapter was turned off; the
replies to starting it again. -/
def BusEvent.off : BusEvent V → Option DiscoveryReply
  | .adapter (some (.ok msg)) reply =>
      match msg.body with
      | .propertiesChanged interface changed _ =>
          if interface == "org.bluez.Adapter1" &&
              (changed "Discovering").bind Variant.downcastRefBool == some false then some reply
          else none
      | _ => none
  | _ => none

theorem sendAdvertisement_fst (props : Props V) (outputs : List Output) :
    (sendAdvertisement props outputs).1 = outputs ++ (sendAdvertisement props []).1 := by
  unfold sendAdvertisement
  rcases buildAdvertisement props with p | (_ | adv) <;> simp

/-- The advertisement of a device, if one is built. -/
def advertOf (props : Props V) : Option BleAdvertisement :=
  match buildAdvertisement props with
  | .ok adv => adv
  | .error _ => none

/-- The advertisement of the device that the event reports. -/
def BusEvent.advert (e : BusEvent V) : Option BleAdvertisement := e.device.bind advertOf

section Step

variable {e : BusEvent V} (adapterIndex : UInt16) (outputs : List Output)

/-- An event that reports that discovery is off leads to the discovery calls. -/
theorem listenerStep_of_off {reply : DiscoveryReply} (h : e.off = some reply) :
    listenerStep adapterIndex outputs e = restartDiscovery adapterIndex reply outputs := by
  unfold BusEvent.off at h
  split at h
  · next msg reply' =>
      split at h
      · next interface changed invalidated hbody =>
          split at h
          · next hoff =>
              obtain rfl := Option.some.inj h
              obtain ⟨hinterface, hvalue⟩ := Bool.and_eq_true_iff.mp hoff
              simp only [beq_iff_eq] at hinterface hvalue
              simp [listenerStep, onAdapter, hbody, hinterface, hvalue]
          · contradiction
      · contradiction
  · contradiction

omit adapterIndex outputs in
theorem device_eq_none_of_off {reply : DiscoveryReply} (h : e.off = some reply) :
    e.device = none := by
  cases e with
  | adapter next reply => rfl
  | props next reply => exact absurd h (by simp [BusEvent.off])
  | iface next => exact absurd h (by simp [BusEvent.off])

/-- An event that reports a device leads to its advertisement. -/
theorem listenerStep_of_device {device : Props V} (h : e.device = some device) :
    listenerStep adapterIndex outputs e = sendAdvertisement device outputs := by
  unfold BusEvent.device at h
  split at h
  · next msg device' =>
      split at h
      · next hpath =>
          obtain rfl := Option.some.inj h
          obtain ⟨path, hpath⟩ := Option.isSome_iff_exists.mp hpath
          simp only [listenerStep, onProps, hpath]
      · contradiction
  · next msg =>
      split at h
      · next path interfaces hbody => simp only [listenerStep, onIface, hbody, h]
      · contradiction
  · contradiction

/-- Other events lead to nothing. -/
theorem listenerStep_of_none (hoff : e.off = none) (hdevice : e.device = none) :
    (listenerStep adapterIndex outputs e).1 = outputs := by
  cases e with
  | adapter next reply =>
      rcases next with _ | (_ | msg)
      · rfl
      · rfl
      · unfold BusEvent.off at hoff
        cases hbody : msg.body with
        | propertiesChanged interface changed invalidated =>
            simp only [listenerStep, onAdapter, hbody]
            simp only [hbody] at hoff
            by_cases hinterface : interface = "org.bluez.Adapter1"
            · cases hvalue : (changed "Discovering").bind Variant.downcastRefBool with
              | none => simp [hinterface]
              | some isDiscovering =>
                  cases isDiscovering with
                  | false => simp [hinterface, hvalue] at hoff
                  | true => simp [hinterface]
            · simp [hinterface]
        | interfacesAdded path interfaces => simp [listenerStep, onAdapter, hbody]
        | other arg0 => simp [listenerStep, onAdapter, hbody]
  | props next reply =>
      rcases next with _ | (_ | msg)
      · rfl
      · rfl
      · cases reply with
        | error e => cases hpath : msg.path <;> simp [listenerStep, onProps, hpath]
        | ok device =>
            cases hpath : msg.path with
            | none => simp [listenerStep, onProps, hpath]
            | some path => simp [BusEvent.device, hpath] at hdevice
  | iface next =>
      rcases next with _ | (_ | msg)
      · rfl
      · rfl
      · unfold BusEvent.device at hdevice
        cases hbody : msg.body with
        | propertiesChanged interface changed invalidated =>
            simp [listenerStep, onIface, hbody]
        | interfacesAdded path interfaces =>
            simp only [hbody] at hdevice
            simp [listenerStep, onIface, hbody, hdevice]
        | other arg0 => simp [listenerStep, onIface, hbody]

end Step

namespace BusEvent

/-- What the event leads to. -/
def outputs (adapterIndex : UInt16) (e : BusEvent V) : List Output :=
  (listenerStep adapterIndex [] e).1

instance {ε α : Type} (x : Except ε α) : Decidable (∃ e, x = .error e) :=
  match x with
  | .error e => isTrue ⟨e, rfl⟩
  | .ok _ => isFalse nofun

instance (adapterIndex : UInt16) : (e : BusEvent V) → Decidable (e.Fails adapterIndex)
  | .adapter (some (.ok ⟨_, _, _, .propertiesChanged interface changed _⟩)) reply =>
      inferInstanceAs (Decidable (interface = "org.bluez.Adapter1" ∧
        (changed "Discovering").bind Variant.downcastRefBool = some false ∧
        ∃ e, (tryStartDiscovery adapterIndex reply).2 = .error e))
  | .adapter (some (.ok ⟨_, _, _, .interfacesAdded _ _⟩)) _ => isTrue trivial
  | .adapter (some (.ok ⟨_, _, _, .other _⟩)) _ => isTrue trivial
  | .adapter (some (.error _)) _ | .adapter none _ => isFalse id
  | .props (some (.error _)) _ => isTrue trivial
  | .props (some (.ok _)) _ | .props none _ => isFalse id
  | .iface (some (.error _)) => isTrue trivial
  | .iface (some (.ok ⟨_, _, _, .interfacesAdded path interfaces⟩)) =>
      isFalse fun h => h path interfaces rfl
  | .iface (some (.ok ⟨_, _, _, .propertiesChanged _ _ _⟩)) => isTrue nofun
  | .iface (some (.ok ⟨_, _, _, .other _⟩)) => isTrue nofun
  | .iface none => isFalse id

/-- A device whose advertisement is not built. -/
theorem crashes_iff {e : BusEvent V} :
    e.Crashes ↔ ∃ device p, e.device = some device ∧ buildAdvertisement device = .error p := by
  cases e with
  | adapter next reply => simp [Crashes, device]
  | props next reply =>
      rcases next with _ | (_ | msg)
      · simp [Crashes, device]
      · simp [Crashes, device]
      · cases reply with
        | error e => simp [Crashes, device]
        | ok props => cases hpath : msg.path <;> simp [Crashes, device, hpath]
  | iface next =>
      rcases next with _ | (_ | msg)
      · simp [Crashes, device]
      · simp [Crashes, device]
      · cases hbody : msg.body <;> simp [Crashes, device, hbody]

instance (e : BusEvent V) : Decidable e.Crashes :=
  match h : e.device with
  | none => isFalse fun hcrash => by simp [crashes_iff, h] at hcrash
  | some device =>
      decidable_of_iff (∃ p, buildAdvertisement device = .error p) (by simp [crashes_iff, h])

/-- The event neither fails nor crashes. -/
def passes (adapterIndex : UInt16) (e : BusEvent V) : Bool :=
  decide (¬ e.Fails adapterIndex ∧ ¬ e.Crashes)

end BusEvent

/-- What was done before an event stays, and does not change what it leads to. -/
theorem listenerStep_eq_append (adapterIndex : UInt16) (outputs : List Output)
    (e : BusEvent V) :
    (listenerStep adapterIndex outputs e).1 = outputs ++ e.outputs adapterIndex := by
  unfold BusEvent.outputs
  cases hoff : e.off with
  | some reply =>
      rw [listenerStep_of_off _ _ hoff, listenerStep_of_off _ _ hoff, restartDiscovery_fst,
        restartDiscovery_fst, List.nil_append]
  | none =>
      cases hdevice : e.device with
      | some device =>
          rw [listenerStep_of_device _ _ hdevice, listenerStep_of_device _ _ hdevice]
          exact sendAdvertisement_fst device outputs
      | none =>
          rw [listenerStep_of_none _ _ hoff hdevice, listenerStep_of_none _ _ hoff hdevice,
            List.append_nil]

/-- An event leads to the calls that start discovery again, or to its
advertisement. -/
theorem outputs_eq (adapterIndex : UInt16) (e : BusEvent V) :
    e.outputs adapterIndex =
      e.off.elim (e.advert.toList.map .broadcast)
        fun reply => (tryStartDiscovery adapterIndex reply).1 := by
  unfold BusEvent.outputs BusEvent.advert
  cases hoff : e.off with
  | some reply => rw [listenerStep_of_off _ _ hoff, restartDiscovery_fst]; rfl
  | none =>
      cases hdevice : e.device with
      | some device =>
          rw [listenerStep_of_device _ _ hdevice, Option.bind_some]
          unfold sendAdvertisement advertOf
          rcases buildAdvertisement device with p | (_ | adv) <;> rfl
      | none => rw [listenerStep_of_none _ _ hoff hdevice]; rfl

theorem listenerStep_eq_none_iff_passes (adapterIndex : UInt16) (outputs : List Output)
    (e : BusEvent V) :
    (listenerStep adapterIndex outputs e).2 = none ↔ e.passes adapterIndex = true := by
  rw [listenerStep_eq_none_iff, BusEvent.passes, decide_eq_true_eq]

/-! ## Discovery -/

namespace DiscoveryReply

/-- `StartDiscovery` is answered with success, or with the error that discovery is
in progress. -/
def started (reply : DiscoveryReply) : Bool :=
  match reply.startDiscovery with
  | .ok () => true
  | .error (.methodError name) => name == "org.bluez.Error.InProgress"
  | .error .other => false

/-- No call on the way to discovery is refused. -/
def granted (reply : DiscoveryReply) : Bool :=
  reply.proxy.isOk && reply.setDiscoveryFilter.isOk && reply.started

end DiscoveryReply

omit [Variant V] in
theorem tryStartDiscovery_ok_iff (adapterIndex : UInt16) (reply : DiscoveryReply) :
    (tryStartDiscovery adapterIndex reply).2 = .ok () ↔ reply.granted = true := by
  unfold tryStartDiscovery DiscoveryReply.granted DiscoveryReply.started
  cases reply.proxy with
  | error e => simp [Except.isOk, Except.toBool]
  | ok u =>
      cases reply.setDiscoveryFilter with
      | error e => simp [Except.isOk, Except.toBool]
      | ok u =>
          rcases reply.startDiscovery with (name | -) | u
          · by_cases h : name = "org.bluez.Error.InProgress" <;>
              simp [h, Except.isOk, Except.toBool]
          · simp [Except.isOk, Except.toBool]
          · simp [Except.isOk, Except.toBool]

/-! ## One attempt -/

namespace Attempt

/-- The streams are there and discovery is started: the listener gets to its
loop. -/
def starts (a : Attempt V) : Bool := a.setup.streams.isOk && a.setup.discovery.granted

/-- The events that the listener takes in this attempt: those up to the first
that fails or crashes. -/
def taken (adapterIndex : UInt16) (a : Attempt V) : List (BusEvent V) :=
  if a.starts then Reactive.taken (·.passes adapterIndex) a.events else []

/-- The listener does not get to its loop, or takes an event that fails. -/
def fails (adapterIndex : UInt16) (a : Attempt V) : Bool :=
  !a.starts || (a.taken adapterIndex).any fun e => decide (e.Fails adapterIndex)

/-- The discovery calls that the listener begins with. -/
def startup (adapterIndex : UInt16) (a : Attempt V) : List Output :=
  match a.setup.streams with
  | .ok () => (tryStartDiscovery adapterIndex a.setup.discovery).1
  | .error _ => []

end Attempt

/-- A listener that does not get to its loop returns an error. -/
theorem run_of_not_starts (adapterIndex : UInt16) {a : Attempt V} (h : a.starts = false) :
    a.run adapterIndex = (a.startup adapterIndex, (a.run adapterIndex).2) ∧
      ∃ e, (a.run adapterIndex).2 = some (.err e) := by
  unfold Attempt.run runBluezAdvertisementListener Attempt.startup
  unfold Attempt.starts at h
  cases hstreams : a.setup.streams with
  | error e => exact ⟨rfl, e, rfl⟩
  | ok u =>
      have hgranted : ¬ a.setup.discovery.granted = true := by
        simpa [hstreams, Except.isOk, Except.toBool] using h
      rw [← tryStartDiscovery_ok_iff adapterIndex] at hgranted
      unfold runListener restartDiscovery
      rcases htry : tryStartDiscovery adapterIndex a.setup.discovery with ⟨calls, e | u⟩
      · exact ⟨rfl, e, rfl⟩
      · rw [htry] at hgranted
        exact absurd rfl hgranted

/-- A listener that gets to its loop runs over its events. -/
theorem run_of_starts (adapterIndex : UInt16) {a : Attempt V} (h : a.starts = true) :
    a.run adapterIndex =
      Reactive.run (listenerStep adapterIndex) (a.startup adapterIndex) a.events := by
  obtain ⟨hstreams, hgranted⟩ := Bool.and_eq_true_iff.mp h
  have hok := (tryStartDiscovery_ok_iff adapterIndex a.setup.discovery).mpr hgranted
  unfold Attempt.run runBluezAdvertisementListener Attempt.startup
  cases hsetup : a.setup.streams with
  | error e =>
      rw [hsetup] at hstreams
      contradiction
  | ok u =>
      unfold runListener restartDiscovery
      rcases htry : tryStartDiscovery adapterIndex a.setup.discovery with ⟨calls, e | u⟩
      · rw [htry] at hok
        contradiction
      · rfl

/-- An attempt returns an error when it fails. -/
theorem exists_err_iff (adapterIndex : UInt16) (a : Attempt V) :
    (∃ err, (a.run adapterIndex).2 = some (.err err)) ↔ a.fails adapterIndex = true := by
  unfold Attempt.fails Attempt.taken
  cases hstarts : a.starts with
  | false => simp [(run_of_not_starts adapterIndex hstarts).2]
  | true =>
      have hstops : (∃ exit, (Reactive.run (listenerStep adapterIndex) (a.startup adapterIndex)
            a.events).2 = some exit ∧ ∃ err, exit = .err err) ↔
          ∃ e ∈ Reactive.taken (·.passes adapterIndex) a.events, e.Fails adapterIndex :=
        Reactive.run_stop_iff (listenerStep_eq_none_iff_passes adapterIndex)
          (fun outputs e => by simpa using (listenerStep_exit adapterIndex outputs e).1) _ _
      rw [run_of_starts adapterIndex hstarts]
      simpa using hstops

/-- An attempt panics when it takes an event that crashes. -/
theorem exists_panic_iff (adapterIndex : UInt16) (a : Attempt V) :
    (∃ p, (a.run adapterIndex).2 = some (.panic p)) ↔ ∃ e ∈ a.taken adapterIndex, e.Crashes := by
  unfold Attempt.taken
  cases hstarts : a.starts with
  | false =>
      obtain ⟨-, err, herr⟩ := run_of_not_starts adapterIndex hstarts
      simp [herr]
  | true =>
      have hstops : (∃ exit, (Reactive.run (listenerStep adapterIndex) (a.startup adapterIndex)
            a.events).2 = some exit ∧ ∃ p, exit = .panic p) ↔
          ∃ e ∈ Reactive.taken (·.passes adapterIndex) a.events, e.Crashes :=
        Reactive.run_stop_iff (listenerStep_eq_none_iff_passes adapterIndex)
          (fun outputs e => by simpa using (listenerStep_exit adapterIndex outputs e).2) _ _
      rw [run_of_starts adapterIndex hstarts]
      simpa using hstops

theorem failed_eq_fails (adapterIndex : UInt16) (a : Attempt V) :
    a.failed adapterIndex = a.fails adapterIndex := by
  rw [Bool.eq_iff_iff, ← exists_err_iff, Attempt.failed]
  rcases (a.run adapterIndex).2 with _ | (e | p) <;> simp

theorem outputs_attempt (adapterIndex : UInt16) (a : Attempt V) :
    (a.run adapterIndex).1 =
      a.startup adapterIndex ++ (a.taken adapterIndex).flatMap (·.outputs adapterIndex) := by
  unfold Attempt.taken
  cases hstarts : a.starts with
  | false =>
      rw [(run_of_not_starts adapterIndex hstarts).1]
      exact (List.append_nil _).symm
  | true =>
      rw [run_of_starts adapterIndex hstarts]
      exact Reactive.run_collect (listenerStep_eq_none_iff_passes adapterIndex)
        (listenerStep_eq_append adapterIndex) (a.startup adapterIndex) a.events

/-! ## The life of the supervisor -/

def Supervision.output? : Supervision → Option Output
  | .listener output => some output
  | _ => none

theorem filterMap_output_listener (outputs : List Output) :
    (outputs.map Supervision.listener).filterMap Supervision.output? = outputs := by
  rw [List.filterMap_map]
  exact List.filterMap_some

theorem outputs_reports (adapterIndex : UInt16) (past attempts : List (Attempt V)) :
    (reports adapterIndex past attempts).filterMap Supervision.output? =
      attempts.flatMap fun a => (a.run adapterIndex).1 := by
  induction attempts generalizing past with
  | nil => rfl
  | cons a attempts ih =>
      have hreport : (report adapterIndex past a).filterMap Supervision.output? =
          (a.run adapterIndex).1 := by
        rw [report, List.filterMap_append, filterMap_output_listener]
        exact List.append_nil _
      rw [reports, List.filterMap_append, hreport, ih, List.flatMap_cons]

/-- The attempts of the supervisor: up to the first that does not fail. -/
def made (adapterIndex : UInt16) (attempts : List (Attempt V)) : List (Attempt V) :=
  Reactive.taken (·.fails adapterIndex) attempts

theorem made_eq (adapterIndex : UInt16) (attempts : List (Attempt V)) :
    made adapterIndex attempts = Reactive.taken (·.failed adapterIndex) attempts :=
  congrArg (Reactive.taken · attempts)
    (funext fun a => (failed_eq_fails adapterIndex a).symm)

/-- The outputs of the listeners, across their failures. -/
theorem outputs_runSupervised (adapterIndex : UInt16) (attempts : List (Attempt V)) :
    (runSupervised adapterIndex attempts).1.done.filterMap Supervision.output? =
      (made adapterIndex attempts).flatMap fun a => (a.run adapterIndex).1 := by
  have hlast : ∀ last : Option (Attempt V),
      (last.elim [] fun a => (a.run adapterIndex).1.map Supervision.listener).filterMap
          Supervision.output? =
        last.toList.flatMap fun a => (a.run adapterIndex).1 := by
    intro last
    cases last with
    | none => rfl
    | some a =>
        rw [Option.elim_some, filterMap_output_listener, Option.toList_some,
          List.flatMap_singleton]
  rw [done_runSupervised, List.filterMap_append, outputs_reports, hlast, ← List.flatMap_append,
    made_eq]
  rfl

end

end LinuxBtProxy
