import LinuxBtProxy.Ble

/-!
# LinuxBtProxy.Ble.Isolation

Which signals of other adapters the listener lets through.

No match rule has a path and no branch of the loop looks at one, so a signal of
another adapter is handled like one of the configured adapter.  `Inert` lists
the signals that do nothing anyway; `isolated_iff` says that the listener is
isolated from other adapters exactly as far as their signals are inert: one that
is not is either seen in the outputs or ends the listener, and then what a later
signal of its own adapter leads to is missing.
-/

namespace LinuxBtProxy

/-! ## Objects of an adapter -/

/-- The object is the adapter or is under it. -/
def ownPath (adapterIndex : UInt16) (path : String) : Bool :=
  path == adapterPath adapterIndex ||
    (adapterPath adapterIndex ++ "/").toList.isPrefixOf path.toList

section

variable {V : Type}

/-- The object a signal is about: the one that sent it, or the one that was
added. -/
def BusEvent.object : BusEvent V → Option String
  | .adapter (some (.ok msg)) _ => msg.path
  | .props (some (.ok msg)) _ => msg.path
  | .iface (some (.ok msg)) =>
      match msg.body with
      | .interfacesAdded path _ => some path
      | _ => none
  | _ => none

/-- The event is not a signal about an object of another adapter. -/
def BusEvent.own (adapterIndex : UInt16) (e : BusEvent V) : Bool :=
  e.object.all (ownPath adapterIndex)

/-- The signal is one that the rule of its stream admits. -/
def BusEvent.delivered : BusEvent V → Bool
  | .adapter (some (.ok msg)) _ => adapterRule.admits msg
  | .props (some (.ok msg)) _ => propsRule.admits msg
  | .iface (some (.ok msg)) => ifaceRule.admits msg
  | _ => true

variable [Variant V]

/-- The properties have no address that is a string. -/
def NoAddress (props : Props V) : Prop :=
  (props "Address").bind Variant.downcastRefString = none

/-- A signal that the listener does nothing about: a change of an adapter that
does not stop its discovery, a change of a device that has no address or cannot
be asked for it, an added object that is no device with an address. -/
def Inert : BusEvent V → Prop
  | .adapter (some (.ok msg)) _ =>
      match msg.body with
      | .propertiesChanged interface changed _ =>
          interface = "org.bluez.Adapter1" →
            (changed "Discovering").bind Variant.downcastRefBool ≠ some false
      | _ => False
  | .adapter _ _ => True
  | .props (some (.ok msg)) reply =>
      msg.path ≠ none → ∀ props, reply = .ok props → NoAddress props
  | .props none _ => True
  | .props (some (.error _)) _ => False
  | .iface (some (.ok msg)) =>
      match msg.body with
      | .interfacesAdded _ interfaces =>
          ∀ props, interfaces "org.bluez.Device1" = some props → NoAddress props
      | _ => False
  | .iface none => True
  | .iface (some (.error _)) => False

/-! ## What an inert signal does -/

/-- Restarting discovery calls the adapter, unless it fails. -/
theorem restartDiscovery_ne (adapterIndex : UInt16) (reply : DiscoveryReply)
    (outputs : List Output) :
    restartDiscovery adapterIndex reply outputs ≠ (outputs, none) := by
  unfold restartDiscovery tryStartDiscovery
  dsimp only
  cases reply.proxy with
  | error e => simp
  | ok u =>
      cases reply.setDiscoveryFilter with
      | error e => simp
      | ok u =>
          dsimp only
          split
          · next calls heq =>
              obtain ⟨rfl, -⟩ := Prod.mk.inj heq
              simp
          · next heq => simp

theorem sendAdvertisement_eq_iff (props : Props V) (outputs : List Output) :
    sendAdvertisement props outputs = (outputs, none) ↔ NoAddress props := by
  have haddress : NoAddress props ↔ addressOf props = none := Iff.rfl
  rw [haddress]
  unfold sendAdvertisement
  cases haddr : addressOf props with
  | none => simp [buildAdvertisement_of_no_address haddr]
  | some address =>
      cases hraw : buildRawAdvertisementData props with
      | error p => simp [buildAdvertisement_of_panic haddr hraw]
      | ok out =>
          obtain ⟨adv, hadv, -⟩ := buildAdvertisement_of_raw haddr hraw
          simp [hadv]

theorem onAdapter_eq_iff (adapterIndex : UInt16) (outputs : List Output) (next : Next V)
    (reply : DiscoveryReply) :
    onAdapter adapterIndex next reply outputs = (outputs, none) ↔
      Inert (.adapter next reply) := by
  unfold onAdapter
  cases next with
  | none => simp [Inert]
  | some item =>
      cases item with
      | error e => simp [Inert]
      | ok msg =>
          have hne := restartDiscovery_ne adapterIndex reply outputs
          cases hbody : msg.body with
          | propertiesChanged interface changed invalidated =>
              cases hd : (changed "Discovering").bind Variant.downcastRefBool with
              | none => simp [Inert, hbody, hd]
              | some isDiscovering =>
                  cases isDiscovering <;>
                    by_cases hi : interface = "org.bluez.Adapter1" <;>
                      simp [Inert, hbody, hd, hi, hne]
          | interfacesAdded path interfaces => simp [Inert, hbody]
          | other arg0 => simp [Inert, hbody]

theorem onProps_eq_iff (outputs : List Output) (next : Next V)
    (reply : Except ZbusError (Props V)) :
    onProps next reply outputs = (outputs, none) ↔ Inert (.props next reply) := by
  unfold onProps
  cases next with
  | none => simp [Inert]
  | some item =>
      cases item with
      | error e => simp [Inert]
      | ok msg =>
          cases hpath : msg.path with
          | none => simp [Inert, hpath]
          | some path =>
              cases reply with
              | error e => simp [Inert, hpath]
              | ok props => simp [Inert, hpath, sendAdvertisement_eq_iff]

theorem onIface_eq_iff (outputs : List Output) (next : Next V) :
    onIface next outputs = (outputs, none) ↔ Inert (.iface next) := by
  unfold onIface
  cases next with
  | none => simp [Inert]
  | some item =>
      cases item with
      | error e => simp [Inert]
      | ok msg =>
          cases hbody : msg.body with
          | propertiesChanged interface changed invalidated => simp [Inert, hbody]
          | interfacesAdded path interfaces =>
              cases hdev : interfaces "org.bluez.Device1" with
              | none => simp [Inert, hbody, hdev]
              | some props => simp [Inert, hbody, hdev, sendAdvertisement_eq_iff]
          | other arg0 => simp [Inert, hbody]

/-- The inert signals are those that change nothing. -/
theorem listenerStep_eq_iff (adapterIndex : UInt16) (outputs : List Output) (e : BusEvent V) :
    listenerStep adapterIndex outputs e = (outputs, none) ↔ Inert e := by
  cases e with
  | adapter next reply => exact onAdapter_eq_iff adapterIndex outputs next reply
  | props next reply => exact onProps_eq_iff outputs next reply
  | iface next => exact onIface_eq_iff outputs next

/-! ## Isolation -/

/-- Runs on events that differ only in inert signals of other adapters are the
same. -/
theorem runListener_eq_of_inert {adapterIndex : UInt16} {es es' : List (BusEvent V)}
    (hown : es.filter (·.own adapterIndex) = es'.filter (·.own adapterIndex))
    (hinert : ∀ e ∈ es ++ es', e.own adapterIndex = false → Inert e) (startup : DiscoveryReply) :
    runListener adapterIndex startup es = runListener adapterIndex startup es' := by
  have hskip : ∀ e ∈ es ++ es', e.own adapterIndex = false →
      ∀ outputs, listenerStep adapterIndex outputs e = (outputs, none) :=
    fun e he hforeign outputs =>
      (listenerStep_eq_iff adapterIndex outputs e).mpr (hinert e he hforeign)
  have hrun : ∀ outputs, Reactive.run (listenerStep adapterIndex) outputs es =
      Reactive.run (listenerStep adapterIndex) outputs es' := by
    intro outputs
    rw [Reactive.run_filter (fun e he => hskip e (List.mem_append_left es' he)), hown,
      ← Reactive.run_filter (fun e he => hskip e (List.mem_append_right es he))]
  unfold runListener
  split
  · exact hrun _
  · rfl

/-- Every call of the startup succeeds. -/
def DiscoveryReply.success : DiscoveryReply where
  proxy := .ok ()
  setDiscoveryFilter := .ok ()
  startDiscovery := .ok ()

/-- The calls that start discovery. -/
def discoveryCalls (adapterIndex : UInt16) : List Output :=
  [.setDiscoveryFilter (adapterPath adapterIndex) true,
    .startDiscovery (adapterPath adapterIndex)]

theorem runListener_success (adapterIndex : UInt16) (events : List (BusEvent V)) :
    runListener adapterIndex .success events =
      Reactive.run (listenerStep adapterIndex) (discoveryCalls adapterIndex) events := rfl

/-- The adapter says that its discovery was turned off, and restarting it
succeeds. -/
def discoveryOff (adapterIndex : UInt16) (off : V) : BusEvent V :=
  .adapter
    (some (.ok
      { path := some (adapterPath adapterIndex)
        interface := "org.freedesktop.DBus.Properties"
        member := "PropertiesChanged"
        body := .propertiesChanged "org.bluez.Adapter1" (.ofList [("Discovering", off)]) [] }))
    .success

omit [Variant V] in
theorem own_discoveryOff (adapterIndex : UInt16) (off : V) :
    (discoveryOff adapterIndex off).own adapterIndex = true := by
  simp [discoveryOff, BusEvent.own, BusEvent.object, ownPath]

omit [Variant V] in
theorem delivered_discoveryOff (adapterIndex : UInt16) (off : V) :
    (discoveryOff adapterIndex off).delivered = true := by
  simp [discoveryOff, BusEvent.delivered, MatchRule.admits, adapterRule, Body.arg0]

theorem listenerStep_discoveryOff (adapterIndex : UInt16) {off : V}
    (hoff : Variant.downcastRefBool off = some false) (outputs : List Output) :
    listenerStep adapterIndex outputs (discoveryOff adapterIndex off) =
      (outputs ++ discoveryCalls adapterIndex, none) := by
  simp [listenerStep, discoveryOff, onAdapter, Props.ofList, hoff, restartDiscovery,
    tryStartDiscovery, DiscoveryReply.success, discoveryCalls]

/-- Runs that differ only in signals about other adapters broadcast the same
advertisements and make the same calls, if these signals are of the kind
`foreign`. -/
def Isolated (adapterIndex : UInt16) (foreign : BusEvent V → Prop) : Prop :=
  ∀ startup (es es' : List (BusEvent V)), (∀ e ∈ es ++ es', e.delivered = true) →
    (∀ e ∈ es ++ es', e.own adapterIndex = false → foreign e) →
    es.filter (·.own adapterIndex) = es'.filter (·.own adapterIndex) →
    (runListener adapterIndex startup es).1 = (runListener adapterIndex startup es').1

/-- The signals of a kind that isolates the listener are inert: else one of them is
seen in the outputs, or in what is missing behind it. -/
theorem inert_of_isolated {adapterIndex : UInt16} {foreign : BusEvent V → Prop} {off : V}
    (hoff : Variant.downcastRefBool off = some false) (h : Isolated adapterIndex foreign)
    {e : BusEvent V} (hdel : e.delivered = true) (hother : e.own adapterIndex = false)
    (hf : foreign e) : Inert e := by
  have hown := own_discoveryOff adapterIndex off
  have hoffdel := delivered_discoveryOff adapterIndex off
  -- the signal alone, against nothing at all
  have halone := h .success [e] [] (by simpa using hdel) (by simpa using fun _ => hf)
    (by simp [hother])
  rw [runListener_success, runListener_success, Reactive.run_nil, Reactive.run_singleton]
    at halone
  -- the signal before one of the listener's own adapter, against that one alone
  have hbefore := h .success [e, discoveryOff adapterIndex off] [discoveryOff adapterIndex off]
    (by simp [hdel, hoffdel]) (by simpa [hown] using fun _ => hf) (by simp [hother, hown])
  rw [runListener_success, runListener_success, Reactive.run_singleton,
    listenerStep_discoveryOff adapterIndex hoff] at hbefore
  cases hstep : listenerStep adapterIndex (discoveryCalls adapterIndex) e with
  | mk outputs exit =>
      rw [hstep] at halone
      dsimp only at halone
      subst halone
      cases exit with
      | none => exact (listenerStep_eq_iff adapterIndex _ e).mp hstep
      | some w =>
          rw [Reactive.run_cons_of_stop hstep] at hbefore
          simp [discoveryCalls] at hbefore

/-- **Isolation from other adapters**: the listener is isolated from the signals
about them that may occur exactly when all of these are inert; and two runs that
differ only in inert signals about them are the same, whatever else may occur.  A
value that is the boolean `false` is one that `zvariant` converts to it. -/
theorem isolated_iff (adapterIndex : UInt16) (foreign : BusEvent V → Prop) (off : V)
    (hoff : Variant.downcastRefBool off = some false) :
    (Isolated adapterIndex foreign ↔
        ∀ e : BusEvent V, e.delivered = true → e.own adapterIndex = false → foreign e →
          Inert e) ∧
      ∀ startup (es es' : List (BusEvent V)),
        es.filter (·.own adapterIndex) = es'.filter (·.own adapterIndex) →
        (∀ e ∈ es ++ es', e.own adapterIndex = false → Inert e) →
        runListener adapterIndex startup es = runListener adapterIndex startup es' := by
  refine ⟨⟨fun h e hdel hother hf => inert_of_isolated hoff h hdel hother hf, ?_⟩,
    fun startup es es' hown hinert => runListener_eq_of_inert hown hinert startup⟩
  intro h startup es es' hdel hforeign hown
  have hinert : ∀ e ∈ es ++ es', e.own adapterIndex = false → Inert e :=
    fun e he hother => h e (hdel e he) hother (hforeign e he hother)
  rw [runListener_eq_of_inert hown hinert startup]

end

/-- Changes of the power of an adapter. -/
def PowerChange (e : BusEvent Value) : Prop :=
  ∃ msg reply powered, e = .adapter (some (.ok msg)) reply ∧
    msg.body = .propertiesChanged "org.bluez.Adapter1" (.ofList [("Powered", .bool powered)]) []

/-- Other adapters may be powered up and down. -/
theorem isolated_powerChange : Isolated 0 PowerChange := by
  refine (isolated_iff 0 PowerChange (.bool false) rfl).1.mpr fun e _ _ hpower => ?_
  obtain ⟨msg, reply, powered, rfl, hbody⟩ := hpower
  have hlookup : Props.ofList [("Powered", Value.bool powered)] "Discovering" = none := rfl
  simp [Inert, hbody, hlookup]

/-- A change of a device of `hci1`, and its properties. -/
def foreignDevice : BusEvent Value :=
  .props
    (some (.ok
      { path := some "/org/bluez/hci1/dev_AA_BB_CC_DD_EE_FF"
        interface := "org.freedesktop.DBus.Properties"
        member := "PropertiesChanged"
        body := .propertiesChanged "org.bluez.Device1" (.ofList [("RSSI", .i16 (-60))]) [] }))
    (.ok (.ofList [("Address", .str "AA:BB:CC:DD:EE:FF"), ("RSSI", .i16 (-60))]))

/-- A device seen by `hci1` is broadcast by the proxy of `hci0`, which without that
signal only starts discovery. -/
theorem not_isolated_foreign_device :
    foreignDevice.delivered = true ∧ foreignDevice.own 0 = false ∧
      (runListener 0 .success [foreignDevice]).1 =
        [.setDiscoveryFilter "/org/bluez/hci0" true, .startDiscovery "/org/bluez/hci0",
          .broadcast
            { legacy := { address := 0xAABBCCDDEEFF, rssi := -60 }
              raw := { address := 0xAABBCCDDEEFF, rssi := -60 } }] ∧
      (runListener 0 .success ([] : List (BusEvent Value))).1 =
        [.setDiscoveryFilter "/org/bluez/hci0" true, .startDiscovery "/org/bluez/hci0"] ∧
      ¬ Isolated (V := Value) 0 fun _ => True := by
  have hdelivered : foreignDevice.delivered = true := by decide +kernel
  have hother : foreignDevice.own 0 = false := by decide +kernel
  have hsent : (runListener 0 .success [foreignDevice]).1 =
      [.setDiscoveryFilter "/org/bluez/hci0" true, .startDiscovery "/org/bluez/hci0",
        .broadcast
          { legacy := { address := 0xAABBCCDDEEFF, rssi := -60 }
            raw := { address := 0xAABBCCDDEEFF, rssi := -60 } }] := by
    decide +kernel
  refine ⟨hdelivered, hother, hsent, by decide +kernel, fun h => ?_⟩
  have hsame := h .success [foreignDevice] [] (by simp [hdelivered]) (by simp) (by simp [hother])
  rw [hsent] at hsame
  simp [runListener_success, discoveryCalls] at hsame

end LinuxBtProxy
