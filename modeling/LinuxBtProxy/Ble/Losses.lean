import LinuxBtProxy.Ble.Isolation

/-!
# LinuxBtProxy.Ble.Losses

When the listener hands the loss of a signal stream back to `run_supervised`.

A stream is lost with an error or with its end.  The properties and interfaces
streams report an error with `?`; their end, and either loss of the adapter
stream, fall through the `if let` and the loop goes on.  `handsBack_iff` says
which sequences of events are affected: those in which such a loss comes up
before anything else has made the listener return.
-/

namespace LinuxBtProxy

section

variable {V : Type}

/-! ## Losses -/

/-- A stream yields an error, or its end. -/
def BusEvent.IsLoss : BusEvent V → Prop
  | .adapter next _ => next = none ∨ ∃ e, next = some (.error e)
  | .props next _ => next = none ∨ ∃ e, next = some (.error e)
  | .iface next => next = none ∨ ∃ e, next = some (.error e)

/-- The losses that the loop passes over. -/
def BusEvent.IsDropped : BusEvent V → Prop
  | .adapter next _ => next = none ∨ ∃ e, next = some (.error e)
  | .props next _ => next = none
  | .iface next => next = none

variable [Variant V]

/-- The event makes the listener return its error: a stream error of the
properties or interfaces stream, a body of another signature, a failed restart
of discovery. -/
def BusEvent.Fails (adapterIndex : UInt16) : BusEvent V → Prop
  | .adapter (some (.ok msg)) reply =>
      match msg.body with
      | .propertiesChanged interface changed _ =>
          interface = "org.bluez.Adapter1" ∧
            (changed "Discovering").bind Variant.downcastRefBool = some false ∧
            ∃ e, (tryStartDiscovery adapterIndex reply).2 = .error e
      | _ => True
  | .props (some (.error _)) _ => True
  | .iface (some (.error _)) => True
  | .iface (some (.ok msg)) => ∀ path interfaces, msg.body ≠ .interfacesAdded path interfaces
  | _ => False

/-- Building the advertisement of the event panics. -/
def BusEvent.Crashes : BusEvent V → Prop
  | .props (some (.ok msg)) (.ok device) =>
      msg.path ≠ none ∧ ∃ p, buildAdvertisement device = .error p
  | .iface (some (.ok msg)) =>
      match msg.body with
      | .interfacesAdded _ interfaces =>
          ∃ device p, interfaces "org.bluez.Device1" = some device ∧
            buildAdvertisement device = .error p
      | _ => False
  | _ => False

/-! ## How an event ends the listener -/

/-- A restart of discovery ends the listener with the error of its call. -/
theorem restartDiscovery_exit (adapterIndex : UInt16) (reply : DiscoveryReply)
    (outputs : List Output) :
    (restartDiscovery adapterIndex reply outputs).2 =
      match (tryStartDiscovery adapterIndex reply).2 with
      | .ok () => none
      | .error e => some (.err e) := by
  unfold restartDiscovery
  rcases tryStartDiscovery adapterIndex reply with ⟨calls, e | u⟩ <;> rfl

/-- A broadcast ends the listener if the advertisement panics. -/
theorem sendAdvertisement_exit (props : Props V) (outputs : List Output) :
    (sendAdvertisement props outputs).2 =
      match buildAdvertisement props with
      | .ok _ => none
      | .error p => some (.panic p) := by
  unfold sendAdvertisement
  rcases buildAdvertisement props with p | (_ | adv) <;> rfl

/-- The two ways to end, for an event with this outcome. -/
def EndsAs (adapterIndex : UInt16) (e : BusEvent V) (exit : Option ListenerExit) : Prop :=
  ((∃ err, exit = some (.err err)) ↔ e.Fails adapterIndex) ∧
    ((∃ p, exit = some (.panic p)) ↔ e.Crashes)

/-- An event of the adapter stream ends the listener only by a refused restart. -/
theorem onAdapter_exit (adapterIndex : UInt16) (next : Next V) (reply : DiscoveryReply)
    (outputs : List Output) :
    EndsAs adapterIndex (.adapter next reply) (onAdapter adapterIndex next reply outputs).2 := by
  rcases next with _ | (_ | msg)
  · simp [EndsAs, BusEvent.Fails, BusEvent.Crashes, onAdapter]
  · simp [EndsAs, BusEvent.Fails, BusEvent.Crashes, onAdapter]
  · cases hbody : msg.body with
    | propertiesChanged interface changed invalidated =>
        cases hd : (changed "Discovering").bind Variant.downcastRefBool with
        | none => simp [EndsAs, BusEvent.Fails, BusEvent.Crashes, onAdapter, hbody, hd]
        | some isDiscovering =>
            have hrestart := restartDiscovery_exit adapterIndex reply outputs
            cases hstart : (tryStartDiscovery adapterIndex reply).2 <;>
              cases isDiscovering <;>
                by_cases hi : interface = "org.bluez.Adapter1" <;>
                  simp [EndsAs, BusEvent.Fails, BusEvent.Crashes, onAdapter, hbody, hd, hi,
                    hrestart, hstart]
    | interfacesAdded path interfaces =>
        simp [EndsAs, BusEvent.Fails, BusEvent.Crashes, onAdapter, hbody]
    | other arg0 => simp [EndsAs, BusEvent.Fails, BusEvent.Crashes, onAdapter, hbody]

/-- An event of the device stream ends the listener by an error or a panic. -/
theorem onProps_exit (adapterIndex : UInt16) (next : Next V) (reply : Except ZbusError (Props V))
    (outputs : List Output) :
    EndsAs adapterIndex (.props next reply) (onProps next reply outputs).2 := by
  rcases next with _ | (_ | msg)
  · simp [EndsAs, BusEvent.Fails, BusEvent.Crashes, onProps]
  · simp [EndsAs, BusEvent.Fails, BusEvent.Crashes, onProps]
  · cases reply with
    | error e =>
        cases hpath : msg.path <;>
          simp [EndsAs, BusEvent.Fails, BusEvent.Crashes, onProps, hpath]
    | ok device =>
        have hsend := sendAdvertisement_exit device outputs
        cases hbuild : buildAdvertisement device <;>
          cases hpath : msg.path <;>
            simp [EndsAs, BusEvent.Fails, BusEvent.Crashes, onProps, hpath, hsend, hbuild]

/-- An event of the manager stream ends the listener by an error or a panic. -/
theorem onIface_exit (adapterIndex : UInt16) (next : Next V) (outputs : List Output) :
    EndsAs adapterIndex (.iface next) (onIface next outputs).2 := by
  rcases next with _ | (_ | msg)
  · simp [EndsAs, BusEvent.Fails, BusEvent.Crashes, onIface]
  · simp [EndsAs, BusEvent.Fails, BusEvent.Crashes, onIface]
  · cases hbody : msg.body with
    | propertiesChanged interface changed invalidated =>
        simp [EndsAs, BusEvent.Fails, BusEvent.Crashes, onIface, hbody]
    | interfacesAdded path interfaces =>
        cases hdev : interfaces "org.bluez.Device1" with
        | none => simp [EndsAs, BusEvent.Fails, BusEvent.Crashes, onIface, hbody, hdev]
        | some device =>
            have hsend := sendAdvertisement_exit device outputs
            cases hbuild : buildAdvertisement device <;>
              simp [EndsAs, BusEvent.Fails, BusEvent.Crashes, onIface, hbody, hdev, hsend, hbuild]
    | other arg0 => simp [EndsAs, BusEvent.Fails, BusEvent.Crashes, onIface, hbody]

/-- An event ends the listener with an error or with a panic, whatever was sent
before it. -/
theorem listenerStep_exit (adapterIndex : UInt16) (outputs : List Output) (e : BusEvent V) :
    EndsAs adapterIndex e (listenerStep adapterIndex outputs e).2 := by
  cases e with
  | adapter next reply => exact onAdapter_exit adapterIndex next reply outputs
  | props next reply => exact onProps_exit adapterIndex next reply outputs
  | iface next => exact onIface_exit adapterIndex next outputs

/-- The listener goes on if the event neither fails nor crashes. -/
theorem listenerStep_eq_none_iff (adapterIndex : UInt16) (outputs : List Output)
    (e : BusEvent V) :
    (listenerStep adapterIndex outputs e).2 = none ↔ ¬ e.Fails adapterIndex ∧ ¬ e.Crashes := by
  obtain ⟨hfails, hcrashes⟩ := listenerStep_exit adapterIndex outputs e
  rw [← hfails, ← hcrashes]
  rcases (listenerStep adapterIndex outputs e).2 with _ | (_ | _) <;> simp

omit [Variant V] in
/-- A loss that is dropped is a loss. -/
theorem BusEvent.IsDropped.isLoss {e : BusEvent V} (h : e.IsDropped) : e.IsLoss := by
  cases e with
  | adapter next reply => exact h
  | props next reply => exact Or.inl h
  | iface next => exact Or.inl h

/-- The listener passes over a loss unless it is an error that it returns. -/
theorem BusEvent.IsLoss.isDropped_or_fails {e : BusEvent V} (h : e.IsLoss)
    (adapterIndex : UInt16) : e.IsDropped ∨ e.Fails adapterIndex := by
  cases e with
  | adapter next reply => exact Or.inl h
  | props next reply =>
      rcases h with rfl | ⟨err, rfl⟩
      · exact Or.inl rfl
      · exact Or.inr trivial
  | iface next =>
      rcases h with rfl | ⟨err, rfl⟩
      · exact Or.inl rfl
      · exact Or.inr trivial

/-- A loss that is dropped is returned to nobody. -/
theorem BusEvent.IsDropped.not_fails {e : BusEvent V} (h : e.IsDropped) (adapterIndex : UInt16) :
    ¬ e.Fails adapterIndex := by
  cases e with
  | adapter next reply =>
      rcases h with rfl | ⟨err, rfl⟩
      · exact id
      · exact id
  | props next reply =>
      obtain rfl : next = none := h
      exact id
  | iface next =>
      obtain rfl : next = none := h
      exact id

/-- A panic is no error. -/
theorem BusEvent.Crashes.not_fails {e : BusEvent V} (h : e.Crashes) (adapterIndex : UInt16) :
    ¬ e.Fails adapterIndex := by
  obtain ⟨hfails, hcrashes⟩ := listenerStep_exit adapterIndex [] e
  obtain ⟨p, hp⟩ := hcrashes.mpr h
  rw [← hfails, hp]
  simp

/-! ## Whole runs -/

/-- Every loss of a stream finds the listener returned with an error, at the
latest on the loss itself. -/
def HandsBack (adapterIndex : UInt16) (startup : DiscoveryReply) (events : List (BusEvent V)) :
    Prop :=
  ∀ before e after, events = before ++ e :: after → e.IsLoss →
    ∃ err, (runListener adapterIndex startup (before ++ [e])).2 = some (.err err)

/-- A loss that is passed over, or a crash with a loss behind it, comes after
an event that made the listener return. -/
def SlipsCovered (adapterIndex : UInt16) (events : List (BusEvent V)) : Prop :=
  ∀ before e after, events = before ++ e :: after → e.IsDropped ∨ e.Crashes →
    (∃ l ∈ e :: after, l.IsLoss) → ∃ f ∈ before, f.Fails adapterIndex

section Run

variable {adapterIndex : UInt16} {outputs : List Output} {events : List (BusEvent V)}

/-- The loop goes on while no event fails or crashes. -/
theorem run_goesOn_iff : (Reactive.run (listenerStep adapterIndex) outputs events).2 = none ↔
    ∀ e ∈ events, ¬ e.Fails adapterIndex ∧ ¬ e.Crashes :=
  Reactive.run_eq_none_iff (listenerStep_eq_none_iff adapterIndex) outputs events

/-- A listener that returned an error did so at an event that fails. -/
theorem exists_fails_of_run {err : ZbusError}
    (h : (Reactive.run (listenerStep adapterIndex) outputs events).2 = some (.err err)) :
    ∃ f ∈ events, f.Fails adapterIndex := by
  obtain ⟨before, f, after, outputs', rfl, -, hstop⟩ := Reactive.exists_of_run_stop h
  have hf := (listenerStep_exit adapterIndex outputs' f).1.mp ⟨err, hstop⟩
  exact ⟨f, by simp, hf⟩

/-- A crash comes before every event that would make the listener return. -/
theorem exists_crash_of_run {p : Panic}
    (h : (Reactive.run (listenerStep adapterIndex) outputs events).2 = some (.panic p)) :
    ∃ before e after, events = before ++ e :: after ∧ e.Crashes ∧
      ∀ f ∈ before, ¬ f.Fails adapterIndex := by
  obtain ⟨before, e, after, outputs', rfl, hrun, hstop⟩ := Reactive.exists_of_run_stop h
  have he := (listenerStep_exit adapterIndex outputs' e).2.mp ⟨p, hstop⟩
  have hbefore := run_goesOn_iff.mp (congrArg Prod.snd hrun)
  exact ⟨before, e, after, rfl, he, fun f hf => (hbefore f hf).1⟩

/-- Where every loss is handed back, each dropped one follows an event that fails.
-/
theorem slipsCovered_of_run
    (h : ∀ before e after, events = before ++ e :: after → e.IsLoss →
      ∃ err, (Reactive.run (listenerStep adapterIndex) outputs (before ++ [e])).2 =
        some (.err err)) :
    SlipsCovered adapterIndex events := by
  intro before e after hevents hslip hloss
  have hnot : ¬ e.Fails adapterIndex := by
    rcases hslip with hdropped | hcrash
    · exact hdropped.not_fails adapterIndex
    · exact hcrash.not_fails adapterIndex
  cases hrun : (Reactive.run (listenerStep adapterIndex) outputs (before ++ [e])).2 with
  | none =>
      have hgo := run_goesOn_iff.mp hrun e (by simp)
      rcases hslip with hdropped | hcrash
      · obtain ⟨err, herr⟩ := h before e after hevents hdropped.isLoss
        rw [hrun] at herr
        contradiction
      · exact absurd hcrash hgo.2
  | some exit =>
      cases exit with
      | err err =>
          obtain ⟨f, hmem, hf⟩ := exists_fails_of_run hrun
          rw [List.mem_append, List.mem_singleton] at hmem
          rcases hmem with hmem | rfl
          · exact ⟨f, hmem, hf⟩
          · exact absurd hf hnot
      | panic p =>
          -- the crash is what a later loss finds
          obtain ⟨l, hl, hloss⟩ := hloss
          obtain ⟨mid, post, hsplit⟩ := List.append_of_mem hl
          have hreach : ∃ more, before ++ mid ++ [l] = before ++ [e] ++ more := by
            cases mid with
            | nil =>
                obtain ⟨rfl, -⟩ := List.cons.inj hsplit
                exact ⟨[], by simp⟩
            | cons m mid =>
                obtain ⟨rfl, -⟩ := List.cons.inj hsplit
                exact ⟨mid ++ [l], by simp⟩
          obtain ⟨more, hmore⟩ := hreach
          obtain ⟨err, herr⟩ := h (before ++ mid) l post (by rw [hevents, hsplit]; simp) hloss
          rw [hmore, Reactive.run_append_of_stop hrun, hrun] at herr
          simp at herr

/-- A loss behind an event that fails finds the listener returned. -/
theorem run_of_slipsCovered (h : SlipsCovered adapterIndex events)
    {before after : List (BusEvent V)} {e : BusEvent V} (hevents : events = before ++ e :: after)
    (hloss : e.IsLoss) :
    ∃ err, (Reactive.run (listenerStep adapterIndex) outputs (before ++ [e])).2 =
      some (.err err) := by
  cases hrun : (Reactive.run (listenerStep adapterIndex) outputs (before ++ [e])).2 with
  | none =>
      have hgo := run_goesOn_iff.mp hrun
      rcases hloss.isDropped_or_fails adapterIndex with hdropped | hfails
      · obtain ⟨f, hmem, hf⟩ := h before e after hevents (.inl hdropped) ⟨e, by simp, hloss⟩
        exact absurd hf (hgo f (by simp [hmem])).1
      · exact absurd hfails (hgo e (by simp)).1
  | some exit =>
      cases exit with
      | err err => exact ⟨err, rfl⟩
      | panic p =>
          obtain ⟨pre, c, post, hsplit, hcrash, hpre⟩ := exists_crash_of_run hrun
          obtain ⟨x, hx⟩ : ∃ x, (c :: post).getLast? = some x := ⟨_, List.getLast?_cons⟩
          have hlast := congrArg List.getLast? hsplit
          rw [List.getLast?_concat, List.getLast?_append, hx, Option.some_or] at hlast
          obtain rfl := Option.some.inj hlast
          have hmem : e ∈ c :: (post ++ after) := by
            rw [← List.cons_append]
            exact List.mem_append_left after (List.mem_of_getLast? hx)
          have hevents' : events = pre ++ c :: (post ++ after) := by
            rw [hevents, List.append_cons, hsplit]
            simp
          obtain ⟨f, hf, hfails⟩ := h pre c (post ++ after) hevents' (.inr hcrash) ⟨e, hmem, hloss⟩
          exact absurd hfails (hpre f hf)

end Run

/-- The listener ends at its start or in its loop. -/
theorem runListener_exit (adapterIndex : UInt16) (startup : DiscoveryReply)
    (events : List (BusEvent V)) :
    (runListener adapterIndex startup events).2 =
      match (tryStartDiscovery adapterIndex startup).2 with
      | .ok () => (Reactive.run (listenerStep adapterIndex)
          (restartDiscovery adapterIndex startup []).1 events).2
      | .error e => some (.err e) := by
  unfold runListener restartDiscovery
  rcases tryStartDiscovery adapterIndex startup with ⟨calls, e | u⟩ <;> rfl

/-- **Losses are handed back**: either discovery cannot be started at all, or
nothing that the loop passes over comes before an event that it returns on. -/
theorem handsBack_iff (adapterIndex : UInt16) (startup : DiscoveryReply)
    (events : List (BusEvent V)) :
    HandsBack adapterIndex startup events ↔
      (∃ err, (tryStartDiscovery adapterIndex startup).2 = .error err) ∨
        SlipsCovered adapterIndex events := by
  unfold HandsBack
  simp only [runListener_exit]
  cases hstart : (tryStartDiscovery adapterIndex startup).2 with
  | error err => simp
  | ok u =>
      constructor
      · intro h
        exact Or.inr (slipsCovered_of_run h)
      · rintro (⟨err, herr⟩ | hcovered)
        · contradiction
        · intro before e after hevents hloss
          exact run_of_slipsCovered hcovered hevents hloss

end

/-- The adapter stream has ended: the loop goes on, however often it is told. -/
theorem not_handsBack_adapter_ended :
    ¬ HandsBack (V := Value) 0 .success
      [.adapter none .success, .adapter none .success, .adapter none .success] := by
  intro h
  obtain ⟨err, herr⟩ := h [.adapter none .success, .adapter none .success]
    (.adapter none .success) [] rfl (Or.inl rfl)
  have hrun : (runListener (V := Value) 0 .success
      [.adapter none .success, .adapter none .success, .adapter none .success]).2 = none := rfl
  rw [List.cons_append, List.cons_append, List.nil_append, hrun] at herr
  contradiction

end LinuxBtProxy
