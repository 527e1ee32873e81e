import LinuxBtProxy.Ble.Outputs
import LinuxBtProxy.Lib.Monitor

/-!
# LinuxBtProxy.Ble.Discovery

The discovery calls of the listener over the whole life of the supervisor, with
the replies to them.

* `Exchange` — something that is done, and whether it went through;
* `Discovery` — what the exchanges have made of the discovery of an adapter, a
  monitor of a listener;
* `discovery_law` — all that the listeners do are the exchanges of their starts
  and of the events that they take; discovery is on whenever a listener waits for
  an event, and nothing is done behind a call that was refused.
-/

namespace LinuxBtProxy

open Monitor

/-! ## The monitor -/

/-- What is done, and whether it went through: a call has a reply. -/
abbrev Exchange := Output × Bool

/-- What the exchanges have made of the discovery of the adapter. -/
inductive Discovery where
  | off
  | filtered
  | on
  | refused
deriving DecidableEq

namespace Discovery

/-- What may be done next: discovery is started behind the filter that keeps
duplicate data, and an advertisement is sent only while discovery is on.  Behind
a call that was refused, nothing is. -/
def next (path : String) : Discovery → Exchange → Option Discovery
  | .off, (.setDiscoveryFilter path' duplicateData, granted)
  | .on, (.setDiscoveryFilter path' duplicateData, granted) =>
      if path' = path ∧ duplicateData = true then some (if granted then .filtered else .refused)
      else none
  | .filtered, (.startDiscovery path', granted) =>
      if path' = path then some (if granted then .on else .refused) else none
  | .on, (.broadcast _, _) => some .on
  | _, _ => none

end Discovery

/-! ## Exchanges -/

/-- The calls that start discovery, as far as they get with these replies. -/
def DiscoveryReply.exchanges (path : String) (reply : DiscoveryReply) : List Exchange :=
  match reply.proxy, reply.setDiscoveryFilter with
  | .error _, _ => []
  | .ok (), .error _ => [(.setDiscoveryFilter path true, false)]
  | .ok (), .ok () => [(.setDiscoveryFilter path true, true), (.startDiscovery path, reply.started)]

theorem tryStartDiscovery_fst (adapterIndex : UInt16) (reply : DiscoveryReply) :
    (tryStartDiscovery adapterIndex reply).1 =
      (reply.exchanges (adapterPath adapterIndex)).map Prod.fst := by
  unfold tryStartDiscovery DiscoveryReply.exchanges
  cases reply.proxy <;> cases reply.setDiscoveryFilter <;> rfl

/-- The calls are in turn where discovery is off or on, and leave it on when none
is refused. -/
theorem watch_reply (path : String) (reply : DiscoveryReply) {d : Discovery}
    (hd : d = .off ∨ d = .on) :
    ∃ d', watch (Discovery.next path) d (reply.exchanges path) = some d' ∧
      (reply.granted = true → d' = .on) := by
  have hfilter (granted : Bool) : d.next path (.setDiscoveryFilter path true, granted) =
      some (if granted then .filtered else .refused) := by
    rcases hd with rfl | rfl
    · exact if_pos ⟨rfl, rfl⟩
    · exact if_pos ⟨rfl, rfl⟩
  have hstart (granted : Bool) : Discovery.next path .filtered (.startDiscovery path, granted) =
      some (if granted then .on else .refused) := if_pos rfl
  unfold DiscoveryReply.exchanges DiscoveryReply.granted
  cases reply.proxy with
  | error e => exact ⟨d, rfl, fun h => by contradiction⟩
  | ok u =>
      cases reply.setDiscoveryFilter with
      | error e =>
          refine ⟨.refused, ?_, fun h => by contradiction⟩
          rw [watch_cons, hfilter]
          rfl
      | ok u =>
          refine ⟨if reply.started then .on else .refused, ?_, fun h => if_pos h⟩
          rw [watch_cons, hfilter, if_pos rfl, Option.bind_some, watch_cons, hstart]
          rfl

section

variable {V : Type} [Variant V]

/-! ## One event -/

/-- What an event leads to: discovery is started again when it was turned off, and
the advertisement of a device is sent. -/
def BusEvent.exchanges (path : String) (e : BusEvent V) : List Exchange :=
  e.off.elim (e.advert.toList.map fun adv => (.broadcast adv, true)) (·.exchanges path)

theorem outputs_eq_exchanges (adapterIndex : UInt16) (e : BusEvent V) :
    e.outputs adapterIndex = (e.exchanges (adapterPath adapterIndex)).map Prod.fst := by
  rw [outputs_eq, BusEvent.exchanges]
  cases e.off with
  | none => simp
  | some reply => exact tryStartDiscovery_fst adapterIndex reply

/-- An event that passes has its calls granted. -/
theorem granted_of_passes {adapterIndex : UInt16} {e : BusEvent V} {reply : DiscoveryReply}
    (hoff : e.off = some reply) (h : e.passes adapterIndex = true) : reply.granted = true := by
  have hgoes := (listenerStep_eq_none_iff_passes adapterIndex [] e).mpr h
  rw [listenerStep_of_off _ _ hoff, restartDiscovery_exit] at hgoes
  rw [← tryStartDiscovery_ok_iff adapterIndex]
  cases hreply : (tryStartDiscovery adapterIndex reply).2 with
  | error e => simp [hreply] at hgoes
  | ok u => rfl

/-- An event finds discovery on, and leaves it on if the loop goes on. -/
theorem watch_event (adapterIndex : UInt16) (e : BusEvent V) :
    ∃ d, watch (Discovery.next (adapterPath adapterIndex)) .on
        (e.exchanges (adapterPath adapterIndex)) = some d ∧
      (e.passes adapterIndex = true → d = .on) := by
  unfold BusEvent.exchanges
  cases hoff : e.off with
  | some reply =>
      obtain ⟨d, hd, hon⟩ := watch_reply (adapterPath adapterIndex) reply (d := .on) (.inr rfl)
      exact ⟨d, hd, fun hpasses => hon (granted_of_passes hoff hpasses)⟩
  | none =>
      refine ⟨.on, ?_, fun _ => rfl⟩
      cases e.advert <;> rfl

/-! ## One attempt -/

/-- The exchanges of a listener: those of its start, and those of the events that
it takes. -/
def Attempt.exchanges (adapterIndex : UInt16) (a : Attempt V) : List Exchange :=
  (if a.setup.streams.isOk then a.setup.discovery.exchanges (adapterPath adapterIndex) else []) ++
    (a.taken adapterIndex).flatMap (·.exchanges (adapterPath adapterIndex))

theorem outputs_attempt_eq (adapterIndex : UInt16) (a : Attempt V) :
    (a.run adapterIndex).1 = (a.exchanges adapterIndex).map Prod.fst := by
  have hstartup : a.startup adapterIndex =
      (if a.setup.streams.isOk then a.setup.discovery.exchanges (adapterPath adapterIndex)
        else []).map Prod.fst := by
    unfold Attempt.startup
    cases a.setup.streams with
    | error e => rfl
    | ok u => exact tryStartDiscovery_fst adapterIndex a.setup.discovery
  rw [outputs_attempt, hstartup, Attempt.exchanges, List.map_append, List.map_flatMap]
  exact congrArg (fun gain => _ ++ (a.taken adapterIndex).flatMap gain)
    (funext (outputs_eq_exchanges adapterIndex))

/-- A listener is in turn from its start; while it has not returned, discovery
is on. -/
theorem watch_attempt (adapterIndex : UInt16) (a : Attempt V) :
    ∃ d, watch (Discovery.next (adapterPath adapterIndex)) .off (a.exchanges adapterIndex) =
        some d ∧ ((a.run adapterIndex).2 = none → d = .on) := by
  obtain ⟨d, hd, hon⟩ := watch_reply (adapterPath adapterIndex) a.setup.discovery (.inl rfl)
  unfold Attempt.exchanges Attempt.taken
  rw [watch_append]
  cases hstarts : a.starts with
  | false =>
      obtain ⟨-, err, herr⟩ := run_of_not_starts adapterIndex hstarts
      rw [herr]
      cases a.setup.streams.isOk with
      | false => exact ⟨.off, rfl, fun h => by contradiction⟩
      | true =>
          rw [if_pos rfl, hd]
          exact ⟨d, rfl, fun h => by contradiction⟩
  | true =>
      obtain ⟨hstreams, hgranted⟩ := Bool.and_eq_true_iff.mp hstarts
      obtain rfl := hon hgranted
      have hevent : ∀ d (e : BusEvent V), d = Discovery.on →
          ∃ d', watch (Discovery.next (adapterPath adapterIndex)) d
              (e.exchanges (adapterPath adapterIndex)) = some d' ∧
            (e.passes adapterIndex = true → d' = .on) := by
        rintro d e rfl
        exact watch_event adapterIndex e
      obtain ⟨d', hd', hlast⟩ := watch_taken (fun d => d = Discovery.on)
        (BusEvent.passes adapterIndex) (BusEvent.exchanges (adapterPath adapterIndex)) hevent rfl
        a.events
      rw [if_pos hstreams, hd, Option.bind_some, run_of_starts adapterIndex hstarts]
      refine ⟨d', hd', fun hnone => hlast ?_⟩
      exact (Reactive.run_eq_none_iff (listenerStep_eq_none_iff_passes adapterIndex) _ _).mp hnone

/-! ## The life of the supervisor -/

/-- A supervisor that is listening does so in its last attempt. -/
theorem made_of_listening {adapterIndex : UInt16} {attempts : List (Attempt V)}
    (h : (runSupervised adapterIndex attempts).2 = some .listening) :
    ∃ before a, made adapterIndex attempts = before ++ [a] ∧ (a.run adapterIndex).2 = none := by
  have hnot := List.head?_dropWhile_not (·.failed adapterIndex) attempts
  rw [exit_runSupervised] at h
  rw [made_eq, Reactive.taken]
  cases hlast : (attempts.dropWhile (·.failed adapterIndex)).head? with
  | none =>
      rw [hlast] at h
      contradiction
  | some a =>
      rw [hlast] at h hnot
      exact ⟨_, a, rfl, Attempt.run_eq_none_of_listening hnot (Option.some.inj h)⟩

/-- **Discovery**: what the listeners of the supervisor do, in its whole life, are
the exchanges of their starts and of the events that they take, in order.  Every
listener starts discovery of its own adapter behind the filter for duplicate data,
sends nothing before that, and does nothing behind a call that was refused; and
the last one, while it waits for an event, has had its last request for discovery
granted. -/
theorem discovery_law (adapterIndex : UInt16) (attempts : List (Attempt V)) :
    (runSupervised adapterIndex attempts).1.done.filterMap Supervision.output? =
        (made adapterIndex attempts).flatMap (fun a => (a.exchanges adapterIndex).map Prod.fst) ∧
      (∀ a ∈ made adapterIndex attempts, ∃ d,
        watch (Discovery.next (adapterPath adapterIndex)) .off (a.exchanges adapterIndex) =
          some d) ∧
      ((runSupervised adapterIndex attempts).2 = some .listening →
        ∃ before a, made adapterIndex attempts = before ++ [a] ∧
          watch (Discovery.next (adapterPath adapterIndex)) .off (a.exchanges adapterIndex) =
            some .on) := by
  refine ⟨?_, ?_, ?_⟩
  · rw [outputs_runSupervised]
    exact congrArg (List.flatMap · _) (funext (outputs_attempt_eq adapterIndex))
  · intro a _
    obtain ⟨d, hd, -⟩ := watch_attempt adapterIndex a
    exact ⟨d, hd⟩
  · intro h
    obtain ⟨before, a, hmade, hwaits⟩ := made_of_listening h
    obtain ⟨d, hd, hon⟩ := watch_attempt adapterIndex a
    obtain rfl := hon hwaits
    exact ⟨before, a, hmade, hd⟩

end

end LinuxBtProxy
