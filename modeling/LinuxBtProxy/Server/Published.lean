import LinuxBtProxy.Server.Failures
import LinuxBtProxy.Server.Delivery

/-!
# LinuxBtProxy.Server.Published

From the sender of advertisements to the client's decoder: what a client of the
running server decodes are advertisements that were sent after its connection
was accepted, in their order (`decoded_published`).
-/

namespace LinuxBtProxy

open Broadcast

/-! ## Advertisements among the answers -/

namespace Response

def isAdvert : Response → Bool
  | .bluetoothLEAdvertisement _ | .bluetoothLERawAdvertisements _ => true
  | _ => false

/-- The response that an advertisement is forwarded in. -/
def ofAdvert (adv : BleAdvertisement) (raw : Bool) : Response :=
  if raw then .bluetoothLERawAdvertisements { advertisements := [adv.raw] }
  else .bluetoothLEAdvertisement adv.legacy

end Response

section

variable [Protobuf]

omit [Protobuf] in
theorem isAdvert_answer {ctx : ProxyContext} {msgType : UInt32} {req : RequestType}
    {resp : Response} (h : answer ctx msgType = some (req, resp)) : resp.isAdvert = false := by
  unfold answer at h
  split at h
  case h_7 => contradiction
  all_goals
    obtain ⟨-, rfl⟩ := by simpa using h
    rfl

/-- An act is answered with at most one advertisement, its own. -/
theorem filter_answers (ctx : ProxyContext) (past : List Act) (a : Act) :
    ∃ picks : List (BleAdvertisement × Bool),
      (answers ctx past a).filter Response.isAdvert =
          picks.map (fun p => Response.ofAdvert p.1 p.2) ∧
        (picks.map Prod.fst).Sublist (adverts [a]) := by
  cases a with
  | message msgType payload =>
      refine ⟨[], ?_, List.nil_sublist _⟩
      rw [answers]
      split
      · next req resp hans =>
          have hnot := isAdvert_answer hans
          split <;> simp [hnot]
      · rfl
  | advert adv =>
      rw [answers]
      cases current past with
      | off => exact ⟨[], rfl, List.nil_sublist _⟩
      | regular => exact ⟨[(adv, false)], rfl, List.Sublist.refl _⟩
      | raw => exact ⟨[(adv, true)], rfl, List.Sublist.refl _⟩
  | lagged | write | shutdown => exact ⟨[], rfl, List.nil_sublist _⟩

theorem filter_lawfulAnswers (ctx : ProxyContext) (past acts : List Act) :
    ∃ picks : List (BleAdvertisement × Bool),
      (lawfulAnswers ctx past acts).filter Response.isAdvert =
          picks.map (fun p => Response.ofAdvert p.1 p.2) ∧
        (picks.map Prod.fst).Sublist (adverts acts) := by
  induction acts generalizing past with
  | nil => exact ⟨[], rfl, List.nil_sublist _⟩
  | cons a acts ih =>
      obtain ⟨first, hfirst, hsub⟩ := filter_answers ctx past a
      obtain ⟨later, hlater, hsub'⟩ := ih (past ++ [a])
      refine ⟨first ++ later, ?_, ?_⟩
      · rw [lawfulAnswers, List.filter_append, hfirst, hlater, List.map_append]
      · have hsplit : adverts (a :: acts) = adverts [a] ++ adverts acts := adverts_append [a] acts
        rw [hsplit, List.map_append]
        exact hsub.append hsub'

end

/-! ## What a client of the server decodes -/

/-- A task is handed advertisements that were sent after its connection was
accepted. -/
theorem handed_sublist [Protobuf] [Channel BleAdvertisement] {ctx : ProxyContext}
    {actions : List Action} {s : System} (h : System.start.run ctx actions = some s) {id : Nat}
    {c : Session} (hc : s.sessions id = some c) :
    ((c.history.map Input.event).filterMap Event.advert?).Sublist (sentSince id actions) := by
  have hsound := System.sound_of_run h id c hc
  obtain ⟨hdrop, -⟩ := System.sentSince_of_run h rfl hc
  rw [adverts_history, ← hdrop]
  exact hsound.account.values_sublist.trans (List.take_sublist _ _)

theorem sentSince_sublist (id : Nat) (actions : List Action) :
    (sentSince id actions).Sublist (sends actions) :=
  (List.dropWhile_sublist _).filterMap Action.sends

/-- What the client of a task decodes of the advertisements that the task was
handed. -/
theorem decoded_handed [ProtobufRuntime] {ctx : ProxyContext} {c : Session}
    (hruns : handleClient c.env ctx (c.history.map Input.event) = (c.conn, c.exit))
    (hfast : c.env.FailsFast) (hinfo : (Response.deviceInfo (deviceInfoResponse ctx)).Fits)
    (hfits : ∀ adv ∈ (c.history.map Input.event).filterMap Event.advert?, AdvertFits adv)
    {bytes : List UInt8}
    (hbytes : bytes <+: (attempted (beforeDisconnect c.conn.client.sock.trace)).flatten) :
    ∃ picks : List (BleAdvertisement × Bool),
      (received bytes).filter (fun r => r.any Response.isAdvert) =
        picks.map (fun p => some (Response.ofAdvert p.1 p.2)) ∧
      (picks.map Prod.fst).Sublist ((c.history.map Input.event).filterMap Event.advert?) := by
  have hall := fits_delivered hinfo hfits
  have hbefore := adverts_delivered ctx (c.history.map Input.event)
  have hconn : (handleClient c.env ctx (c.history.map Input.event)).1 = c.conn := by rw [hruns]
  rw [← hconn] at hbytes
  have hreceived := received_handleClient hfast hall hbytes
  obtain ⟨picks, hpicks, hsub⟩ := filter_lawfulAnswers ctx []
    (beforeDisconnect (delivered ctx (c.history.map Input.event)).1)
  -- the advertisements among the answers, of which a first part is decoded
  have hanswers : ((lawfulAnswers ctx []
      (beforeDisconnect (delivered ctx (c.history.map Input.event)).1)).map some).filter
        (fun r => r.any Response.isAdvert) =
      picks.map (fun p => some (Response.ofAdvert p.1 p.2)) := by
    rw [List.filter_map]
    show ((lawfulAnswers ctx [] _).filter Response.isAdvert).map some = _
    rw [hpicks, List.map_map]
    rfl
  have hpre := hreceived.filter (fun r => r.any Response.isAdvert)
  rw [hanswers, List.prefix_iff_eq_take, ← List.map_take] at hpre
  refine ⟨_, hpre, ?_⟩
  exact ((List.take_sublist _ picks).map Prod.fst).trans (hsub.trans hbefore.sublist)

/-- **Only what was published**: in every state that the server reaches, from
whatever part of the bytes that were written for it before a `DisconnectRequest`
it has got, a client decodes, as advertisements, only ones that were sent after
its connection was accepted, each in one of its two forms, in the order of their
sending and each at most once. -/
theorem decoded_published [ProtobufRuntime] [Channel BleAdvertisement] {ctx : ProxyContext}
    {actions : List Action} {s : System} (h : System.start.run ctx actions = some s)
    {id : Nat} {c : Session} (hc : s.sessions id = some c)
    (hfast : ∀ env, .accept id env ∈ actions → env.FailsFast)
    (hinfo : (Response.deviceInfo (deviceInfoResponse ctx)).Fits)
    (hadverts : ∀ adv ∈ sends actions, AdvertFits adv) {bytes : List UInt8}
    (hbytes : bytes <+: (attempted (beforeDisconnect c.conn.client.sock.trace)).flatten) :
    ∃ picks : List (BleAdvertisement × Bool),
      (received bytes).filter (fun r => r.any Response.isAdvert) =
          picks.map (fun p => some (Response.ofAdvert p.1 p.2)) ∧
        (picks.map Prod.fst).Sublist (sentSince id actions) := by
  obtain ⟨hruns, -, -⟩ := System.sound_of_run h id c hc
  obtain ⟨-, hmem⟩ := System.sentSince_of_run h rfl hc
  have hhanded := handed_sublist h hc
  have hfits : ∀ adv ∈ (c.history.map Input.event).filterMap Event.advert?, AdvertFits adv :=
    fun adv hadv => hadverts adv ((sentSince_sublist id actions).mem (hhanded.mem hadv))
  obtain ⟨picks, hpicks, hsub⟩ := decoded_handed hruns (hfast c.env hmem) hinfo hfits hbytes
  exact ⟨picks, hpicks, hsub.trans hhanded⟩

/-- Three advertisements; a client that comes after the first one gets the second
one, and of the third one a part. -/
def publishActions : List Action :=
  [.send ⟨{}, { address := 1 }⟩, .accept 1 .failing, .read 1 [0x00, 0x02, 0x42, 0x08, 0x01],
    .send ⟨{}, { address := 2 }⟩, .recv 1, .send ⟨{}, { address := 3 }⟩, .recv 1]

/-- The state that they lead to. -/
def publishSystem : System :=
  (@System.run (@generatedProtobuf canonicalRuntime) (.ring 128) sampleContext .start
    publishActions).get (by decide +kernel)

/-- Its client. -/
def publishSession : Session := (publishSystem.sessions 1).get (by decide +kernel)

/-- What the client gets. -/
def publishBytes : List UInt8 :=
  (attempted (beforeDisconnect publishSession.conn.client.sock.trace)).flatten.dropLast

theorem decoded_published_sample :
    @received canonicalRuntime publishBytes =
      [some (.bluetoothLERawAdvertisements { advertisements := [{ address := 2 }] })] ∧
    ∃ picks : List (BleAdvertisement × Bool),
      [some (Response.bluetoothLERawAdvertisements { advertisements := [{ address := 2 }] })] =
          picks.map (fun p => some (Response.ofAdvert p.1 p.2)) ∧
        (picks.map Prod.fst).Sublist [⟨{}, { address := 2 }⟩, ⟨{}, { address := 3 }⟩] := by
  have hfast : ∀ env, .accept 1 env ∈ publishActions → env.FailsFast := by
    intro env henv
    obtain rfl : env = .failing := by simpa [publishActions] using henv
    exact Or.inr rfl
  have hdecoded : @received canonicalRuntime publishBytes =
      [some (.bluetoothLERawAdvertisements { advertisements := [{ address := 2 }] })] := by
    decide +kernel
  have hrun := @decoded_published canonicalRuntime (.ring 128) sampleContext publishActions
    publishSystem (Option.some_get _).symm 1 publishSession (Option.some_get _).symm hfast (by decide +kernel)
    (by decide +kernel) publishBytes (List.dropLast_prefix _)
  rw [hdecoded] at hrun
  exact ⟨hdecoded, hrun⟩

end LinuxBtProxy
