import LinuxBtProxy.Main
import LinuxBtProxy.Server.Published

/-!
# LinuxBtProxy.Server.Identity

The address of the adapter on its way from BlueZ, through `main` and the server,
to the client that asks for the device info.
-/

namespace LinuxBtProxy

section

variable [Protobuf]

omit [Protobuf] in
/-- A device info is answered from the context alone. -/
theorem deviceInfo_of_answer {ctx : ProxyContext} {msgType : UInt32} {req : RequestType}
    {r : DeviceInfoResponse} (h : answer ctx msgType = some (req, .deviceInfo r)) :
    r = deviceInfoResponse ctx := by
  unfold answer at h
  split at h <;> simp at h
  exact h.2.symm

/-- The device info among the answers is the one of the context. -/
theorem deviceInfo_of_lawfulAnswers {ctx : ProxyContext} {past acts : List Act}
    {r : DeviceInfoResponse} (h : .deviceInfo r ∈ lawfulAnswers ctx past acts) :
    r = deviceInfoResponse ctx := by
  induction acts generalizing past with
  | nil => exact absurd h List.not_mem_nil
  | cons a acts ih =>
      obtain h | h := List.mem_append.mp h
      · cases a with
        | message msgType payload =>
            rw [answers] at h
            split at h
            · next req resp hans =>
                split at h
                · obtain rfl := List.mem_singleton.mp h
                  exact deviceInfo_of_answer hans
                · exact absurd h List.not_mem_nil
            · exact absurd h List.not_mem_nil
        | advert adv =>
            rw [answers] at h
            split at h <;> simp at h
        | lagged | write | shutdown => exact absurd h List.not_mem_nil
      · exact ih h

end

/-- **Identity**: the device info that a client decodes spells the address of the
adapter that BlueZ gave `main` in one of its lookups, the same as the `mac`
record of the service that `main` announced. -/
theorem decoded_identity [ProtobufRuntime] [Broadcast.Channel BleAdvertisement] {host : Host}
    {cli : Cli} {ctx : ProxyContext} {acts : List MainAct}
    (hmain : main host cli [] = (.ok ctx, acts)) {actions : List Action} {s : System}
    (h : System.start.run ctx actions = some s) {id : Nat} {c : Session}
    (hc : s.sessions id = some c)
    (hfast : ∀ env, .accept id env ∈ actions → env.FailsFast)
    (hinfo : (Response.deviceInfo (deviceInfoResponse ctx)).Fits)
    (hadverts : ∀ adv ∈ sends actions, AdvertFits adv) {bytes : List UInt8}
    (hbytes : bytes <+: (attempted (beforeDisconnect c.conn.client.sock.trace)).flatten)
    {r : DeviceInfoResponse} (hr : some (.deviceInfo r) ∈ received bytes) :
    ∃ attempt text info value mac, attempt ∈ List.range' 1 MAC_LOOKUP_ATTEMPTS ∧
      (host.adapter attempt).address = .ok text ∧ parseMac text = .ok mac ∧
      .register info ∈ acts ∧ ("mac", value) ∈ info.properties ∧ parseMac value = .ok mac ∧
      parseMac r.bluetoothMacAddress = .ok mac := by
  have hruns := (System.sound_of_run h id c hc).runs
  obtain ⟨-, hmem⟩ := System.sentSince_of_run h rfl hc
  have hhanded := (handed_sublist h hc).trans (sentSince_sublist id actions)
  have hfits : ∀ adv ∈ (c.history.map Input.event).filterMap Event.advert?, AdvertFits adv :=
    fun adv hadv => hadverts adv (hhanded.mem hadv)
  have hconn : (handleClient c.env ctx (c.history.map Input.event)).1 = c.conn := by rw [hruns]
  rw [← hconn] at hbytes
  have hall := fits_delivered hinfo hfits
  have hreceived := received_handleClient (hfast c.env hmem) hall hbytes
  obtain ⟨resp, hresp, heq⟩ := List.mem_map.mp (hreceived.mem hr)
  obtain rfl := Option.some.inj heq
  obtain rfl := deviceInfo_of_lawfulAnswers hresp
  obtain ⟨⟨attempt, text, hattempt, htext, hparse⟩, ⟨info, value, hregister, hvalue, hmac⟩,
    hbt, -⟩ := main_identity hmain
  exact ⟨attempt, text, info, value, ctx.btMac, hattempt, htext, hparse, hregister, hvalue, hmac,
    hbt⟩

/-- A result that is there is the one that was given. -/
theorem eq_ok_toOption_get {ε α : Type} {r : Except ε α} (h : r.toOption.isSome = true) :
    r = .ok (r.toOption.get h) := by
  cases r with
  | error e => contradiction
  | ok a => rfl

/-- What `main` serves on the sample host. -/
def servedContext : ProxyContext :=
  (main sampleHost sampleCli []).1.toOption.get (by decide +kernel)

/-- The lookups, the mDNS calls and the bind succeed on the sample host. -/
theorem main_sample :
    main sampleHost sampleCli [] = (.ok servedContext, (main sampleHost sampleCli []).2) :=
  Prod.ext (eq_ok_toOption_get _) rfl

/-- A client asks for the device info. -/
def infoActions : List Action := [.accept 1 .quiet, .read 1 [0x00, 0x00, 0x09]]

/-- A server with one client that has asked for its device info. -/
def infoSystem : System :=
  (@System.run (@generatedProtobuf canonicalRuntime) (.ring 128) servedContext .start
    infoActions).get (by decide +kernel)

/-- The client. -/
def infoSession : Session := (infoSystem.sessions 1).get (by decide +kernel)

/-- The client decodes the address of the adapter. -/
theorem decoded_identity_sample :
    ∃ attempt text info value mac, attempt ∈ List.range' 1 MAC_LOOKUP_ATTEMPTS ∧
      (sampleHost.adapter attempt).address = .ok text ∧ parseMac text = .ok mac ∧
      .register info ∈ (main sampleHost sampleCli []).2 ∧ ("mac", value) ∈ info.properties ∧
      parseMac value = .ok mac ∧
      parseMac (deviceInfoResponse servedContext).bluetoothMacAddress = .ok mac := by
  have hfast : ∀ env, .accept 1 env ∈ infoActions → env.FailsFast := by
    intro env henv
    obtain rfl : env = .quiet := by simpa [infoActions] using henv
    exact Or.inl fun _ => rfl
  have hdecoded : some (.deviceInfo (deviceInfoResponse servedContext)) ∈
      @received canonicalRuntime
        (attempted (beforeDisconnect infoSession.conn.client.sock.trace)).flatten := by
    decide +kernel
  exact @decoded_identity canonicalRuntime (.ring 128) sampleHost sampleCli servedContext
    (main sampleHost sampleCli []).2 main_sample infoActions infoSystem (Option.some_get _).symm 1
    infoSession (Option.some_get _).symm hfast (by decide +kernel) (by decide +kernel) _
    List.prefix_rfl (deviceInfoResponse servedContext) hdecoded

end LinuxBtProxy
