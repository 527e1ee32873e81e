import LinuxBtProxy.Ble.Observed
import LinuxBtProxy.Server.Published

/-!
# LinuxBtProxy.Server.Observed

The whole proxy, from the signals of BlueZ to the client's decoder.  The tasks of
the listener and of the server share the sender of the broadcast channel and
nothing else, so a run of the proxy is a run of the server that sends what the
supervisor publishes, in any interleaving.
-/

namespace LinuxBtProxy

/-- Values that come from a list through `f`, each tagged: the elements that they
come from can be tagged instead. -/
theorem exists_sources {α β γ : Type} {f : α → Option β} {l : List α} {xs : List (β × γ)}
    (h : (xs.map Prod.fst).Sublist (l.filterMap f)) :
    ∃ ys : List (α × γ), (ys.map Prod.fst).Sublist l ∧
      ys.map (fun y => (f y.1).map (·, y.2)) = xs.map some := by
  induction l generalizing xs with
  | nil =>
      obtain rfl : xs = [] := List.map_eq_nil_iff.mp (List.sublist_nil.mp h)
      exact ⟨[], List.Sublist.refl _, rfl⟩
  | cons a l ih =>
      cases hf : f a with
      | none =>
          rw [List.filterMap_cons_none hf] at h
          obtain ⟨ys, hsub, hys⟩ := ih h
          exact ⟨ys, hsub.cons a, hys⟩
      | some b =>
          rw [List.filterMap_cons_some hf] at h
          rcases List.sublist_cons_iff.mp h with h | ⟨rest, hrest, h⟩
          · obtain ⟨ys, hsub, hys⟩ := ih h
            exact ⟨ys, hsub.cons a, hys⟩
          · obtain ⟨x, xs', rfl, rfl, rfl⟩ := List.map_eq_cons_iff.mp hrest
            obtain ⟨ys, hsub, hys⟩ := ih h
            refine ⟨(a, x.2) :: ys, hsub.cons_cons a, ?_⟩
            rw [List.map_cons, List.map_cons, hys, hf]
            rfl

/-- **From BlueZ to the client**: in every state that the proxy reaches, the
advertisements that a client decodes, from whatever part of the bytes that were
written for it before a `DisconnectRequest` it has got, are those of devices that
BlueZ reported to a listener, and that were sent after the connection was
accepted: in the order of the reports, at most one for each report, each saying what
its device does. -/
theorem decoded_observed [ProtobufRuntime] [Broadcast.Channel BleAdvertisement] {V : Type}
    [Variant V] {ctx : ProxyContext} {actions : List Action} {s : System}
    (h : System.start.run ctx actions = some s) {id : Nat} {c : Session}
    (hc : s.sessions id = some c)
    {adapterIndex : UInt16} {attempts : List (Attempt V)}
    (hfed : sends actions = published (runSupervised adapterIndex attempts).1.done)
    (hfast : ∀ env, .accept id env ∈ actions → env.FailsFast)
    (hinfo : (Response.deviceInfo (deviceInfoResponse ctx)).Fits)
    (hadverts : ∀ e ∈ observed adapterIndex attempts, ∀ adv, e.advert = some adv →
      AdvertFits adv) {bytes : List UInt8}
    (hbytes : bytes <+: (attempted (beforeDisconnect c.conn.client.sock.trace)).flatten) :
    ∃ (later : List (BusEvent V)) (picks : List (BusEvent V × Bool)),
      later <:+ observed adapterIndex attempts ∧
      later.filterMap BusEvent.advert = sentSince id actions ∧
      (picks.map Prod.fst).Sublist later ∧
      (received bytes).filter (fun r => r.any Response.isAdvert) =
        picks.map (fun p => p.1.advert.map (Response.ofAdvert · p.2)) ∧
      ∀ p ∈ picks, ∃ adv, p.1.advert = some adv ∧ Forwards p.1 adv := by
  have hpublished := published_runSupervised adapterIndex attempts
  obtain ⟨hruns, -, -⟩ := System.sound_of_run h id c hc
  obtain ⟨hdrop, hmem⟩ := System.sentSince_of_run h rfl hc
  have hsent : s.sent = sends actions := System.sent_of_run h
  have hhanded := handed_sublist h hc
  have hfits : ∀ adv ∈ (c.history.map Input.event).filterMap Event.advert?, AdvertFits adv := by
    intro adv hadv
    have hsends := (sentSince_sublist id actions).mem (hhanded.mem hadv)
    rw [hfed, hpublished] at hsends
    obtain ⟨e, he, hadvert⟩ := List.mem_filterMap.mp hsends
    exact hadverts e he adv hadvert
  obtain ⟨handed, hdecoded, hsub⟩ := decoded_handed hruns (hfast c.env hmem) hinfo hfits hbytes
  -- the reports after the connection, and among them those that were forwarded
  have hsuffix : sentSince id actions <:+ (observed adapterIndex attempts).filterMap
      BusEvent.advert := by
    rw [← hdrop, hsent, hfed, hpublished]
    exact List.drop_suffix _ _
  obtain ⟨later, hlater, hsince⟩ := List.suffix_filterMap_iff.mp hsuffix
  obtain ⟨picks, hpicks, hsources⟩ := exists_sources (hsince ▸ hsub.trans hhanded)
  refine ⟨later, picks, hlater, hsince.symm, hpicks, ?_, ?_⟩
  · have hmap := congrArg (List.map (Option.map fun x : BleAdvertisement × Bool =>
      Response.ofAdvert x.1 x.2)) hsources
    rw [hdecoded]
    simpa [Function.comp_def] using hmap.symm
  · intro p hp
    have hsome : (p.1.advert.map (·, p.2)) ∈ handed.map some := by
      rw [← hsources]
      exact List.mem_map_of_mem hp
    obtain ⟨x, -, hx⟩ := List.mem_map.mp hsome
    obtain ⟨adv, hadvert, -⟩ := Option.map_eq_some_iff.mp hx.symm
    exact ⟨adv, hadvert, forwards_of_advert hadvert⟩

/-- A client subscribes before the device is added. -/
def observeActions : List Action :=
  [.accept 1 .quiet, .read 1 [0x00, 0x02, 0x42, 0x08, 0x01]] ++
    (published (runSupervised 0 sampleAttempts).1.done).map .send ++ [.recv 1]

/-- A server with one raw subscriber and the advertisements of the sample attempts.
-/
def observeSystem : System :=
  (@System.run (@generatedProtobuf canonicalRuntime) (.ring 128) sampleContext .start
    observeActions).get (by decide +kernel)

/-- The client. -/
def observeSession : Session := (observeSystem.sessions 1).get (by decide +kernel)

/-- What the client gets. -/
def observeBytes : List UInt8 :=
  (attempted (beforeDisconnect observeSession.conn.client.sock.trace)).flatten

/-- The client decodes the device that was reported. -/
theorem decoded_observed_sample :
    (@received canonicalRuntime observeBytes).length = 1 ∧
    ∃ (later : List (BusEvent Value)) (picks : List (BusEvent Value × Bool)),
      later <:+ observed 0 sampleAttempts ∧
      later.filterMap BusEvent.advert = sentSince 1 observeActions ∧
      (picks.map Prod.fst).Sublist later ∧
      (@received canonicalRuntime observeBytes).filter (fun r => r.any Response.isAdvert) =
        picks.map (fun p => p.1.advert.map (Response.ofAdvert · p.2)) ∧
      ∀ p ∈ picks, ∃ adv, p.1.advert = some adv ∧ Forwards p.1 adv := by
  have hsends : sends observeActions = published (runSupervised 0 sampleAttempts).1.done := by
    decide +kernel
  have hfast : ∀ env, .accept 1 env ∈ observeActions → env.FailsFast := by
    intro env henv
    obtain rfl : env = .quiet := by simpa [observeActions] using henv
    exact Or.inl fun _ => rfl
  have hadverts : ∀ e ∈ observed 0 sampleAttempts, ∀ adv, e.advert = some adv →
      @AdvertFits canonicalRuntime adv := by
    rw [observed_sampleAttempts]
    intro e he adv hadv
    obtain rfl := List.mem_singleton.mp he
    have hfits : (deviceAdded sampleProps).advert.all (@AdvertFits canonicalRuntime ·) = true := by
      decide +kernel
    rw [hadv] at hfits
    simpa using hfits
  exact ⟨by decide +kernel, @decoded_observed canonicalRuntime (.ring 128) Value _
    sampleContext observeActions observeSystem (Option.some_get _).symm 1 observeSession
    (Option.some_get _).symm 0 sampleAttempts hsends hfast (by decide +kernel) hadverts
    observeBytes List.prefix_rfl⟩

end LinuxBtProxy
