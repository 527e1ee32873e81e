import LinuxBtProxy.Api.Roundtrip
import LinuxBtProxy.Server.Arrivals

/-!
# LinuxBtProxy.Server.Client

A connection as its client sees it: what the client decodes from the bytes it
gets is the answers that the law of the trace gives, in order.

`lawfulAnswers` is the law in terms of messages; `client_receives` is the
statement for every run whose socket calls succeed.
-/

namespace LinuxBtProxy

open Wire

/-- The frames that are written. -/
def sent (trace : List Act) : List (List UInt8) :=
  trace.filterMap fun
    | .write frame true => some frame
    | _ => none

/-- Frames are sent in the order of the acts. -/
theorem sent_append (trace acts : List Act) : sent (trace ++ acts) = sent trace ++ sent acts :=
  List.filterMap_append

/-- Writes that succeed are sent. -/
theorem sent_writes (frames : List (List UInt8)) :
    sent (frames.map (Act.write · true)) = frames := by
  induction frames with
  | nil => rfl
  | cons frame frames ih => exact congrArg (frame :: ·) ih

/-! ## Advertisements -/

/-- The advertisement of an act. -/
def Act.advert? : Act → Option BleAdvertisement
  | .advert adv => some adv
  | _ => none

/-- The advertisement of an event. -/
def Event.advert? : Event → Option BleAdvertisement
  | .advert adv => some adv
  | _ => none

/-- The advertisements among the acts. -/
def adverts (trace : List Act) : List BleAdvertisement := trace.filterMap Act.advert?

/-- Advertisements are taken in the order of the acts. -/
theorem adverts_append (trace acts : List Act) :
    adverts (trace ++ acts) = adverts trace ++ adverts acts :=
  List.filterMap_append

/-- An event brings its advertisement, and no other does. -/
theorem adverts_arrive (buf : List UInt8) (e : Event) :
    adverts (arrive buf e).1 = e.advert?.toList := by
  cases e with
  | read bytes =>
      rw [arrive]
      split
      · rfl
      · refine List.filterMap_eq_nil_iff.mpr fun a ha => ?_
        obtain ⟨m, -, rfl⟩ := List.mem_map.mp ha
        rfl
  | advert | lagged | readError | closed => rfl

/-- The advertisements that a connection is given are the first ones among its
events, and all of them as long as no event ends the task. -/
theorem adverts_arrivals (buf : List UInt8) (events : List Event) :
    adverts (arrivals buf events).1 <+: events.filterMap Event.advert? ∧
      ((arrivals buf events).2 = none →
        adverts (arrivals buf events).1 = events.filterMap Event.advert?) := by
  induction events generalizing buf with
  | nil => exact ⟨List.prefix_rfl, fun _ => rfl⟩
  | cons e events ih =>
      have hadverts := adverts_arrive buf e
      have hsplit : (e :: events).filterMap Event.advert? =
          e.advert?.toList ++ events.filterMap Event.advert? := by
        cases he : e.advert? <;> simp [he]
      rcases hone : arrive buf e with ⟨acts, rest, _ | w⟩
      · rw [hone] at hadverts
        obtain ⟨hpre, hall⟩ := ih rest
        rw [arrivals_cons_of_continue hone, adverts_append, hadverts, hsplit]
        exact ⟨(List.prefix_append_right_inj _).mpr hpre, fun h => by rw [hall h]⟩
      · rw [hone] at hadverts
        rw [arrivals_cons_of_end hone, hadverts, hsplit]
        exact ⟨List.prefix_append _ _, fun h => by contradiction⟩

/-- Advertisements are inputs. -/
theorem adverts_inputs (acts : List Act) : adverts (inputs acts) = adverts acts := by
  induction acts with
  | nil => rfl
  | cons a acts ih =>
      have hsplit : adverts (a :: acts) = adverts [a] ++ adverts acts := adverts_append [a] acts
      cases ha : a.isInput with
      | true =>
          have hone : inputs (a :: acts) = a :: inputs acts := List.filter_cons_of_pos ha
          rw [hone, hsplit, ← ih]
          exact adverts_append [a] (inputs acts)
      | false =>
          have hskip : inputs (a :: acts) = inputs acts := List.filter_cons_of_neg (by simp [ha])
          have hnone : adverts [a] = [] := by
            cases a <;> simp_all [Act.isInput, adverts, Act.advert?]
          rw [hskip, ih, hsplit, hnone, List.nil_append]

section

variable [Protobuf]

/-- The advertisements that a connection has taken are the first ones among its
events, and all of them as long as the connection runs. -/
theorem adverts_handleClient (env : Env) (ctx : ProxyContext) (events : List Event) :
    adverts (handleClient env ctx events).1.client.sock.trace <+:
        events.filterMap Event.advert? ∧
      ((handleClient env ctx events).2 = none →
        adverts (handleClient env ctx events).1.client.sock.trace =
          events.filterMap Event.advert?) := by
  obtain ⟨hpre, hall⟩ := inputs_handleClient env ctx events
  obtain ⟨hpre', hall'⟩ := adverts_arrivals [] events
  obtain ⟨-, hexit⟩ := handleClient_eq_serveInput env ctx events
  rw [← adverts_inputs]
  refine ⟨(hpre.filterMap Act.advert?).trans hpre', fun h => ?_⟩
  rw [hall h, hall' (Option.or_eq_none_iff.mp (hexit.symm.trans h)).2]

/-- The advertisements that a connection takes before a `DisconnectRequest` are
the first ones among its events. -/
theorem adverts_delivered (ctx : ProxyContext) (events : List Event) :
    adverts (beforeDisconnect (delivered ctx events).1) <+: events.filterMap Event.advert? :=
  have hserved : beforeDisconnect (delivered ctx events).1 <+: (arrivals [] events).1 :=
    (beforeDisconnect_sub _).trans (Reactive.taken_prefix _ _)
  (hserved.filterMap Act.advert?).trans (adverts_arrivals [] events).1

/-! ## The law in terms of messages -/

/-- The responses an act is answered with after a history. -/
def answers (ctx : ProxyContext) (past : List Act) : Act → List Response
  | .message msgType payload =>
      match answer ctx msgType with
      | some (req, resp) => if Protobuf.parses req payload then [resp] else []
      | none => []
  | .advert adv =>
      match current past with
      | .raw => [.bluetoothLERawAdvertisements { advertisements := [adv.raw] }]
      | .regular => [.bluetoothLEAdvertisement adv.legacy]
      | .off => []
  | _ => []

/-- The responses that a sequence of inputs is answered with. -/
def lawfulAnswers (ctx : ProxyContext) (past : List Act) : List Act → List Response
  | [] => []
  | a :: later => answers ctx past a ++ lawfulAnswers ctx (past ++ [a]) later

/-- The frames of a reply encode its responses. -/
theorem replies_eq (ctx : ProxyContext) (past : List Act) (a : Act) :
    replies ctx past a = (answers ctx past a).map responseFrame := by
  cases a with
  | message msgType payload =>
      rw [replies, answers]
      cases answer ctx msgType with
      | none => rfl
      | some r => cases hp : Protobuf.parses r.1 payload <;> simp [hp]
  | advert adv =>
      rw [replies, answers]
      cases current past <;> rfl
  | lagged | write | shutdown => rfl

/-- The frames of a lawful trace are those of its answers. -/
theorem sent_lawfulTrace (ctx : ProxyContext) {acts : List Act}
    (h : ∀ a ∈ acts, a.isInput = true) (past : List Act) :
    sent (lawfulTrace ctx past acts) = (lawfulAnswers ctx past acts).map responseFrame := by
  induction acts generalizing past with
  | nil => rfl
  | cons a acts ih =>
      obtain ⟨ha, hacts⟩ := List.forall_mem_cons.mp h
      have hself : sent [a] = [] := by cases a <;> simp_all [sent, Act.isInput]
      have hsplit : lawfulTrace ctx past (a :: acts) =
          [a] ++ (replies ctx past a).map (Act.write · true) ++
            lawfulTrace ctx (past ++ [a]) acts := by
        rw [lawfulTrace]
        simp
      have hwrites := sent_writes (replies ctx past a)
      have htail := ih hacts (past ++ [a])
      unfold sent at hself hwrites htail ⊢
      rw [hsplit, List.filterMap_append, List.filterMap_append, hself, hwrites, htail, replies_eq,
        lawfulAnswers, List.map_append, List.nil_append]

/-- What is delivered are inputs. -/
theorem isInput_beforeDisconnect {ctx : ProxyContext} {events : List Event} {a : Act}
    (ha : a ∈ beforeDisconnect (delivered ctx events).1) : a.isInput = true :=
  isInput_of_delivered ((beforeDisconnect_sub _).mem ha)

/-- What is written before a `DisconnectRequest` is the frames of the answers of
the law. -/
theorem Obeys.sent_eq {ctx : ProxyContext} {events : List Event} {r : Conn × Option Exit}
    (h : Obeys ctx (delivered ctx events) r) :
    sent (beforeDisconnect r.1.client.sock.trace) =
      (lawfulAnswers ctx [] (beforeDisconnect (delivered ctx events).1)).map responseFrame := by
  rw [h.law]
  exact sent_lawfulTrace ctx (fun a ha => isInput_beforeDisconnect ha) []

end

/-! ## The answers fit -/

section

variable [ProtobufRuntime]

open ProtobufRuntime

/-- A number field takes at most 20 bytes. -/
theorem length_uint32_write {number : Nat} (hn : ValidNumber number) (v : UInt32) :
    (uint32.write number v).length ≤ 20 := by
  have htag : (Base128.numeral (tag number uint32.wireType)).length ≤ 10 := by
    refine Base128.length_numeral_le (by decide) ?_
    rw [wireType_uint32, tag]
    have hlt := hn.2
    omega
  have hvalue : (Base128.numeral v.toNat).length ≤ 10 := by
    refine Base128.length_numeral_le (by decide) ?_
    have hlt := v.toNat_lt
    omega
  rw [uint32.write_eq hn (uint32_fits v), uint32_image, List.length_append]
  exact Nat.add_le_add htag hvalue

/-- A text field takes at most 20 bytes more than the text. -/
theorem length_string_write {number : Nat} (hn : ValidNumber number) {s : String}
    (hs : s.toUTF8.data.toList.length < 2 ^ 32) :
    (string.write number s).length ≤ 20 + s.toUTF8.data.toList.length := by
  have htag : (Base128.numeral (tag number string.wireType)).length ≤ 10 := by
    refine Base128.length_numeral_le (by decide) ?_
    rw [wireType_string, tag]
    have hlt := hn.2
    omega
  have hlen : (Base128.numeral s.toUTF8.data.toList.length).length ≤ 10 := by
    refine Base128.length_numeral_le (by decide) ?_
    omega
  rw [string.write_eq hn (string_fits hs), string_image, List.length_append, Payload.encode,
    List.length_append]
  omega

/-- The answer to a hello fits the wire format. -/
theorem fits_hello : (Response.hello helloResponse).Fits := by
  have hinfo : helloResponse.serverInfo.toUTF8.data.toList.length ≤ 100 := by decide
  have hname : helloResponse.name.toUTF8.data.toList.length ≤ 100 := by decide
  have hsmall : ∀ {n : Nat}, n ≤ 100 → n < 2 ^ 32 := fun h => Nat.lt_of_le_of_lt h (by decide)
  have hfits : HelloResponse.schema.Fits helloResponse := by
    simp only [Schema.Fits, HelloResponse.schema, List.forall_mem_cons]
    exact ⟨uint32_fits _, uint32_fits _, string_fits (hsmall hinfo), string_fits (hsmall hname),
      by simp⟩
  have hbound : ∀ f ∈ HelloResponse.schema.fields, (f.write helloResponse).length ≤ 120 := by
    have huint : ∀ {number} (v : UInt32), ValidNumber number →
        (uint32.write number v).length ≤ 120 :=
      fun v hn => Nat.le_trans (length_uint32_write hn v) (by decide)
    have hstring : ∀ {number} {s : String}, ValidNumber number →
        s.toUTF8.data.toList.length ≤ 100 → (string.write number s).length ≤ 120 :=
      fun hn hs => Nat.le_trans (length_string_write hn (hsmall hs)) (Nat.add_le_add_left hs 20)
    simp only [HelloResponse.schema, List.forall_mem_cons]
    exact ⟨Field.length_write_singular_le (huint _ (by decide)),
      Field.length_write_singular_le (huint _ (by decide)),
      Field.length_write_singular_le (hstring (by decide) hinfo),
      Field.length_write_singular_le (hstring (by decide) hname), by simp⟩
  exact ⟨hfits, Nat.lt_of_le_of_lt (HelloResponse.schema.length_writeTo_le hbound)
    (show 4 * 120 < 2 ^ 32 by decide)⟩

/-- The answer to a connect fits the wire format. -/
theorem fits_connect : (Response.connect {}).Fits := by
  have hfits : ConnectResponse.schema.Fits {} := by
    simp only [Schema.Fits, ConnectResponse.schema, List.forall_mem_cons]
    exact ⟨bool_fits _, by simp⟩
  exact ⟨hfits, show ([] : List UInt8).length < 2 ^ 32 by decide⟩

/-- The free connections fit the wire format. -/
theorem fits_bluetoothConnectionsFree :
    (Response.bluetoothConnectionsFree { free := 0, limit := 0 }).Fits := by
  have hfits : BluetoothConnectionsFreeResponse.schema.Fits { free := 0, limit := 0 } := by
    simp only [Schema.Fits, BluetoothConnectionsFreeResponse.schema, List.forall_mem_cons]
    exact ⟨uint32_fits _, uint32_fits _, fun hne => absurd rfl hne, by simp⟩
  have hwrite : BluetoothConnectionsFreeResponse.schema.writeTo { free := 0, limit := 0 } = [] := by
    simp [Schema.writeTo, BluetoothConnectionsFreeResponse.schema, Field.write,
      packedUint64_nil 3]
  refine ⟨hfits, ?_⟩
  show (BluetoothConnectionsFreeResponse.schema.writeTo { free := 0, limit := 0 }).length < 2 ^ 32
  rw [hwrite]
  decide

/-- The answers to requests fit when the device information does. -/
theorem fits_answer {ctx : ProxyContext}
    (hinfo : (Response.deviceInfo (deviceInfoResponse ctx)).Fits)
    {msgType : UInt32} {req : RequestType} {resp : Response}
    (h : answer ctx msgType = some (req, resp)) : resp.Fits := by
  have hempty : ∀ {M : Type} (new : M) (eq_new : ∀ m, new = m) (m : M),
      (Schema.empty new eq_new).Fits m ∧ ((Schema.empty new eq_new).writeTo m).length < 2 ^ 32 :=
    fun _ _ _ => ⟨fun f hf => absurd hf List.not_mem_nil,
      show ([] : List UInt8).length < 2 ^ 32 by decide⟩
  unfold answer at h
  split at h
  · obtain ⟨-, rfl⟩ := by simpa using h
    exact fits_hello
  · obtain ⟨-, rfl⟩ := by simpa using h
    exact fits_connect
  · obtain ⟨-, rfl⟩ := by simpa using h
    exact hempty _ _ _
  · obtain ⟨-, rfl⟩ := by simpa using h
    exact hinfo
  · obtain ⟨-, rfl⟩ := by simpa using h
    exact hempty _ _ _
  · obtain ⟨-, rfl⟩ := by simpa using h
    exact fits_bluetoothConnectionsFree
  · contradiction

/-- An advertisement that rust-protobuf can write in both forms. -/
def AdvertFits (adv : BleAdvertisement) : Prop :=
  (Response.bluetoothLEAdvertisement adv.legacy).Fits ∧
    (Response.bluetoothLERawAdvertisements { advertisements := [adv.raw] }).Fits

instance : DecidablePred AdvertFits := fun _ => inferInstanceAs (Decidable (_ ∧ _))

/-- The answers of the law fit when the device info and the advertisements do. -/
theorem fits_lawfulAnswers {ctx : ProxyContext}
    (hinfo : (Response.deviceInfo (deviceInfoResponse ctx)).Fits) {acts : List Act}
    (hadverts : ∀ adv ∈ adverts acts, AdvertFits adv) (past : List Act) :
    ∀ r ∈ lawfulAnswers ctx past acts, r.Fits := by
  induction acts generalizing past with
  | nil => exact fun r hr => absurd hr List.not_mem_nil
  | cons a acts ih =>
      intro r hr
      obtain hr | hr := List.mem_append.mp hr
      · cases a with
        | message msgType payload =>
            rw [answers] at hr
            split at hr
            · next req resp hans =>
                split at hr
                · obtain rfl := List.mem_singleton.mp hr
                  exact fits_answer hinfo hans
                · exact absurd hr List.not_mem_nil
            · exact absurd hr List.not_mem_nil
        | advert adv =>
            have hmem : adv ∈ adverts (.advert adv :: acts) :=
              List.mem_filterMap.mpr ⟨_, List.mem_cons_self, rfl⟩
            obtain ⟨hlegacy, hraw⟩ := hadverts adv hmem
            rw [answers] at hr
            split at hr
            · obtain rfl := List.mem_singleton.mp hr
              exact hraw
            · obtain rfl := List.mem_singleton.mp hr
              exact hlegacy
            · exact absurd hr List.not_mem_nil
        | lagged | write | shutdown => exact absurd hr List.not_mem_nil
      · refine ih (fun adv hadv => hadverts adv ?_) _ r hr
        exact ((List.sublist_cons_self a acts).filterMap _).mem hadv

/-! ## The client's side -/

/-- The answers to what a connection takes fit. -/
theorem fits_delivered {ctx : ProxyContext}
    (hinfo : (Response.deviceInfo (deviceInfoResponse ctx)).Fits) {events : List Event}
    (hadverts : ∀ adv ∈ events.filterMap Event.advert?, AdvertFits adv) :
    ∀ r ∈ lawfulAnswers ctx [] (beforeDisconnect (delivered ctx events).1), r.Fits :=
  fits_lawfulAnswers hinfo (fun adv hadv =>
    hadverts adv ((adverts_delivered ctx events).mem hadv)) []

/-- **What a client decodes**: on every run whose socket calls succeed, a client
that gets the bytes written before a `DisconnectRequest` decodes the answers that
the law gives for what the events deliver, in order, and nothing else; a client
that gets a part of them decodes the first answers.  Without a disconnect the
task goes on, or ends, just as the events and a request that does not parse
say. -/
theorem client_receives {env : Env} (hio : ∀ n, env.io n = true) (ctx : ProxyContext)
    (hinfo : (Response.deviceInfo (deviceInfoResponse ctx)).Fits) (events : List Event)
    (hadverts : ∀ adv ∈ events.filterMap Event.advert?, AdvertFits adv) :
    let run := handleClient env ctx events
    let due := delivered ctx events
    let answers := lawfulAnswers ctx [] (beforeDisconnect due.1)
    let bytes := (sent (beforeDisconnect run.1.client.sock.trace)).flatten
    received bytes = answers.map some ∧
      (∀ part lost, part ++ lost = bytes → received part <+: answers.map some) ∧
      (due.1.any Act.isDisconnect = false → run.2 = due.2) := by
  have hobeys := obeys_handleClient hio ctx events
  have hfits := fits_delivered hinfo hadverts
  dsimp only
  rw [hobeys.sent_eq]
  exact ⟨received_responseFrames hfits, fun part lost => received_part hfits, hobeys.ends⟩

end

/-- The sample run as its client sees it: a ping is answered, and the first
advertisement comes in its raw form. -/
theorem client_receives_sample :
    let run := @handleClient (@generatedProtobuf canonicalRuntime) .quiet sampleContext sampleEvents
    let bytes := (sent (beforeDisconnect run.1.client.sock.trace)).flatten
    @received canonicalRuntime bytes =
        [some (.ping {}), some (.bluetoothLERawAdvertisements { advertisements := [{}] })] ∧
      @received canonicalRuntime (bytes.take 5) = [some (.ping {})] ∧ run.2 = none := by
  have hinfo :
      @Response.Fits canonicalRuntime (.deviceInfo (deviceInfoResponse sampleContext)) := by
    decide +kernel
  have hadvert : @AdvertFits canonicalRuntime ⟨{}, {}⟩ := by decide +kernel
  have hadverts : ∀ adv ∈ sampleEvents.filterMap Event.advert?,
      @AdvertFits canonicalRuntime adv := by
    intro adv hadv
    have heq : ⟨{}, {}⟩ = adv := by simpa [sampleEvents, Event.advert?] using hadv
    exact heq ▸ hadvert
  have hrun := @client_receives canonicalRuntime .quiet (fun _ => rfl) sampleContext hinfo
    sampleEvents hadverts
  have hanswers : @lawfulAnswers (@generatedProtobuf canonicalRuntime) sampleContext []
      (beforeDisconnect
        (@delivered (@generatedProtobuf canonicalRuntime) sampleContext sampleEvents).1) =
      [.ping {}, .bluetoothLERawAdvertisements { advertisements := [{}] }] := by
    decide +kernel
  have hdue : (@delivered (@generatedProtobuf canonicalRuntime) sampleContext sampleEvents).2 =
      none := by
    decide +kernel
  exact ⟨hrun.1.trans (congrArg _ hanswers), by decide +kernel,
    (hrun.2.2 (by decide +kernel)).trans hdue⟩

end LinuxBtProxy
