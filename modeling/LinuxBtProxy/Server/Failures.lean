import Mathlib.Data.List.Basic
import LinuxBtProxy.Server.Client

/-!
# LinuxBtProxy.Server.Failures

The law of the trace when calls on the socket fail, and what the client decodes
then.

A failed write or a failed `peer_addr` ends `handle_client`
(`follows_handleClient`), so the trace is the lawful one up to its end, and there
at most one write is missing (`trace_of_failures`).  A client that gets the
bytes, of the write that fails as well, misses no answer in between
(`received_of_failures`).
-/

namespace LinuxBtProxy

section

variable [Protobuf] {env : Env}

/-- The frames of the writes, of the one that fails as well. -/
def attempted (trace : List Act) : List (List UInt8) :=
  trace.filterMap fun
    | .write frame _ => some frame
    | _ => none

omit [Protobuf] in
theorem attempted_append (trace acts : List Act) :
    attempted (trace ++ acts) = attempted trace ++ attempted acts :=
  List.filterMap_append

theorem attempted_lawfulTrace (ctx : ProxyContext) {acts : List Act}
    (h : ∀ a ∈ acts, a.isInput = true) (past : List Act) :
    attempted (lawfulTrace ctx past acts) = (lawfulAnswers ctx past acts).map responseFrame := by
  have hok : ∀ frame, Act.write frame false ∉ lawfulTrace ctx past acts := by
    intro frame
    induction acts generalizing past with
    | nil => exact List.not_mem_nil
    | cons a acts ih =>
        obtain ⟨ha, hacts⟩ := List.forall_mem_cons.mp h
        have hne : Act.write frame false ≠ a := by
          rintro rfl
          contradiction
        simp [lawfulTrace, hne, ih hacts]
  rw [← sent_lawfulTrace ctx h]
  refine List.filterMap_congr fun a ha => ?_
  cases a with
  | write frame ok =>
      cases ok with
      | true => rfl
      | false => exact absurd ha (hok frame)
  | message | advert | lagged | shutdown => rfl

omit [Protobuf] in
/-- A part of a trace attempts the first of its frames. -/
theorem CutOf.attempted {law part : List Act} (h : CutOf law part) :
    LinuxBtProxy.attempted part <+: LinuxBtProxy.attempted law := by
  obtain h | ⟨front, frame, rfl, h⟩ := h
  · exact h.filterMap _
  · refine List.IsPrefix.trans ?_ (h.filterMap _)
    rw [attempted_append]
    exact (attempted_append front [.write frame true]).symm ▸ List.prefix_rfl

/-- What was attempted before a `DisconnectRequest` are the first frames of the
law, and all of them unless the task has ended with the failure of its last call. -/
theorem attempted_handleClient (hfast : env.FailsFast) (ctx : ProxyContext)
    (events : List Event) :
    let run := handleClient env ctx events
    let frames := (lawfulAnswers ctx [] (beforeDisconnect (delivered ctx events).1)).map
      responseFrame
    attempted (beforeDisconnect run.1.client.sock.trace) <+: frames ∧
      (attempted (beforeDisconnect run.1.client.sock.trace) = frames ∨
        (run.2 = some (.err .socket) ∧
          ∃ n, run.1.client.sock.calls = n + 1 ∧ env.io n = false)) := by
  have hin : ∀ a ∈ beforeDisconnect (delivered ctx events).1, a.isInput = true :=
    fun a ha => isInput_beforeDisconnect ha
  have hlaw := attempted_lawfulTrace ctx hin []
  dsimp only
  rw [← hlaw]
  obtain h | h := follows_handleClient hfast ctx events
  · rw [h.law]
    exact ⟨List.prefix_rfl, .inl rfl⟩
  · exact ⟨h.law.attempted, .inr ⟨h.ends, h.call⟩⟩

end

section

variable [ProtobufRuntime]

/-- From a part of the bytes the first answers of the law are decoded. -/
theorem received_handleClient {env : Env} (hfast : env.FailsFast) {ctx : ProxyContext}
    {events : List Event}
    (hfits : ∀ r ∈ lawfulAnswers ctx [] (beforeDisconnect (delivered ctx events).1), r.Fits)
    {bytes : List UInt8}
    (hbytes : bytes <+:
      (attempted (beforeDisconnect (handleClient env ctx events).1.client.sock.trace)).flatten) :
    received bytes <+:
      (lawfulAnswers ctx [] (beforeDisconnect (delivered ctx events).1)).map some := by
  obtain ⟨lost, hlost⟩ := hbytes
  obtain ⟨missing, hmissing⟩ := (attempted_handleClient hfast ctx events).1
  have hsplit : bytes ++ (lost ++ missing.flatten) =
      ((lawfulAnswers ctx [] (beforeDisconnect (delivered ctx events).1)).map
        responseFrame).flatten := by
    rw [← List.append_assoc, hlost, ← List.flatten_append]
    exact congrArg List.flatten hmissing
  exact received_part hfits hsplit

/-- **What a client decodes under failures**: whichever socket calls fail, and
however much of the last frame was written, a client that gets a part of the
bytes of the writes before a `DisconnectRequest` decodes the first answers that
the law gives for what the events deliver: it misses none in between, and gets
none that is damaged.  From all the bytes it decodes all of them, or the task has
ended with the failure of the last call that it made. -/
theorem received_of_failures {env : Env} (hfast : env.FailsFast)
    (ctx : ProxyContext) (hinfo : (Response.deviceInfo (deviceInfoResponse ctx)).Fits)
    (events : List Event)
    (hadverts : ∀ adv ∈ events.filterMap Event.advert?, AdvertFits adv) :
    let run := handleClient env ctx events
    let bytes := (attempted (beforeDisconnect run.1.client.sock.trace)).flatten
    let answers := lawfulAnswers ctx [] (beforeDisconnect (delivered ctx events).1)
    (∀ part, part <+: bytes → received part <+: answers.map some) ∧
      (received bytes = answers.map some ∨
        (run.2 = some (.err .socket) ∧
          ∃ n, run.1.client.sock.calls = n + 1 ∧ env.io n = false)) := by
  have hfits := fits_delivered hinfo hadverts
  refine ⟨fun part => received_handleClient hfast hfits, ?_⟩
  obtain hall | hfailed := (attempted_handleClient hfast ctx events).2
  · rw [hall]
    exact .inl (received_responseFrames hfits)
  · exact .inr hfailed

end

/-- The second call on the socket fails. -/
def Env.failing : Env where
  logEnabled _ := false
  io n := n != 1

/-- Three pings; the second answer is not written. -/
def failingEvents : List Event := [.read [0x00, 0x00, 0x07, 0x00, 0x00, 0x07, 0x00, 0x00, 0x07]]

/-- Where the level is on, a subscription can be lost in its log line, and the run
goes on without it. -/
example :
    let run := @handleClient defaultProtobuf { logEnabled := fun _ => true, io := fun n => n != 0 }
      sampleContext [.read [0x00, 0x02, 0x42, 0x08, 0x01], .advert ⟨{}, {}⟩]
    run.2 = none ∧
      run.1.client.sock.trace = [.message 0x42 [0x08, 0x01], .advert ⟨{}, {}⟩] := by
  decide +kernel

/-- Half of the second answer is written, and the client decodes the first. -/
theorem received_of_failures_sample :
    @received canonicalRuntime [0x00, 0x00, 0x08, 0x00, 0x00] = [some (.ping {})] ∧
    @received canonicalRuntime [0x00, 0x00, 0x08, 0x00, 0x00] <+:
      (@lawfulAnswers (@generatedProtobuf canonicalRuntime) sampleContext []
        (beforeDisconnect (@delivered (@generatedProtobuf canonicalRuntime) sampleContext
          failingEvents).1)).map some := by
  have hadverts : ∀ adv ∈ failingEvents.filterMap Event.advert?,
      @AdvertFits canonicalRuntime adv :=
    fun adv hadv => absurd hadv List.not_mem_nil
  have hrun := @received_of_failures canonicalRuntime .failing (Or.inr rfl) sampleContext
    (by decide +kernel) failingEvents hadverts
  exact ⟨by decide +kernel, hrun.1 [0x00, 0x00, 0x08, 0x00, 0x00] (by decide +kernel)⟩

end LinuxBtProxy
