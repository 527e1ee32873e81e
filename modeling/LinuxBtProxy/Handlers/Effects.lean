import LinuxBtProxy.Handlers

/-!
# LinuxBtProxy.Handlers.Effects

What the handlers do to the trace of the connection.

* `Socket.Appends` — a handler only appends to the trace, and only acts of a
  given kind: `respond_appends`, `disconnectRequest_cases`;
* `writeAll_cases`, `Env.FailsFast.respond` — on an open stream a request that
  parses is answered by one frame, unless its write fails, and a request that
  does not parse by none.
-/

namespace LinuxBtProxy

namespace Act

/-- A message of the client or an event of the broadcast channel. -/
def isInput : Act → Bool
  | .message _ _ | .advert _ | .lagged _ => true
  | .write _ _ | .shutdown _ => false

/-- The attempts to write a frame, successful or not. -/
def isWrite : Act → Bool
  | .write _ _ => true
  | _ => false

/-- A call on the stream that does not shut it down. -/
def leavesOpen : Act → Bool
  | .write _ _ => true
  | .shutdown ok => !ok
  | .message _ _ | .advert _ | .lagged _ => false

/-- A write leaves the stream open. -/
theorem leavesOpen_of_isWrite {a : Act} (h : a.isWrite = true) : a.leavesOpen = true := by
  cases a <;> simp_all [isWrite, leavesOpen]

/-- What leaves the stream open is no shutdown. -/
theorem not_isShutdown_of_leavesOpen {a : Act} (h : a.leavesOpen = true) :
    a.isShutdown = false := by
  cases a <;> simp_all [leavesOpen, isShutdown]

/-- What a handler does with the stream open is no input. -/
theorem not_isInput_of_leavesOpen {a : Act} (h : a.leavesOpen = true) : a.isInput = false := by
  cases a <;> simp_all [leavesOpen, isInput]

end Act

namespace Socket

/-- Only a shutdown shuts the stream. -/
@[simp] theorem shut_record (s : Socket) (act : Act) :
    (s.record act).shut = (s.shut || act.isShutdown) := by
  simp [shut]

/-! ## Traces only grow -/

/-- The second trace is the first with acts of the given kind behind it. -/
def Appends (p : Act → Bool) (s s' : Socket) : Prop :=
  ∃ acts, s'.trace = s.trace ++ acts ∧ ∀ a ∈ acts, p a = true

/-- Nothing is appended by doing nothing. -/
theorem Appends.refl (p : Act → Bool) (s : Socket) : Appends p s s :=
  ⟨[], by simp⟩

/-- Acts appended one after the other are appended together. -/
theorem Appends.trans {p : Act → Bool} {s s' s'' : Socket} (h : Appends p s s')
    (h' : Appends p s' s'') : Appends p s s'' := by
  obtain ⟨acts, htrace, hacts⟩ := h
  obtain ⟨acts', htrace', hacts'⟩ := h'
  have hall : ∀ a ∈ acts ++ acts', p a = true := by
    simp only [List.mem_append]
    grind
  exact ⟨acts ++ acts', by rw [htrace', htrace, List.append_assoc], hall⟩

/-- A wider kind of acts is appended as well. -/
theorem Appends.mono {p q : Act → Bool} (hpq : ∀ a, p a = true → q a = true) {s s' : Socket}
    (h : Appends p s s') : Appends q s s' := by
  obtain ⟨acts, htrace, hacts⟩ := h
  exact ⟨acts, htrace, fun a ha => hpq a (hacts a ha)⟩

/-- Writes leave the stream open. -/
theorem Appends.leavesOpen {s s' : Socket} (h : Appends Act.isWrite s s') :
    Appends Act.leavesOpen s s' :=
  h.mono fun _ => Act.leavesOpen_of_isWrite

/-- A stream is left as open as it was. -/
theorem Appends.shut_eq {s s' : Socket} (h : Appends Act.leavesOpen s s') : s'.shut = s.shut := by
  obtain ⟨acts, htrace, hacts⟩ := h
  have hnone : acts.any Act.isShutdown = false := by
    rw [List.any_eq_false]
    intro a ha
    simp [Act.not_isShutdown_of_leavesOpen (hacts a ha)]
  rw [shut, htrace, List.any_append, hnone, Bool.or_false, shut]

end Socket

open Socket

/-! ## What each call appends -/

section Appends

variable {α β : Type} {p : Act → Bool}

/-- Handlers in sequence append what each appends. -/
theorem bind_appends {x : Handler α} {f : α → Handler β} {s : Socket}
    (hx : Appends p s (x s).2) (hf : ∀ a s', Appends p s' (f a s').2) :
    Appends p s ((x >>= f) s).2 := by
  rw [Handler.bind_run]
  cases hxs : x s with
  | mk r s' =>
      rw [hxs] at hx
      cases r with
      | ok a => exact hx.trans (hf a s')
      | error e => exact hx

/-- A log line with the peer's address leaves no trace. -/
@[simp] theorem logPeer_trace (env : Env) (level : Level) (s : Socket) :
    (logPeer env level s).2.trace = s.trace := by
  unfold logPeer
  split <;> rfl

/-- A log line appends nothing, whether its call fails or not. -/
theorem logPeer_appends (env : Env) (level : Level) (s : Socket) :
    Appends p s (logPeer env level s).2 :=
  ⟨[], by simp⟩

/-- `write_all` appends its own attempt. -/
theorem writeAll_appends (env : Env) (frame : List UInt8) (s : Socket) :
    Appends Act.isWrite s (writeAll env frame s).2 :=
  ⟨[.write frame (env.io s.calls && !s.shut)], rfl, by simp [Act.isWrite]⟩

/-- No write succeeds after the shutdown. -/
theorem logWrite_of_shut (env : Env) {s : Socket} (hs : s.shut = true) (level : Level)
    (frame : List UInt8) :
    ∃ e s', (do logPeer env level; writeAll env frame : Handler Unit) s = (.error e, s') := by
  rw [Handler.bind_run]
  cases hlog : logPeer env level s with
  | mk r s' =>
      cases r with
      | error e => exact ⟨e, s', rfl⟩
      | ok u =>
          have htrace := congrArg (fun r => r.2.trace) hlog
          have hs' : s'.shut = true := by
            rw [Socket.shut, ← htrace, logPeer_trace]
            exact hs
          exact ⟨.socket, (writeAll env frame s').2, by simp [writeAll, hs']⟩

variable [Protobuf]

/-- A request handler appends the writes of its response and nothing else. -/
theorem respond_appends (env : Env) (req : RequestType) (resp : Response) (payload : List UInt8)
    (s : Socket) : Appends Act.isWrite s (respond env req resp payload s).2 := by
  refine bind_appends (logPeer_appends env .info s) fun _ s' => ?_
  split
  · exact writeAll_appends env (responseFrame resp) s'
  · exact Appends.refl Act.isWrite s'

/-- Subscribing appends nothing but writes; it makes none. -/
theorem subscribe_appends (env : Env) (payload : List UInt8) (s : Socket) :
    Appends Act.isWrite s (subscribeBluetoothLEAdvertisementsRequest env payload s).2 := by
  refine bind_appends (logPeer_appends env .info s) fun _ s' => ?_
  cases Protobuf.parseSubscribe payload with
  | none => exact Appends.refl Act.isWrite s'
  | some req => exact Appends.refl Act.isWrite s'

/-- The disconnect handler fails with nothing shut down, or shuts the stream
down as the last thing it does. -/
theorem disconnectRequest_cases (env : Env) (payload : List UInt8) (s : Socket) :
    (∃ e s', disconnectRequest env payload s = (.error e, s') ∧
        Appends Act.leavesOpen s s') ∨
      ∃ s', disconnectRequest env payload s = (.ok (), s'.record (.shutdown true)) ∧
        Appends Act.isWrite s s' := by
  have hresp := respond_appends env .disconnect (.disconnect {}) payload s
  unfold disconnectRequest
  rw [Handler.bind_run]
  cases hr : respond env .disconnect (.disconnect {}) payload s with
  | mk r s' =>
      rw [hr] at hresp
      cases r with
      | error e => exact .inl ⟨e, s', rfl, hresp.leavesOpen⟩
      | ok u =>
          cases hio : env.io s'.calls with
          | false =>
              have hfail : Appends Act.leavesOpen s'
                  ({ s' with calls := s'.calls + 1 }.record (.shutdown false)) :=
                ⟨[.shutdown false], rfl, by simp [Act.leavesOpen]⟩
              exact .inl ⟨.socket, _, by simp [shutdownStream, hio], hresp.leavesOpen.trans hfail⟩
          | true =>
              exact .inr ⟨{ s' with calls := s'.calls + 1 }, by simp [shutdownStream, hio], hresp⟩

/-- A request that does not parse fails, on any stream. -/
theorem respond_of_refused (env : Env) {req : RequestType} (resp : Response) {payload : List UInt8}
    (h : Protobuf.parses req payload = false) (s : Socket) :
    ∃ e s', respond env req resp payload s = (.error e, s') := by
  rw [respond, Handler.bind_run, h]
  cases logPeer env .info s with
  | mk r s' =>
      cases r with
      | error e => exact ⟨e, s', rfl⟩
      | ok u => exact ⟨.parse, s', rfl⟩

end Appends

/-! ## Calls on an open stream -/

/-- A call on the socket that fails ends the task: no call fails, or the line of
the subscription handler, whose failure is passed over, is not logged. -/
def Env.FailsFast (env : Env) : Prop :=
  (∀ n, env.io n = true) ∨ env.logEnabled .info = false

section Open

variable {env : Env} {s : Socket}

/-- A log line leaves the trace alone and makes at most one call. -/
theorem logPeer_cases (env : Env) (level : Level) (s : Socket) :
    (∃ n, logPeer env level s = (.ok (), { s with calls := n })) ∨
      env.io s.calls = false ∧
        logPeer env level s = (.error .socket, { s with calls := s.calls + 1 }) := by
  unfold logPeer
  split
  · cases hio : env.io s.calls with
    | true => exact .inl ⟨s.calls + 1, rfl⟩
    | false => exact .inr ⟨rfl, rfl⟩
  · exact .inl ⟨s.calls, rfl⟩

/-- The line that precedes every answer does not fail by itself. -/
theorem Env.FailsFast.logPeer_info (h : env.FailsFast) (s : Socket) :
    ∃ n, logPeer env .info s = (.ok (), { s with calls := n }) := by
  unfold logPeer
  obtain hio | hlog := h
  · split
    · exact ⟨s.calls + 1, by simp [hio]⟩
    · exact ⟨s.calls, rfl⟩
  · exact ⟨s.calls, by rw [hlog]; rfl⟩

/-- On an open stream a frame is written, or the write fails. -/
theorem writeAll_cases (env : Env) (hs : s.shut = false) (frame : List UInt8) :
    writeAll env frame s = (.ok (), ⟨s.calls + 1, s.trace ++ [.write frame true]⟩) ∨
      env.io s.calls = false ∧
        writeAll env frame s =
          (.error .socket, ⟨s.calls + 1, s.trace ++ [.write frame false]⟩) := by
  cases hio : env.io s.calls with
  | true => exact .inl (by simp [writeAll, hio, hs, record])
  | false => exact .inr ⟨rfl, by simp [writeAll, hio, record]⟩

variable [Protobuf]

/-- A request is answered when it parses, and else its handler fails. -/
theorem Env.FailsFast.respond (h : env.FailsFast) (req : RequestType) (resp : Response)
    (payload : List UInt8) (s : Socket) :
    ∃ n, LinuxBtProxy.respond env req resp payload s =
      if Protobuf.parses req payload then writeAll env (responseFrame resp) { s with calls := n }
      else (.error .parse, { s with calls := n }) := by
  obtain ⟨n, hlog⟩ := h.logPeer_info s
  refine ⟨n, ?_⟩
  rw [LinuxBtProxy.respond, Handler.bind_run, hlog]
  dsimp only
  split <;> rfl

/-- A subscription is taken when it parses. -/
theorem Env.FailsFast.subscribe (h : env.FailsFast) (payload : List UInt8) (s : Socket) :
    ∃ n, subscribeBluetoothLEAdvertisementsRequest env payload s =
      (match Protobuf.parseSubscribe payload with
        | none => .error .parse
        | some req => .ok (SubscriptionFlags.fromFlags req.flags), { s with calls := n }) := by
  obtain ⟨n, hlog⟩ := h.logPeer_info s
  refine ⟨n, ?_⟩
  rw [subscribeBluetoothLEAdvertisementsRequest, Handler.bind_run, hlog]
  dsimp only
  cases Protobuf.parseSubscribe payload <;> rfl

end Open

/-- Flags that are both off are no subscription. -/
theorem SubscriptionFlags.eq_none {flags : SubscriptionFlags} (hreg : flags.regular = false)
    (hraw : flags.raw = false) : flags = .none := by
  obtain ⟨regular, raw⟩ := flags
  subst hreg hraw
  rfl

/-- Bit 0 of the flags selects the raw form; otherwise it is the legacy form. -/
theorem SubscriptionFlags.fromFlags_eq (flags : UInt32) :
    fromFlags flags = if flags.toNat.testBit 0 then ⟨false, true⟩ else ⟨true, false⟩ := by
  have hmask : (flags &&& SUBSCRIPTION_RAW_ADVERTISEMENTS).toNat = flags.toNat % 2 := by
    rw [UInt32.toNat_and]
    exact Nat.and_one_is_mod flags.toNat
  have hzero : (flags &&& SUBSCRIPTION_RAW_ADVERTISEMENTS) = 0 ↔ flags.toNat % 2 = 0 := by
    rw [← UInt32.toNat_inj, hmask]
    rfl
  have hflags : flags = 0 → flags.toNat % 2 = 0 := by
    intro h
    rw [h]
    rfl
  unfold fromFlags
  rw [Nat.testBit_zero]
  grind

/-! ## Concrete surroundings -/

/-- What rust-protobuf writes for a response whose fields all have their default
values: nothing, or an empty submessage for the one advertisement it holds. -/
def defaultResponseBytes : Response → List UInt8
  | .bluetoothLERawAdvertisements _ => [0x0A, 0x00]
  | _ => []

/-- rust-protobuf on empty requests, on subscriptions with flags below 128, and
on responses whose fields all have their default values. -/
@[reducible] def defaultProtobuf : Protobuf where
  parses _ payload := payload == []
  parseSubscribe
    | [] => some {}
    | [0x08, flags] => if flags < 0x80 then some { flags := flags.toUInt32 } else none
    | _ => none
  response :=
    { computeSize := fun resp => UInt64.ofNat (defaultResponseBytes resp).length
      writeToWriter := defaultResponseBytes }

/-- No logging, and no socket call fails by itself. -/
def Env.quiet : Env where
  logEnabled _ := false
  io _ := true

/-- A proxy named `pi`, for the runs on fixed events. -/
def sampleContext : ProxyContext where
  hostname := "pi"
  port := 6053
  netMac := ⟨#[0x02, 0, 0, 0, 0, 0x01], rfl⟩
  btMac := ⟨#[0x02, 0, 0, 0, 0, 0x02], rfl⟩
  buildTime := ""
  version := ""

end LinuxBtProxy
