import LinuxBtProxy.Handlers.Effects

/-!
# LinuxBtProxy.Handlers.Calls

The fallible calls that a handler makes on the socket, in any surroundings.  A
handler `Costs` a number of calls when it succeeds just if the next calls on the
socket, as many as this, succeed.
-/

namespace LinuxBtProxy

namespace Env

variable {env : Env} {first m n : Nat}

/-- The next `n` calls on the socket succeed. -/
def Succeeds (env : Env) (first n : Nat) : Prop :=
  ∀ i < n, env.io (first + i) = true

instance (env : Env) (first n : Nat) : Decidable (env.Succeeds first n) :=
  inferInstanceAs (Decidable (∀ i < n, env.io (first + i) = true))

/-- There is no call that could fail. -/
theorem succeeds_zero : env.Succeeds first 0 := fun i hi => absurd hi (Nat.not_lt_zero i)

/-- One call succeeds if the surroundings let it. -/
theorem succeeds_one : env.Succeeds first 1 ↔ env.io first = true := by
  constructor
  · intro h
    exact h 0 Nat.one_pos
  · intro h i hi
    obtain rfl : i = 0 := by omega
    exact h

/-- Calls are made one after the other. -/
theorem succeeds_add :
    env.Succeeds first (m + n) ↔ env.Succeeds first m ∧ env.Succeeds (first + m) n := by
  constructor
  · intro h
    refine ⟨fun i hi => h i (by omega), fun i hi => ?_⟩
    rw [Nat.add_assoc]
    exact h (m + i) (by omega)
  · rintro ⟨hm, hn⟩ i hi
    by_cases him : i < m
    · exact hm i him
    · have hlast := hn (i - m) (by omega)
      rwa [Nat.add_assoc, Nat.add_sub_cancel' (by omega)] at hlast

/-- The calls that a log line makes: the `peer_addr` if its level is on. -/
def lineCalls (env : Env) (level : Level) : Nat := if env.logEnabled level then 1 else 0

end Env

/-- The handler succeeds when the next `n` calls do, and has made them then; and
otherwise it fails. -/
structure Costs (env : Env) (n : Nat) (handler : Handler Unit) (s : Socket) : Prop where
  ok : env.Succeeds s.calls n → ∃ s', handler s = (.ok (), s') ∧ s'.calls = s.calls + n
  fails : ¬ env.Succeeds s.calls n → ∃ e s', handler s = (.error e, s')

section

variable {env : Env} {s : Socket}

/-- Handlers one after the other. -/
theorem Costs.bind {m n : Nat} {x y : Handler Unit} (hx : Costs env m x s)
    (hy : ∀ s', x s = (.ok (), s') → Costs env n y s') : Costs env (m + n) (do x; y) s := by
  by_cases hm : env.Succeeds s.calls m
  · obtain ⟨s', hrun, hcalls⟩ := hx.ok hm
    have hboth : (do x; y : Handler Unit) s = y s' := by rw [Handler.bind_run, hrun]
    have hsplit : env.Succeeds s.calls (m + n) ↔ env.Succeeds s'.calls n := by
      rw [Env.succeeds_add, hcalls]
      exact and_iff_right hm
    constructor
    · intro h
      obtain ⟨s'', hrun', hcalls'⟩ := (hy s' hrun).ok (hsplit.mp h)
      exact ⟨s'', hboth.trans hrun', by rw [hcalls', hcalls, Nat.add_assoc]⟩
    · intro h
      obtain ⟨e, s'', hrun'⟩ := (hy s' hrun).fails fun hn => h (hsplit.mpr hn)
      exact ⟨e, s'', hboth.trans hrun'⟩
  · obtain ⟨e, s', hrun⟩ := hx.fails hm
    exact
      { ok := fun h => absurd (Env.succeeds_add.mp h).1 hm
        fails := fun _ => ⟨e, s', by rw [Handler.bind_run, hrun]⟩ }

/-- A log line that is on costs one call. -/
theorem logPeer_costs (env : Env) (level : Level) (s : Socket) :
    Costs env (env.lineCalls level) (logPeer env level) s := by
  unfold Env.lineCalls logPeer
  cases env.logEnabled level with
  | false => exact { ok := fun _ => ⟨s, rfl, rfl⟩, fails := fun h => absurd Env.succeeds_zero h }
  | true =>
      rw [if_pos rfl]
      constructor
      · intro h
        exact ⟨_, by rw [if_pos rfl, Env.succeeds_one.mp h]; rfl, rfl⟩
      · intro h
        rw [Env.succeeds_one, Bool.not_eq_true] at h
        exact ⟨_, _, by rw [if_pos rfl, h]; rfl⟩

/-- A write on an open stream costs one call. -/
theorem writeAll_costs (env : Env) (hopen : s.shut = false) (frame : List UInt8) :
    Costs env 1 (writeAll env frame) s := by
  constructor
  · intro h
    rw [Env.succeeds_one] at h
    exact ⟨_, by rw [writeAll, h, hopen]; rfl, rfl⟩
  · intro h
    rw [Env.succeeds_one, Bool.not_eq_true] at h
    exact ⟨_, _, by rw [writeAll, h]; rfl⟩

/-- A shutdown costs one call. -/
theorem shutdownStream_costs (env : Env) (s : Socket) : Costs env 1 (shutdownStream env) s := by
  constructor
  · intro h
    rw [Env.succeeds_one] at h
    exact ⟨_, by rw [shutdownStream, h]; rfl, rfl⟩
  · intro h
    rw [Env.succeeds_one, Bool.not_eq_true] at h
    exact ⟨_, _, by rw [shutdownStream, h]; rfl⟩

/-- A frame behind its log line. -/
theorem logWrite_costs (env : Env) (hopen : s.shut = false) (level : Level) (frame : List UInt8) :
    Costs env (env.lineCalls level + 1) (do logPeer env level; writeAll env frame) s := by
  refine (logPeer_costs env level s).bind fun s' hs' => writeAll_costs env ?_ frame
  have htrace := congrArg (fun r => r.2.trace) hs'
  rw [Socket.shut, ← htrace, logPeer_trace]
  exact hopen

variable [Protobuf]

/-- A request that parses costs its log line and its answer. -/
theorem respond_costs (env : Env) (hopen : s.shut = false) {req : RequestType} (resp : Response)
    {payload : List UInt8} (hparse : Protobuf.parses req payload = true) :
    Costs env (env.lineCalls .info + 1) (respond env req resp payload) s := by
  have hwrite := logWrite_costs env hopen .info (responseFrame resp)
  unfold respond
  rw [hparse]
  exact hwrite

/-- A disconnect costs the shutdown as well. -/
theorem disconnectRequest_costs (env : Env) (hopen : s.shut = false) {payload : List UInt8}
    (hparse : Protobuf.parses .disconnect payload = true) :
    Costs env (env.lineCalls .info + 2) (disconnectRequest env payload) s :=
  (respond_costs env hopen (.disconnect {}) hparse).bind fun s' _ => shutdownStream_costs env s'

/-- A subscription makes the call of its log line, and if that fails it is lost. -/
theorem subscribe_calls (env : Env) (payload : List UInt8) (s : Socket) :
    (subscribeBluetoothLEAdvertisementsRequest env payload s).2.calls =
        s.calls + env.lineCalls .info ∧
      (subscribeBluetoothLEAdvertisementsRequest env payload s).1 =
        if env.Succeeds s.calls (env.lineCalls .info) then
          match Protobuf.parseSubscribe payload with
          | none => .error .parse
          | some req => .ok (SubscriptionFlags.fromFlags req.flags)
        else .error .socket := by
  unfold subscribeBluetoothLEAdvertisementsRequest
  rw [Handler.bind_run]
  unfold logPeer Env.lineCalls
  cases env.logEnabled .info with
  | false =>
      rw [if_neg Bool.false_ne_true, if_neg Bool.false_ne_true, if_pos Env.succeeds_zero]
      cases Protobuf.parseSubscribe payload <;> exact ⟨rfl, rfl⟩
  | true =>
      rw [if_pos rfl, if_pos rfl]
      cases hio : env.io s.calls with
      | false =>
          have hfails : ¬ env.Succeeds s.calls 1 := by simp [Env.succeeds_one, hio]
          exact ⟨rfl, (if_neg hfails).symm⟩
      | true =>
          rw [if_pos (Env.succeeds_one.mpr hio)]
          cases Protobuf.parseSubscribe payload <;> exact ⟨rfl, rfl⟩

end

end LinuxBtProxy
