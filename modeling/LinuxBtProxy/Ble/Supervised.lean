import LinuxBtProxy.Ble.Losses
import LinuxBtProxy.Lib.Backoff

/-!
# LinuxBtProxy.Ble.Supervised

The task that keeps the listener running: `run_supervised` of `src/ble.rs`, which
starts the listener again whenever it returns.

The input of a run is a list of attempts, one for each iteration of the loop:
what the calls of the listener answer, the signals that it gets, and how long it
ran.
-/

namespace LinuxBtProxy

/-! ## An attempt -/

/-- The replies to the listener up to its loop.  The match rules are built from
valid names. -/
structure Setup where
  connection : Except ZbusError Unit
  adapterStream : Except ZbusError Unit
  propsStream : Except ZbusError Unit
  ifaceStream : Except ZbusError Unit
  discovery : DiscoveryReply

/-- The calls that set up the three streams; the first that fails ends the listener.
-/
def Setup.streams (setup : Setup) : Except ZbusError Unit := do
  setup.connection
  setup.adapterStream
  setup.propsStream
  setup.ifaceStream

/-- One run of the listener, and what `started.elapsed()` says after it. -/
structure Attempt (V : Type) where
  setup : Setup
  events : List (BusEvent V)
  ranFor : Duration

section

variable {V : Type} [Variant V]

/-- `run_bluez_advertisement_listener`: the set-up, then the loop. -/
def runBluezAdvertisementListener (adapterIndex : UInt16) (setup : Setup)
    (events : List (BusEvent V)) : List Output × Option ListenerExit :=
  match setup.streams with
  | .error e => ([], some (.err e))
  | .ok () => runListener adapterIndex setup.discovery events

end

/-! ## The supervisor -/

/-- The first wait. -/
def INITIAL_BACKOFF : Duration := .fromSecs 1

/-- The longest wait. -/
def MAX_BACKOFF : Duration := .fromSecs 30

/-- A listener that ran for so long starts over with the first wait. -/
def HEALTHY_RUN_THRESHOLD : Duration := .fromSecs 60

/-- What the supervisor does, the outputs of its listener among it. -/
inductive Supervision where
  | listener (output : Output)
  | notify (status : String)
  | sleep (duration : Duration)
deriving DecidableEq

/-- The wait that comes next, and what has been done. -/
structure Supervisor where
  backoff : Duration
  done : List Supervision

/-- Why the loop takes no further attempt: the listener has not returned, or the
task has panicked, in the listener or in `backoff * 2`. -/
inductive SupervisorExit where
  | listening
  | panic (p : Panic)
  | overflow
deriving DecidableEq

/-- What systemd is told before a wait. -/
def retryStatus (backoff : Duration) : String :=
  "BLE listener down, retrying in " ++ toString backoff.asSecs.toNat ++ "s"

section

variable {V : Type} [Variant V]

/-- One iteration of the loop.  The listener has no way to return `Ok`. -/
def supervisedStep (adapterIndex : UInt16) (s : Supervisor) (a : Attempt V) :
    Supervisor × Option SupervisorExit :=
  let (outputs, result) := runBluezAdvertisementListener adapterIndex a.setup a.events
  let done := s.done ++ outputs.map .listener
  match result with
  | none => ({ s with done }, some .listening)
  | some (.panic p) => ({ s with done }, some (.panic p))
  | some (.err _) =>
      let backoff := if HEALTHY_RUN_THRESHOLD ≤ a.ranFor then INITIAL_BACKOFF else s.backoff
      let done := done ++ [.notify (retryStatus backoff), .sleep backoff]
      match backoff.mul 2 with
      | some doubled => ({ backoff := min doubled MAX_BACKOFF, done }, none)
      | none => ({ backoff, done }, some .overflow)

/-- `run_supervised`, over any number of attempts. -/
def runSupervised (adapterIndex : UInt16) (attempts : List (Attempt V)) :
    Supervisor × Option SupervisorExit :=
  Reactive.run (supervisedStep adapterIndex) { backoff := INITIAL_BACKOFF, done := [] } attempts

/-! ## How attempts end -/

namespace Attempt

/-- The listener ran for at least sixty seconds. -/
def healthy (a : Attempt V) : Bool := decide (60 * 10 ^ 9 ≤ a.ranFor.nanos)

/-- The listener of an attempt. -/
def run (adapterIndex : UInt16) (a : Attempt V) : List Output × Option ListenerExit :=
  runBluezAdvertisementListener adapterIndex a.setup a.events

/-- The listener has returned its error. -/
def failed (adapterIndex : UInt16) (a : Attempt V) : Bool :=
  match (a.run adapterIndex).2 with
  | some (.err _) => true
  | _ => false

/-- Where an attempt that has not failed leaves the supervisor. -/
def exit (adapterIndex : UInt16) (a : Attempt V) : SupervisorExit :=
  match (a.run adapterIndex).2 with
  | some (.panic p) => .panic p
  | _ => .listening

/-- An attempt that stays is still listening, unless it has panicked. -/
theorem run_eq_none_of_listening {adapterIndex : UInt16} {a : Attempt V}
    (hfailed : a.failed adapterIndex = false) (hexit : a.exit adapterIndex = .listening) :
    (a.run adapterIndex).2 = none := by
  unfold failed at hfailed
  unfold exit at hexit
  rcases hrun : (a.run adapterIndex).2 with _ | (e | p)
  · rfl
  · rw [hrun] at hfailed
    contradiction
  · rw [hrun] at hexit
    contradiction

end Attempt

/-! ## The backoff -/

/-- The delay after `n` retries. -/
def delayAfter (n : Nat) : Duration := .fromSecs (UInt64.ofNat (Backoff.delay 1 30 n))

/-- The seconds of a delay fit in a `u64`. -/
theorem toNat_delay (n : Nat) :
    (UInt64.ofNat (Backoff.delay 1 30 n)).toNat = Backoff.delay 1 30 n := by
  have hle : Backoff.delay 1 30 n ≤ 30 := Backoff.delay_le 1 30 n
  exact UInt64.toNat_ofNat_of_lt' (Nat.lt_of_le_of_lt hle (by decide))

/-- The wait in nanoseconds. -/
theorem nanos_delayAfter (n : Nat) :
    (delayAfter n).nanos = Backoff.delay 1 30 n * 10 ^ 9 :=
  congrArg (· * 10 ^ 9) (toNat_delay n)

/-- The status names the whole delay, which is a number of seconds. -/
theorem retryStatus_delayAfter (n : Nat) :
    retryStatus (delayAfter n) =
      "BLE listener down, retrying in " ++ toString (Backoff.delay 1 30 n) ++ "s" := by
  have hsecs : (delayAfter n).asSecs.toNat = Backoff.delay 1 30 n := by
    rw [delayAfter, Duration.asSecs_fromSecs, toNat_delay]
  exact congrArg (fun secs : Nat => "BLE listener down, retrying in " ++ toString secs ++ "s") hsecs

/-- The first wait is the one before any doubling. -/
theorem INITIAL_BACKOFF_eq : INITIAL_BACKOFF = delayAfter 0 := by
  refine Duration.ext ?_
  rw [nanos_delayAfter, Backoff.delay_zero (by decide)]
  rfl

/-- `(backoff * 2).min(MAX_BACKOFF)` does not overflow. -/
theorem doubled_delayAfter (n : Nat) :
    ∃ doubled, (delayAfter n).mul 2 = some doubled ∧
      min doubled MAX_BACKOFF = delayAfter (n + 1) := by
  have hnanos := nanos_delayAfter n
  have hle : Backoff.delay 1 30 n ≤ 30 := Backoff.delay_le 1 30 n
  have hlt : (delayAfter n).nanos * (2 : UInt32).toNat < 2 ^ 64 * 10 ^ 9 := by
    rw [hnanos]
    show Backoff.delay 1 30 n * 10 ^ 9 * 2 < _
    omega
  refine ⟨_, Duration.mul_of_lt hlt, Duration.ext ?_⟩
  have hnext := Backoff.delay_mul_two 1 30 n
  rw [Duration.nanos_min, nanos_delayAfter (n + 1), ← hnext]
  show min ((delayAfter n).nanos * 2) (30 * 10 ^ 9) = _
  omega

/-- No delay is shorter than a second or longer than thirty. -/
theorem delayAfter_bounds (n : Nat) :
    Duration.fromSecs 1 ≤ delayAfter n ∧ delayAfter n ≤ Duration.fromSecs 30 := by
  have hnanos := nanos_delayAfter n
  have hfirst : 1 ≤ Backoff.delay 1 30 n := Backoff.first_le_delay (by decide) n
  have hle : Backoff.delay 1 30 n ≤ 30 := Backoff.delay_le 1 30 n
  constructor
  · show 1 * 10 ^ 9 ≤ (delayAfter n).nanos
    omega
  · show (delayAfter n).nanos ≤ 30 * 10 ^ 9
    omega

/-- The seconds that follow these attempts: one, doubled for every retry since the
last healthy attempt, and at most thirty. -/
def retrySecs (attempts : List (Attempt V)) : Nat :=
  Backoff.delay 1 30 (Backoff.streak Attempt.healthy attempts)

omit [Variant V] in
/-- The wait that follows an attempt is known from those before it and how long it
ran. -/
theorem delayAfter_streak (past : List (Attempt V)) (a : Attempt V) :
    delayAfter (Backoff.streak Attempt.healthy (past ++ [a])) =
      if HEALTHY_RUN_THRESHOLD ≤ a.ranFor then INITIAL_BACKOFF
      else delayAfter (Backoff.retries Attempt.healthy past) := by
  have hhealthy : a.healthy = decide (HEALTHY_RUN_THRESHOLD ≤ a.ranFor) := rfl
  rw [Backoff.streak_append_singleton, INITIAL_BACKOFF_eq, hhealthy]
  by_cases h : HEALTHY_RUN_THRESHOLD ≤ a.ranFor <;> simp [h]

/-! ## Whole runs -/

/-- What an attempt that fails does: the outputs of the listener, and the status
and the wait of the retry. -/
def report (adapterIndex : UInt16) (past : List (Attempt V)) (a : Attempt V) :
    List Supervision :=
  (a.run adapterIndex).1.map .listener ++
    [.notify ("BLE listener down, retrying in " ++ toString (retrySecs (past ++ [a])) ++ "s"),
      .sleep (.fromSecs (UInt64.ofNat (retrySecs (past ++ [a]))))]

/-- Attempts that all fail, one after the other. -/
def reports (adapterIndex : UInt16) (past : List (Attempt V)) :
    List (Attempt V) → List Supervision
  | [] => []
  | a :: attempts => report adapterIndex past a ++ reports adapterIndex (past ++ [a]) attempts

/-- The counter after these attempts. -/
def Counts (past : List (Attempt V)) (s : Supervisor) : Prop :=
  s.backoff = delayAfter (Backoff.retries Attempt.healthy past)

variable {adapterIndex : UInt16} {past : List (Attempt V)} {s : Supervisor} {a : Attempt V}

/-- After an attempt that fails the supervisor reports, waits and goes on. -/
theorem supervisedStep_of_failed (hs : Counts past s) (h : a.failed adapterIndex = true) :
    ∃ s', supervisedStep adapterIndex s a = (s', none) ∧
      s'.done = s.done ++ report adapterIndex past a ∧ Counts (past ++ [a]) s' := by
  have hreset : (if HEALTHY_RUN_THRESHOLD ≤ a.ranFor then INITIAL_BACKOFF else s.backoff) =
      delayAfter (Backoff.streak Attempt.healthy (past ++ [a])) := by
    rw [delayAfter_streak, hs]
  have hstatus := retryStatus_delayAfter (Backoff.streak Attempt.healthy (past ++ [a]))
  obtain ⟨doubled, hmul, hmin⟩ :=
    doubled_delayAfter (Backoff.streak Attempt.healthy (past ++ [a]))
  cases hrun : a.run adapterIndex with
  | mk outputs exit =>
      unfold Attempt.failed at h
      rw [hrun] at h
      rcases exit with _ | (e | p)
      · contradiction
      · refine ⟨{ backoff := min doubled MAX_BACKOFF
                  done := s.done ++ report adapterIndex past a }, ?_, rfl, ?_⟩
        · unfold supervisedStep report
          rw [Attempt.run] at hrun
          simp only [hrun, hreset]
          rw [hmul, hstatus, Attempt.run, hrun, List.append_assoc]
          rfl
        · rw [Counts, hmin, Backoff.retries_append_singleton]
      · contradiction

/-- An attempt that does not fail is the last. -/
theorem supervisedStep_of_not_failed (s : Supervisor) (h : a.failed adapterIndex = false) :
    supervisedStep adapterIndex s a =
      ({ s with done := s.done ++ (a.run adapterIndex).1.map .listener },
        some (a.exit adapterIndex)) := by
  unfold supervisedStep Attempt.exit
  unfold Attempt.failed at h
  rw [← Attempt.run]
  rcases hrun : a.run adapterIndex with ⟨outputs, _ | (e | p)⟩
  · rfl
  · rw [hrun] at h
    contradiction
  · rfl

/-- By induction on the attempts: the wait is the one that the retries count. -/
theorem run_supervisedStep (hs : Counts past s) (attempts : List (Attempt V)) :
    (Reactive.run (supervisedStep adapterIndex) s attempts).1.done =
        s.done ++ reports adapterIndex past (attempts.takeWhile (·.failed adapterIndex)) ++
          ((attempts.dropWhile (·.failed adapterIndex)).head?.elim []
            fun a => (a.run adapterIndex).1.map .listener) ∧
      (Reactive.run (supervisedStep adapterIndex) s attempts).2 =
        (attempts.dropWhile (·.failed adapterIndex)).head?.map (·.exit adapterIndex) := by
  induction attempts generalizing past s with
  | nil => simp [reports]
  | cons a attempts ih =>
      cases h : a.failed adapterIndex with
      | true =>
          obtain ⟨s', hstep, hdone, hcounts⟩ := supervisedStep_of_failed hs h
          obtain ⟨houtputs, hexit⟩ := ih hcounts
          rw [Reactive.run_cons_of_continue hstep, List.takeWhile_cons_of_pos h,
            List.dropWhile_cons_of_pos h]
          refine ⟨?_, hexit⟩
          rw [houtputs, hdone, reports]
          simp only [List.append_assoc]
      | false =>
          have hnot : ¬ a.failed adapterIndex = true := by simp [h]
          rw [Reactive.run_cons_of_stop (supervisedStep_of_not_failed s h),
            List.takeWhile_cons_of_neg hnot, List.dropWhile_cons_of_neg hnot]
          simp [reports]

omit [Variant V] in
/-- Before any attempt the wait is the first one. -/
theorem counts_nil : Counts ([] : List (Attempt V)) { backoff := INITIAL_BACKOFF, done := [] } :=
  INITIAL_BACKOFF_eq

/-- What the supervisor does: its reports, then the outputs of the last listener. -/
theorem done_runSupervised (adapterIndex : UInt16) (attempts : List (Attempt V)) :
    (runSupervised adapterIndex attempts).1.done =
      reports adapterIndex [] (attempts.takeWhile (·.failed adapterIndex)) ++
        ((attempts.dropWhile (·.failed adapterIndex)).head?.elim []
          fun a => (a.run adapterIndex).1.map .listener) :=
  (run_supervisedStep counts_nil attempts).1

/-- How the supervisor stands: by the first attempt that does not fail. -/
theorem exit_runSupervised (adapterIndex : UInt16) (attempts : List (Attempt V)) :
    (runSupervised adapterIndex attempts).2 =
      (attempts.dropWhile (·.failed adapterIndex)).head?.map (·.exit adapterIndex) :=
  (run_supervisedStep counts_nil attempts).2

/-- The waits are between one and thirty seconds. -/
theorem sleep_reports {attempts : List (Attempt V)} {d : Duration}
    (h : .sleep d ∈ reports adapterIndex past attempts) :
    Duration.fromSecs 1 ≤ d ∧ d ≤ Duration.fromSecs 30 := by
  induction attempts generalizing past with
  | nil => exact absurd h List.not_mem_nil
  | cons a attempts ih =>
      obtain h | h := List.mem_append.mp h
      · obtain rfl : d = .fromSecs (UInt64.ofNat (retrySecs (past ++ [a]))) := by
          simpa [report] using h
        exact delayAfter_bounds (Backoff.streak Attempt.healthy (past ++ [a]))
      · exact ih h

/-- **The supervisor**: it goes on after every attempt that fails, the wait being
one second, doubled for every retry since the last healthy attempt, and at most
thirty, with that number in the status; an attempt that does not fail is its
last.  No wait is shorter than a second or longer than thirty. -/
theorem runSupervised_law (adapterIndex : UInt16) (attempts : List (Attempt V)) :
    (runSupervised adapterIndex attempts).1.done =
        reports adapterIndex [] (attempts.takeWhile (·.failed adapterIndex)) ++
          ((attempts.dropWhile (·.failed adapterIndex)).head?.elim []
            fun a => (a.run adapterIndex).1.map .listener) ∧
      (runSupervised adapterIndex attempts).2 =
        (attempts.dropWhile (·.failed adapterIndex)).head?.map (·.exit adapterIndex) ∧
      ∀ d, .sleep d ∈ (runSupervised adapterIndex attempts).1.done →
        Duration.fromSecs 1 ≤ d ∧ d ≤ Duration.fromSecs 30 := by
  have hdone := done_runSupervised adapterIndex attempts
  refine ⟨hdone, exit_runSupervised adapterIndex attempts, fun d hd => ?_⟩
  rw [hdone] at hd
  obtain hd | hd := List.mem_append.mp hd
  · exact sleep_reports hd
  · cases hlast : (attempts.dropWhile (·.failed adapterIndex)).head? <;> simp [hlast] at hd

end

end LinuxBtProxy
