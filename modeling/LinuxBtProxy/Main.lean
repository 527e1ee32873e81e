import LinuxBtProxy.Ble.Supervised
import LinuxBtProxy.Mdns

/-!
# LinuxBtProxy.Main

`main` of `src/main.rs`, up to the call of `run_tcp_server`: the address of the
adapter is looked up, the listener is started, the service is announced, the
port is bound, and systemd is told that the proxy is ready.

* `main` — the program: what it does, and the context that it serves or how it
  ended;
* `Started` — the replies with which it serves a context;
* `main_ready_iff` — systemd is told with these replies, after everything else, and
  with no others;
* `main_identity` — the addresses that the proxy gives for itself.
-/

namespace LinuxBtProxy

/-! ## The surroundings -/

/-- The address and port to listen on. -/
structure SocketAddr where
  ip : String
  port : UInt16
deriving DecidableEq

/-- The command line, with the defaults of its options. -/
structure Cli where
  hci : UInt16 := 0
  listen : SocketAddr := { ip := "::", port := 6053 }
  hostname : String
  mac : Option (Vector UInt8 6) := none

/-- The replies to the calls of `get_adapter_mac`. -/
structure AdapterReply where
  proxy : Except ZbusError Unit
  address : Except ZbusError String

/-- What the calls of `main` return; `adapter n` are the replies to the `n`-th
lookup. -/
structure Host where
  dbus : Except ZbusError Unit
  adapter : Nat → AdapterReply
  systemMac : Except Unit (Option (Vector UInt8 6))
  mdns : MdnsReply
  bind : Except Unit Unit
  watchdog : Option Duration
  buildTime : String

/-- What systemd is told. -/
inductive NotifyState where
  | ready
  | status (text : String)
  | watchdog
deriving DecidableEq

inductive MainAct where
  | lookUp (path : String)
  | sleep (duration : Duration)
  | spawnSupervisor (adapterIndex : UInt16)
  | register (info : ServiceInfo)
  | bind (addr : SocketAddr)
  | notify (states : List NotifyState)
  | spawnWatchdog (pingInterval : Duration)
deriving DecidableEq

/-- How the process ends before it serves. -/
inductive MainExit where
  | exit (code : Nat)
  | panic (message : String)
deriving DecidableEq

/-- A part of `main`: it adds to what was done, and may end the process. -/
abbrev Main := ExceptT MainExit (StateM (List MainAct))

/-- An act, behind those done before. -/
def did (act : MainAct) : Main Unit := modify (· ++ [act])

/-! ## The program -/

/-- `get_adapter_mac`: the `Address` property of the adapter's proxy. -/
def getAdapterMac (reply : AdapterReply) : Except ZbusError (Vector UInt8 6) := do
  reply.proxy
  let address ← reply.address
  match parseMac address with
  | .ok mac => return mac
  | .error _ => throw .other

/-- The lookups that `main` makes before it gives up. -/
def MAC_LOOKUP_ATTEMPTS : Nat := 5

/-- The loop over the attempts. -/
def lookUpMac (host : Host) (hci : UInt16) : List Nat → Main (Option (Vector UInt8 6))
  | [] => return none
  | attempt :: attempts => do
      did (.lookUp (adapterPath hci))
      match getAdapterMac (host.adapter attempt) with
      | .ok mac => return some mac
      | .error _ =>
          if attempt < MAC_LOOKUP_ATTEMPTS then
            did (.sleep (.fromSecs 2))
            lookUpMac host hci attempts
          else throw (.exit 1)

/-- The value of a call, or `std::process::exit(1)`. -/
def orExit {ε α : Type} : Except ε α → Main α
  | .ok a => return a
  | .error _ => throw (.exit 1)

/-- The MAC address of the command line, or else of the system. -/
def netMac (host : Host) (cli : Cli) : Main (Vector UInt8 6) :=
  match cli.mac with
  | some mac => return mac
  | none => do
      match ← orExit host.systemMac with
      | some mac => return mac
      | none => throw (.exit 1)

/-- The registration of the service; `start_mdns` fails by a panic. -/
def announce (host : Host) (ctx : ProxyContext) : Main Unit :=
  match startMdns host.mdns ctx with
  | .ok info => did (.register info)
  | .error message => throw (.panic message)

/-- A watchdog pings at half the timeout that systemd sets. -/
def startWatchdog (host : Host) : Main Unit :=
  match host.watchdog with
  | some timeout => did (.spawnWatchdog (timeout.div 2))
  | none => return ()

/-- The context that the handlers and the registration share. -/
def contextOf (host : Host) (cli : Cli) (mac btMac : Vector UInt8 6) : ProxyContext where
  hostname := cli.hostname
  port := cli.listen.port
  netMac := mac
  btMac
  buildTime := host.buildTime
  version := CARGO_PKG_VERSION

/-- `main` from the address of the adapter on. -/
def serve (host : Host) (cli : Cli) (btMac : Vector UInt8 6) : Main ProxyContext := do
  let mac ← netMac host cli
  let ctx := contextOf host cli mac btMac
  did (.spawnSupervisor cli.hci)
  announce host ctx
  orExit host.bind
  did (.bind cli.listen)
  did (.notify [.ready, .status "Serving ESPHome API"])
  startWatchdog host
  return ctx

/-- `main`, up to the loop that accepts connections. -/
def main (host : Host) (cli : Cli) : Main ProxyContext := do
  orExit host.dbus
  match ← lookUpMac host cli.hci (List.range' 1 MAC_LOOKUP_ATTEMPTS) with
  | some btMac => serve host cli btMac
  | none => throw (.panic "loop above always sets bt_mac or exits")

/-! ## The lookup -/

/-- The address in the replies, if it reads as six bytes. -/
def AdapterReply.mac (reply : AdapterReply) : Option (Vector UInt8 6) :=
  match reply.proxy, reply.address with
  | .ok (), .ok text => (parseMac text).toOption
  | _, _ => none

/-- What a lookup finds. -/
theorem getAdapterMac_toOption (reply : AdapterReply) :
    (getAdapterMac reply).toOption = reply.mac := by
  unfold getAdapterMac AdapterReply.mac
  cases reply.proxy with
  | error e => rfl
  | ok u =>
      cases reply.address with
      | error e => rfl
      | ok text =>
          show (match parseMac text with
            | .ok mac => .ok mac
            | .error _ => .error ZbusError.other : Except ZbusError (Vector UInt8 6)).toOption = _
          cases h : parseMac text <;> simp [h, Except.toOption]

/-- The lookup of this number has no address. -/
def Host.misses (host : Host) (attempt : Nat) : Bool := (host.adapter attempt).mac.isNone

/-- The lookups that are made, with a pause between two. -/
def lookUps (host : Host) (hci : UInt16) (attempts : List Nat) : List MainAct :=
  ((Reactive.taken host.misses attempts).map fun _ => MainAct.lookUp (adapterPath hci)).intersperse
    (.sleep (.fromSecs 2))

/-- One attempt: its address, or the pause and the next ones, or the end behind the
last. -/
theorem lookUpMac_cons (host : Host) (hci : UInt16) (n : Nat) (attempts : List Nat)
    (acts : List MainAct) :
    lookUpMac host hci (n :: attempts) acts =
      match (host.adapter n).mac with
      | some mac => (.ok (some mac), acts ++ [.lookUp (adapterPath hci)])
      | none =>
          if n < MAC_LOOKUP_ATTEMPTS then
            lookUpMac host hci attempts
              (acts ++ [.lookUp (adapterPath hci)] ++ [.sleep (.fromSecs 2)])
          else (.error (.exit 1), acts ++ [.lookUp (adapterPath hci)]) := by
  have hmac := getAdapterMac_toOption (host.adapter n)
  rw [lookUpMac, ← hmac]
  cases h : getAdapterMac (host.adapter n) with
  | ok mac => rfl
  | error e =>
      dsimp only [Except.toOption]
      split <;> rfl

/-- The acts of one attempt and those behind it. -/
theorem lookUps_cons (host : Host) (hci : UInt16) (n m : Nat) (attempts : List Nat) :
    lookUps host hci (n :: m :: attempts) =
      .lookUp (adapterPath hci) ::
        if host.misses n then .sleep (.fromSecs 2) :: lookUps host hci (m :: attempts) else [] := by
  unfold lookUps
  rw [Reactive.taken_cons]
  cases host.misses n with
  | false => rfl
  | true =>
      rw [if_pos rfl, if_pos rfl, List.map_cons]
      rw [Reactive.taken_cons]
      rfl

/-- The last attempt is followed by no pause. -/
theorem lookUps_singleton (host : Host) (hci : UInt16) (n : Nat) :
    lookUps host hci [n] = [.lookUp (adapterPath hci)] := by
  unfold lookUps
  rw [Reactive.taken_cons]
  cases host.misses n <;> rfl

/-- The loop ends with the first address, or with the process. -/
theorem lookUpMac_eq (host : Host) (hci : UInt16) {attempts : List Nat} {last : Nat}
    (hbefore : ∀ n ∈ attempts, n < MAC_LOOKUP_ATTEMPTS) (hlast : MAC_LOOKUP_ATTEMPTS ≤ last)
    (acts : List MainAct) :
    lookUpMac host hci (attempts ++ [last]) acts =
      (match (attempts ++ [last]).findSome? fun n => (host.adapter n).mac with
        | some mac => .ok (some mac)
        | none => .error (.exit 1), acts ++ lookUps host hci (attempts ++ [last])) := by
  induction attempts generalizing acts with
  | nil =>
      rw [List.nil_append, lookUpMac_cons, lookUps_singleton, List.findSome?_singleton]
      cases (host.adapter last).mac with
      | some mac => rfl
      | none =>
          dsimp only
          rw [if_neg (Nat.not_lt.mpr hlast)]
  | cons n attempts ih =>
      obtain ⟨hn, hrest⟩ := List.forall_mem_cons.mp hbefore
      obtain ⟨m, later, hlater⟩ : ∃ m later, attempts ++ [last] = m :: later := by
        cases attempts with
        | nil => exact ⟨last, [], rfl⟩
        | cons m attempts => exact ⟨m, attempts ++ [last], rfl⟩
      have hih := ih hrest
      rw [hlater] at hih
      rw [List.cons_append, hlater, lookUpMac_cons, lookUps_cons, Host.misses, List.findSome?_cons]
      cases (host.adapter n).mac with
      | some mac => rfl
      | none =>
          refine (if_pos hn).trans ((hih _).trans ?_)
          rw [List.append_assoc, List.append_assoc]
          rfl

/-! ## Whole runs -/

/-- The lookups find this address. -/
def Host.Finds (host : Host) (mac : Vector UInt8 6) : Prop :=
  ∃ before attempt after, List.range' 1 MAC_LOOKUP_ATTEMPTS = before ++ attempt :: after ∧
    (∀ n ∈ before, host.misses n = true) ∧ (host.adapter attempt).mac = some mac

/-- The command line or else the system gives this address. -/
def Gives (host : Host) (cli : Cli) (mac : Vector UInt8 6) : Prop :=
  cli.mac = some mac ∨ cli.mac = none ∧ host.systemMac = .ok (some mac)

/-- The replies are those with which this context is served. -/
structure Started (host : Host) (cli : Cli) (ctx : ProxyContext) : Prop where
  dbus : host.dbus = .ok ()
  btMac : host.Finds ctx.btMac
  netMac : Gives host cli ctx.netMac
  mdns : host.mdns.Succeeds
  bind : host.bind = .ok ()
  context : ctx = contextOf host cli ctx.netMac ctx.btMac

/-- READY, together with the first status. -/
def ready : MainAct := .notify [.ready, .status "Serving ESPHome API"]

/-- What is done before a context is served. -/
def startupActs (host : Host) (cli : Cli) (ctx : ProxyContext) : List MainAct :=
  lookUps host cli.hci (List.range' 1 MAC_LOOKUP_ATTEMPTS) ++
    [.spawnSupervisor cli.hci, .register (serviceInfo ctx), .bind cli.listen, ready] ++
      host.watchdog.toList.map fun timeout => .spawnWatchdog (timeout.div 2)

section Run

variable {α β : Type} {x : Main α} {f : α → Main β} {acts acts' : List MainAct}

/-- A step that returns is followed by the next one. -/
theorem bind_of_ok {a : α} (h : x acts = (.ok a, acts')) : (x >>= f) acts = f a acts' := by
  show (match x acts with | (r, s) => ExceptT.bindCont f r s) = _
  rw [h]
  rfl

/-- A step that ends the process is the last. -/
theorem bind_of_error {ended : MainExit} (h : x acts = (.error ended, acts')) :
    (x >>= f) acts = (.error ended, acts') := by
  show (match x acts with | (r, s) => ExceptT.bindCont f r s) = _
  rw [h]
  rfl

end Run

/-- What is there is taken. -/
theorem orExit_ok {ε α : Type} {r : Except ε α} {a : α} (h : r = .ok a) (acts : List MainAct) :
    orExit r acts = (.ok a, acts) := by
  rw [h]
  rfl

/-- A failure ends the process with code 1. -/
theorem orExit_error {ε α : Type} {r : Except ε α} {e : ε} (h : r = .error e)
    (acts : List MainAct) : orExit r acts = (.error (.exit 1), acts) := by
  rw [h]
  rfl

/-- An act is done and nothing fails. -/
theorem did_run (act : MainAct) (acts : List MainAct) : did act acts = (.ok (), acts ++ [act]) :=
  rfl

/-- The watchdog is spawned if systemd asks for one. -/
theorem startWatchdog_run (host : Host) (acts : List MainAct) :
    startWatchdog host acts = (.ok (),
      acts ++ host.watchdog.toList.map fun timeout => .spawnWatchdog (timeout.div 2)) := by
  unfold startWatchdog
  cases host.watchdog with
  | none => exact congrArg (Prod.mk _) (List.append_nil acts).symm
  | some timeout => rfl

/-- The service is registered. -/
theorem announce_ok {host : Host} {ctx : ProxyContext} {info : ServiceInfo}
    (h : startMdns host.mdns ctx = .ok info) (acts : List MainAct) :
    announce host ctx acts = (.ok (), acts ++ [.register info]) := by
  rw [announce, h]
  rfl

/-- A failure of mDNS is a panic. -/
theorem announce_error {host : Host} {ctx : ProxyContext} {message : String}
    (h : startMdns host.mdns ctx = .error message) (acts : List MainAct) :
    announce host ctx acts = (.error (.panic message), acts) := by
  rw [announce, h]
  rfl

/-- There is one network MAC. -/
theorem gives_unique {host : Host} {cli : Cli} {mac mac' : Vector UInt8 6}
    (h : Gives host cli mac) (h' : Gives host cli mac') : mac = mac' := by
  rcases h with h | ⟨hnone, h⟩ <;> rcases h' with h' | ⟨hnone', h'⟩
  · exact Option.some.inj (h.symm.trans h')
  · exact absurd (h.symm.trans hnone') (by simp)
  · exact absurd (hnone.symm.trans h') (by simp)
  · exact Option.some.inj (Except.ok.inj (h.symm.trans h'))

/-- The network MAC is there, or the process ends with code 1. -/
theorem netMac_cases (host : Host) (cli : Cli) (acts : List MainAct) :
    (∃ mac, Gives host cli mac ∧ netMac host cli acts = (.ok mac, acts)) ∨
      ((∀ mac, ¬ Gives host cli mac) ∧ netMac host cli acts = (.error (.exit 1), acts)) := by
  unfold netMac Gives
  cases cli.mac with
  | some mac => exact Or.inl ⟨mac, Or.inl rfl, rfl⟩
  | none =>
      rcases hsystem : host.systemMac with e | (_ | mac)
      · exact Or.inr ⟨by simp, rfl⟩
      · exact Or.inr ⟨by simp, rfl⟩
      · exact Or.inl ⟨mac, Or.inr ⟨rfl, rfl⟩, rfl⟩

/-- The first lookup that finds an address is found by the loop. -/
theorem finds_iff (host : Host) (mac : Vector UInt8 6) :
    (List.range' 1 MAC_LOOKUP_ATTEMPTS).findSome? (fun n => (host.adapter n).mac) = some mac ↔
      host.Finds mac := by
  rw [List.findSome?_eq_some_iff, Host.Finds]
  simp only [Host.misses, Option.isNone_iff_eq_none]
  constructor
  · rintro ⟨before, attempt, after, hrange, hmac, hbefore⟩
    exact ⟨before, attempt, after, hrange, hbefore, hmac⟩
  · rintro ⟨before, attempt, after, hrange, hbefore, hmac⟩
    exact ⟨before, attempt, after, hrange, hmac, hbefore⟩

/-- The loop as `main` calls it. -/
theorem lookUpMac_range (host : Host) (hci : UInt16) :
    lookUpMac host hci (List.range' 1 MAC_LOOKUP_ATTEMPTS) [] =
      (match (List.range' 1 MAC_LOOKUP_ATTEMPTS).findSome? (fun n => (host.adapter n).mac) with
        | some mac => .ok (some mac)
        | none => .error (.exit 1), lookUps host hci (List.range' 1 MAC_LOOKUP_ATTEMPTS)) := by
  have hrange : List.range' 1 MAC_LOOKUP_ATTEMPTS = [1, 2, 3, 4] ++ [5] := rfl
  rw [hrange]
  exact lookUpMac_eq host hci (by decide) (by decide) []

/-- The lookups tell systemd nothing. -/
theorem notify_not_mem_lookUps (host : Host) (hci : UInt16) (attempts : List Nat)
    (states : List NotifyState) : .notify states ∉ lookUps host hci attempts := by
  induction attempts with
  | nil => simp [lookUps, Reactive.taken]
  | cons n attempts ih =>
      cases attempts with
      | nil => simp [lookUps_singleton]
      | cons m attempts =>
          rw [lookUps_cons]
          split <;> simp [ih]

/-- How `main` ends when it serves nothing: with the code 1, or in a panic on mDNS. -/
def MainExit.Fatal (host : Host) : MainExit → Prop
  | .exit code => code = 1
  | .panic _ => ¬ host.mdns.Succeeds

/-- A context is served after everything was done, or else the process ends and
systemd is told nothing. -/
inductive Ends (host : Host) (cli : Cli) :
    Except MainExit ProxyContext × List MainAct → Prop where
  | serves {ctx} (h : Started host cli ctx) : Ends host cli (.ok ctx, startupActs host cli ctx)
  | fails {ended acts} (hnot : ∀ ctx, ¬ Started host cli ctx) (hfatal : ended.Fatal host)
      (hacts : ∀ states, .notify states ∉ acts) : Ends host cli (.error ended, acts)

/-- The part behind the lookups serves, or ends the process. -/
theorem ends_serve {host : Host} {cli : Cli} {btMac : Vector UInt8 6}
    (hdbus : host.dbus = .ok ()) (hfinds : host.Finds btMac)
    (hunique : ∀ mac, host.Finds mac → mac = btMac) :
    Ends host cli
      (serve host cli btMac (lookUps host cli.hci (List.range' 1 MAC_LOOKUP_ATTEMPTS))) := by
  have hsilent := notify_not_mem_lookUps host cli.hci (List.range' 1 MAC_LOOKUP_ATTEMPTS)
  generalize hups : lookUps host cli.hci (List.range' 1 MAC_LOOKUP_ATTEMPTS) = ups at hsilent
  rcases netMac_cases host cli ups with ⟨mac, hgives, hmac⟩ | ⟨hnone, hmac⟩
  · have hctx : ∀ ctx, Started host cli ctx → ctx = contextOf host cli mac btMac := by
      intro ctx h
      rw [h.context, hunique _ h.btMac, gives_unique h.netMac hgives]
    rcases startMdns_cases host.mdns (contextOf host cli mac btMac) with
      ⟨hnot, message, hmdns⟩ | ⟨hsucceeds, hmdns⟩
    · have hrun : serve host cli btMac ups = (.error (.panic message), _) :=
        (bind_of_ok hmac).trans
          ((bind_of_ok (did_run _ _)).trans (bind_of_error (announce_error hmdns _)))
      rw [hrun]
      exact .fails (fun ctx h => hnot h.mdns) hnot (by simpa using hsilent)
    · cases hbind : host.bind with
      | error e =>
          have hrun : serve host cli btMac ups = (.error (.exit 1), _) :=
            (bind_of_ok hmac).trans ((bind_of_ok (did_run _ _)).trans
              ((bind_of_ok (announce_ok hmdns _)).trans (bind_of_error (orExit_error hbind _))))
          rw [hrun]
          exact .fails (fun ctx h => absurd (hbind.symm.trans h.bind) (by simp)) rfl
            (by simpa using hsilent)
      | ok u =>
          have hrun : serve host cli btMac ups = (.ok (contextOf host cli mac btMac), _) :=
            (bind_of_ok hmac).trans ((bind_of_ok (did_run _ _)).trans
              ((bind_of_ok (announce_ok hmdns _)).trans ((bind_of_ok (orExit_ok hbind _)).trans
                ((bind_of_ok (did_run _ _)).trans ((bind_of_ok (did_run _ _)).trans
                  (bind_of_ok (startWatchdog_run host _)))))))
          have hacts : ups ++ [.spawnSupervisor cli.hci] ++
              [.register (serviceInfo (contextOf host cli mac btMac))] ++ [.bind cli.listen] ++
                [ready] ++
                  host.watchdog.toList.map (fun timeout => .spawnWatchdog (timeout.div 2)) =
              startupActs host cli (contextOf host cli mac btMac) := by
            rw [startupActs, hups]
            simp
          rw [hrun]
          show Ends host cli (_, ups ++ _ ++ _ ++ _ ++ [ready] ++ _)
          rw [hacts]
          exact .serves
            { dbus := hdbus, btMac := hfinds, netMac := hgives, mdns := hsucceeds, bind := hbind
              context := rfl }
  · have hrun : serve host cli btMac ups = (.error (.exit 1), ups) := bind_of_error hmac
    rw [hrun]
    exact .fails (fun ctx h => hnone ctx.netMac h.netMac) rfl hsilent

/-- `main` serves what the surroundings give, or ends the process. -/
theorem ends_main (host : Host) (cli : Cli) : Ends host cli (main host cli []) := by
  have hlook := lookUpMac_range host cli.hci
  have hsilent := notify_not_mem_lookUps host cli.hci (List.range' 1 MAC_LOOKUP_ATTEMPTS)
  cases hdbus : host.dbus with
  | error e =>
      have hrun : main host cli [] = (.error (.exit 1), []) := bind_of_error (orExit_error hdbus [])
      rw [hrun]
      exact .fails (fun ctx h => absurd (hdbus.symm.trans h.dbus) (by simp)) rfl (by simp)
  | ok u =>
      cases hfind : (List.range' 1 MAC_LOOKUP_ATTEMPTS).findSome?
          fun n => (host.adapter n).mac with
      | none =>
          rw [hfind] at hlook
          have hrun : main host cli [] = (.error (.exit 1), _) :=
            (bind_of_ok (orExit_ok hdbus [])).trans (bind_of_error hlook)
          rw [hrun]
          refine .fails (fun ctx h => ?_) rfl hsilent
          rw [(finds_iff host ctx.btMac).mpr h.btMac] at hfind
          contradiction
      | some btMac =>
          rw [hfind] at hlook
          have hrun : main host cli [] = serve host cli btMac _ :=
            (bind_of_ok (orExit_ok hdbus [])).trans (bind_of_ok hlook)
          rw [hrun]
          refine ends_serve hdbus ((finds_iff host btMac).mp hfind) fun mac hmac => ?_
          rw [(finds_iff host mac).mpr hmac] at hfind
          exact Option.some.inj hfind

/-- The replies determine the context. -/
theorem started_unique {host : Host} {cli : Cli} {ctx ctx' : ProxyContext}
    (h : Started host cli ctx) (h' : Started host cli ctx') : ctx = ctx' := by
  have hbt : ctx.btMac = ctx'.btMac :=
    Option.some.inj (((finds_iff host ctx.btMac).mpr h.btMac).symm.trans
      ((finds_iff host ctx'.btMac).mpr h'.btMac))
  rw [h.context, h'.context, hbt, gives_unique h.netMac h'.netMac]

/-- **Readiness**: with the replies of `Started`, the adapter is found, the listener
started, the service announced and the port bound, in this order, and then systemd
is told that the proxy is ready, and a context is served.  With other replies the
process ends, and `main` has told systemd nothing. -/
theorem main_ready_iff (host : Host) (cli : Cli) :
    (ready ∈ (main host cli []).2 ↔ ∃ ctx, Started host cli ctx) ∧
      (∀ ctx, Started host cli ctx →
        main host cli [] = (.ok ctx, startupActs host cli ctx)) ∧
      ((∀ ctx, ¬ Started host cli ctx) →
        (∃ ended : MainExit, (main host cli []).1 = .error ended ∧ ended.Fatal host) ∧
          ∀ states, .notify states ∉ (main host cli []).2) := by
  have hends := ends_main host cli
  generalize main host cli [] = run at hends
  cases hends with
  | serves h =>
      rename_i ctx
      refine ⟨⟨fun _ => ⟨ctx, h⟩, fun _ => by simp [startupActs]⟩, fun ctx' h' => ?_,
        fun hnot => absurd h (hnot ctx)⟩
      rw [started_unique h' h]
  | fails hnot hfatal hacts =>
      exact ⟨⟨fun hmem => absurd hmem (hacts _), fun ⟨ctx, h⟩ => absurd h (hnot ctx)⟩,
        fun ctx h => absurd h (hnot ctx), fun _ => ⟨⟨_, rfl, hfatal⟩, hacts⟩⟩

/-! ## The addresses of the proxy -/

/-- An address that was found is the text of a reply. -/
theorem AdapterReply.address_of_mac {reply : AdapterReply} {mac : Vector UInt8 6}
    (h : reply.mac = some mac) : ∃ text, reply.address = .ok text ∧ parseMac text = .ok mac := by
  unfold AdapterReply.mac at h
  split at h
  · next text hproxy haddress =>
      cases hparse : parseMac text with
      | error e => simp [hparse, Except.toOption] at h
      | ok m =>
          obtain rfl : m = mac := by simpa [hparse, Except.toOption] using h
          exact ⟨text, haddress, hparse⟩
  · contradiction

/-- A proxy that serves has one adapter address, read from BlueZ in one of the
lookups; it is what the announced `mac` record and the device info spell, and
the device info spells the address of the network beside it. -/
theorem main_identity {host : Host} {cli : Cli} {ctx : ProxyContext} {acts : List MainAct}
    (h : main host cli [] = (.ok ctx, acts)) :
    (∃ attempt text, attempt ∈ List.range' 1 MAC_LOOKUP_ATTEMPTS ∧
        (host.adapter attempt).address = .ok text ∧ parseMac text = .ok ctx.btMac) ∧
      (∃ info value, .register info ∈ acts ∧ ("mac", value) ∈ info.properties ∧
        parseMac value = .ok ctx.btMac) ∧
      parseMac (deviceInfoResponse ctx).bluetoothMacAddress = .ok ctx.btMac ∧
      parseMac (deviceInfoResponse ctx).macAddress = .ok ctx.netMac := by
  have hends := ends_main host cli
  rw [h] at hends
  cases hends with
  | serves hstarted =>
      obtain ⟨before, attempt, after, hrange, -, hmac⟩ := hstarted.btMac
      obtain ⟨text, htext, hparse⟩ := AdapterReply.address_of_mac hmac
      refine ⟨⟨attempt, text, ?_, htext, hparse⟩, ?_, parseMac_formatMac ctx.btMac,
        parseMac_formatMac ctx.netMac⟩
      · rw [hrange]
        simp
      · refine ⟨serviceInfo ctx, toLowercase (formatMac ctx.btMac.toList ":"), ?_, ?_,
          parseMac_macRecord ctx.btMac⟩
        · simp [startupActs]
        · simp [serviceInfo, txtRecords]

/-- BlueZ is there at the second lookup. -/
def sampleHost : Host where
  dbus := .ok ()
  adapter n :=
    { proxy := .ok ()
      address := match n with
        | 1 => .error .other
        | _ => .ok "AA:BB:CC:DD:EE:FF" }
  systemMac := .ok (some #v[0x02, 0x42, 0xAC, 0x11, 0x22, 0x33])
  mdns := { daemon := true, serviceInfo := true, register := true }
  bind := .ok ()
  watchdog := none
  buildTime := "now"

/-- The options of a proxy named `pi`. -/
def sampleCli : Cli := { hostname := "pi" }

end LinuxBtProxy
