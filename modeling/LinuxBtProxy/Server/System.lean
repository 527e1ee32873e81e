import LinuxBtProxy.Lib.Broadcast
import LinuxBtProxy.Server

/-!
# LinuxBtProxy.Server.System

The whole server: `run_tcp_server` of `src/server.rs`, the tasks it spawns, and
the broadcast channel of `src/main.rs` that feeds them.

Every client has a task of its own, a run of `handle_client`, with a receiver
that was made when its connection was accepted.  The tasks, the listener and the
sender of advertisements take steps in any order; a list of `Action`s is one
order.  `main` keeps a sender, so the channel is never closed, and it exits when
the listener fails.  What the receivers rely on is `Channel`.

* `System.step` — one action, where it can be taken, and `System.run`;
* `Session.history` — what a task has been woken by so far, for proofs only.
-/

namespace LinuxBtProxy

open Broadcast

/-- What wakes the task of a client. -/
inductive Input where
  | read (bytes : List UInt8)
  | readError
  | received (r : Received BleAdvertisement)

/-- The branch of the `select!` that is ready. -/
def Input.event : Input → Event
  | .read bytes => .read bytes
  | .readError => .readError
  | .received (.value adv) => .advert adv
  | .received (.lagged n) => .lagged (UInt64.ofNat n)

/-- The task of a client: where its receiver was made and where it stands, what
has woken it, and the state of `handle_client`. -/
structure Session where
  env : Env
  start : Nat
  next : Nat
  history : List Input
  conn : Conn
  exit : Option Exit

structure System where
  sent : List BleAdvertisement
  sessions : Nat → Option Session
  running : Bool

/-- `rx.resubscribe()` and `tokio::spawn`. -/
def Session.spawn (env : Env) (sent : List BleAdvertisement) : Session where
  env
  start := sent.length
  next := sent.length
  history := []
  conn := .start
  exit := none

/-- A step of the server, of a task or of the sender of advertisements. -/
inductive Action where
  | send (adv : BleAdvertisement)
  | accept (id : Nat) (env : Env)
  | acceptError
  | read (id : Nat) (bytes : List UInt8)
  | readError (id : Nat)
  | recv (id : Nat)

section

variable [Protobuf] [Channel BleAdvertisement] (ctx : ProxyContext)

/-- One iteration of `handle_client`. -/
def Session.wake (c : Session) (input : Input) : Session :=
  let r := step c.env ctx c.conn input.event
  { c with history := c.history ++ [input], conn := r.1, exit := r.2 }

/-- The receive branch of the `select!`, when the channel has something. -/
def Session.recv (sent : List BleAdvertisement) (c : Session) : Option Session :=
  (Channel.recv sent c.next).map fun r =>
    { c.wake ctx (.received r.1) with next := r.2 }

namespace System

/-- `main` up to the call of `run_tcp_server`. -/
def start : System where
  sent := []
  sessions _ := none
  running := true

def put (s : System) (id : Nat) (c : Session) : System :=
  { s with sessions := fun id' => if id' = id then some c else s.sessions id' }

/-- A task that has not ended takes a step. -/
def wake (s : System) (id : Nat) (f : Session → Option Session) : Option System :=
  match s.sessions id with
  | some c => if c.exit = none then (f c).map (s.put id) else none
  | none => none

/-- One action; nothing when it cannot be taken. -/
def step (s : System) (a : Action) : Option System :=
  if s.running then
    match a with
    | .send adv => some { s with sent := s.sent ++ [adv] }
    | .accept id env =>
        if (s.sessions id).isNone then some (s.put id (.spawn env s.sent)) else none
    | .acceptError => some { s with running := false }
    | .read id bytes => s.wake id fun c => some (c.wake ctx (.read bytes))
    | .readError id => s.wake id fun c => some (c.wake ctx .readError)
    | .recv id => s.wake id (Session.recv ctx s.sent)
  else none

/-- The actions in this order. -/
def run (s : System) : List Action → Option System
  | [] => some s
  | a :: actions => (s.step ctx a).bind fun s => s.run actions

end System

end

end LinuxBtProxy
