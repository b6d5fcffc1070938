import MizanConnect.Lib.Run

/-!
# `MizanConnect.Shutdown`: how the process ends

`serve_with_deadline` of `src/main.rs` and `wait_for_signal` of `src/shutdown.rs`: the
main task, the task that waits for a signal, the server, and the future that tells the
server to stop. Each runs at its own pace, and an action is what one of them does next.

`Notify` is that of `tokio`: `notify_waiters` wakes the waiters whose `notified()` has
been called, and stores nothing for those to come. The server is that of `axum`: it
accepts connections until its signal future ends, and is over when the connections
are. A signal that no handler is installed for ends the process.
-/

set_option autoImplicit false

namespace MizanConnect.Shutdown

/-- The task around `wait_for_signal`: not polled yet, waiting, or over with
`notify_waiters` called. It waits with a handler for SIGINT, and `interrupt` and
`terminate` say which handlers there are. -/
inductive SignalTask where
  | starting
  | waiting (terminate : Bool)
  | over (interrupt terminate : Bool)
deriving DecidableEq, Repr

/-- The future of `with_graceful_shutdown`: not polled yet, waiting, or woken. -/
inductive Listener where
  | starting
  | waiting
  | woken
deriving DecidableEq, Repr

/-- The server. -/
inductive Server where
  | starting
  | accepting
  | stopping
  | over
deriving DecidableEq, Repr

/-- The main task: before it spawns the server, after it, waiting for the notification,
woken, in `timeout(DRAIN_DEADLINE, serve_handle)` since an instant, or at its end. A
signal can end the process as well. -/
inductive Main where
  | starting
  | spawned
  | waiting
  | woken
  | draining (since : Nat)
  | exited (since : Nat)
  | killed
deriving DecidableEq, Repr

/-- The process. `connections` are those in progress, and `now` is in seconds. -/
structure Sys where
  signal : SignalTask
  listener : Listener
  server : Server
  main : Main
  connections : Nat
  now : Nat
deriving DecidableEq, Repr

/-- The process when `serve_with_deadline` has spawned the signal task. -/
def Sys.init : Sys := ⟨.starting, .starting, .starting, .starting, 0, 0⟩

/-- `DRAIN_DEADLINE`. -/
def drainDeadline : Nat := 25

/-- What one of the tasks does next, or what happens to the process. -/
inductive Action where
  | pollSignal (ctrlC terminate : Bool)
  | sigint
  | sigterm
  | spawnServer
  | pollServer
  | pollListener
  | endListener
  | accept
  | finish
  | endServer
  | awaitNotification
  | startDrain
  | endDrain
  | tick
deriving DecidableEq, Repr

/-- `notify_waiters`, the last thing that the signal task does. -/
def Sys.notify (s : Sys) (interrupt terminate : Bool) : Sys :=
  { s with
    signal := .over interrupt terminate
    listener := if s.listener = .waiting then .woken else s.listener
    main := if s.main = .waiting then .woken else s.main }

/-- The process is there. -/
def Sys.alive (s : Sys) : Bool :=
  match s.main with
  | .exited _ => false
  | .killed => false
  | _ => true

/-- A signal without a handler. -/
def Sys.kill (s : Sys) : Sys := { s with main := .killed }

/-- SIGINT. A handler stays when the task is over, and then nobody listens to it. -/
def Sys.interrupt (s : Sys) : Sys :=
  match s.signal with
  | .starting => s.kill
  | .waiting terminate => s.notify true terminate
  | .over interrupt _ => if interrupt then s else s.kill

/-- SIGTERM. -/
def Sys.terminate (s : Sys) : Sys :=
  match s.signal with
  | .starting => s.kill
  | .waiting terminate => if terminate then s.notify true terminate else s.kill
  | .over _ terminate => if terminate then s else s.kill

/-- The action, when it is enabled. -/
def act (s : Sys) : Action → Option Sys
  | .pollSignal ctrlC terminate =>
    -- Without a handler for Ctrl-C that branch of `select!` ends at once.
    match s.signal with
    | .starting =>
      some (if ctrlC then { s with signal := .waiting terminate } else s.notify false terminate)
    | _ => none
  | .sigint => some s.interrupt
  | .sigterm => some s.terminate
  | .spawnServer => if s.main = .starting then some { s with main := .spawned } else none
  | .pollServer =>
    if s.server = .starting ∧ s.main ≠ .starting then some { s with server := .accepting }
    else none
  | .pollListener =>
    if s.listener = .starting ∧ s.server ≠ .starting then some { s with listener := .waiting }
    else none
  | .endListener =>
    if s.listener = .woken ∧ s.server = .accepting then some { s with server := .stopping }
    else none
  | .accept =>
    if s.server = .accepting then some { s with connections := s.connections + 1 } else none
  | .finish =>
    if 0 < s.connections then some { s with connections := s.connections - 1 } else none
  | .endServer =>
    if s.server = .stopping ∧ s.connections = 0 then some { s with server := .over } else none
  | .awaitNotification => if s.main = .spawned then some { s with main := .waiting } else none
  | .startDrain => if s.main = .woken then some { s with main := .draining s.now } else none
  | .endDrain =>
    match s.main with
    | .draining since =>
      if s.server = .over ∨ since + drainDeadline ≤ s.now then
        some { s with main := .exited since }
      else none
    | _ => none
  | .tick => some { s with now := s.now + 1 }

/-- A step of the process while it is there. -/
def next (s : Sys) (a : Action) : Option Sys := if s.alive then act s a else none

end MizanConnect.Shutdown
