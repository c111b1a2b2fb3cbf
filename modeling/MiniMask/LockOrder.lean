import Mathlib.Data.Fin.VecNotation
import MiniMask.Lib.Locks
import MiniMask.Tunnel.Server

/-!
# The locks of the server

Which lock each task of the server takes around what: the handlers of the API
(`web/routes.rs`, `web/auth.rs`, `web/ws.rs`), the tunnel connections with the cleanup of
their sessions (`tunnel/listener.rs`, `tunnel/session.rs`) and the sampler (`server.rs`).
What is computed in between is left out, and so is what decides a branch: a task may take
either. Proxies and accept loops take no lock.

A guard lives to the end of its block, or to the end of the statement it is a temporary
of: `state.clients.write().await.delete_mapping(&id).await?` holds the store across the
file operations, and `if let Some(..) = state.clients.read().await.find_mapping(&id)`
across its whole body.

* `ordered`: every task takes its locks in the order store, sessions, listeners, and
  awaits under a lock only file operations and a bind.
* `lock_deadlock_free`: whatever the tasks and their interleaving, who waits for a lock
  waits for a task that can go on.
-/

namespace MiniMask.LockOrder

open Lts Locks
open Tunnel (SessionId)

/-! ## Locks -/

/-- The locks of `AppState`; the log, the broadcaster and `listeners` are mutexes, which
are only written. -/
inductive Lock
  | clients
  | sessions
  | listeners (k : SessionId)
  | history
  | logs
  | broadcaster
  | auth
deriving DecidableEq, Repr

/-- The store comes before the sessions and these before the listeners; under the others
nothing is taken. -/
def Lock.rank : Lock → Nat
  | .clients => 1
  | .sessions => 2
  | .listeners _ => 3
  | .history => 1
  | .logs => 1
  | .broadcaster => 1
  | .auth => 1

abbrev Code := Cmd Lock

/-- The commands in turn. -/
def block : List Code → Code
  | [] => .skip
  | c :: cs => .seq c (block cs)

/-- A guard around something that has no await. -/
def brief (ℓ : Lock) (m : Mode) : Code := .guard ℓ m .skip

/-- Return here, or go on with `c`. -/
def orReturn (c : Code) : Code := .choice .skip c

/-! ## `state.rs` -/

/-- `create_dir_all`, `write` and `rename`; the last two may fail. -/
def persist : Code := block [.io, .io, orReturn .io]

/-- An operation on the store that saves if it finds what it is to change. -/
def save : Code := orReturn persist

/-- `AuditLogFile::append`: `metadata`, `rename`, `open` and `write_all`. -/
def append : Code := block [.io, orReturn .io, .io, orReturn .io]

/-- `AuditLogStore::add`. -/
def log : Code := block [brief .logs .write, orReturn append]

def history : Code := brief .history .read

def recordSample : Code := brief .history .write

def subscribe : Code := brief .broadcaster .write

def subscriberCount : Code := brief .broadcaster .write

def broadcast : Code := brief .broadcaster .write

def username : Code := brief .auth .read

def verify : Code := brief .auth .read

/-- `AuthStore::change_password`; the file is written after the lock is given up. -/
def setPassword : Code := block [brief .auth .write, orReturn (block [.io, orReturn .io])]

/-! ## `tunnel/listener.rs` -/

/-- The lookup of the session, `bind`, and the lock of the map of that session. -/
def addListener : Code :=
  block [brief .sessions .read, orReturn (block [.io, orReturn (.any fun k =>
    brief (.listeners k) .write)])]

def startClientListeners : Code :=
  block [brief .clients .read, orReturn (.loop addListener)]

/-- The maps of all sessions in turn, until one has the handle. -/
def removeListener : Code :=
  block [brief .sessions .read, .loop (.any fun k => brief (.listeners k) .write)]

def removeClientListeners : Code :=
  block [brief .sessions .read, orReturn (.any fun k => brief (.listeners k) .write)]

/-- `drive_server`: the loop on the connection and the channel, and the cleanup. -/
def driveServer : Code :=
  block [.loop .outside, brief .sessions .write, log, broadcast]

/-- TLS and the handshake, the check of the token, the entry in the table, the status, the
listeners and the session. -/
def handleTunnel : Code :=
  block [.outside, orReturn (block [brief .clients .read,
    .choice (block [.outside, log])
      (block [brief .sessions .write,
        .choice (block [.outside, log])
          (block [.outside,
            orReturn (block [log, broadcast, startClientListeners, driveServer])])])])]

/-! ## `web/routes.rs`, `web/auth.rs` and `web/ws.rs` -/

def listClients : Code := brief .clients .read

def createClient : Code := orReturn (block [.guard .clients .write persist, orReturn log])

def updateClient (enabled : Bool) : Code :=
  block [.guard .clients .write save,
    orReturn (block [if enabled then startClientListeners else removeClientListeners, log])]

def deleteClient : Code :=
  block [.guard .clients .write save, orReturn (block [removeClientListeners, log])]

def regenerateToken : Code := block [.guard .clients .write save, orReturn log]

def listMappings : Code := brief .clients .read

def createMapping : Code :=
  orReturn (block [.guard .clients .write save, orReturn (block [orReturn addListener, log])])

/-- The read guard lives as long as the body of the `if let`. -/
def updateMapping (enabled : Bool) : Code :=
  block [.guard .clients .write save,
    orReturn (block [
      if enabled then .guard .clients .read (orReturn addListener) else removeListener, log])]

def deleteMapping : Code :=
  block [.guard .clients .write save, orReturn (block [removeListener, log])]

def listLogs : Code := brief .logs .write

/-- The history is given up before the sessions are read. -/
def buildStatsValue : Code := block [history, brief .sessions .read]

def getStats : Code := buildStatsValue

def listSessions : Code := brief .sessions .read

def getSettings : Code := username

def changePassword : Code :=
  orReturn (block [verify, orReturn (block [setPassword, orReturn log])])

def login : Code := block [username, orReturn verify, log]

def handleWs : Code := block [subscribe, buildStatsValue, .outside, orReturn (.loop .outside)]

/-! ## `server.rs` -/

def statsSampler : Code :=
  .loop (block [.outside, recordSample, orReturn subscriberCount,
    orReturn (block [buildStatsValue, broadcast])])

/-- The tasks of the server that take locks. -/
inductive Task
  | listClients
  | createClient
  | updateClient (enabled : Bool)
  | deleteClient
  | regenerateToken
  | listMappings
  | createMapping
  | updateMapping (enabled : Bool)
  | deleteMapping
  | listLogs
  | getStats
  | listSessions
  | getSettings
  | changePassword
  | login
  | handleWs
  | handleTunnel
  | statsSampler
deriving DecidableEq, Repr

def Task.code : Task → Code
  | .listClients => LockOrder.listClients
  | .createClient => LockOrder.createClient
  | .updateClient enabled => LockOrder.updateClient enabled
  | .deleteClient => LockOrder.deleteClient
  | .regenerateToken => LockOrder.regenerateToken
  | .listMappings => LockOrder.listMappings
  | .createMapping => LockOrder.createMapping
  | .updateMapping enabled => LockOrder.updateMapping enabled
  | .deleteMapping => LockOrder.deleteMapping
  | .listLogs => LockOrder.listLogs
  | .getStats => LockOrder.getStats
  | .listSessions => LockOrder.listSessions
  | .getSettings => LockOrder.getSettings
  | .changePassword => LockOrder.changePassword
  | .login => LockOrder.login
  | .handleWs => LockOrder.handleWs
  | .handleTunnel => LockOrder.handleTunnel
  | .statsSampler => LockOrder.statsSampler

/-! ## Every task takes its locks in order -/

section Ordered

variable {b : Nat} {c : Code} {cs : List Code}

/-- The command can run under locks of rank at most `b`. -/
abbrev Ordered (b : Nat) (c : Code) : Prop := c.Ordered Lock.rank b

theorem ordered_nil : Ordered b (block []) := trivial

theorem ordered_cons (h : Ordered b c) (hs : Ordered b (block cs)) : Ordered b (block (c :: cs)) :=
  ⟨h, hs⟩

theorem ordered_brief {ℓ : Lock} {m : Mode} (h : b < ℓ.rank) : Ordered b (brief ℓ m) :=
  ⟨h, trivial⟩

theorem ordered_orReturn (h : Ordered b c) : Ordered b (orReturn c) := ⟨trivial, h⟩

/-- A save awaits file operations only. -/
theorem persist_ordered : Ordered b persist := ⟨trivial, trivial, ⟨trivial, trivial⟩, trivial⟩

theorem save_ordered : Ordered b save := ordered_orReturn persist_ordered

theorem log_ordered : Ordered 0 log := by
  simp [log, append, block, brief, orReturn, Cmd.Ordered, Lock.rank]

/-- A call of `add_listener` takes the sessions and the listeners, also under the store. -/
theorem addListener_ordered (hb : b < 2) : Ordered b addListener := by
  have hlisteners : ∀ k, Ordered b (brief (.listeners k) .write) :=
    fun k => ordered_brief (show b < 3 by omega)
  refine ordered_cons (ordered_brief hb) (ordered_cons (ordered_orReturn ?_) ordered_nil)
  exact ordered_cons trivial (ordered_cons (ordered_orReturn hlisteners) ordered_nil)

theorem startClientListeners_ordered : Ordered 0 startClientListeners := by
  refine ordered_cons (ordered_brief (by decide)) (ordered_cons (ordered_orReturn ?_) ordered_nil)
  exact addListener_ordered (by decide)

theorem removeListener_ordered : Ordered 0 removeListener :=
  ordered_cons (ordered_brief (by decide))
    (ordered_cons (fun _ => ordered_brief (Nat.zero_lt_succ 2)) ordered_nil)

theorem removeClientListeners_ordered : Ordered 0 removeClientListeners :=
  ordered_cons (ordered_brief (by decide))
    (ordered_cons (ordered_orReturn fun _ => ordered_brief (Nat.zero_lt_succ 2)) ordered_nil)

theorem buildStatsValue_ordered : Ordered 0 buildStatsValue :=
  ordered_cons (ordered_brief (by decide)) (ordered_cons (ordered_brief (by decide)) ordered_nil)

/-- What a handler does with the store, it does with no other lock. -/
theorem ordered_store (h : Ordered 0 (block cs)) :
    Ordered 0 (block (.guard .clients .write save :: cs)) :=
  ordered_cons ⟨by decide, save_ordered⟩ h

theorem ordered_return (h : Ordered 0 c) : Ordered 0 (block [orReturn c]) :=
  ordered_cons (ordered_orReturn h) ordered_nil

theorem ordered_log (h : Ordered 0 c) : Ordered 0 (block [c, log]) :=
  ordered_cons h (ordered_cons log_ordered ordered_nil)

theorem driveServer_ordered : Ordered 0 driveServer := by
  refine ordered_cons rfl (ordered_cons (ordered_brief (by decide)) ?_)
  exact ordered_cons log_ordered (ordered_cons (ordered_brief (by decide)) ordered_nil)

theorem handleTunnel_ordered : Ordered 0 handleTunnel := by
  have hrejected : Ordered 0 (block [.outside, log]) := ordered_log rfl
  have hserved : Ordered 0 (block [log, broadcast, startClientListeners, driveServer]) :=
    ordered_cons log_ordered (ordered_cons (ordered_brief (by decide))
      (ordered_cons startClientListeners_ordered (ordered_cons driveServer_ordered ordered_nil)))
  refine ordered_cons rfl (ordered_return ?_)
  refine ordered_cons (ordered_brief (by decide)) (ordered_cons ⟨hrejected, ?_⟩ ordered_nil)
  refine ordered_cons (ordered_brief (by decide)) (ordered_cons ⟨hrejected, ?_⟩ ordered_nil)
  exact ordered_cons rfl (ordered_return hserved)

theorem statsSampler_ordered : Ordered 0 statsSampler := by
  have hbroadcast : Ordered 0 (block [buildStatsValue, broadcast]) :=
    ordered_cons buildStatsValue_ordered (ordered_cons (ordered_brief (by decide)) ordered_nil)
  refine ordered_cons rfl (ordered_cons (ordered_brief (by decide)) ?_)
  exact ordered_cons (ordered_orReturn (ordered_brief (by decide))) (ordered_return hbroadcast)

theorem changePassword_ordered : Ordered 0 changePassword := by
  have hsave : Ordered 0 (block [.io, orReturn .io]) :=
    ordered_cons trivial (ordered_return trivial)
  have hset : Ordered 0 setPassword := ordered_cons (ordered_brief (by decide)) (ordered_return hsave)
  refine ordered_orReturn (ordered_cons (ordered_brief (by decide)) (ordered_return ?_))
  exact ordered_cons hset (ordered_return log_ordered)

/-- Every task takes its locks in order. -/
theorem ordered (task : Task) : Ordered 0 task.code := by
  cases task with
  | listClients => exact ordered_brief (by decide)
  | createClient =>
    exact ordered_orReturn (ordered_cons ⟨by decide, persist_ordered⟩ (ordered_return log_ordered))
  | updateClient enabled =>
    refine ordered_store (ordered_return (ordered_log ?_))
    cases enabled with
    | true => exact startClientListeners_ordered
    | false => exact removeClientListeners_ordered
  | deleteClient => exact ordered_store (ordered_return (ordered_log removeClientListeners_ordered))
  | regenerateToken => exact ordered_store (ordered_return log_ordered)
  | listMappings => exact ordered_brief (by decide)
  | createMapping =>
    refine ordered_orReturn (ordered_store (ordered_return (ordered_log ?_)))
    exact ordered_orReturn (addListener_ordered (by decide))
  | updateMapping enabled =>
    refine ordered_store (ordered_return (ordered_log ?_))
    cases enabled with
    | true => exact ⟨by decide, ordered_orReturn (addListener_ordered (by decide))⟩
    | false => exact removeListener_ordered
  | deleteMapping => exact ordered_store (ordered_return (ordered_log removeListener_ordered))
  | listLogs => exact ordered_brief (by decide)
  | getStats => exact buildStatsValue_ordered
  | listSessions => exact ordered_brief (by decide)
  | getSettings => exact ordered_brief (by decide)
  | changePassword => exact changePassword_ordered
  | login =>
    refine ordered_cons (ordered_brief (by decide)) (ordered_log ?_)
    exact ordered_orReturn (ordered_brief (by decide))
  | handleWs =>
    refine ordered_cons (ordered_brief (by decide)) (ordered_cons buildStatsValue_ordered ?_)
    exact ordered_cons rfl (ordered_return rfl)
  | handleTunnel => exact handleTunnel_ordered
  | statsSampler => exact statsSampler_ordered

end Ordered

theorem rank_le (ℓ : Lock) : ℓ.rank ≤ 3 := by
  cases ℓ <;> simp [Lock.rank]

/-! ## No deadlock -/

/-- Any number of tasks of any kind run in any interleaving, and any of them may be
dropped at any time. Whoever waits for a lock waits, in the end, for a task that can take a
step: one that nothing from outside has to come for, as file operations and binds complete. -/
theorem lock_deadlock_free {τ : Type} [DecidableEq τ] (tasks : τ → Task) {s : State Lock τ}
    (hr : Reachable Step (Starts fun i => (tasks i).code) s) {i : τ} (hwaits : s.Waits i) :
    ∃ j, Relation.ReflTransGen s.WaitsFor i j ∧ ∃ t, Step s (.own j) t :=
  deadlock_free rank_le (fun i => ordered (tasks i)) hr hwaits

/-- A request reads the store, one that creates a client waits to write it, and another
that only reads it waits behind that. -/
theorem lock_deadlock_free_queue :
    ∃ s : State Lock (Fin 3),
      Reachable Step (Starts fun i =>
        (![Task.listClients, Task.createClient, Task.listClients] i).code) s ∧
      s.WaitsFor 2 1 ∧ s.WaitsFor 1 0 ∧
      ∃ j, Relation.ReflTransGen s.WaitsFor 2 j ∧ ∃ t, Step s (.own j) t := by
  have start : Reachable Step (Starts fun i =>
      (![Task.listClients, Task.createClient, Task.listClients] i).code) _ := .init rfl
  have reading := (start.step (.request (i := 0) rfl)).step
    (.grant (i := 0) rfl rfl fun j m' hholds => by
      rcases eq_or_ne j 0 with rfl | hne
      · simp [State.Holds] at hholds
      · simp [State.Holds, hne] at hholds)
  have writing := ((reading.step (.move (i := 1) rfl .right)).step
    (.move (i := 1) rfl .seq)).step (.request (i := 1) rfl)
  have queued := writing.step (.request (i := 2) rfl)
  exact ⟨_, queued, ⟨.clients, .read, ⟨_, _, rfl⟩, .inl ⟨[1], [], rfl, List.mem_singleton_self _⟩⟩,
    ⟨.clients, .write, ⟨_, _, rfl⟩, .inr ⟨.read, List.mem_cons_of_mem _ List.mem_cons_self, nofun⟩⟩,
    lock_deadlock_free _ queued ⟨.clients, .read, _, _, rfl⟩⟩

end MiniMask.LockOrder
