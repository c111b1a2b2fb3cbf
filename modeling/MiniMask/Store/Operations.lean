import MiniMask.Store.Effects
import MiniMask.Store.FailedSaves

/-!
# The operations of the client store as one type

A run of the client store is a sequence of its seven operations and of reloads
of its file. `exec` runs one operation, `load` is what a start does with the
file; `exec_saves` is the form every operation has.
-/

namespace MiniMask

open AtomicFile
open FailedSaves (Reply)

/-- The mutating operations of `ClientStore`, with the random values and times
they draw. -/
inductive ClientOp
  | addClient (name token id : String) (now : Timestamp)
  | deleteClient (id : String)
  | setClientEnabled (id : String) (enabled : Bool)
  | regenerateToken (id token : String)
  | addMapping (clientId name : String) (remotePort : UInt16) (localAddr id : String)
      (now : Timestamp)
  | deleteMapping (id : String)
  | setMappingEnabled (id : String) (enabled : Bool)
deriving DecidableEq, Repr

/-- The operation as one on both stores. -/
def ClientOp.onStores : ClientOp → FailedSaves.Op
  | .addClient name token id now => .addClient name token id now
  | .deleteClient id => .deleteClient id
  | .setClientEnabled id enabled => .setClientEnabled id enabled
  | .regenerateToken id token => .regenerateToken id token
  | .addMapping clientId name remotePort localAddr id now =>
    .addMapping clientId name remotePort localAddr id now
  | .deleteMapping id => .deleteMapping id
  | .setMappingEnabled id enabled => .setMappingEnabled id enabled

/-- The client that `add_client` makes. -/
def newClient (sha256HexWithPepper : String → String → String) (pepper name token id : String)
    (now : Timestamp) : Client :=
  { id, name, tokenHash := sha256HexWithPepper token pepper, tokenPrefix := tokenPrefixOf token
    enabled := true, createdAt := now, mappings := [] }

namespace ClientStore

/-! ## Running an operation -/

/-- The answer of one operation among those of all. -/
def answer {α : Type} (reply : α → Reply) (r : Except Error α × ClientStore) :
    Except Error Reply × ClientStore :=
  (r.1.map reply, r.2)

def exec (sha256HexWithPepper : String → String → String) (pepper : String) (s : ClientStore)
    (op : ClientOp) (io : Outcome) : Except Error Reply × ClientStore :=
  match op with
  | .addClient name token id now =>
    answer (fun r => .created r.1 r.2) (s.addClient sha256HexWithPepper name pepper token id now io)
  | .deleteClient id => answer .changed (s.deleteClient id io)
  | .setClientEnabled id enabled => answer .changed (s.setClientEnabled id enabled io)
  | .regenerateToken id token =>
    answer .token (s.regenerateToken sha256HexWithPepper id pepper token io)
  | .addMapping clientId name remotePort localAddr id now =>
    answer .mapping (s.addMapping clientId name remotePort localAddr id now io)
  | .deleteMapping id => answer .changed (s.deleteMapping id io)
  | .setMappingEnabled id enabled => answer .changed (s.setMappingEnabled id enabled io)

theorem answer_saves {α : Type} {s : ClientStore} {f : Outcome → Except Error α × ClientStore}
    (h : s.Saves f) (reply : α → Reply) : s.Saves fun io => answer reply (f io) := by
  obtain ⟨r, hr⟩ | ⟨list, r, hr⟩ := h
  · exact .inl ⟨reply r, fun io => congrArg (answer reply) (hr io)⟩
  · refine .inr ⟨list, reply r, fun io => (congrArg (answer reply) (hr io)).trans ?_⟩
    cases io <;> rfl

section Exec

variable (hash : String → String → String) (pepper : String) (s : ClientStore) (op : ClientOp)

/-- Every operation returns without touching anything, or puts a new list in
memory and saves it. -/
theorem exec_saves : s.Saves (s.exec hash pepper op) := by
  cases op with
  | addClient name token id now => exact answer_saves (s.addClient_saves hash name pepper token id now) _
  | deleteClient id => exact answer_saves (s.deleteClient_saves id) _
  | setClientEnabled id enabled => exact answer_saves (s.setClientEnabled_saves id enabled) _
  | regenerateToken id token => exact answer_saves (s.regenerateToken_saves hash id pepper token) _
  | addMapping clientId name remotePort localAddr id now =>
    exact answer_saves (s.addMapping_saves clientId name remotePort localAddr id now) _
  | deleteMapping id => exact answer_saves (s.deleteMapping_saves id) _
  | setMappingEnabled id enabled => exact answer_saves (s.setMappingEnabled_saves id enabled) _

/-- On both stores an operation does to the clients what it does on its own. -/
theorem exec_stores (crypto : FailedSaves.Crypto) (stores : FailedSaves.Stores) (io : Outcome) :
    FailedSaves.exec crypto stores op.onStores io =
      FailedSaves.onClients stores id
        (stores.clients.exec crypto.sha256HexWithPepper crypto.tokenPepper op io) := by
  have hid : ∀ {α : Type} (reply : α → Reply) (r : Except Error α × ClientStore),
      FailedSaves.onClients stores reply r =
        FailedSaves.onClients stores id (answer reply r) := by
    rintro α reply ⟨_ | _, t⟩ <;> rfl
  cases op <;> exact hid _ _

/-- What is in memory does not depend on the file system. -/
theorem list_exec (io : Outcome) :
    (s.exec hash pepper op io).2.list = (s.exec hash pepper op .done).2.list := by
  obtain ⟨r, h⟩ | ⟨list, r, h⟩ := s.exec_saves hash pepper op
  · rw [h, h]
  · rw [h, h, persistThen_list, persistThen_list]

/-- An operation leaves the file alone or, where its save succeeds, puts the list
of the memory into it. -/
theorem main_exec (io : Outcome) :
    (s.exec hash pepper op io).2.file.main = s.file.main ∨
      (s.exec hash pepper op io).2.file.main =
        some (.doc (s.exec hash pepper op io).2.list) := by
  obtain ⟨r, h⟩ | ⟨list, r, h⟩ := s.exec_saves hash pepper op
  · exact .inl (by rw [h])
  · rw [h]
    cases io with
    | done => exact .inr rfl
    | writeFailed after => exact .inl rfl
    | renameFailed => exact .inl rfl

end Exec

/-! ## Loading -/

def load (file : Files (List Client)) (io : LoadOutcome) :
    Except LoadError ClientStore × Files (List Client) :=
  let loaded := loadOr (some []) file io
  (loaded.1.map fun list => { list, file := loaded.2 }, loaded.2)

/-- A load that succeeds gives the list that the file has, and an empty list
where there was no file. -/
theorem load_ok {file file' : Files (List Client)} {io : LoadOutcome} {s : ClientStore}
    (h : load file io = (.ok s, file')) :
    s.file = file' ∧ file'.main = some (.doc s.list) ∧
      (file.main = some (.doc s.list) ∨ file.main = none ∧ s.list = []) := by
  simp only [load, Prod.mk.injEq] at h
  obtain ⟨hok, rfl⟩ := h
  cases hloaded : (loadOr (some []) file io).1 with
  | error e =>
    rw [hloaded] at hok
    cases hok
  | ok list =>
    rw [hloaded] at hok
    cases hok
    obtain ⟨hmain, hold⟩ := loadOr_ok (Prod.ext hloaded rfl)
    exact ⟨rfl, hmain, hold.imp id fun hnone => ⟨hnone.1, (Option.some.inj hnone.2).symm⟩⟩

theorem load_doc {file : Files (List Client)} {list : List Client}
    (h : file.main = some (.doc list)) : load file .done = (.ok { list, file }, file) := by
  rw [load, loadOr_doc (some []) h]
  rfl

end ClientStore

/-! ## Views -/

structure MappingView where
  id : String
  name : String
  remotePort : UInt16
  localAddr : String
  enabled : Bool
  createdAt : Timestamp
  clientId : String
  clientName : String
deriving DecidableEq, Repr

/-- The view of a mapping of `c`. -/
def PortMapping.view (m : PortMapping) (c : Client) : MappingView where
  id := m.id
  name := m.name
  remotePort := m.remotePort
  localAddr := m.localAddr
  enabled := m.enabled
  createdAt := m.createdAt
  clientId := c.id
  clientName := c.name

def ClientStore.mappingViews (s : ClientStore) : List MappingView :=
  s.list.flatMap fun c => c.mappings.map fun m => m.view c

end MiniMask
