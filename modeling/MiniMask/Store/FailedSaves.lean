import MiniMask.Store.Clients
import MiniMask.Store.Auth

/-!
# What a failed save leaves behind

Every operation of the two stores changes the state in memory first and saves it
afterwards; none undoes its change when the save fails. So the state in memory
never depends on the file system (`memory_exec`), while the file follows only
the saves that succeed (`onDisk_of_error`, `synced_of_ok`).
-/

namespace MiniMask.FailedSaves

open AtomicFile

/-- Both stores. -/
structure Stores where
  clients : ClientStore
  auth : AuthStore
deriving DecidableEq, Repr

/-- The functions of the server's libraries, and its pepper. -/
structure Crypto where
  sha256HexWithPepper : String → String → String
  tokenPepper : String
  hashPassword : String → String → Option String

/-- The mutating operations, with the random values and times they draw. -/
inductive Op
  | addClient (name token id : String) (now : Timestamp)
  | deleteClient (id : String)
  | setClientEnabled (id : String) (enabled : Bool)
  | regenerateToken (id token : String)
  | addMapping (clientId name : String) (remotePort : UInt16) (localAddr id : String)
      (now : Timestamp)
  | deleteMapping (id : String)
  | setMappingEnabled (id : String) (enabled : Bool)
  | changePassword (newPassword salt : String)
deriving DecidableEq, Repr

/-- What an operation returns when it succeeds. -/
inductive Reply
  | created (client : Client) (token : String)
  | changed (b : Bool)
  | token (t : Option String)
  | mapping (m : Option PortMapping)
  | unit
deriving DecidableEq, Repr

/-- The result of an operation of the client store, in both stores. -/
def onClients {α : Type} (s : Stores) (reply : α → Reply) (r : Except Error α × ClientStore) :
    Except AuthError Reply × Stores :=
  ((r.1.map reply).mapError .save, { s with clients := r.2 })

def exec (crypto : Crypto) (s : Stores) (op : Op) (io : Outcome) :
    Except AuthError Reply × Stores :=
  match op with
  | .addClient name token id now =>
    onClients s (fun r => .created r.1 r.2)
      (s.clients.addClient crypto.sha256HexWithPepper name crypto.tokenPepper token id now io)
  | .deleteClient id => onClients s .changed (s.clients.deleteClient id io)
  | .setClientEnabled id enabled => onClients s .changed (s.clients.setClientEnabled id enabled io)
  | .regenerateToken id token =>
    onClients s .token
      (s.clients.regenerateToken crypto.sha256HexWithPepper id crypto.tokenPepper token io)
  | .addMapping clientId name remotePort localAddr id now =>
    onClients s .mapping (s.clients.addMapping clientId name remotePort localAddr id now io)
  | .deleteMapping id => onClients s .changed (s.clients.deleteMapping id io)
  | .setMappingEnabled id enabled =>
    onClients s .changed (s.clients.setMappingEnabled id enabled io)
  | .changePassword newPassword salt =>
    let r := s.auth.changePassword crypto.hashPassword newPassword salt io
    (r.1.map fun _ => .unit, { s with auth := r.2 })

/-- The state in memory. -/
def Stores.memory (s : Stores) : List Client × AuthFile := (s.clients.list, s.auth.inner)

/-- What the two files hold. -/
def Stores.onDisk (s : Stores) : Option (Text (List Client)) × Option (Text AuthFile) :=
  (s.clients.file.main, s.auth.file.main)

/-- Reloading the files gives the state in memory. -/
def Stores.Synced (s : Stores) : Prop :=
  load s.clients.file = some s.clients.list ∧ load s.auth.file = some s.auth.inner

instance (s : Stores) : Decidable s.Synced := inferInstanceAs (Decidable (_ ∧ _))

/-! ## What one operation does

It returns without touching anything, or it puts a new list of clients or new
credentials in memory and saves them. -/

def saveClients (s : Stores) (list : List Client) (reply : Reply) (io : Outcome) :
    Except AuthError Reply × Stores :=
  onClients s id ({ s.clients with list }.persistThen io reply)

def saveAuth (s : Stores) (inner : AuthFile) (io : Outcome) : Except AuthError Reply × Stores :=
  let r := { s.auth with inner }.persistInner inner io
  (r.1.map fun _ => .unit, { s with auth := r.2 })

theorem saveClients_eq (s : Stores) (list : List Client) (reply : Reply) (io : Outcome) :
    saveClients s list reply io =
      (((save list s.clients.file io).1.map fun _ => reply).mapError .save,
        { s with clients := { list, file := (save list s.clients.file io).2 } }) := by
  cases io <;> rfl

theorem saveAuth_eq (s : Stores) (inner : AuthFile) (io : Outcome) :
    saveAuth s inner io =
      (((save inner s.auth.file io).1.map fun _ => .unit).mapError .save,
        { s with auth := { inner, file := (save inner s.auth.file io).2 } }) := by
  cases io <;> rfl

theorem onClients_cases {α : Type} {s : Stores} {f : Outcome → Except Error α × ClientStore}
    (h : s.clients.Saves f) (reply : α → Reply) :
    (∃ r, ∀ io, onClients s reply (f io) = (.ok r, s)) ∨
      ∃ list r, ∀ io, onClients s reply (f io) = saveClients s list r io := by
  obtain ⟨r, hr⟩ | ⟨list, r, hr⟩ := h
  · exact .inl ⟨reply r, fun io => by rw [hr]; rfl⟩
  · refine .inr ⟨list, reply r, fun io => ?_⟩
    rw [hr]
    cases io <;> rfl

/-- Every operation has one of three effects, whatever the file system does. -/
theorem exec_cases (crypto : Crypto) (s : Stores) (op : Op) :
    ((∃ r, ∀ io, exec crypto s op io = (.ok r, s)) ∨
      ∃ list r, ∀ io, exec crypto s op io = saveClients s list r io) ∨
    (∀ io, exec crypto s op io = (.error .hash, s)) ∨
      ∃ inner, ∀ io, exec crypto s op io = saveAuth s inner io := by
  cases op with
  | addClient name token id now =>
    exact .inl (onClients_cases (s.clients.addClient_saves _ name _ token id now) _)
  | deleteClient id => exact .inl (onClients_cases (s.clients.deleteClient_saves id) _)
  | setClientEnabled id enabled =>
    exact .inl (onClients_cases (s.clients.setClientEnabled_saves id enabled) _)
  | regenerateToken id token =>
    exact .inl (onClients_cases (s.clients.regenerateToken_saves _ id _ token) _)
  | addMapping clientId name remotePort localAddr id now =>
    exact .inl (onClients_cases
      (s.clients.addMapping_saves clientId name remotePort localAddr id now) _)
  | deleteMapping id => exact .inl (onClients_cases (s.clients.deleteMapping_saves id) _)
  | setMappingEnabled id enabled =>
    exact .inl (onClients_cases (s.clients.setMappingEnabled_saves id enabled) _)
  | changePassword newPassword salt =>
    refine .inr ?_
    cases hhash : crypto.hashPassword salt newPassword with
    | none =>
      refine .inl fun io => ?_
      simp only [exec, AuthStore.changePassword, hhash]
      rfl
    | some passwordHash =>
      refine .inr ⟨{ s.auth.inner with passwordHash }, fun io => ?_⟩
      simp only [exec, AuthStore.changePassword, hhash]
      rfl

/-- The state in memory after an operation does not depend on the file system. -/
theorem memory_exec (crypto : Crypto) (s : Stores) (op : Op) (io : Outcome) :
    (exec crypto s op io).2.memory = (exec crypto s op .done).2.memory := by
  obtain (⟨r, h⟩ | ⟨list, r, h⟩) | h | ⟨inner, h⟩ := exec_cases crypto s op
  · rw [h, h]
  · rw [h, h, saveClients_eq, saveClients_eq]
    rfl
  · rw [h, h]
  · rw [h, h, saveAuth_eq, saveAuth_eq]
    rfl

/-- It depends on nothing but the state in memory before. -/
theorem memory_exec_congr (crypto : Crypto) {s s' : Stores} (h : s.memory = s'.memory) (op : Op)
    (io : Outcome) : (exec crypto s op io).2.memory = (exec crypto s' op io).2.memory := by
  obtain ⟨⟨list, file⟩, ⟨inner, authFile⟩⟩ := s
  obtain ⟨⟨list', file'⟩, ⟨inner', authFile'⟩⟩ := s'
  obtain ⟨rfl, rfl⟩ := Prod.mk.inj h
  cases op with
  | addClient name token id now => simp [exec, onClients, Stores.memory, ClientStore.addClient]
  | deleteClient id =>
    simp only [exec, onClients, Stores.memory, ClientStore.deleteClient]
    split <;> simp
  | setClientEnabled id enabled =>
    simp only [exec, onClients, Stores.memory, ClientStore.setClientEnabled]
    split <;> simp
  | regenerateToken id token =>
    simp only [exec, onClients, Stores.memory, ClientStore.regenerateToken]
    split <;> simp
  | addMapping clientId name remotePort localAddr id now =>
    simp only [exec, onClients, Stores.memory, ClientStore.addMapping, ClientStore.remotePortTaken]
    split
    · rfl
    · split <;> simp
  | deleteMapping id =>
    simp only [exec, onClients, Stores.memory, ClientStore.deleteMapping]
    split <;> simp
  | setMappingEnabled id enabled =>
    simp only [exec, onClients, Stores.memory, ClientStore.setMappingEnabled]
    split <;> simp
  | changePassword newPassword salt =>
    simp only [exec, Stores.memory, AuthStore.changePassword]
    cases crypto.hashPassword salt newPassword <;> rfl

/-- An operation that fails leaves both files as they were. -/
theorem onDisk_of_error {crypto : Crypto} {s : Stores} {op : Op} {io : Outcome} {e : AuthError}
    (herror : (exec crypto s op io).1 = .error e) :
    (exec crypto s op io).2.onDisk = s.onDisk := by
  obtain (⟨r, h⟩ | ⟨list, r, h⟩) | h | ⟨inner, h⟩ := exec_cases crypto s op
  · rw [h]
  · rw [h, saveClients_eq] at herror ⊢
    cases hsave : (save list s.clients.file io).1 with
    | ok => rw [hsave] at herror; cases herror
    | error e' => exact congrArg (·, s.auth.file.main) (main_save_of_error hsave)
  · rw [h]
  · rw [h, saveAuth_eq] at herror ⊢
    cases hsave : (save inner s.auth.file io).1 with
    | ok => rw [hsave] at herror; cases herror
    | error e' => exact congrArg (s.clients.file.main, ·) (main_save_of_error hsave)

/-- An operation that succeeds leaves each store alone or brings its file up to
date, with the changes of earlier failed operations. -/
theorem saved_of_ok {crypto : Crypto} {s : Stores} {op : Op} {io : Outcome} {r : Reply}
    (hok : (exec crypto s op io).1 = .ok r) :
    let t := (exec crypto s op io).2
    (t.clients = s.clients ∨ load t.clients.file = some t.clients.list) ∧
      (t.auth = s.auth ∨ load t.auth.file = some t.auth.inner) := by
  obtain (⟨r, h⟩ | ⟨list, r, h⟩) | h | ⟨inner, h⟩ := exec_cases crypto s op
  · rw [h]
    exact ⟨.inl rfl, .inl rfl⟩
  · rw [h, saveClients_eq] at hok ⊢
    cases hsave : (save list s.clients.file io).1 with
    | ok => exact ⟨.inr (load_save_of_ok hsave), .inl rfl⟩
    | error e => rw [hsave] at hok; cases hok
  · rw [h]
    exact ⟨.inl rfl, .inl rfl⟩
  · rw [h, saveAuth_eq] at hok ⊢
    cases hsave : (save inner s.auth.file io).1 with
    | ok => exact ⟨.inl rfl, .inr (load_save_of_ok hsave)⟩
    | error e => rw [hsave] at hok; cases hok

theorem synced_of_ok {crypto : Crypto} {s : Stores} {op : Op} {io : Outcome} {r : Reply}
    (hok : (exec crypto s op io).1 = .ok r) (h : s.Synced) : (exec crypto s op io).2.Synced := by
  obtain ⟨hclients, hauth⟩ := saved_of_ok hok
  refine ⟨hclients.elim (fun heq => ?_) id, hauth.elim (fun heq => ?_) id⟩
  · rw [heq]; exact h.1
  · rw [heq]; exact h.2

/-! ## Runs -/

/-- The stores after a sequence of operations, each with the outcome of its save. -/
def run (crypto : Crypto) (s : Stores) : List (Op × Outcome) → Stores
  | [] => s
  | (op, io) :: ops => run crypto (exec crypto s op io).2 ops

/-- Every operation of the sequence succeeds. -/
def AllOk (crypto : Crypto) (s : Stores) : List (Op × Outcome) → Prop
  | [] => True
  | (op, io) :: ops =>
    (∃ r, (exec crypto s op io).1 = .ok r) ∧ AllOk crypto (exec crypto s op io).2 ops

/-- The same operations with every save successful. -/
def withoutFailures (ops : List (Op × Outcome)) : List (Op × Outcome) :=
  ops.map fun x => (x.1, .done)

theorem memory_run (crypto : Crypto) {s s' : Stores} (h : s.memory = s'.memory)
    (ops : List (Op × Outcome)) :
    (run crypto s ops).memory = (run crypto s' (withoutFailures ops)).memory := by
  induction ops generalizing s s' with
  | nil => exact h
  | cons x ops ih =>
    obtain ⟨op, io⟩ := x
    exact ih ((memory_exec crypto s op io).trans (memory_exec_congr crypto h op .done))

theorem synced_run {crypto : Crypto} {s : Stores} {ops : List (Op × Outcome)}
    (hok : AllOk crypto s ops) (h : s.Synced) : (run crypto s ops).Synced := by
  induction ops generalizing s with
  | nil => exact h
  | cons x ops ih =>
    obtain ⟨⟨r, hr⟩, hrest⟩ := hok
    exact ih hrest (synced_of_ok hr h)

/-- Memory goes its own way: over every run it is what it would be had every
save succeeded. An operation that fails leaves the files as they were; one that
succeeds leaves a store alone or brings its file up to date, earlier failed
changes included. So reloading gives the state in memory as long as everything
succeeds. -/
theorem failed_saves_keep_changes (crypto : Crypto) (s₀ : Stores) (ops : List (Op × Outcome)) :
    let s := run crypto s₀ ops
    s.memory = (run crypto s₀ (withoutFailures ops)).memory ∧
    (s₀.Synced → AllOk crypto s₀ ops → s.Synced) ∧
    ∀ op io,
      let t := (exec crypto s op io).2
      t.memory = (exec crypto s op .done).2.memory ∧
      (∀ e, (exec crypto s op io).1 = .error e → t.onDisk = s.onDisk) ∧
      ∀ r, (exec crypto s op io).1 = .ok r →
        (t.clients = s.clients ∨ load t.clients.file = some t.clients.list) ∧
          (t.auth = s.auth ∨ load t.auth.file = some t.auth.inner) :=
  ⟨memory_run crypto rfl ops, fun h hok => synced_run hok h, fun op io =>
    ⟨memory_exec crypto _ op io, fun _ => onDisk_of_error, fun _ => saved_of_ok⟩⟩

/-! ## Losing a token

The digests are those of HMAC-SHA256 under the pepper `pepper`. -/

def digest (token pepper : String) : String :=
  if token = "mmk_old" ∧ pepper = "pepper" then
    "88de5b20bd385da206005dc28c3c2fc1b7b596a0a458b154e92206439a0e81d9"
  else if token = "mmk_new" ∧ pepper = "pepper" then
    "eb19a72ef367dfb9403069f9a809be4ba7435f7a8cf2ec9ab3d3fbdc0573c6dd"
  else ""

def oneClient : Stores :=
  let list : List Client := [{
    id := "client_a", name := "a", tokenHash := digest "mmk_old" "pepper"
    tokenPrefix := "mmk_old", enabled := true, createdAt := 0, mappings := [] }]
  let inner : AuthFile := { username := "admin", passwordHash := "$argon2id$" }
  { clients := { list, file := { main := some (.doc list), tmp := none } }
    auth := { inner, file := { main := some (.doc inner), tmp := none } } }

def libraries : Crypto :=
  { sha256HexWithPepper := digest, tokenPepper := "pepper", hashPassword := fun _ _ => none }

/-- `oneClient` after its token is regenerated with a full disk. -/
def fullDisk : Except AuthError Reply × Stores :=
  exec libraries oneClient (.regenerateToken "client_a" "mmk_new") (.writeFailed .torn)

/-- The call fails and returns no token, yet the old token no longer works, and
the file does not have what memory has. -/
theorem regenerateToken_loses_token :
    fullDisk.1 = .error (.save .write) ∧ fullDisk.2.memory ≠ oneClient.memory ∧
      oneClient.clients.verifyToken digest "mmk_old" "pepper" = some ("client_a", true) ∧
      fullDisk.2.clients.verifyToken digest "mmk_old" "pepper" = none ∧
      oneClient.Synced ∧ ¬ fullDisk.2.Synced :=
  ⟨rfl, by decide, by decide, by decide, by decide, by decide⟩

end MiniMask.FailedSaves
