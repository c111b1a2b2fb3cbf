import MiniMask.Lib.AtomicFile

/-!
# The client store (`state.rs`, `ClientStore`)

The list of clients with their port mappings, kept in memory and saved to
`clients.json` by every operation that changes it. The text of the file is
modelled by the list it is the JSON of; `file` stands for the contents at the
store's `path` and at its temporary.

The digest of a token, `sha256_hex_with_pepper`, is a parameter: HMAC-SHA256 is
not part of the repository. Random identifiers, tokens and the clock are
arguments of the operations that draw them.
-/

namespace MiniMask

open AtomicFile

/-! ## Data models -/

/-- `DateTime<Utc>`, in milliseconds. -/
abbrev Timestamp := Int

structure PortMapping where
  id : String
  name : String
  remotePort : UInt16
  localAddr : String
  enabled : Bool
  createdAt : Timestamp
deriving DecidableEq, Repr

structure Client where
  id : String
  name : String
  tokenHash : String
  tokenPrefix : String
  enabled : Bool
  createdAt : Timestamp
  mappings : List PortMapping
deriving DecidableEq, Repr

structure ClientStore where
  list : List Client
  file : Files (List Client)
deriving DecidableEq, Repr

/-- `iter_mut().find(p)` followed by an update of what it found. -/
def updateFirst {α : Type} (p : α → Bool) (f : α → α) : List α → List α
  | [] => []
  | a :: l => if p a then f a :: l else a :: updateFirst p f l

/-- `token.chars().take(12).collect()`. -/
def tokenPrefixOf (token : String) : String := String.ofList (token.toList.take 12)

namespace ClientStore

/-! ## Saving -/

def persist (s : ClientStore) (io : Outcome) : Except Error Unit × ClientStore :=
  let saved := save s.list s.file io
  (saved.1, { s with file := saved.2 })

/-- `self.persist().await?; Ok(r)`. -/
def persistThen {α : Type} (s : ClientStore) (io : Outcome) (r : α) :
    Except Error α × ClientStore :=
  match s.persist io with
  | (.ok (), s) => (.ok r, s)
  | (.error e, s) => (.error e, s)

@[simp] theorem persistThen_list {α : Type} (s : ClientStore) (io : Outcome) (r : α) :
    (s.persistThen io r).2.list = s.list := by
  cases io <;> rfl

/-- The operation answers `r` exactly when the save succeeds. -/
theorem persistThen_ok {α : Type} {s : ClientStore} {io : Outcome} {r r' : α} :
    (s.persistThen io r).1 = .ok r' ↔ io = .done ∧ r = r' := by
  cases io <;> simp [persistThen, persist, save]

/-! ## Lookups -/

def find (s : ClientStore) (id : String) : Option Client :=
  s.list.find? fun c => c.id == id

def findMapping (s : ClientStore) (mappingId : String) : Option (String × PortMapping) :=
  s.list.findSome? fun c =>
    (c.mappings.find? fun m => m.id == mappingId).map fun m => (c.id, m)

def verifyToken (sha256HexWithPepper : String → String → String) (s : ClientStore)
    (token pepper : String) : Option (String × Bool) :=
  let h := sha256HexWithPepper token pepper
  (s.list.find? fun c => c.tokenHash == h && c.enabled).map fun c => (c.id, c.enabled)

def remotePortTaken (s : ClientStore) (port : UInt16) (ignoreMappingId : Option String) : Bool :=
  s.list.any fun c => c.mappings.any fun m =>
    m.remotePort == port && some m.id != ignoreMappingId

/-- The client that `verify_token` finds is enabled and has the digest of the token. -/
theorem verifyToken_client {hash : String → String → String} {s : ClientStore}
    {token pepper c : String} {enabled : Bool}
    (h : s.verifyToken hash token pepper = some (c, enabled)) :
    enabled = true ∧ ∃ client ∈ s.list, client.id = c ∧ client.enabled = true ∧
      client.tokenHash = hash token pepper := by
  unfold verifyToken at h
  obtain ⟨client, hfind, heq⟩ := Option.map_eq_some_iff.mp h
  cases heq
  have hmatch := List.find?_some hfind
  simp only [Bool.and_eq_true] at hmatch
  exact ⟨hmatch.2, client, List.mem_of_find?_eq_some hfind, rfl, hmatch.2, eq_of_beq hmatch.1⟩

/-! ## Mutating operations -/

def addClient (sha256HexWithPepper : String → String → String) (s : ClientStore)
    (name pepper token id : String) (now : Timestamp) (io : Outcome) :
    Except Error (Client × String) × ClientStore :=
  let client : Client :=
    { id, name, tokenHash := sha256HexWithPepper token pepper,
      tokenPrefix := tokenPrefixOf token, enabled := true, createdAt := now, mappings := [] }
  { s with list := s.list ++ [client] }.persistThen io (client, token)

def deleteClient (s : ClientStore) (id : String) (io : Outcome) :
    Except Error Bool × ClientStore :=
  let list := s.list.filter fun c => c.id != id
  let changed := list.length != s.list.length
  let s := { s with list }
  if changed then s.persistThen io true else (.ok false, s)

def setClientEnabled (s : ClientStore) (id : String) (enabled : Bool) (io : Outcome) :
    Except Error Bool × ClientStore :=
  if s.list.any fun c => c.id == id then
    let list := updateFirst (fun c => c.id == id) (fun c => { c with enabled }) s.list
    { s with list }.persistThen io true
  else (.ok false, s)

def regenerateToken (sha256HexWithPepper : String → String → String) (s : ClientStore)
    (id pepper token : String) (io : Outcome) : Except Error (Option String) × ClientStore :=
  if s.list.any fun c => c.id == id then
    let list := updateFirst (fun c => c.id == id)
      (fun c => { c with
        tokenHash := sha256HexWithPepper token pepper
        tokenPrefix := tokenPrefixOf token }) s.list
    { s with list }.persistThen io (some token)
  else (.ok none, s)

def addMapping (s : ClientStore) (clientId name : String) (remotePort : UInt16)
    (localAddr id : String) (now : Timestamp) (io : Outcome) :
    Except Error (Option PortMapping) × ClientStore :=
  if s.remotePortTaken remotePort none then (.ok none, s)
  else if s.list.any fun c => c.id == clientId then
    let m : PortMapping := { id, name, remotePort, localAddr, enabled := true, createdAt := now }
    let list := updateFirst (fun c => c.id == clientId)
      (fun c => { c with mappings := c.mappings ++ [m] }) s.list
    { s with list }.persistThen io (some m)
  else (.ok none, s)

def deleteMapping (s : ClientStore) (id : String) (io : Outcome) :
    Except Error Bool × ClientStore :=
  let kept := fun c : Client => c.mappings.filter fun m => m.id != id
  let changed := s.list.any fun c => (kept c).length != c.mappings.length
  let s := { s with list := s.list.map fun c => { c with mappings := kept c } }
  if changed then s.persistThen io true else (.ok false, s)

def setMappingEnabled (s : ClientStore) (id : String) (enabled : Bool) (io : Outcome) :
    Except Error Bool × ClientStore :=
  let found := s.list.any fun c => c.mappings.any fun m => m.id == id
  let s := { s with list := s.list.map fun c => { c with
    mappings := updateFirst (fun m => m.id == id) (fun m => { m with enabled }) c.mappings } }
  if found then s.persistThen io true else (.ok false, s)

/-! ## What an operation can do

Either it returns without touching anything, or it computes a new list, puts it
in memory and saves it. Which of the two, and which list, does not depend on the
file system. -/

def Saves {α : Type} (s : ClientStore) (f : Outcome → Except Error α × ClientStore) : Prop :=
  (∃ r, ∀ io, f io = (.ok r, s)) ∨
    ∃ list r, ∀ io, f io = ({ s with list }.persistThen io r)

theorem addClient_saves (hash : String → String → String) (s : ClientStore)
    (name pepper token id : String) (now : Timestamp) :
    s.Saves (s.addClient hash name pepper token id now) :=
  .inr ⟨_, _, fun _ => rfl⟩

theorem deleteClient_saves (s : ClientStore) (id : String) : s.Saves (s.deleteClient id) := by
  cases hchanged : (s.list.filter fun c => c.id != id).length != s.list.length with
  | true =>
    exact .inr ⟨_, true, fun io => by
      simp only [deleteClient, hchanged, if_true]
      rfl⟩
  | false =>
    have hlist : (s.list.filter fun c => c.id != id) = s.list :=
      List.filter_sublist.eq_of_length (by simpa using hchanged)
    exact .inl ⟨false, fun io => by simp [deleteClient, hlist]⟩

theorem setClientEnabled_saves (s : ClientStore) (id : String) (enabled : Bool) :
    s.Saves (s.setClientEnabled id enabled) := by
  cases hfound : s.list.any fun c => c.id == id with
  | true =>
    exact .inr ⟨_, true, fun io => by
      simp only [setClientEnabled, hfound, if_true]
      rfl⟩
  | false => exact .inl ⟨false, fun io => by simp [setClientEnabled, hfound]⟩

theorem regenerateToken_saves (hash : String → String → String) (s : ClientStore)
    (id pepper token : String) : s.Saves (s.regenerateToken hash id pepper token) := by
  cases hfound : s.list.any fun c => c.id == id with
  | true =>
    exact .inr ⟨_, some token, fun io => by
      simp only [regenerateToken, hfound, if_true]
      rfl⟩
  | false => exact .inl ⟨none, fun io => by simp [regenerateToken, hfound]⟩

theorem addMapping_saves (s : ClientStore) (clientId name : String) (remotePort : UInt16)
    (localAddr id : String) (now : Timestamp) :
    s.Saves (s.addMapping clientId name remotePort localAddr id now) := by
  cases htaken : s.remotePortTaken remotePort none with
  | true => exact .inl ⟨none, fun io => by simp [addMapping, htaken]⟩
  | false =>
    cases hfound : s.list.any fun c => c.id == clientId with
    | true =>
      exact .inr ⟨_, _, fun io => by
        simp only [addMapping, htaken, hfound, if_true, Bool.false_eq_true, if_false]
        rfl⟩
    | false => exact .inl ⟨none, fun io => by simp [addMapping, htaken, hfound]⟩

/-- Where every client keeps its mappings, the list stays as it is. -/
theorem map_mappings_eq {l : List Client} {kept : Client → List PortMapping}
    (h : ∀ c ∈ l, kept c = c.mappings) :
    (l.map fun c => { c with mappings := kept c }) = l := by
  have hid : ∀ c ∈ l, { c with mappings := kept c } = id c := by
    intro c hc
    rw [h c hc]
    rfl
  exact (List.map_congr_left hid).trans (List.map_id l)

theorem deleteMapping_saves (s : ClientStore) (id : String) : s.Saves (s.deleteMapping id) := by
  cases hchanged : s.list.any fun c =>
      (c.mappings.filter fun m => m.id != id).length != c.mappings.length with
  | true =>
    exact .inr ⟨_, true, fun io => by
      simp only [deleteMapping, hchanged, if_true]
      rfl⟩
  | false =>
    have hkept : ∀ c ∈ s.list, (c.mappings.filter fun m => m.id != id) = c.mappings := by
      intro c hc
      have hlength := List.any_eq_false.mp hchanged c hc
      exact List.filter_sublist.eq_of_length (by simpa using hlength)
    refine .inl ⟨false, fun io => ?_⟩
    simp only [deleteMapping, hchanged, map_mappings_eq hkept]
    rfl

/-- An update that finds nothing changes nothing. -/
theorem updateFirst_of_none {α : Type} {p : α → Bool} {f : α → α} {l : List α}
    (h : l.any p = false) : updateFirst p f l = l := by
  induction l with
  | nil => rfl
  | cons a l ih =>
    rw [List.any_cons, Bool.or_eq_false_iff] at h
    simp [updateFirst, h.1, ih h.2]

example : updateFirst (· > 1) (· + 10) [1, 2, 3] = [1, 12, 3] := by decide

theorem setMappingEnabled_saves (s : ClientStore) (id : String) (enabled : Bool) :
    s.Saves (s.setMappingEnabled id enabled) := by
  cases hfound : s.list.any fun c => c.mappings.any fun m => m.id == id with
  | true =>
    exact .inr ⟨_, true, fun io => by
      simp only [setMappingEnabled, hfound, if_true]
      rfl⟩
  | false =>
    have hkept : ∀ c ∈ s.list, updateFirst (fun m : PortMapping => m.id == id)
        (fun m => { m with enabled }) c.mappings = c.mappings := by
      intro c hc
      have hnone := List.any_eq_false.mp hfound c hc
      exact updateFirst_of_none (by simpa using hnone)
    refine .inl ⟨false, fun io => ?_⟩
    simp only [setMappingEnabled, hfound, map_mappings_eq hkept]
    rfl

end ClientStore

end MiniMask
