import Mathlib.Data.List.Flatten
import Mathlib.Data.List.Nodup
import MiniMask.Store.Clients

/-!
# What the operations of the client store do to its list

The list in memory after each operation, whatever the file system does, and what
that means for the *routes*: the owner, id, port and address of a mapping, which
no operation changes once the mapping is there.
-/

namespace MiniMask

open AtomicFile

/-! ## Lists after an operation -/

/-- The mapping that `add_mapping` makes. -/
def newMapping (name : String) (remotePort : UInt16) (localAddr id : String) (now : Timestamp) :
    PortMapping :=
  { id, name, remotePort, localAddr, enabled := true, createdAt := now }

namespace ClientStore

variable (s : ClientStore) (io : Outcome)

theorem addClient_list (hash : String → String → String) (name pepper token id : String)
    (now : Timestamp) :
    (s.addClient hash name pepper token id now io).2.list = s.list ++ [{
      id, name, tokenHash := hash token pepper, tokenPrefix := tokenPrefixOf token
      enabled := true, createdAt := now, mappings := [] }] := by
  simp [addClient]

theorem deleteClient_list (id : String) :
    (s.deleteClient id io).2.list = s.list.filter fun c => c.id != id := by
  unfold deleteClient
  simp only
  split <;> simp

theorem setClientEnabled_list (id : String) (enabled : Bool) :
    (s.setClientEnabled id enabled io).2.list =
      updateFirst (fun c => c.id == id) (fun c => { c with enabled }) s.list := by
  unfold setClientEnabled
  split
  · simp
  · next h => rw [updateFirst_of_none (by simpa using h)]

theorem regenerateToken_list (hash : String → String → String) (id pepper token : String) :
    (s.regenerateToken hash id pepper token io).2.list =
      updateFirst (fun c => c.id == id) (fun c => { c with
        tokenHash := hash token pepper
        tokenPrefix := tokenPrefixOf token }) s.list := by
  unfold regenerateToken
  split
  · simp
  · next h => rw [updateFirst_of_none (by simpa using h)]

/-- `add_mapping` refuses, or appends the mapping to its client and saves. -/
theorem addMapping_cases (clientId name : String) (remotePort : UInt16) (localAddr id : String)
    (now : Timestamp) :
    s.addMapping clientId name remotePort localAddr id now io = (.ok none, s) ∨
      (s.list.any fun c => c.id == clientId) = true ∧
      s.addMapping clientId name remotePort localAddr id now io =
        { s with
          list := updateFirst (fun c => c.id == clientId) (fun c => { c with
            mappings := c.mappings ++ [newMapping name remotePort localAddr id now] })
            s.list }.persistThen io (some (newMapping name remotePort localAddr id now)) := by
  unfold addMapping
  split
  · exact .inl rfl
  · split
    · next h => exact .inr ⟨h, rfl⟩
    · exact .inl rfl

theorem deleteMapping_list (id : String) :
    (s.deleteMapping id io).2.list =
      s.list.map fun c => { c with mappings := c.mappings.filter fun m => m.id != id } := by
  unfold deleteMapping
  simp only
  split <;> simp

theorem setMappingEnabled_list (id : String) (enabled : Bool) :
    (s.setMappingEnabled id enabled io).2.list =
      s.list.map fun c => { c with
        mappings := updateFirst (fun m => m.id == id) (fun m => { m with enabled })
          c.mappings } := by
  unfold setMappingEnabled
  simp only
  split <;> simp

/-- Where the client or the mapping is there, the operations that enable save. -/
theorem setClientEnabled_found {id : String} (enabled : Bool)
    (h : (s.list.any fun c => c.id == id) = true) :
    ∃ list, s.setClientEnabled id enabled io = { s with list }.persistThen io true := by
  unfold setClientEnabled
  rw [if_pos h]
  exact ⟨_, rfl⟩

theorem setMappingEnabled_found {id : String} (enabled : Bool)
    (h : (s.list.any fun c => c.mappings.any fun m => m.id == id) = true) :
    ∃ list, s.setMappingEnabled id enabled io = { s with list }.persistThen io true := by
  unfold setMappingEnabled
  simp only
  rw [if_pos h]
  exact ⟨_, rfl⟩

variable {s io}

/-- What answers `true` has saved. -/
theorem setClientEnabled_saved {id : String} {enabled : Bool}
    (h : (s.setClientEnabled id enabled io).1 = .ok true) : io = .done := by
  unfold setClientEnabled at h
  split at h
  · exact (persistThen_ok.mp h).1
  · cases h

theorem deleteClient_saved {id : String} (h : (s.deleteClient id io).1 = .ok true) :
    io = .done := by
  unfold deleteClient at h
  simp only at h
  split at h
  · exact (persistThen_ok.mp h).1
  · cases h

theorem setMappingEnabled_saved {id : String} {enabled : Bool}
    (h : (s.setMappingEnabled id enabled io).1 = .ok true) : io = .done := by
  unfold setMappingEnabled at h
  simp only at h
  split at h
  · exact (persistThen_ok.mp h).1
  · cases h

theorem deleteMapping_saved {id : String} (h : (s.deleteMapping id io).1 = .ok true) :
    io = .done := by
  unfold deleteMapping at h
  simp only at h
  split at h
  · exact (persistThen_ok.mp h).1
  · cases h

end ClientStore

/-! ## Updates in place -/

theorem sublist_of_eq {α : Type} {l l' : List α} (h : l = l') : l.Sublist l' :=
  h ▸ List.Sublist.refl l

section UpdateFirst

variable {α β : Type} {p : α → Bool} {f : α → α} {l : List α}

/-- `updateFirst` changes the first element that satisfies `p`. -/
theorem updateFirst_split (h : l.any p = true) :
    ∃ pre a post, l = pre ++ a :: post ∧ p a = true ∧
      updateFirst p f l = pre ++ f a :: post := by
  induction l with
  | nil => cases h
  | cons a l ih =>
    cases ha : p a with
    | true => exact ⟨[], a, l, rfl, ha, by simp [updateFirst, ha]⟩
    | false =>
      rw [List.any_cons, ha, Bool.false_or] at h
      obtain ⟨pre, b, post, rfl, hb, heq⟩ := ih h
      exact ⟨a :: pre, b, post, rfl, hb, by simp [updateFirst, ha, heq]⟩

/-- An update that keeps `g` keeps the image under `g`. -/
theorem map_updateFirst (g : α → β) (hg : ∀ a, g (f a) = g a) :
    (updateFirst p f l).map g = l.map g := by
  induction l with
  | nil => rfl
  | cons a l ih =>
    unfold updateFirst
    split
    · rw [List.map_cons, List.map_cons, hg]
    · rw [List.map_cons, List.map_cons, ih]

/-- What an updated list has is an element of the list or the image of one that
satisfies `p`. -/
theorem mem_updateFirst {b : α} (h : b ∈ updateFirst p f l) :
    b ∈ l ∨ ∃ a ∈ l, p a = true ∧ b = f a := by
  induction l with
  | nil => cases h
  | cons a l ih =>
    unfold updateFirst at h
    split at h
    · next ha =>
      rcases List.mem_cons.mp h with rfl | h
      · exact .inr ⟨a, List.mem_cons_self, ha, rfl⟩
      · exact .inl (List.mem_cons_of_mem _ h)
    · rcases List.mem_cons.mp h with rfl | h
      · exact .inl List.mem_cons_self
      · rcases ih h with h | ⟨a', ha', hp, rfl⟩
        · exact .inl (List.mem_cons_of_mem _ h)
        · exact .inr ⟨a', List.mem_cons_of_mem _ ha', hp, rfl⟩

/-- What a list has is in the updated list, as it was or updated. -/
theorem mem_updateFirst_of_mem {a : α} (h : a ∈ l) :
    a ∈ updateFirst p f l ∨ p a = true ∧ f a ∈ updateFirst p f l := by
  induction l with
  | nil => cases h
  | cons b l ih =>
    unfold updateFirst
    split
    · next hb =>
      rcases List.mem_cons.mp h with rfl | h
      · exact .inr ⟨hb, List.mem_cons_self⟩
      · exact .inl (List.mem_cons_of_mem _ h)
    · rcases List.mem_cons.mp h with rfl | h
      · exact .inl List.mem_cons_self
      · exact (ih h).imp (List.mem_cons_of_mem _) (And.imp_right (List.mem_cons_of_mem _))

/-- With distinct keys, the element of an updated list that has the key asked for
is an updated one. -/
theorem mem_updateFirst_key [BEq β] [LawfulBEq β] {key : α → β} {x : β} {b : α}
    (hnodup : (l.map key).Nodup) (h : b ∈ updateFirst (fun a => key a == x) f l)
    (hkey : key b = x) : ∃ a ∈ l, b = f a := by
  induction l with
  | nil => cases h
  | cons a l ih =>
    obtain ⟨hnot, hnodup⟩ := List.nodup_cons.mp hnodup
    unfold updateFirst at h
    split at h
    · next ha =>
      rcases List.mem_cons.mp h with rfl | h
      · exact ⟨a, List.mem_cons_self, rfl⟩
      · refine absurd (List.mem_map.mpr ⟨b, h, ?_⟩) hnot
        rw [hkey, eq_of_beq ha]
    · next ha =>
      rcases List.mem_cons.mp h with rfl | h
      · exact absurd (beq_iff_eq.mpr hkey) ha
      · obtain ⟨a', ha', rfl⟩ := ih hnodup h
        exact ⟨a', List.mem_cons_of_mem _ ha', rfl⟩

/-- With distinct keys, looking a key up finds the element that has it. -/
theorem find?_key [BEq β] [LawfulBEq β] {key : α → β} {a : α} (hnodup : (l.map key).Nodup)
    (h : a ∈ l) : (l.find? fun b => key b == key a) = some a := by
  induction l with
  | nil => cases h
  | cons b l ih =>
    obtain ⟨hnot, hnodup⟩ := List.nodup_cons.mp hnodup
    rcases List.mem_cons.mp h with rfl | h
    · simp
    · have hne : ¬ (key b == key a) = true := fun heq =>
        hnot (List.mem_map.mpr ⟨a, h, (eq_of_beq heq).symm⟩)
      simpa [List.find?_cons, hne] using ih hnodup h

end UpdateFirst

/-! ## Routes -/

/-- What stays of a mapping as long as it exists. -/
structure Route where
  clientId : String
  mappingId : String
  remotePort : UInt16
  localAddr : String
deriving DecidableEq, Repr

def PortMapping.route (m : PortMapping) (clientId : String) : Route where
  clientId := clientId
  mappingId := m.id
  remotePort := m.remotePort
  localAddr := m.localAddr

def Client.routes (c : Client) : List Route := c.mappings.map fun m => m.route c.id

/-- The routes of all mappings. -/
def routes (list : List Client) : List Route := list.flatMap Client.routes

theorem mem_routes {list : List Client} {r : Route} :
    r ∈ routes list ↔ ∃ c ∈ list, ∃ m ∈ c.mappings, m.route c.id = r := by
  simp [routes, Client.routes, List.mem_flatMap, List.mem_map]

/-- Where mapping ids are distinct, those of one client are. -/
theorem mappingIds_nodup {list : List Client} (h : ((routes list).map (·.mappingId)).Nodup)
    {c : Client} (hc : c ∈ list) : (c.mappings.map (·.id)).Nodup := by
  unfold routes at h
  rw [List.map_flatMap, List.nodup_flatMap] at h
  have hclient := h.1 c hc
  rwa [Client.routes, List.map_map] at hclient

/-- Where mapping ids are distinct, a mapping has one owner. -/
theorem owner_eq {list : List Client} (h : ((routes list).map (·.mappingId)).Nodup)
    {c c' : Client} {m m' : PortMapping} (hc : c ∈ list) (hc' : c' ∈ list) (hm : m ∈ c.mappings)
    (hm' : m' ∈ c'.mappings) (hid : m.id = m'.id) : c.id = c'.id := by
  have heq := List.inj_on_of_nodup_map h (mem_routes.mpr ⟨c, hc, m, hm, rfl⟩)
    (mem_routes.mpr ⟨c', hc', m', hm', rfl⟩) hid
  exact congrArg Route.clientId heq

theorem routes_map {list : List Client} {f : Client → Client} {q : List Route → List Route → Prop}
    (nil : q [] []) (append : ∀ {a b c d}, q a b → q c d → q (a ++ c) (b ++ d))
    (h : ∀ c ∈ list, q (f c).routes c.routes) : q (routes (list.map f)) (routes list) := by
  induction list with
  | nil => exact nil
  | cons c list ih =>
    exact append (h c List.mem_cons_self) (ih fun c hc => h c (List.mem_cons_of_mem _ hc))

namespace ClientStore

variable (s : ClientStore) (io : Outcome)

theorem routes_addClient (hash : String → String → String) (name pepper token id : String)
    (now : Timestamp) :
    routes (s.addClient hash name pepper token id now io).2.list = routes s.list := by
  rw [addClient_list]
  simp [routes, Client.routes]

theorem routes_deleteClient (id : String) :
    (routes (s.deleteClient id io).2.list).Sublist (routes s.list) := by
  rw [deleteClient_list]
  exact List.filter_sublist.flatMap _

/-- An update of one client that keeps its id and mappings keeps the routes. -/
theorem routes_updateFirst {p : Client → Bool} {f : Client → Client} {list : List Client}
    (hroutes : ∀ c, (f c).routes = c.routes) : routes (updateFirst p f list) = routes list := by
  unfold routes
  rw [List.flatMap_def, List.flatMap_def, map_updateFirst Client.routes hroutes]

theorem routes_setClientEnabled (id : String) (enabled : Bool) :
    routes (s.setClientEnabled id enabled io).2.list = routes s.list := by
  rw [setClientEnabled_list]
  exact routes_updateFirst fun _ => rfl

theorem routes_regenerateToken (hash : String → String → String) (id pepper token : String) :
    routes (s.regenerateToken hash id pepper token io).2.list = routes s.list := by
  rw [regenerateToken_list]
  exact routes_updateFirst fun _ => rfl

/-- At most the route of the new mapping comes in. -/
theorem routes_addMapping (clientId name : String) (remotePort : UInt16)
    (localAddr id : String) (now : Timestamp) :
    routes (s.addMapping clientId name remotePort localAddr id now io).2.list = routes s.list ∨
      (routes (s.addMapping clientId name remotePort localAddr id now io).2.list).Perm
        ({ clientId, mappingId := id, remotePort, localAddr } :: routes s.list) := by
  rcases s.addMapping_cases io clientId name remotePort localAddr id now with heq | ⟨hany, heq⟩
  · exact .inl (by rw [heq])
  · refine .inr ?_
    obtain ⟨pre, c, post, hlist, hc, hupdate⟩ := updateFirst_split hany
    rw [heq, persistThen_list, hupdate, hlist]
    have hid : c.id = clientId := by simpa using hc
    have hperm := @List.perm_middle Route { clientId, mappingId := id, remotePort, localAddr }
      (routes pre ++ c.routes) (routes post)
    simpa [routes, Client.routes, PortMapping.route, newMapping, hid] using hperm

theorem routes_deleteMapping (id : String) :
    (routes (s.deleteMapping id io).2.list).Sublist (routes s.list) := by
  rw [deleteMapping_list]
  exact routes_map (List.Sublist.refl _) (fun h h' => h.append h') fun c _ =>
    List.filter_sublist.map _

theorem routes_setMappingEnabled (id : String) (enabled : Bool) :
    routes (s.setMappingEnabled id enabled io).2.list = routes s.list := by
  rw [setMappingEnabled_list]
  exact routes_map rfl (fun h h' => by rw [h, h']) fun c _ => map_updateFirst _ fun _ => rfl

end ClientStore

/-! ## Client ids -/

theorem ids_addClient (hash : String → String → String) (name pepper token id : String)
    (now : Timestamp) (s : ClientStore) (io : Outcome) :
    (s.addClient hash name pepper token id now io).2.list.map (·.id) =
      s.list.map (·.id) ++ [id] := by
  rw [ClientStore.addClient_list, List.map_append]
  rfl

/-- No other operation adds a client. -/
theorem ids_deleteClient (s : ClientStore) (io : Outcome) (id : String) :
    ((s.deleteClient id io).2.list.map (·.id)).Sublist (s.list.map (·.id)) := by
  rw [ClientStore.deleteClient_list]
  exact List.filter_sublist.map _

theorem ids_setClientEnabled (s : ClientStore) (io : Outcome) (id : String) (enabled : Bool) :
    (s.setClientEnabled id enabled io).2.list.map (·.id) = s.list.map (·.id) := by
  rw [ClientStore.setClientEnabled_list]
  exact map_updateFirst Client.id fun _ => rfl

theorem ids_regenerateToken (s : ClientStore) (io : Outcome) (hash : String → String → String)
    (id pepper token : String) :
    (s.regenerateToken hash id pepper token io).2.list.map (·.id) = s.list.map (·.id) := by
  rw [ClientStore.regenerateToken_list]
  exact map_updateFirst Client.id fun _ => rfl

theorem ids_addMapping (s : ClientStore) (io : Outcome) (clientId name : String)
    (remotePort : UInt16) (localAddr id : String) (now : Timestamp) :
    (s.addMapping clientId name remotePort localAddr id now io).2.list.map (·.id) =
      s.list.map (·.id) := by
  rcases s.addMapping_cases io clientId name remotePort localAddr id now with heq | ⟨_, heq⟩
  · rw [heq]
  · rw [heq, ClientStore.persistThen_list]
    exact map_updateFirst Client.id fun _ => rfl

theorem ids_deleteMapping (s : ClientStore) (io : Outcome) (id : String) :
    (s.deleteMapping id io).2.list.map (·.id) = s.list.map (·.id) := by
  rw [ClientStore.deleteMapping_list, List.map_map]
  rfl

theorem ids_setMappingEnabled (s : ClientStore) (io : Outcome) (id : String) (enabled : Bool) :
    (s.setMappingEnabled id enabled io).2.list.map (·.id) = s.list.map (·.id) := by
  rw [ClientStore.setMappingEnabled_list, List.map_map]
  rfl

/-! ## Lookups -/

namespace ClientStore

variable {s : ClientStore}

theorem find_of_mem (hids : (s.list.map (·.id)).Nodup) {c : Client} (hc : c ∈ s.list) :
    s.find c.id = some c :=
  find?_key hids hc

/-- Where ids are distinct, `find_mapping` finds every mapping with its owner. -/
theorem findMapping_of_mem (hids : (s.list.map (·.id)).Nodup)
    (hroutes : ((routes s.list).map (·.mappingId)).Nodup) {c : Client} {m : PortMapping}
    (hc : c ∈ s.list) (hm : m ∈ c.mappings) : s.findMapping m.id = some (c.id, m) := by
  have hown : ((c.mappings.find? fun m' => m'.id == m.id).map fun m' => (c.id, m')) =
      some (c.id, m) := by
    rw [find?_key (mappingIds_nodup hroutes hc) hm]
    rfl
  -- only the owner has a mapping with this id
  have hother : ∀ c' ∈ s.list, ∀ x,
      ((c'.mappings.find? fun m' => m'.id == m.id).map fun m' => (c'.id, m')) = some x →
        x = (c.id, m) := by
    intro c' hc' x hx
    obtain ⟨m', hfind, rfl⟩ := Option.map_eq_some_iff.mp hx
    have hid : m'.id = m.id := by simpa using List.find?_some hfind
    have hsame : c' = c := List.inj_on_of_nodup_map hids hc' hc
      (owner_eq hroutes hc' hc (List.mem_of_find?_eq_some hfind) hm hid)
    subst hsame
    rw [hx] at hown
    exact Option.some.inj hown
  unfold findMapping
  cases hfind : s.list.findSome? fun c =>
      (c.mappings.find? fun m' => m'.id == m.id).map fun m' => (c.id, m') with
  | none =>
    have := List.findSome?_eq_none_iff.mp hfind c hc
    rw [hown] at this
    cases this
  | some x =>
    obtain ⟨c', hc', hx⟩ := List.exists_of_findSome?_eq_some hfind
    rw [hother c' hc' x hx]

end ClientStore

/-! ## Active mappings -/

/-- `m` is an enabled mapping of the enabled client `c`. -/
def Active (list : List Client) (c : String) (m : PortMapping) : Prop :=
  ∃ client ∈ list, client.id = c ∧ client.enabled = true ∧ m ∈ client.mappings ∧ m.enabled = true

theorem Active.route_mem {list : List Client} {c : String} {m : PortMapping}
    (h : Active list c m) : m.route c ∈ routes list := by
  obtain ⟨client, hclient, rfl, _, hm, _⟩ := h
  exact mem_routes.mpr ⟨client, hclient, m, hm, rfl⟩

/-- The mapping `id` of `c` is active. -/
def ActiveId (list : List Client) (c id : String) : Prop := ∃ m, Active list c m ∧ m.id = id

section Active

variable {s : ClientStore} {io : Outcome} {c : String} {m : PortMapping}

theorem active_addClient {hash : String → String → String} {name pepper token id : String}
    {now : Timestamp}
    (h : Active (s.addClient hash name pepper token id now io).2.list c m) :
    Active s.list c m := by
  rw [ClientStore.addClient_list] at h
  obtain ⟨client, hclient, hid, hen, hm, hmen⟩ := h
  rcases List.mem_append.mp hclient with hclient | hclient
  · exact ⟨client, hclient, hid, hen, hm, hmen⟩
  · cases List.mem_singleton.mp hclient
    cases hm

theorem active_deleteClient {id : String} (h : Active (s.deleteClient id io).2.list c m) :
    Active s.list c m ∧ c ≠ id := by
  rw [ClientStore.deleteClient_list] at h
  obtain ⟨client, hclient, rfl, hen, hm, hmen⟩ := h
  obtain ⟨hclient, hne⟩ := List.mem_filter.mp hclient
  exact ⟨⟨client, hclient, rfl, hen, hm, hmen⟩, by simpa using hne⟩

/-- Enabling or disabling client `id` concerns the mappings of that client only. -/
theorem active_setClientEnabled {id : String} {enabled : Bool}
    (h : Active (s.setClientEnabled id enabled io).2.list c m) :
    Active s.list c m ∨ c = id ∧ enabled = true := by
  rw [ClientStore.setClientEnabled_list] at h
  obtain ⟨client, hclient, rfl, hen, hm, hmen⟩ := h
  rcases mem_updateFirst hclient with hclient | ⟨client', _, hp, rfl⟩
  · exact .inl ⟨client, hclient, rfl, hen, hm, hmen⟩
  · exact .inr ⟨by simpa using hp, hen⟩

theorem active_regenerateToken {hash : String → String → String} {id pepper token : String}
    (h : Active (s.regenerateToken hash id pepper token io).2.list c m) : Active s.list c m := by
  rw [ClientStore.regenerateToken_list] at h
  obtain ⟨client, hclient, rfl, hen, hm, hmen⟩ := h
  rcases mem_updateFirst hclient with hclient | ⟨client', hold, _, rfl⟩
  · exact ⟨client, hclient, rfl, hen, hm, hmen⟩
  · exact ⟨client', hold, rfl, hen, hm, hmen⟩

theorem active_deleteMapping {id : String} (h : Active (s.deleteMapping id io).2.list c m) :
    Active s.list c m ∧ m.id ≠ id := by
  rw [ClientStore.deleteMapping_list] at h
  obtain ⟨client, hclient, rfl, hen, hm, hmen⟩ := h
  obtain ⟨client', hold, rfl⟩ := List.mem_map.mp hclient
  obtain ⟨hm, hne⟩ := List.mem_filter.mp hm
  exact ⟨⟨client', hold, rfl, hen, hm, hmen⟩, by simpa using hne⟩

/-- Enabling or disabling mapping `id` concerns that mapping only. -/
theorem active_setMappingEnabled {id : String} {enabled : Bool}
    (h : Active (s.setMappingEnabled id enabled io).2.list c m) :
    Active s.list c m ∨ m.id = id ∧ enabled = true := by
  rw [ClientStore.setMappingEnabled_list] at h
  obtain ⟨client, hclient, rfl, hen, hm, hmen⟩ := h
  obtain ⟨client', hold, rfl⟩ := List.mem_map.mp hclient
  rcases mem_updateFirst hm with hm | ⟨m', _, hp, rfl⟩
  · exact .inl ⟨client', hold, rfl, hen, hm, hmen⟩
  · exact .inr ⟨by simpa using hp, hmen⟩

/-- A client that was disabled has no active mapping. -/
theorem not_active_setClientEnabled {id : String} (hids : (s.list.map (·.id)).Nodup) :
    ¬ Active (s.setClientEnabled id false io).2.list id m := by
  rw [ClientStore.setClientEnabled_list]
  rintro ⟨client, hclient, hid, hen, _, _⟩
  obtain ⟨client', _, rfl⟩ := mem_updateFirst_key hids hclient hid
  cases hen

/-- A mapping that was disabled is not active. -/
theorem not_active_setMappingEnabled {id : String}
    (hroutes : ((routes s.list).map (·.mappingId)).Nodup)
    (h : Active (s.setMappingEnabled id false io).2.list c m) : m.id ≠ id := by
  rw [ClientStore.setMappingEnabled_list] at h
  obtain ⟨client, hclient, rfl, hen, hm, hmen⟩ := h
  obtain ⟨client', hold, rfl⟩ := List.mem_map.mp hclient
  intro hid
  obtain ⟨m', _, rfl⟩ := mem_updateFirst_key (mappingIds_nodup hroutes hold) hm hid
  cases hmen

/-- Where `add_mapping` saves, the only new active mapping is the one it made. -/
theorem active_addMapping {list : List Client} {clientId : String} {new : PortMapping}
    (h : Active (updateFirst (fun c => c.id == clientId)
      (fun c => { c with mappings := c.mappings ++ [new] }) list) c m) :
    Active list c m ∨ c = clientId ∧ m = new := by
  obtain ⟨client, hclient, rfl, hen, hm, hmen⟩ := h
  rcases mem_updateFirst hclient with hclient | ⟨client', hold, hp, rfl⟩
  · exact .inl ⟨client, hclient, rfl, hen, hm, hmen⟩
  · rcases List.mem_append.mp hm with hm | hm
    · exact .inl ⟨client', hold, rfl, hen, hm, hmen⟩
    · exact .inr ⟨by simpa using hp, List.mem_singleton.mp hm⟩

end Active

end MiniMask
