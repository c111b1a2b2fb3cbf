import MiniMask.Lib.Keyed
import MiniMask.Store.Operations

/-!
# The client store as a finite map

`apply` says what the seven operations are for: a directory of clients by id,
each with a directory of mappings by id, in which an operation looks its record
up and replaces, appends or erases that one record. `refines_directory` is the
refinement: where ids and ports are distinct, the loops of the code over all
clients do exactly this.
-/

namespace MiniMask

open AtomicFile
open FailedSaves (Reply)

/-- No two clients and no two mappings have the same id, and no two mappings the
same port. -/
structure Unique (list : List Client) : Prop where
  clients : (list.map (·.id)).Nodup
  mappings : ((routes list).map (·.mappingId)).Nodup
  ports : ((routes list).map (·.remotePort)).Nodup

namespace Directory

/-! ## The specification -/

def client (id : String) (list : List Client) : Option Client := Keyed.get Client.id id list

/-- Every mapping with its owner, in order. -/
def owned (list : List Client) : List (Client × PortMapping) :=
  list.flatMap fun c => c.mappings.map fun m => (c, m)

def mapping (id : String) (list : List Client) : Option (Client × PortMapping) :=
  Keyed.get (fun x => x.2.id) id (owned list)

def setClient (id : String) (c : Client) (list : List Client) : List Client :=
  Keyed.put Client.id id c list

/-- What each operation answers, and the directory it leaves. -/
def apply (sha256HexWithPepper : String → String → String) (pepper : String)
    (list : List Client) : ClientOp → Reply × List Client
  | .addClient name token id now =>
    let c := newClient sha256HexWithPepper pepper name token id now
    (.created c token, list ++ [c])
  | .deleteClient id =>
    match client id list with
    | none => (.changed false, list)
    | some _ => (.changed true, Keyed.erase Client.id id list)
  | .setClientEnabled id enabled =>
    match client id list with
    | none => (.changed false, list)
    | some c => (.changed true, setClient id { c with enabled } list)
  | .regenerateToken id token =>
    match client id list with
    | none => (.token none, list)
    | some c => (.token (some token), setClient id { c with
        tokenHash := sha256HexWithPepper token pepper
        tokenPrefix := tokenPrefixOf token } list)
  | .addMapping clientId name remotePort localAddr id now =>
    if remotePort ∈ (owned list).map (·.2.remotePort) then (.mapping none, list)
    else match client clientId list with
    | none => (.mapping none, list)
    | some c =>
      let m := newMapping name remotePort localAddr id now
      (.mapping (some m), setClient clientId { c with mappings := c.mappings ++ [m] } list)
  | .deleteMapping id =>
    match mapping id list with
    | none => (.changed false, list)
    | some (c, _) => (.changed true, setClient c.id { c with
        mappings := Keyed.erase PortMapping.id id c.mappings } list)
  | .setMappingEnabled id enabled =>
    match mapping id list with
    | none => (.changed false, list)
    | some (c, m) => (.changed true, setClient c.id { c with
        mappings := Keyed.put PortMapping.id id { m with enabled } c.mappings } list)

/-- The answers `false` and `None`. -/
def refused : Reply → Bool
  | .changed b => !b
  | .token t => t.isNone
  | .mapping m => m.isNone
  | .created _ _ => false
  | .unit => false

/-- What the operation addresses is not there, or its port is in use. -/
def Absent (list : List Client) : ClientOp → Prop
  | .addClient _ _ _ _ => False
  | .deleteClient id => ∀ c ∈ list, c.id ≠ id
  | .setClientEnabled id _ => ∀ c ∈ list, c.id ≠ id
  | .regenerateToken id _ => ∀ c ∈ list, c.id ≠ id
  | .addMapping clientId _ remotePort _ _ _ =>
    (∃ c ∈ list, ∃ m ∈ c.mappings, m.remotePort = remotePort) ∨ ∀ c ∈ list, c.id ≠ clientId
  | .deleteMapping id => ∀ c ∈ list, ∀ m ∈ c.mappings, m.id ≠ id
  | .setMappingEnabled id _ => ∀ c ∈ list, ∀ m ∈ c.mappings, m.id ≠ id

/-! ## Owners -/

section Owners

variable {list : List Client} {c : Client} {m : PortMapping} {id : String}

theorem mem_owned : (c, m) ∈ owned list ↔ c ∈ list ∧ m ∈ c.mappings := by
  simp [owned, List.mem_flatMap]

theorem map_owned {β : Type} (f : Route → β) :
    (owned list).map (fun x => f (x.2.route x.1.id)) = (routes list).map f := by
  simp [owned, routes, Client.routes, List.map_flatMap, Function.comp_def]

theorem owned_distinct (h : Unique list) : Keyed.Distinct (fun x => x.2.id) (owned list) := by
  have hmap : (owned list).map (fun x => x.2.id) = (routes list).map (·.mappingId) :=
    map_owned Route.mappingId
  rw [Keyed.Distinct, hmap]
  exact h.mappings

theorem mapping_iff (h : Unique list) :
    mapping id list = some (c, m) ↔ c ∈ list ∧ m ∈ c.mappings ∧ m.id = id := by
  rw [mapping, Keyed.get_iff (owned_distinct h), mem_owned, and_assoc]

theorem mapping_eq_none :
    mapping id list = none ↔ ∀ c ∈ list, ∀ m ∈ c.mappings, m.id ≠ id := by
  rw [mapping, Keyed.get_eq_none]
  constructor
  · exact fun h c hc m hm => h (c, m) (mem_owned.mpr ⟨hc, hm⟩)
  · rintro h ⟨c, m⟩ hx
    exact h c (mem_owned.mp hx).1 m (mem_owned.mp hx).2

theorem client_iff (h : Unique list) : client id list = some c ↔ c ∈ list ∧ c.id = id :=
  Keyed.get_iff h.clients

/-- Only the owner has a mapping with the id. -/
theorem owner_unique (h : Unique list) (hfind : mapping id list = some (c, m)) {c' : Client}
    (hc' : c' ∈ list) (hne : c'.id ≠ c.id) : Keyed.get PortMapping.id id c'.mappings = none := by
  obtain ⟨hc, hm, hid⟩ := (mapping_iff h).mp hfind
  refine Keyed.get_eq_none.mpr fun m' hm' hid' => hne ?_
  exact owner_eq h.mappings hc' hc hm' hm (hid'.trans hid.symm)

end Owners

/-! ## The loops of the code -/

/-- `updateFirst` replaces the record that the lookup finds. -/
theorem updateFirst_eq_put {α : Type} {key : α → String} {k : String} {f : α → α} {a : α}
    {l : List α} (hl : Keyed.Distinct key l) (h : Keyed.get key k l = some a) :
    updateFirst (fun b => key b == k) f l = Keyed.put key k (f a) l := by
  induction l with
  | nil => cases h
  | cons b l ih =>
    obtain ⟨hnot, hl⟩ := List.nodup_cons.mp hl
    by_cases hkey : key b = k
    · have hab : b = a := by simpa [Keyed.get, hkey] using h
      subst hab
      have hrest : Keyed.get key k l = none := Keyed.get_eq_none.mpr fun d hd hk =>
        hnot (List.mem_map.mpr ⟨d, hd, hk.trans hkey.symm⟩)
      have htail := Keyed.put_of_absent hrest (f b)
      rw [Keyed.put] at htail
      simp [updateFirst, hkey, Keyed.put, htail]
    · have hrest : Keyed.get key k l = some a := by simpa [Keyed.get, hkey] using h
      simpa [updateFirst, hkey, Keyed.put] using ih hl hrest

/-- `retain` erases the record that the lookup finds. -/
theorem filter_eq_erase {α : Type} (key : α → String) (k : String) (l : List α) :
    (l.filter fun a => key a != k) = Keyed.erase key k l :=
  List.filter_congr fun a _ => by simp [bne, beq_eq_decide]

/-- A loop over all clients that leaves the mappings of those without the id alone
changes the owner only. -/
theorem map_owner {list : List Client} {c : Client} {m : PortMapping} {id : String}
    (h : Unique list) (hfind : mapping id list = some (c, m))
    {f : List PortMapping → List PortMapping}
    (hf : ∀ ms, Keyed.get PortMapping.id id ms = none → f ms = ms) :
    (list.map fun c => { c with mappings := f c.mappings }) =
      setClient c.id { c with mappings := f c.mappings } list := by
  obtain ⟨hc, _, _⟩ := (mapping_iff h).mp hfind
  refine (Keyed.put_eq_map h.clients ((client_iff h).mpr ⟨hc, rfl⟩) fun c' hc' hne => ?_).symm
  rw [hf _ (owner_unique h hfind hc' hne)]

theorem any_id {α : Type} (key : α → String) (k : String) (l : List α) :
    (l.any fun a => key a == k) = (Keyed.get key k l).isSome := by
  rw [Bool.eq_iff_iff, List.any_eq_true, Option.isSome_iff_ne_none, ne_eq, Keyed.get_eq_none]
  simp

theorem port_taken (s : ClientStore) (port : UInt16) :
    s.remotePortTaken port none = true ↔ port ∈ (owned s.list).map (·.2.remotePort) := by
  simp only [ClientStore.remotePortTaken, List.any_eq_true, List.mem_map, Prod.exists, mem_owned]
  simp [and_assoc]

/-! ## The refinement, operation by operation

The code's result in the words of the specification, with the file saved exactly
where something changed. -/

/-- What the specification's result is on the code's store: a refused operation
leaves the store alone, another one saves. -/
def saved (s : ClientStore) (r : Reply × List Client) : Except Error Reply × ClientStore :=
  if refused r.1 then (.ok r.1, s) else { s with list := r.2 }.persistThen .done r.1

section Refines

variable {hash : String → String → String} {pepper : String} {s : ClientStore}

theorem deleteClient_refines (id : String) :
    s.exec hash pepper (.deleteClient id) .done =
      saved s (apply hash pepper s.list (.deleteClient id)) := by
  have herase := filter_eq_erase Client.id id s.list
  simp only [ClientStore.exec, ClientStore.deleteClient, herase, apply, client]
  cases hget : Keyed.get Client.id id s.list with
  | none => simp [Keyed.erase_of_absent hget, saved, refused, ClientStore.answer, Except.map]
  | some c =>
    have hchanged : ((Keyed.erase Client.id id s.list).length != s.list.length) = true := by
      rw [bne_iff_ne, ne_eq, Keyed.length_erase_eq_iff, hget]
      exact nofun
    simp only [hchanged, if_true]
    rfl

/-- The operations that find a client and update it. -/
theorem update_refines (h : Unique s.list) (id : String) (f : Client → Client) {α : Type}
    {yes no : α} {reply : α → Reply} (hyes : refused (reply yes) = false)
    (hno : refused (reply no) = true) :
    ClientStore.answer reply (if s.list.any fun c => c.id == id then
        { s with list := updateFirst (fun c => c.id == id) f s.list }.persistThen .done yes
      else (.ok no, s)) =
    saved s (match client id s.list with
      | none => (reply no, s.list)
      | some c => (reply yes, setClient id (f c) s.list)) := by
  rw [any_id Client.id]
  unfold client
  cases hget : Keyed.get Client.id id s.list with
  | none =>
    simp only [saved, hno, if_true]
    rfl
  | some c =>
    simp only [saved, hyes, updateFirst_eq_put h.clients hget]
    rfl

theorem addMapping_refines (h : Unique s.list) (clientId name : String) (remotePort : UInt16)
    (localAddr id : String) (now : Timestamp) :
    s.exec hash pepper (.addMapping clientId name remotePort localAddr id now) .done =
      saved s (apply hash pepper s.list
        (.addMapping clientId name remotePort localAddr id now)) := by
  simp only [ClientStore.exec, ClientStore.addMapping, apply, ← port_taken]
  split
  · rfl
  · exact update_refines h clientId (fun c => { c with
      mappings := c.mappings ++ [newMapping name remotePort localAddr id now] }) rfl rfl

/-- The loops over all clients that find a mapping and change its owner. -/
theorem loop_refines (h : Unique s.list) (id : String)
    {f : List PortMapping → List PortMapping} {found : Bool}
    (hf : ∀ ms, Keyed.get PortMapping.id id ms = none → f ms = ms)
    (hfound : found = (mapping id s.list).isSome) :
    ClientStore.answer .changed (
      let s := { s with list := s.list.map fun c => { c with mappings := f c.mappings } }
      if found then s.persistThen .done true else (.ok false, s)) =
    saved s (match mapping id s.list with
      | none => (.changed false, s.list)
      | some (c, _) => (.changed true,
          setClient c.id { c with mappings := f c.mappings } s.list)) := by
  subst hfound
  cases hget : mapping id s.list with
  | none =>
    have hsame : ∀ c ∈ s.list, f c.mappings = c.mappings := fun c hc =>
      hf _ (Keyed.get_eq_none.mpr (mapping_eq_none.mp hget c hc))
    simp only [ClientStore.map_mappings_eq hsame]
    rfl
  | some x =>
    simp only [map_owner h hget hf]
    rfl

theorem isSome_mapping {list : List Client} {id : String} :
    (mapping id list).isSome = true ↔
      ∃ c ∈ list, Keyed.get PortMapping.id id c.mappings ≠ none := by
  rw [Option.isSome_iff_ne_none, ne_eq, mapping_eq_none]
  simp [Keyed.get_eq_none]

theorem deleteMapping_refines (h : Unique s.list) (id : String) :
    s.exec hash pepper (.deleteMapping id) .done =
      saved s (apply hash pepper s.list (.deleteMapping id)) := by
  have hfound : (s.list.any fun c => (Keyed.erase PortMapping.id id c.mappings).length !=
      c.mappings.length) = (mapping id s.list).isSome := by
    rw [Bool.eq_iff_iff, List.any_eq_true, isSome_mapping]
    simp only [bne_iff_ne, ne_eq, Keyed.length_erase_eq_iff]
  simp only [ClientStore.exec, ClientStore.deleteMapping, filter_eq_erase PortMapping.id]
  exact loop_refines h id (fun _ => Keyed.erase_of_absent) hfound

theorem setMappingEnabled_refines (h : Unique s.list) (id : String) (enabled : Bool) :
    s.exec hash pepper (.setMappingEnabled id enabled) .done =
      saved s (apply hash pepper s.list (.setMappingEnabled id enabled)) := by
  have hfound : (s.list.any fun c => c.mappings.any fun m => m.id == id) =
      (mapping id s.list).isSome := by
    rw [Bool.eq_iff_iff, List.any_eq_true, isSome_mapping]
    simp only [any_id PortMapping.id, Option.isSome_iff_ne_none]
  have hf : ∀ ms, Keyed.get PortMapping.id id ms = none →
      updateFirst (fun m : PortMapping => m.id == id) (fun m => { m with enabled }) ms = ms := by
    intro ms hms
    refine ClientStore.updateFirst_of_none ?_
    rw [any_id PortMapping.id, hms]
    rfl
  refine (loop_refines h id hf hfound).trans ?_
  simp only [apply]
  cases hget : mapping id s.list with
  | none => rfl
  | some x =>
    obtain ⟨hc, hm, hid⟩ := (mapping_iff h).mp hget
    have hdistinct : Keyed.Distinct PortMapping.id x.1.mappings := mappingIds_nodup h.mappings hc
    have hown := (Keyed.get_iff hdistinct).mpr ⟨hm, hid⟩
    simp only [updateFirst_eq_put hdistinct hown]

theorem exec_refines (h : Unique s.list) (op : ClientOp) :
    s.exec hash pepper op .done = saved s (apply hash pepper s.list op) := by
  cases op with
  | addClient name token id now => rfl
  | deleteClient id => exact deleteClient_refines id
  | setClientEnabled id enabled => exact update_refines h id (fun c => { c with enabled }) rfl rfl
  | regenerateToken id token =>
    exact update_refines h id (fun c => { c with
      tokenHash := hash token pepper
      tokenPrefix := tokenPrefixOf token }) rfl rfl
  | addMapping clientId name remotePort localAddr id now =>
    exact addMapping_refines h clientId name remotePort localAddr id now
  | deleteMapping id => exact deleteMapping_refines h id
  | setMappingEnabled id enabled => exact setMappingEnabled_refines h id enabled

end Refines

theorem refused_apply {hash : String → String → String} {pepper : String} {list : List Client}
    {op : ClientOp} :
    (refused (apply hash pepper list op).1 = true ↔ Absent list op) ∧
      (refused (apply hash pepper list op).1 = true → (apply hash pepper list op).2 = list) := by
  have hclient : ∀ id, client id list = none ↔ ∀ c ∈ list, c.id ≠ id := fun _ =>
    Keyed.get_eq_none
  cases op with
  | addClient name token id now => simp [apply, refused, Absent]
  | deleteClient id =>
    simp only [apply, Absent, ← hclient]
    cases client id list <;> simp [refused]
  | setClientEnabled id enabled =>
    simp only [apply, Absent, ← hclient]
    cases client id list <;> simp [refused]
  | regenerateToken id token =>
    simp only [apply, Absent, ← hclient]
    cases client id list <;> simp [refused]
  | addMapping clientId name remotePort localAddr id now =>
    have hport : remotePort ∈ (owned list).map (·.2.remotePort) ↔
        ∃ c ∈ list, ∃ m ∈ c.mappings, m.remotePort = remotePort := by
      simp only [List.mem_map, Prod.exists, mem_owned]
      simp [and_assoc]
    simp only [apply, Absent, ← hclient, ← hport]
    split
    · next htaken => simp [refused, htaken]
    · next hfree => cases client clientId list <;> simp [refused, hfree]
  | deleteMapping id =>
    simp only [apply, Absent, ← mapping_eq_none]
    cases mapping id list <;> simp [refused]
  | setMappingEnabled id enabled =>
    simp only [apply, Absent, ← mapping_eq_none]
    cases mapping id list <;> simp [refused]

theorem saved_fst (s : ClientStore) (r : Reply × List Client) : (saved s r).1 = .ok r.1 := by
  unfold saved
  split <;> rfl

theorem saved_list {s : ClientStore} {r : Reply × List Client}
    (h : refused r.1 = true → r.2 = s.list) : (saved s r).2.list = r.2 := by
  unfold saved
  split
  · next hrefused => exact (h hrefused).symm
  · rfl

/-! ## Lookups and views -/

theorem findMapping_iff {s : ClientStore} (h : Unique s.list) {id owner : String}
    {m : PortMapping} : s.findMapping id = some (owner, m) ↔
      ∃ c ∈ s.list, c.id = owner ∧ m ∈ c.mappings ∧ m.id = id := by
  constructor
  · intro hfind
    obtain ⟨c, hc, hx⟩ := List.exists_of_findSome?_eq_some hfind
    obtain ⟨m', hm', heq⟩ := Option.map_eq_some_iff.mp hx
    cases heq
    exact ⟨c, hc, rfl, List.mem_of_find?_eq_some hm', by simpa using List.find?_some hm'⟩
  · rintro ⟨c, hc, rfl, hm, rfl⟩
    exact ClientStore.findMapping_of_mem h.clients h.mappings hc hm

theorem mem_mappingViews {s : ClientStore} {v : MappingView} :
    v ∈ s.mappingViews ↔ ∃ c ∈ s.list, ∃ m ∈ c.mappings, v = m.view c := by
  simp [ClientStore.mappingViews, List.mem_flatMap, eq_comm]

theorem mappingViews_ids (s : ClientStore) :
    s.mappingViews.map (·.id) = (routes s.list).map (·.mappingId) := by
  simp [ClientStore.mappingViews, routes, Client.routes, List.map_flatMap, Function.comp_def,
    PortMapping.view, PortMapping.route]

/-- **The client store is a finite map.** Where ids and ports are distinct, every
operation whose save succeeds answers and leaves what the specification says: it
is refused exactly when what it addresses is not there (or the port is in use),
and then changes nothing; otherwise it changes the one record. `find` and
`find_mapping` find exactly what is there, and `mapping_views` lists every mapping
once, with its owner. -/
theorem refines_directory (sha256HexWithPepper : String → String → String) (pepper : String)
    {s : ClientStore} (unique : Unique s.list) :
    (∀ op,
      let result := s.exec sha256HexWithPepper pepper op .done
      let spec := apply sha256HexWithPepper pepper s.list op
      result.1 = .ok spec.1 ∧ result.2.list = spec.2 ∧
        (refused spec.1 = true ↔ Absent s.list op) ∧
        (refused spec.1 = true → spec.2 = s.list)) ∧
    (∀ id c, s.find id = some c ↔ c ∈ s.list ∧ c.id = id) ∧
    (∀ id owner m, s.findMapping id = some (owner, m) ↔
      ∃ c ∈ s.list, c.id = owner ∧ m ∈ c.mappings ∧ m.id = id) ∧
    (s.mappingViews.map (·.id)).Nodup ∧
    ∀ v, v ∈ s.mappingViews ↔ ∃ c ∈ s.list, ∃ m ∈ c.mappings, v = m.view c := by
  refine ⟨fun op => ?_, fun id c => ?_, fun id owner m => findMapping_iff unique, ?_,
    fun v => mem_mappingViews⟩
  · obtain ⟨habsent, hsame⟩ := @refused_apply sha256HexWithPepper pepper s.list op
    refine ⟨?_, ?_, habsent, hsame⟩
    · rw [exec_refines unique, saved_fst]
    · rw [exec_refines unique, saved_list hsame]
  · have hfind : s.find id = client id s.list := by
      simp [ClientStore.find, client, Keyed.get, beq_eq_decide]
    rw [hfind, client_iff unique]
  · rw [mappingViews_ids]
    exact unique.mappings

/-- Two clients, the first with a mapping. -/
def twoClients : ClientStore where
  list := [
    { id := "client_a", name := "a", tokenHash := "h", tokenPrefix := "mmk", enabled := true
      createdAt := 0, mappings := [newMapping "web" 9000 "127.0.0.1:80" "map_web" 0] },
    { id := "client_b", name := "b", tokenHash := "h'", tokenPrefix := "mmk", enabled := true
      createdAt := 0, mappings := [] }]
  file := { main := none, tmp := none }

theorem unique_twoClients : Unique twoClients.list :=
  ⟨by decide, by decide, by decide⟩

/-- A second mapping on the same port is refused. -/
theorem refines_directory_port_in_use :
    (twoClients.exec (fun t p => t ++ p) "pepper"
      (.addMapping "client_b" "web" 9000 "127.0.0.1:81" "map_b" 1) .done).1 =
        .ok (.mapping none) ∧
    twoClients.findMapping "map_web" =
      some ("client_a", newMapping "web" 9000 "127.0.0.1:80" "map_web" 0) := by
  obtain ⟨hops, _, hfind, _⟩ := refines_directory (fun t p => t ++ p) "pepper" unique_twoClients
  exact ⟨(hops _).1, (hfind "map_web" "client_a" _).mpr
    ⟨_, List.mem_cons_self, rfl, List.mem_cons_self, rfl⟩⟩

end Directory

end MiniMask
