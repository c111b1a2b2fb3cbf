import MiniMask.Lib.Transition
import MiniMask.Store.Directory

/-!
# Ids and ports stay distinct

Every operation keeps `Unique`, whether or not its save succeeds (`unique_exec`).
The file only ever holds a list that was in memory, so a reload gives a list that
is `Unique` as well, even when memory has run ahead of the file.
-/

namespace MiniMask

open AtomicFile

/-- The id the operation draws is not in use. -/
def ClientOp.FreshIn (list : List Client) : ClientOp → Prop
  | .addClient _ _ id _ => id ∉ list.map (·.id)
  | .addMapping _ _ _ _ id _ => id ∉ (routes list).map (·.mappingId)
  | _ => True

instance (list : List Client) : (op : ClientOp) → Decidable (op.FreshIn list)
  | .addClient _ _ id _ => inferInstanceAs (Decidable (id ∉ list.map (·.id)))
  | .addMapping _ _ _ _ id _ => inferInstanceAs (Decidable (id ∉ (routes list).map (·.mappingId)))
  | .deleteClient _ => .isTrue trivial
  | .setClientEnabled _ _ => .isTrue trivial
  | .regenerateToken _ _ => .isTrue trivial
  | .deleteMapping _ => .isTrue trivial
  | .setMappingEnabled _ _ => .isTrue trivial

section Unique

variable {list list' : List Client}

/-- What goes leaves the rest distinct. -/
theorem Unique.of_sublist (h : Unique list)
    (hclients : (list'.map (·.id)).Sublist (list.map (·.id)))
    (hroutes : (routes list').Sublist (routes list)) : Unique list' where
  clients := h.clients.sublist hclients
  mappings := h.mappings.sublist (hroutes.map _)
  ports := h.ports.sublist (hroutes.map _)

/-- A new route needs a new id and a new port. -/
theorem Unique.of_perm {r : Route} (h : Unique list)
    (hclients : list'.map (·.id) = list.map (·.id))
    (hroutes : (routes list').Perm (r :: routes list))
    (hid : r.mappingId ∉ (routes list).map (·.mappingId))
    (hport : r.remotePort ∉ (routes list).map (·.remotePort)) : Unique list' where
  clients := by rw [hclients]; exact h.clients
  mappings := (hroutes.map _).nodup_iff.mpr (List.nodup_cons.mpr ⟨hid, h.mappings⟩)
  ports := (hroutes.map _).nodup_iff.mpr (List.nodup_cons.mpr ⟨hport, h.ports⟩)

end Unique

namespace ClientStore

variable {hash : String → String → String} {pepper : String} {s : ClientStore} {io : Outcome}

theorem remotePortTaken_eq_false {port : UInt16} :
    s.remotePortTaken port none = false ↔ port ∉ (routes s.list).map (·.remotePort) := by
  have hports : (Directory.owned s.list).map (·.2.remotePort) =
      (routes s.list).map (·.remotePort) := Directory.map_owned Route.remotePort
  rw [← Bool.not_eq_true, Directory.port_taken, hports]

/-- A mapping is added only on a port that no mapping has. -/
theorem addMapping_free (s : ClientStore) (io : Outcome) (clientId name : String)
    (remotePort : UInt16) (localAddr id : String) (now : Timestamp) :
    (s.addMapping clientId name remotePort localAddr id now io).2 = s ∨
      remotePort ∉ (routes s.list).map (·.remotePort) := by
  cases htaken : s.remotePortTaken remotePort none with
  | true => exact .inl (by simp [addMapping, htaken])
  | false => exact .inr (remotePortTaken_eq_false.mp htaken)

theorem unique_addMapping (h : Unique s.list) {clientId name : String} {remotePort : UInt16}
    {localAddr id : String} {now : Timestamp}
    (hfresh : id ∉ (routes s.list).map (·.mappingId)) :
    Unique (s.addMapping clientId name remotePort localAddr id now io).2.list := by
  rcases s.addMapping_free io clientId name remotePort localAddr id now with hsame | hfree
  · rw [hsame]
    exact h
  · have hclients := ids_addMapping s io clientId name remotePort localAddr id now
    rcases s.routes_addMapping io clientId name remotePort localAddr id now with hsame | hperm
    · exact h.of_sublist (sublist_of_eq hclients) (sublist_of_eq hsame)
    · exact h.of_perm hclients hperm hfresh hfree

/-- Every operation keeps ids and ports distinct, whether or not its save succeeds. -/
theorem unique_exec {op : ClientOp} (h : Unique s.list) (hfresh : op.FreshIn s.list) :
    Unique (s.exec hash pepper op io).2.list := by
  cases op with
  | addClient name token id now =>
    have hclients := ids_addClient hash name pepper token id now s io
    have hroutes := s.routes_addClient io hash name pepper token id now
    refine ⟨?_, by rw [exec, answer, hroutes]; exact h.mappings,
      by rw [exec, answer, hroutes]; exact h.ports⟩
    rw [exec, answer, hclients]
    exact List.nodup_append.mpr ⟨h.clients, List.nodup_singleton _, fun a ha b hb hab =>
      hfresh (List.mem_singleton.mp hb ▸ hab ▸ ha)⟩
  | deleteClient id =>
    exact h.of_sublist (ids_deleteClient s io id) (s.routes_deleteClient io id)
  | setClientEnabled id enabled =>
    exact h.of_sublist (sublist_of_eq (ids_setClientEnabled s io id enabled))
      (sublist_of_eq (s.routes_setClientEnabled io id enabled))
  | regenerateToken id token =>
    exact h.of_sublist (sublist_of_eq (ids_regenerateToken s io hash id pepper token))
      (sublist_of_eq (s.routes_regenerateToken io hash id pepper token))
  | addMapping clientId name remotePort localAddr id now => exact unique_addMapping h hfresh
  | deleteMapping id =>
    exact h.of_sublist (sublist_of_eq (ids_deleteMapping s io id)) (s.routes_deleteMapping io id)
  | setMappingEnabled id enabled =>
    exact h.of_sublist (sublist_of_eq (ids_setMappingEnabled s io id enabled))
      (sublist_of_eq (s.routes_setMappingEnabled io id enabled))

end ClientStore

/-! ## Runs -/

namespace StoreRun

/-- An operation, with what the file system does to its save, or a reload. -/
inductive Event
  | op (op : ClientOp) (io : Outcome)
  | reload (io : LoadOutcome)
deriving DecidableEq, Repr

inductive Step (sha256HexWithPepper : String → String → String) (pepper : String) :
    ClientStore → Event → ClientStore → Prop
  | op {s : ClientStore} {op : ClientOp} {io : Outcome} :
      op.FreshIn s.list →
      Step sha256HexWithPepper pepper s (.op op io) (s.exec sha256HexWithPepper pepper op io).2
  | reload {s t : ClientStore} {io : LoadOutcome} {file : Files (List Client)} :
      ClientStore.load s.file io = (.ok t, file) →
      Step sha256HexWithPepper pepper s (.reload io) t

/-- The empty store, saved or not yet. -/
def Initial (s : ClientStore) : Prop :=
  s.list = [] ∧ (s.file.main = none ∨ s.file.main = some (.doc []))

/-- What is in memory is `Unique`, and so is what a reload would read. -/
structure Sound (s : ClientStore) : Prop where
  memory : Unique s.list
  file : ∀ list, s.file.main = some (.doc list) → Unique list

theorem unique_nil : Unique [] := ⟨List.nodup_nil, List.nodup_nil, List.nodup_nil⟩

theorem sound_initial {s : ClientStore} (h : Initial s) : Sound s := by
  obtain ⟨hlist, hmain⟩ := h
  refine ⟨hlist ▸ unique_nil, fun list hdoc => ?_⟩
  rcases hmain with hmain | hmain
  · rw [hmain] at hdoc
    cases hdoc
  · rw [hmain] at hdoc
    cases hdoc
    exact unique_nil

section Step

variable {hash : String → String → String} {pepper : String} {s t : ClientStore}

theorem sound_step {e : Event} (h : Sound s) (hs : Step hash pepper s e t) : Sound t := by
  cases hs with
  | @op op io hfresh =>
    have hmemory : Unique (s.exec hash pepper op io).2.list := ClientStore.unique_exec h.memory hfresh
    refine ⟨hmemory, fun list hdoc => ?_⟩
    rcases s.main_exec hash pepper op io with hmain | hmain
    · exact h.file list (hmain ▸ hdoc)
    · rw [hmain] at hdoc
      cases hdoc
      exact hmemory
  | reload hload =>
    obtain ⟨hfile, hmain, hold⟩ := ClientStore.load_ok hload
    have hmemory : Unique t.list := by
      rcases hold with hdoc | ⟨_, hempty⟩
      · exact h.file _ hdoc
      · exact hempty ▸ unique_nil
    refine ⟨hmemory, fun list hdoc => ?_⟩
    rw [hfile, hmain] at hdoc
    cases hdoc
    exact hmemory

theorem reachable_op (h : Lts.Reachable (Step hash pepper) Initial s) (op : ClientOp)
    (io : Outcome) (hfresh : op.FreshIn s.list) :
    Lts.Reachable (Step hash pepper) Initial (s.exec hash pepper op io).2 :=
  h.step (.op hfresh)

end Step

theorem map_mappings {β : Type} {f : Route → β} {g : PortMapping → β}
    (h : ∀ m c, f (m.route c) = g m) (list : List Client) :
    (list.flatMap (·.mappings)).map g = (routes list).map f := by
  simp [routes, Client.routes, List.map_flatMap, Function.comp_def, h]

/-- **Ports and ids are unique.** From the empty store, over every sequence of
operations, with saves that fail or not, and of reloads: no two clients and no
two mappings have the same id, and no two mappings, of whatever client, enabled
or not, have the same port. -/
theorem ids_and_ports_unique (sha256HexWithPepper : String → String → String) (pepper : String)
    {s : ClientStore}
    (reachable : Lts.Reachable (Step sha256HexWithPepper pepper) Initial s) :
    (s.list.map (·.id)).Nodup ∧
    ((s.list.flatMap (·.mappings)).map (·.id)).Nodup ∧
    ((s.list.flatMap (·.mappings)).map (·.remotePort)).Nodup := by
  have h : Sound s := reachable.invariant (fun _ h => sound_initial h) fun _ _ _ h hs =>
    sound_step h hs
  refine ⟨h.memory.clients, ?_, ?_⟩
  · rw [map_mappings (f := Route.mappingId) fun _ _ => rfl]
    exact h.memory.mappings
  · rw [map_mappings (f := Route.remotePort) fun _ _ => rfl]
    exact h.memory.ports

/-- A client and a mapping whose save fails, a mapping that is refused since the
unsaved one has the port, and a reload that forgets both. -/
theorem ids_and_ports_unique_after_reload :
    let hash := fun t p : String => t ++ p
    let run : List (ClientOp × Outcome) := [
      (.addClient "a" "mmk_a" "client_a" 0, .done),
      (.addMapping "client_a" "web" 9000 "127.0.0.1:80" "map_a" 1, .writeFailed .torn),
      (.addMapping "client_a" "web" 9000 "127.0.0.1:81" "map_b" 2, .done)]
    let s₀ : ClientStore := { list := [], file := { main := none, tmp := none } }
    let s := run.foldl (fun s x => (s.exec hash "p" x.1 x.2).2) s₀
    ((s.list.flatMap (·.mappings)).map (·.remotePort)).Nodup ∧
      s.list.flatMap (·.mappings) ≠ [] ∧
      ∃ t, ClientStore.load s.file .done = (.ok t, s.file) ∧ t.list.flatMap (·.mappings) = [] ∧
        (t.list.map (·.id)).Nodup := by
  intro hash run s₀ s
  have h₀ : Lts.Reachable (Step hash "p") Initial s₀ := .init ⟨rfl, .inl rfl⟩
  have h₁ := reachable_op h₀ (.addClient "a" "mmk_a" "client_a" 0) .done (by decide)
  have h₂ := reachable_op h₁ (.addMapping "client_a" "web" 9000 "127.0.0.1:80" "map_a" 1)
    (.writeFailed .torn) (by decide)
  have h₃ := reachable_op h₂ (.addMapping "client_a" "web" 9000 "127.0.0.1:81" "map_b" 2) .done
    (by decide)
  have h₄ := h₃.step (.reload (ClientStore.load_doc rfl))
  exact ⟨(ids_and_ports_unique hash "p" h₃).2.2, by decide, _, rfl, rfl,
    (ids_and_ports_unique hash "p" h₄).1⟩

end StoreRun

end MiniMask
