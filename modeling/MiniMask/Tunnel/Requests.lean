import MiniMask.Tunnel.Listeners

/-!
# Requests and the mappings they concern

A handler of the API first changes the store and then starts or stops listeners.
This module says how the two fit together.

* `active_handle`: a mapping becomes active only through a request that enables or
  creates it, and the handler then goes on to start it.
* `cleared_step`: with one request at a time, what a handler stops belongs to
  mappings that are not active.
-/

namespace MiniMask.Tunnel

open Lts

/-! ## What requests concern -/

/-- The mappings, by their routes, that a request enables, disables or deletes. -/
def AdminRequest.concerns (request : AdminRequest) (route : Route) : Bool :=
  match request with
  | .updateClient id _ => route.clientId == id
  | .deleteClient id => route.clientId == id
  | .updateMapping id _ => route.mappingId == id
  | .deleteMapping id => route.mappingId == id
  | _ => false

/-- The request enables a client or a mapping. -/
def AdminRequest.turnsOn : AdminRequest → Bool
  | .updateClient _ enabled => enabled
  | .updateMapping _ enabled => enabled
  | _ => false

/-- The request disables or deletes a client or a mapping. -/
def AdminRequest.turnsOff : AdminRequest → Bool
  | .updateClient _ enabled => !enabled
  | .deleteClient _ => true
  | .updateMapping _ enabled => !enabled
  | .deleteMapping _ => true
  | _ => false

/-- The request deletes or disables the client. One that is disabled already is not
disabled once more. -/
def AdminRequest.TakesClient (request : AdminRequest) (client : Client) : Prop :=
  match request with
  | .updateClient id enabled => enabled = false ∧ client.id = id ∧ client.enabled = true
  | .deleteClient id => client.id = id
  | _ => False

/-- The request deletes or disables the mapping. -/
def AdminRequest.TakesMapping (request : AdminRequest) (mappingId : String) : Prop :=
  match request with
  | .updateMapping id enabled => enabled = false ∧ mappingId = id
  | .deleteMapping id => mappingId = id
  | _ => False

theorem AdminRequest.TakesClient.turnsOff {request : AdminRequest} {client : Client}
    {m : PortMapping} (h : request.TakesClient client) :
    request.turnsOff = true ∧ request.concerns (m.route client.id) = true := by
  cases request with
  | updateClient id enabled =>
    obtain ⟨rfl, hid, _⟩ := h
    exact ⟨rfl, beq_iff_eq.mpr hid⟩
  | deleteClient id => exact ⟨rfl, beq_iff_eq.mpr h⟩
  | _ => cases h

theorem AdminRequest.TakesMapping.turnsOff {request : AdminRequest} {c : String} {m : PortMapping}
    (h : request.TakesMapping m.id) :
    request.turnsOff = true ∧ request.concerns (m.route c) = true := by
  cases request with
  | updateMapping id enabled =>
    obtain ⟨rfl, hid⟩ := h
    exact ⟨rfl, beq_iff_eq.mpr hid⟩
  | deleteMapping id => exact ⟨rfl, beq_iff_eq.mpr h⟩
  | _ => cases h

/-! ## Starting -/

/-- The calls of `add_listener` to come include one for the mapping `m` of `c`,
which has not found a session yet, or has found `k`. -/
def Starter.Covers (st : Starter) (c : String) (k : SessionId) (m : PortMapping) : Prop :=
  st.client = c ∧ (m ∈ st.todo ∨ st.stage = .found m k)

def AdminStage.Covers (c : String) (k : SessionId) (m : PortMapping) : AdminStage → Prop
  | .findMapping id => id = m.id
  | .startClient id => id = c
  | .adding st _ => st.Covers c k m
  | _ => False

/-- The request makes the mapping `m` of `c` active: it enables it or creates it. It
is not answered `404`, and if its save succeeds, the handler goes on to start `m`. -/
structure Activates (env : Env) (clients : ClientStore) (request : AdminRequest)
    (io : AtomicFile.Outcome) (c : String) (m : PortMapping) : Prop where
  found : (handle env clients request io).1 ≠ .answer .notFound
  kind : request.turnsOn = true ∧ request.concerns (m.route c) = true ∨
    ∃ name remotePort localAddr now,
      request = .createMapping c name remotePort localAddr m.id now
  starts : io = .done →
    ∃ stage, (handle env clients request io).1 = .go stage ∧ ∀ k, stage.Covers c k m

section Starting

variable {env : Env} {clients : ClientStore} {c : String} {m : PortMapping}

/-- `start_client_listeners` takes every active mapping of its client. -/
theorem mem_todo_of_active (hids : (clients.list.map (·.id)).Nodup)
    (h : Active clients.list c m) : m ∈ (startClientListeners clients c).todo := by
  obtain ⟨client, hclient, rfl, _, hm, hen⟩ := h
  unfold startClientListeners
  rw [ClientStore.find_of_mem hids hclient]
  exact List.mem_filter.mpr ⟨hm, hen⟩

/-- `find_mapping` finds an active mapping as it is. -/
theorem findMapping_of_active (hids : (clients.list.map (·.id)).Nodup)
    (hroutes : ((routes clients.list).map (·.mappingId)).Nodup) (h : Active clients.list c m) :
    clients.findMapping m.id = some (c, m) := by
  obtain ⟨client, hclient, rfl, _, hm, _⟩ := h
  exact ClientStore.findMapping_of_mem hids hroutes hclient hm

theorem ofChanged_persistThen (s : ClientStore) (io : AtomicFile.Outcome) (go : AdminStage) :
    Next.ofChanged (s.persistThen io true).1 go ≠ .answer .notFound ∧
      (io = .done → Next.ofChanged (s.persistThen io true).1 go = .go go) := by
  cases io with
  | done => exact ⟨nofun, fun _ => rfl⟩
  | writeFailed after => exact ⟨nofun, nofun⟩
  | renameFailed => exact ⟨nofun, nofun⟩

theorem activates_updateClient {io : AtomicFile.Outcome}
    (h : Active (clients.setClientEnabled c true io).2.list c m) :
    Activates env clients (.updateClient c true) io c m := by
  -- the client is in the store, so `set_client_enabled` finds it
  obtain ⟨client, hclient, hid, _⟩ := h
  have hmem : c ∈ clients.list.map (·.id) := by
    rw [← ids_setClientEnabled clients io c true]
    exact List.mem_map.mpr ⟨client, hclient, hid⟩
  obtain ⟨client', hclient', hid'⟩ := List.mem_map.mp hmem
  obtain ⟨list, heq⟩ := clients.setClientEnabled_found io true
    (List.any_eq_true.mpr ⟨client', hclient', beq_iff_eq.mpr hid'⟩)
  obtain ⟨hfound, hgo⟩ := ofChanged_persistThen { clients with list } io (.startClient c)
  rw [← heq] at hfound hgo
  exact ⟨hfound, .inl ⟨rfl, beq_self_eq_true c⟩,
    fun hdone => ⟨.startClient c, hgo hdone, fun _ => rfl⟩⟩

theorem activates_updateMapping {io : AtomicFile.Outcome}
    (h : Active (clients.setMappingEnabled m.id true io).2.list c m) :
    Activates env clients (.updateMapping m.id true) io c m := by
  have hroute : m.route c ∈ routes clients.list := by
    rw [← clients.routes_setMappingEnabled io m.id true]
    exact h.route_mem
  obtain ⟨client, hclient, m', hm', hroute⟩ := mem_routes.mp hroute
  obtain ⟨list, heq⟩ := clients.setMappingEnabled_found io true
    (List.any_eq_true.mpr ⟨client, hclient, List.any_eq_true.mpr
      ⟨m', hm', beq_iff_eq.mpr (congrArg Route.mappingId hroute)⟩⟩)
  obtain ⟨hfound, hgo⟩ := ofChanged_persistThen { clients with list } io (.findMapping m.id)
  have heq : clients.setMappingEnabled m.id true io = _ := heq
  rw [← heq] at hfound hgo
  exact ⟨hfound, .inl ⟨rfl, beq_self_eq_true m.id⟩,
    fun hdone => ⟨.findMapping m.id, hgo hdone, fun _ => rfl⟩⟩

/-- A mapping that is active after the operation on the store was active before, or
the request makes it active. -/
theorem active_handle {request : AdminRequest} {io : AtomicFile.Outcome}
    (h : Active (handle env clients request io).2.list c m) :
    Active clients.list c m ∨ Activates env clients request io c m := by
  cases request with
  | createClient name token id now =>
    rcases handle_createClient env clients name token id now io with heq | ⟨_, heq⟩
    · rw [heq] at h
      exact .inl h
    · rw [heq] at h
      exact .inl (active_addClient h)
  | deleteClient id => exact .inl (active_deleteClient h).1
  | regenerateToken id token => exact .inl (active_regenerateToken h)
  | deleteMapping id => exact .inl (active_deleteMapping h).1
  | updateClient id enabled =>
    rcases active_setClientEnabled h with hold | ⟨rfl, rfl⟩
    · exact .inl hold
    · exact .inr (activates_updateClient h)
  | updateMapping id enabled =>
    rcases active_setMappingEnabled h with hold | ⟨rfl, rfl⟩
    · exact .inl hold
    · exact .inr (activates_updateMapping h)
  | createMapping clientId name remotePort localAddr id now =>
    rcases createMapping_cases env clients clientId name remotePort localAddr id now io with
      ⟨_, _, heq⟩ | ⟨_, hlist, hnext⟩
    · rw [heq] at h
      exact .inl h
    rw [hlist] at h
    rcases active_addMapping h with hold | ⟨rfl, rfl⟩
    · exact .inl hold
    rcases hnext with ⟨_, hgo⟩ | ⟨hnot, hfailed⟩
    · exact .inr ⟨hgo ▸ nofun, .inr ⟨name, remotePort, localAddr, now, rfl⟩,
        fun _ => ⟨_, hgo, fun _ => ⟨rfl, .inl (List.mem_singleton_self _)⟩⟩⟩
    · exact .inr ⟨hfailed ▸ nofun, .inr ⟨name, remotePort, localAddr, now, rfl⟩,
        fun hdone => absurd hdone hnot⟩

/-- `client'` is what the request leaves of `client`: it is enabled if `client` was, and
has the enabled mappings that the request does not take off. -/
structure AdminRequest.KeptAs (request : AdminRequest) (client client' : Client) : Prop where
  id : client'.id = client.id
  enabled : client.enabled = true → client'.enabled = true
  mappings : ∀ m ∈ client.mappings, m.enabled = true → ¬ request.TakesMapping m.id →
    ∃ m' ∈ client'.mappings, m'.id = m.id ∧ m'.enabled = true

/-- A client that has all its mappings, and is enabled if it was, is kept. -/
theorem AdminRequest.KeptAs.of_mem {request : AdminRequest} {client client' : Client}
    (hid : client'.id = client.id) (henabled : client.enabled = true → client'.enabled = true)
    (hmem : ∀ m ∈ client.mappings, m ∈ client'.mappings) : request.KeptAs client client' :=
  ⟨hid, henabled, fun m hm hen _ => ⟨m, hmem m hm, rfl, hen⟩⟩

theorem AdminRequest.KeptAs.refl (request : AdminRequest) (client : Client) :
    request.KeptAs client client :=
  .of_mem rfl (fun hon => hon) fun _ hm => hm

/-- A client stays in the store, and enabled, unless the request takes it off, and so
does each of its enabled mappings. -/
theorem client_kept (env : Env) {request : AdminRequest} (io : AtomicFile.Outcome)
    {client : Client} (hclient : client ∈ clients.list) (hkeep : ¬ request.TakesClient client) :
    ∃ client' ∈ (handle env clients request io).2.list, request.KeptAs client client' := by
  have hsame := AdminRequest.KeptAs.refl request client
  cases request with
  | createClient name token id now =>
    refine ⟨client, ?_, hsame⟩
    rcases handle_createClient env clients name token id now io with heq | ⟨_, heq⟩
    · rw [heq]
      exact hclient
    · rw [heq, ClientStore.addClient_list]
      exact List.mem_append_left _ hclient
  | regenerateToken id token =>
    have hlist : (handle env clients (.regenerateToken id token) io).2.list = _ :=
      clients.regenerateToken_list io env.sha256HexWithPepper id env.tokenPepper token
    rw [hlist]
    rcases mem_updateFirst_of_mem hclient with hmem | ⟨_, hmem⟩
    · exact ⟨client, hmem, hsame⟩
    · exact ⟨_, hmem, .of_mem rfl (fun hon => hon) fun _ hm => hm⟩
  | createMapping clientId name remotePort localAddr id now =>
    rcases createMapping_cases env clients clientId name remotePort localAddr id now io with
      ⟨_, _, heq⟩ | ⟨_, hlist, _⟩
    · exact ⟨client, heq ▸ hclient, hsame⟩
    · rw [hlist]
      rcases mem_updateFirst_of_mem hclient with hmem | ⟨_, hmem⟩
      · exact ⟨client, hmem, hsame⟩
      · exact ⟨_, hmem, .of_mem rfl (fun hon => hon) fun _ hm => List.mem_append_left _ hm⟩
  | updateClient id enabled =>
    have hlist : (handle env clients (.updateClient id enabled) io).2.list = _ :=
      clients.setClientEnabled_list io id enabled
    rw [hlist]
    rcases mem_updateFirst_of_mem hclient with hmem | ⟨hp, hmem⟩
    · exact ⟨client, hmem, hsame⟩
    · refine ⟨_, hmem, .of_mem rfl (fun hon => ?_) fun _ hm => hm⟩
      cases enabled with
      | true => rfl
      | false => exact absurd ⟨rfl, eq_of_beq hp, hon⟩ hkeep
  | deleteClient id =>
    have hlist : (handle env clients (.deleteClient id) io).2.list = _ :=
      clients.deleteClient_list io id
    have hne : client.id ≠ id := hkeep
    exact ⟨client, hlist ▸ List.mem_filter.mpr ⟨hclient, by simpa using hne⟩, hsame⟩
  | updateMapping id enabled =>
    have hlist : (handle env clients (.updateMapping id enabled) io).2.list = _ :=
      clients.setMappingEnabled_list io id enabled
    rw [hlist]
    refine ⟨_, List.mem_map_of_mem hclient, rfl, fun hon => hon, fun m hm hen hkeep => ?_⟩
    rcases mem_updateFirst_of_mem (p := fun m => m.id == id)
      (f := fun m => { m with enabled }) hm with hm' | ⟨hp, hm'⟩
    · exact ⟨m, hm', rfl, hen⟩
    · cases enabled with
      | true => exact ⟨_, hm', rfl, rfl⟩
      | false => exact absurd ⟨rfl, eq_of_beq hp⟩ hkeep
  | deleteMapping id =>
    have hlist : (handle env clients (.deleteMapping id) io).2.list = _ :=
      clients.deleteMapping_list io id
    rw [hlist]
    refine ⟨_, List.mem_map_of_mem hclient, rfl, fun hon => hon, fun m hm hen hkeep => ?_⟩
    have hne : m.id ≠ id := hkeep
    exact ⟨m, List.mem_filter.mpr ⟨hm, by simpa using hne⟩, rfl, hen⟩

/-- An active mapping stays active unless the request disables or deletes it. -/
theorem active_kept {request : AdminRequest} {io : AtomicFile.Outcome} (h : Active clients.list c m)
    (hkeep : request.turnsOff = true → request.concerns (m.route c) = false) :
    ActiveId (handle env clients request io).2.list c m.id := by
  obtain ⟨client, hclient, rfl, hon, hm, hen⟩ := h
  have hspared : ¬ (request.turnsOff = true ∧ request.concerns (m.route client.id) = true) := by
    rintro ⟨hoff, hconcerns⟩
    rw [hkeep hoff] at hconcerns
    cases hconcerns
  obtain ⟨client', hclient', hkept⟩ :=
    client_kept env io hclient fun htakes => hspared (htakes.turnsOff (m := m))
  obtain ⟨m', hm', hmid, hen'⟩ :=
    hkept.mappings m hm hen fun htakes => hspared (htakes.turnsOff (c := client.id))
  exact ⟨m', ⟨client', hclient', hkept.id, hkept.enabled hon, hm', hen'⟩, hmid⟩

/-- A request that is saved and disables or deletes an active mapping goes on to stop it. -/
theorem turnsOff_goes {request : AdminRequest} (h : Active clients.list c m)
    (hoff : request.turnsOff = true) (hconcerns : request.concerns (m.route c) = true) :
    (handle env clients request .done).1 = .go (.removeListener m.id) ∨
      (handle env clients request .done).1 = .go (.removeClient c) := by
  obtain ⟨client, hclient, hid, _, hm, _⟩ := h
  cases request with
  | updateClient id enabled =>
    cases enabled with
    | true => cases hoff
    | false =>
      obtain rfl : c = id := eq_of_beq hconcerns
      obtain ⟨list, heq⟩ := clients.setClientEnabled_found .done false
        (List.any_eq_true.mpr ⟨client, hclient, beq_iff_eq.mpr hid⟩)
      have hgo := (ofChanged_persistThen { clients with list } .done (.removeClient c)).2 rfl
      rw [← heq] at hgo
      exact .inr hgo
  | deleteClient id =>
    obtain rfl : c = id := eq_of_beq hconcerns
    have hchanged : ((clients.list.filter fun client => client.id != c).length !=
        clients.list.length) = true := by
      rw [bne_iff_ne]
      intro hlength
      rw [← List.filter_sublist.eq_of_length hlength] at hclient
      simpa [hid] using (List.mem_filter.mp hclient).2
    refine .inr ?_
    simp [handle, ClientStore.deleteClient, hchanged, ClientStore.persistThen,
      ClientStore.persist, AtomicFile.save, Next.ofChanged]
  | updateMapping id enabled =>
    cases enabled with
    | true => cases hoff
    | false =>
      obtain rfl : m.id = id := eq_of_beq hconcerns
      obtain ⟨list, heq⟩ := clients.setMappingEnabled_found .done false
        (List.any_eq_true.mpr ⟨client, hclient, List.any_eq_true.mpr
          ⟨m, hm, beq_self_eq_true m.id⟩⟩)
      have hgo := (ofChanged_persistThen { clients with list } .done
        (.removeListener m.id)).2 rfl
      have heq : clients.setMappingEnabled m.id false .done = _ := heq
      rw [← heq] at hgo
      exact .inl hgo
  | deleteMapping id =>
    obtain rfl : m.id = id := eq_of_beq hconcerns
    have hchanged : (clients.list.any fun client =>
        (client.mappings.filter fun m' => m'.id != m.id).length != client.mappings.length) =
          true := by
      refine List.any_eq_true.mpr ⟨client, hclient, bne_iff_ne.mpr fun hlength => ?_⟩
      rw [← List.filter_sublist.eq_of_length hlength] at hm
      simpa using (List.mem_filter.mp hm).2
    refine .inl ?_
    simp [handle, ClientStore.deleteMapping, hchanged, ClientStore.persistThen,
      ClientStore.persist, AtomicFile.save, Next.ofChanged]
  | _ => cases hoff

/-- A request that is saved and makes a mapping inactive goes on to stop it. -/
theorem inactive_handle {request : AdminRequest} (h : Active clients.list c m)
    (hnot : ¬ ActiveId (handle env clients request .done).2.list c m.id) :
    (handle env clients request .done).1 = .go (.removeListener m.id) ∨
      (handle env clients request .done).1 = .go (.removeClient c) := by
  cases hoff : request.turnsOff with
  | false =>
    refine absurd (active_kept h fun heq => ?_) hnot
    rw [hoff] at heq
    cases heq
  | true =>
    cases hconcerns : request.concerns (m.route c) with
    | false => exact absurd (active_kept h fun _ => hconcerns) hnot
    | true => exact turnsOff_goes h hoff hconcerns

end Starting

/-! ## Stopping -/

/-- No request is submitted while another is not answered. -/
def Sequential (s : Server) (e : Event) : Prop :=
  ∀ r request io, e = .admin r (.submit request io) → ∀ r', (s.admins r').isRunning = false

/-- The mappings whose listeners the handler is going to stop are not active. -/
def AdminStage.Cleared (s : Server) : AdminStage → Prop
  | .removeListener id => ∀ c m, Active s.clients.list c m → m.id ≠ id
  | .removing id _ => ∀ c m, Active s.clients.list c m → m.id ≠ id
  | .removeClient id => ∀ m, ¬ Active s.clients.list id m
  | .draining k => ∃ c, s.AuthenticatedAs k c ∧ ∀ m, ¬ Active s.clients.list c m
  | _ => True

/-- Every handler that stops listeners stops those of mappings that are not active. -/
def Cleared (s : Server) : Prop :=
  ∀ r request stage, s.admins r = .running request stage → stage.Cleared s

section Stopping

variable {env : Env} {s t : Server}

theorem cleared_init (h : Init s) : Cleared s := by
  intro r request stage hrunning
  cases (h.admins r).symm.trans hrunning

theorem handle_cleared (h : Ledger s) {request : AdminRequest} {io : AtomicFile.Outcome}
    {stage : AdminStage} (hgo : (handle env s.clients request io).1 = .go stage) {r : RequestId}
    {a : Admin} :
    stage.Cleared ((s.setClients (handle env s.clients request io).2).setAdmin r a) := by
  obtain ⟨_, hgoes⟩ := handle_go hgo
  cases hgoes with
  | disableClient => exact fun m => not_active_setClientEnabled h.ids_nodup
  | deleteClient => exact fun m hactive => (active_deleteClient hactive).2 rfl
  | disableMapping => exact fun c m => not_active_setMappingEnabled h.routes_nodup
  | deleteMapping => exact fun c m hactive => (active_deleteMapping hactive).2
  | enableClient => trivial
  | enableMapping => trivial
  | createMapping => trivial

/-- What is cleared stays so as long as the store is the same. -/
theorem AdminStage.Cleared.of_step {e : Event} (hs : Step env s e t)
    (hclients : t.clients = s.clients) {stage : AdminStage} (h : stage.Cleared s) :
    stage.Cleared t := by
  cases stage with
  | draining k =>
    obtain ⟨c, hc, hnot⟩ := h
    refine ⟨c, authenticatedAs_step hs hc, ?_⟩
    rw [hclients]
    exact hnot
  | removeListener id => unfold AdminStage.Cleared; rw [hclients]; exact h
  | removing id arcs => unfold AdminStage.Cleared; rw [hclients]; exact h
  | removeClient id => unfold AdminStage.Cleared; rw [hclients]; exact h
  | _ => trivial

/-- The next stage of a handler stops nothing that the present one does not. -/
theorem AdminStep.cleared {r : RequestId} {e : AdminEvent} (hr : Reachable (Step env) Init s)
    (hs : AdminStep env r s e t) (hnot : ∀ request io, e ≠ .submit request io) (h : Cleared s)
    {request : AdminRequest} {stage : AdminStage} (hrunning : t.admins r = .running request stage) :
    stage.Cleared s := by
  rcases hs.running hrunning with ⟨io, rfl, _⟩ | ⟨stage₀, hrunning₀, hnext⟩
  · exact absurd rfl (hnot request io)
  have hcleared := h r request stage₀ hrunning₀
  cases hnext with
  | found _ => trivial
  | startClient => trivial
  | add _ => trivial
  | collect _ => exact hcleared
  | removeMiss _ => exact hcleared
  | findSession hlookup => exact ⟨_, authenticatedAs_of_lookup hr hlookup, hcleared⟩

/-- With one request at a time, the handler of the request that has come is the only one
running. -/
theorem Sequential.running {r r' : RequestId} {request request' : AdminRequest}
    {io : AtomicFile.Outcome} {clients : ClientStore} {next : Next} {stage : AdminStage}
    (h : Sequential s (.admin r (.submit request io)))
    (hrunning : ((s.setClients clients).setAdmin r (next.toAdmin request)).admins r' =
      .running request' stage) : r' = r ∧ request' = request ∧ next = .go stage := by
  rcases eq_or_ne r' r with rfl | hne
  · simp only [Server.setAdmin, Function.update_self] at hrunning
    exact ⟨rfl, Next.toAdmin_running hrunning⟩
  · simp only [Server.setAdmin, Function.update_of_ne hne] at hrunning
    have hidle := h _ _ _ rfl r'
    rw [show s.admins r' = .running request' stage from hrunning] at hidle
    cases hidle

/-- With one request at a time, a handler stops only what is not active. -/
theorem cleared_step {e : Event} (hr : Reachable (Step env) Init s) (h : Cleared s)
    (hs : Step env s e t) (hsequential : Sequential s e) : Cleared t := by
  intro r request stage hrunning
  rcases clients_of_step hs with ⟨hnot, hclients⟩ | ⟨r', request', io, rfl, _, _, rfl⟩
  · refine AdminStage.Cleared.of_step hs hclients ?_
    rcases admin_of_step hs r with hsame | ⟨e', rfl, hs'⟩
    · exact h r request stage (hsame ▸ hrunning)
    · exact hs'.cleared hr (fun request' io heq => hnot r request' io (by rw [heq])) h hrunning
  · obtain ⟨rfl, rfl, hgo⟩ := hsequential.running hrunning
    exact handle_cleared (ledger_reachable hr) hgo

end Stopping

end MiniMask.Tunnel
