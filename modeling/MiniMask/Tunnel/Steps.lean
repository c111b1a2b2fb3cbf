import MiniMask.Tunnel.Server

/-!
# What a step can do

Facts about single steps that the invariants share: what each group of steps
leaves alone, where an accept loop can come from, and where a loop of
`add_listener` calls can come from.
-/

namespace MiniMask.Tunnel

open Lts

/-! ## Frames

What the steps of each group leave alone. -/

section Frames

variable {env : Env} {s t s' : Server}

/-- `add_listener` touches the accept loops and their handles. -/
theorem AddStep.frame {st st' : Starter} {a : AddEvent} (h : AddStep s st a s' st') :
    s' = { s with loops := s'.loops, spawned := s'.spawned, listeners := s'.listeners } := by
  cases h <;> rfl

theorem LoopStep.frame {l : LoopId} {e : LoopEvent} (h : LoopStep env l s e t) :
    t = { s with
      loops := t.loops, accepted := t.accepted, offered := t.offered, channel := t.channel
      closed := t.closed } := by
  cases h <;> rfl

theorem TaskStep.frame {i : Nat} {e : TaskEvent} (h : TaskStep i s e t) :
    t = { s with taskPhase := t.taskPhase, activeConns := t.activeConns } := by
  cases h <;> rfl

theorem AdminStep.frame {r : RequestId} {e : AdminEvent} (h : AdminStep env r s e t) :
    t = { s with
      clients := t.clients, issued := t.issued, issuedClients := t.issuedClients
      admins := t.admins, loops := t.loops, spawned := t.spawned, listeners := t.listeners } := by
  cases h with
  | add _ hadd => cases hadd <;> rfl
  | _ => rfl

end Frames

/-! ## Clients of sessions -/

/-- The peer of an invocation that has checked a token. -/
def TunnelTask.peer : TunnelTask → Option Peer
  | .live peer _ => some peer
  | .returned (.rejected peer) => some peer
  | .returned (.statusFailed peer) => some peer
  | .returned (.driven peer) => some peer
  | _ => none

/-- Session `k` is authenticated as client `c`. -/
def Server.AuthenticatedAs (s : Server) (k : SessionId) (c : String) : Prop :=
  (s.tunnels k).peer.map (·.clientId) = some c

section Authenticated

variable {env : Env} {s t : Server}

/-- A step of an invocation moves that invocation only, and keeps its peer. -/
theorem TunnelStep.moves {k : SessionId} {e : TunnelEvent} (h : TunnelStep env k s e t) :
    ∃ task, t.tunnels = Function.update s.tunnels k task ∧
      ∀ peer, (s.tunnels k).peer = some peer → task.peer = some peer := by
  cases h with
  | handshakeFails hfresh => exact ⟨_, rfl, by rw [hfresh]; nofun⟩
  | invalidToken hfresh _ => exact ⟨_, rfl, by rw [hfresh]; nofun⟩
  | verified hfresh _ => exact ⟨_, rfl, by rw [hfresh]; nofun⟩
  | rejected hlive _ => exact ⟨_, rfl, by rw [hlive]; exact fun _ hp => hp⟩
  | admitted hlive _ => exact ⟨_, rfl, by rw [hlive]; exact fun _ hp => hp⟩
  | statusOk hlive => exact ⟨_, rfl, by rw [hlive]; exact fun _ hp => hp⟩
  | statusFails hlive => exact ⟨_, rfl, by rw [hlive]; exact fun _ hp => hp⟩
  | startListeners hlive => exact ⟨_, rfl, by rw [hlive]; exact fun _ hp => hp⟩
  | add hlive hadd =>
    rw [hadd.frame]
    exact ⟨_, rfl, by rw [hlive]; exact fun _ hp => hp⟩
  | drive hlive _ _ => exact ⟨_, rfl, by rw [hlive]; exact fun _ hp => hp⟩
  | recv hlive _ _ => exact ⟨_, rfl, by rw [hlive]; exact fun _ hp => hp⟩
  | openOk hlive _ => exact ⟨_, rfl, by rw [hlive]; exact fun _ hp => hp⟩
  | openFails hlive _ => exact ⟨_, rfl, by rw [hlive]; exact fun _ hp => hp⟩
  | sessionEnds hlive => exact ⟨_, rfl, by rw [hlive]; exact fun _ hp => hp⟩
  | cleanup hlive => exact ⟨_, rfl, by rw [hlive]; exact fun _ hp => hp⟩
  | returns hlive => exact ⟨_, rfl, by rw [hlive]; exact fun _ hp => hp⟩

/-- A session never changes its client. -/
theorem authenticatedAs_step {e : Event} {k : SessionId} {c : String} (hs : Step env s e t)
    (h : s.AuthenticatedAs k c) : t.AuthenticatedAs k c := by
  cases hs with
  | loop hs => rw [hs.frame]; exact h
  | task hs => rw [hs.frame]; exact h
  | admin hs => rw [hs.frame]; exact h
  | @tunnel _ k' _ hs =>
    obtain ⟨task, htunnels, hpeer⟩ := hs.moves
    unfold Server.AuthenticatedAs at h ⊢
    rw [htunnels]
    rcases eq_or_ne k k' with rfl | hne
    · obtain ⟨peer, hp, rfl⟩ := Option.map_eq_some_iff.mp h
      rw [Function.update_self, hpeer peer hp]
      rfl
    · rwa [Function.update_of_ne hne]

theorem AuthenticatedAs.unique {k : SessionId} {c c' : String} (h : s.AuthenticatedAs k c)
    (h' : s.AuthenticatedAs k c') : c = c' := by
  unfold Server.AuthenticatedAs at h h'
  exact Option.some.inj (h.symm.trans h')

end Authenticated

/-! ## Loops of `add_listener` calls -/

/-- Some task is in the loop of `add_listener` calls `st`. -/
def Server.HasStarter (s : Server) (st : Starter) : Prop :=
  (∃ k peer, s.tunnels k = .live peer (.starting st)) ∨
    ∃ r request underRead, s.admins r = .running request (.adding st underRead)

theorem Init.no_starter {s : Server} (h : Init s) (st : Starter) : ¬ s.HasStarter st := by
  obtain ⟨clients, _, rfl⟩ := h
  rintro (⟨_, _, hstarting⟩ | ⟨_, _, _, hadding⟩)
  · cases hstarting
  · cases hadding

/-- The step is the step `a` of a task in the loop `st`. -/
def Event.Adds (s : Server) (st : Starter) (a : AddEvent) : Event → Prop
  | .tunnel k (.add a') => a' = a ∧ ∃ peer, s.tunnels k = .live peer (.starting st)
  | .admin r (.add a') =>
    a' = a ∧ ∃ request underRead, s.admins r = .running request (.adding st underRead)
  | _ => False

theorem Event.Adds.hasStarter {s : Server} {st : Starter} {a : AddEvent} {e : Event}
    (h : e.Adds s st a) : s.HasStarter st := by
  unfold Event.Adds at h
  split at h
  · obtain ⟨_, peer, hstarting⟩ := h
    exact .inl ⟨_, peer, hstarting⟩
  · obtain ⟨_, request, underRead, hadding⟩ := h
    exact .inr ⟨_, request, underRead, hadding⟩
  · cases h

theorem Next.ofChanged_go {r : Except AtomicFile.Error Bool} {go stage : AdminStage}
    (h : Next.ofChanged r go = .go stage) : r = .ok true ∧ stage = go := by
  unfold Next.ofChanged at h
  split at h
  · exact ⟨rfl, (Next.go.inj h).symm⟩
  · cases h
  · cases h

theorem Next.toAdmin_running {request request' : AdminRequest} {stage : AdminStage} {next : Next}
    (h : next.toAdmin request = .running request' stage) :
    request' = request ∧ next = .go stage := by
  unfold Next.toAdmin at h
  split at h
  · cases h
    exact ⟨rfl, rfl⟩
  · cases h

theorem Next.toAdmin_done {request request' : AdminRequest} {response : Response} {next : Next}
    (h : next.toAdmin request = .done request' response) : next = .answer response := by
  unfold Next.toAdmin at h
  split at h
  · cases h
  · cases h
    rfl

/-- The first stage of each handler that has one after its operation on the store. -/
inductive Goes : AdminRequest → AdminStage → Prop
  | enableClient {id : String} : Goes (.updateClient id true) (.startClient id)
  | disableClient {id : String} : Goes (.updateClient id false) (.removeClient id)
  | deleteClient {id : String} : Goes (.deleteClient id) (.removeClient id)
  | enableMapping {id : String} : Goes (.updateMapping id true) (.findMapping id)
  | disableMapping {id : String} : Goes (.updateMapping id false) (.removeListener id)
  | deleteMapping {id : String} : Goes (.deleteMapping id) (.removeListener id)
  | createMapping {clientId name localAddr id : String} {remotePort : UInt16} {now : Timestamp} :
      Goes (.createMapping clientId name remotePort localAddr id now)
        (.adding { client := clientId
                   todo := [newMapping (trim name) remotePort localAddr id now], stage := .idle }
          false)

/-- `create_client` refuses an empty name; otherwise it answers what the store did. -/
theorem handle_createClient (env : Env) (clients : ClientStore) (name token id : String)
    (now : Timestamp) (io : AtomicFile.Outcome) :
    handle env clients (.createClient name token id now) io = (.answer .badRequest, clients) ∨
      ∃ response, handle env clients (.createClient name token id now) io = (.answer response,
        (clients.addClient env.sha256HexWithPepper (trim name) env.tokenPepper token id now io).2) := by
  unfold handle
  simp only
  split
  · exact .inl rfl
  · split
    · exact .inr ⟨.ok, rfl⟩
    · exact .inr ⟨.internal, rfl⟩

/-- `create_mapping` refuses what does not pass its checks; otherwise it goes by what the
store did. -/
theorem handle_createMapping (env : Env) (clients : ClientStore) (clientId name : String)
    (remotePort : UInt16) (localAddr id : String) (now : Timestamp) (io : AtomicFile.Outcome) :
    handle env clients (.createMapping clientId name remotePort localAddr id now) io =
        (.answer .badRequest, clients) ∨
      (trim name ≠ "" ∧ remotePort ≠ 0 ∧ env.isSocketAddr localAddr = true) ∧
      handle env clients (.createMapping clientId name remotePort localAddr id now) io =
        (.ofMapping clientId
          (clients.addMapping clientId (trim name) remotePort localAddr id now io).1,
          (clients.addMapping clientId (trim name) remotePort localAddr id now io).2) := by
  unfold handle
  simp only
  split
  · exact .inl rfl
  split
  · exact .inl rfl
  split
  · exact .inl rfl
  next hname hport haddr => exact .inr ⟨⟨hname, hport, by simpa using haddr⟩, rfl⟩

/-- `create_mapping` refuses and leaves the store alone; or the mapping is in the store, and
the handler goes on if it was saved. -/
theorem createMapping_cases (env : Env) (clients : ClientStore) (clientId name : String)
    (remotePort : UInt16) (localAddr id : String) (now : Timestamp) (io : AtomicFile.Outcome) :
    (∃ res, res ≠ .ok ∧
      handle env clients (.createMapping clientId name remotePort localAddr id now) io =
        (.answer res, clients)) ∨
      (clients.list.any fun c => c.id == clientId) = true ∧
      (handle env clients (.createMapping clientId name remotePort localAddr id now) io).2.list =
        updateFirst (fun c => c.id == clientId)
          (fun c => { c with
            mappings := c.mappings ++ [newMapping (trim name) remotePort localAddr id now] })
          clients.list ∧
      (io = .done ∧
        (handle env clients (.createMapping clientId name remotePort localAddr id now) io).1 =
          .go (.adding
            { client := clientId
              todo := [newMapping (trim name) remotePort localAddr id now]
              stage := .idle } false) ∨
        io ≠ .done ∧
        (handle env clients (.createMapping clientId name remotePort localAddr id now) io).1 =
          .answer .internal) := by
  rcases handle_createMapping env clients clientId name remotePort localAddr id now io with
    heq | ⟨_, heq⟩
  · exact .inl ⟨.badRequest, nofun, heq⟩
  rw [heq]
  rcases clients.addMapping_cases io clientId (trim name) remotePort localAddr id now with
    hadd | ⟨hany, hadd⟩
  · rw [hadd]
    exact .inl ⟨.conflict, nofun, rfl⟩
  · rw [hadd, ClientStore.persistThen_list]
    refine .inr ⟨hany, rfl, ?_⟩
    cases io with
    | done => exact .inl ⟨rfl, rfl⟩
    | writeFailed after => exact .inr ⟨nofun, rfl⟩
    | renameFailed => exact .inr ⟨nofun, rfl⟩

/-- A handler that goes on has saved. -/
theorem handle_go {env : Env} {clients : ClientStore} {request : AdminRequest}
    {io : AtomicFile.Outcome} {stage : AdminStage}
    (h : (handle env clients request io).1 = .go stage) : io = .done ∧ Goes request stage := by
  cases request with
  | createClient name token id now =>
    rcases handle_createClient env clients name token id now io with heq | ⟨_, heq⟩
    · rw [heq] at h
      cases h
    · rw [heq] at h
      cases h
  | regenerateToken id token =>
    unfold handle at h
    simp only at h
    split at h <;> cases h
  | updateClient id enabled =>
    obtain ⟨hok, rfl⟩ := Next.ofChanged_go h
    cases enabled with
    | true => exact ⟨ClientStore.setClientEnabled_saved hok, .enableClient⟩
    | false => exact ⟨ClientStore.setClientEnabled_saved hok, .disableClient⟩
  | deleteClient id =>
    obtain ⟨hok, rfl⟩ := Next.ofChanged_go h
    exact ⟨ClientStore.deleteClient_saved hok, .deleteClient⟩
  | updateMapping id enabled =>
    obtain ⟨hok, rfl⟩ := Next.ofChanged_go h
    cases enabled with
    | true => exact ⟨ClientStore.setMappingEnabled_saved hok, .enableMapping⟩
    | false => exact ⟨ClientStore.setMappingEnabled_saved hok, .disableMapping⟩
  | deleteMapping id =>
    obtain ⟨hok, rfl⟩ := Next.ofChanged_go h
    exact ⟨ClientStore.deleteMapping_saved hok, .deleteMapping⟩
  | createMapping clientId name remotePort localAddr id now =>
    rcases createMapping_cases env clients clientId name remotePort localAddr id now io with
      ⟨_, _, heq⟩ | ⟨_, _, ⟨hdone, heq⟩ | ⟨_, heq⟩⟩ <;> rw [heq] at h <;> cases h
    exact ⟨hdone, .createMapping⟩

/-- A handler goes from the store to `add_listener` only in `create_mapping`, for
the mapping it has just made and saved. -/
theorem handle_adding {env : Env} {clients : ClientStore} {request : AdminRequest}
    {io : AtomicFile.Outcome} {st : Starter} {underRead : Bool}
    (h : (handle env clients request io).1 = .go (.adding st underRead)) :
    ∃ clientId name remotePort localAddr id now,
      request = .createMapping clientId name remotePort localAddr id now ∧
      st = { client := clientId
             todo := [newMapping (trim name) remotePort localAddr id now], stage := .idle } ∧
      (clients.list.any fun c => c.id == clientId) = true ∧
      (handle env clients request io).2.list = updateFirst (fun c => c.id == clientId)
        (fun c => { c with
          mappings := c.mappings ++ [newMapping (trim name) remotePort localAddr id now] })
        clients.list := by
  obtain ⟨_, hgoes⟩ := handle_go h
  cases hgoes with
  | @createMapping clientId name localAddr id remotePort now =>
    refine ⟨clientId, name, remotePort, localAddr, id, now, rfl, rfl, ?_⟩
    rcases createMapping_cases env clients clientId name remotePort localAddr id now io with
      ⟨_, _, heq⟩ | ⟨hany, hlist, _⟩
    · rw [heq] at h
      cases h
    · exact ⟨hany, hlist⟩

/-- The mapping that `create_mapping` goes on with is in the store. -/
theorem handle_adding_route {env : Env} {clients : ClientStore} {request : AdminRequest}
    {io : AtomicFile.Outcome} {st : Starter} {underRead : Bool}
    (h : (handle env clients request io).1 = .go (.adding st underRead)) :
    st.stage = .idle ∧
      ∀ m ∈ st.todo, m.route st.client ∈ routes (handle env clients request io).2.list := by
  obtain ⟨clientId, name, remotePort, localAddr, id, now, _, rfl, hany, hlist⟩ := handle_adding h
  refine ⟨rfl, fun m hm => ?_⟩
  cases List.mem_singleton.mp hm
  obtain ⟨pre, c, post, _, hc, hupdate⟩ := updateFirst_split hany
  rw [hlist, hupdate]
  refine mem_routes.mpr ⟨_, List.mem_append_right _ List.mem_cons_self, _,
    List.mem_append_right _ (List.mem_singleton_self _), ?_⟩
  rw [show c.id = clientId from by simpa using hc]

/-- The handlers keep the routes of the store, drop some, or add that of a mapping
they create. -/
theorem routes_handle (env : Env) (clients : ClientStore) (request : AdminRequest)
    (io : AtomicFile.Outcome) :
    (routes (handle env clients request io).2.list).Sublist (routes clients.list) ∨
      ∃ clientId name remotePort localAddr id now,
        request = .createMapping clientId name remotePort localAddr id now ∧
        (routes (handle env clients request io).2.list).Perm
          ({ clientId, mappingId := id, remotePort, localAddr } :: routes clients.list) := by
  cases request with
  | createClient name token id now =>
    rcases handle_createClient env clients name token id now io with heq | ⟨_, heq⟩
    · rw [heq]
      exact .inl (List.Sublist.refl _)
    · rw [heq]
      exact .inl (sublist_of_eq (clients.routes_addClient io ..))
  | updateClient id enabled =>
    exact .inl (sublist_of_eq (clients.routes_setClientEnabled io id enabled))
  | deleteClient id => exact .inl (clients.routes_deleteClient io id)
  | regenerateToken id token =>
    exact .inl (sublist_of_eq (clients.routes_regenerateToken io ..))
  | updateMapping id enabled =>
    exact .inl (sublist_of_eq (clients.routes_setMappingEnabled io id enabled))
  | deleteMapping id => exact .inl (clients.routes_deleteMapping io id)
  | createMapping clientId name remotePort localAddr id now =>
    rcases handle_createMapping env clients clientId name remotePort localAddr id now io with
      heq | ⟨_, heq⟩
    · rw [heq]
      exact .inl (List.Sublist.refl _)
    rw [heq]
    rcases clients.routes_addMapping io clientId (trim name) remotePort localAddr id now with
      heq | hperm
    · exact .inl (sublist_of_eq heq)
    · exact .inr ⟨clientId, name, remotePort, localAddr, id, now, rfl, hperm⟩

/-- The handlers keep the ids of the clients, drop some, or add that of a client
they create. -/
theorem ids_handle (env : Env) (clients : ClientStore) (request : AdminRequest)
    (io : AtomicFile.Outcome) :
    ((handle env clients request io).2.list.map (·.id)).Sublist (clients.list.map (·.id)) ∨
      ∃ name token id now, request = .createClient name token id now ∧
        (handle env clients request io).2.list.map (·.id) = clients.list.map (·.id) ++ [id] := by
  cases request with
  | createClient name token id now =>
    rcases handle_createClient env clients name token id now io with heq | ⟨_, heq⟩
    · rw [heq]
      exact .inl (List.Sublist.refl _)
    · rw [heq]
      exact .inr ⟨name, token, id, now, rfl, ids_addClient ..⟩
  | updateClient id enabled =>
    exact .inl (sublist_of_eq (ids_setClientEnabled clients io id enabled))
  | deleteClient id => exact .inl (ids_deleteClient clients io id)
  | regenerateToken id token => exact .inl (sublist_of_eq (ids_regenerateToken clients io ..))
  | updateMapping id enabled =>
    exact .inl (sublist_of_eq (ids_setMappingEnabled clients io id enabled))
  | deleteMapping id => exact .inl (sublist_of_eq (ids_deleteMapping clients io id))
  | createMapping clientId name remotePort localAddr id now =>
    rcases handle_createMapping env clients clientId name remotePort localAddr id now io with
      heq | ⟨_, heq⟩
    · rw [heq]
      exact .inl (List.Sublist.refl _)
    · rw [heq]
      exact .inl (sublist_of_eq (ids_addMapping clients io ..))

section Starters

variable {env : Env} {s t : Server}

/-- A loop that `start_client_listeners` begins has enabled mappings of its client. -/
theorem mem_startClientListeners {clients : ClientStore} {c : String} {m : PortMapping}
    (h : m ∈ (startClientListeners clients c).todo) :
    m.route c ∈ routes clients.list ∧ m.enabled = true := by
  unfold startClientListeners at h
  simp only at h
  split at h
  · next client hfind =>
    obtain ⟨hm, hen⟩ := List.mem_filter.mp h
    have hid : client.id = c := by simpa using List.find?_some hfind
    exact ⟨mem_routes.mpr ⟨client, List.mem_of_find?_eq_some hfind, m, hm, by rw [hid]⟩, hen⟩
  · cases h

theorem findMapping_mem {clients : ClientStore} {id c : String} {m : PortMapping}
    (h : clients.findMapping id = some (c, m)) : m.route c ∈ routes clients.list ∧ m.id = id := by
  obtain ⟨client, hclient, hmap⟩ := List.exists_of_findSome?_eq_some h
  obtain ⟨m', hfind, heq⟩ := Option.map_eq_some_iff.mp hmap
  cases heq
  exact ⟨mem_routes.mpr ⟨client, hclient, m, List.mem_of_find?_eq_some hfind, rfl⟩,
    by simpa using List.find?_some hfind⟩

/-- What a step of an invocation makes of its own stage `starting`. -/
theorem TunnelStep.starting {k : SessionId} {e : TunnelEvent} (hs : TunnelStep env k s e t)
    {peer : Peer} {st' : Starter} (h : t.tunnels k = .live peer (.starting st')) :
    (s.tunnels k = .live peer .connected ∧ st' = startClientListeners s.clients peer.clientId) ∨
      ∃ st a s', s.tunnels k = .live peer (.starting st) ∧ e = .add a ∧ AddStep s st a s' st' ∧
        t = s'.setTunnel k (.live peer (.starting st')) := by
  cases hs with
  | startListeners hlive =>
    simp only [Server.setTunnel, Function.update_self, TunnelTask.live.injEq,
      Stage.starting.injEq] at h
    obtain ⟨rfl, rfl⟩ := h
    exact .inl ⟨hlive, rfl⟩
  | add hlive hadd =>
    simp only [Server.setTunnel, Function.update_self, TunnelTask.live.injEq,
      Stage.starting.injEq] at h
    obtain ⟨rfl, rfl⟩ := h
    exact .inr ⟨_, _, _, hlive, rfl, hadd, rfl⟩
  | _ => simp [Server.setTunnel, Server.exit] at h

/-- What a step of a handler makes of its own stage `adding`. -/
theorem AdminStep.adding {r : RequestId} {e : AdminEvent} (hs : AdminStep env r s e t)
    {request : AdminRequest} {st' : Starter} {underRead : Bool}
    (h : t.admins r = .running request (.adding st' underRead)) :
    (∃ io, e = .submit request io ∧
      (handle env s.clients request io).1 = .go (.adding st' underRead) ∧
      t.clients = (handle env s.clients request io).2) ∨
    (∃ id m, s.admins r = .running request (.findMapping id) ∧ underRead = true ∧
      s.clients.findMapping id = some (st'.client, m) ∧
      st' = { client := st'.client, todo := [m], stage := .idle } ∧ t.clients = s.clients) ∨
    (∃ id, s.admins r = .running request (.startClient id) ∧
      st' = startClientListeners s.clients id ∧ t.clients = s.clients) ∨
    ∃ st a s', s.admins r = .running request (.adding st underRead) ∧ e = .add a ∧
      AddStep s st a s' st' ∧ t = s'.setAdmin r (.running request (.adding st' underRead)) := by
  cases hs with
  | @submit request' io _ _ _ =>
    simp only [Server.setAdmin, Function.update_self] at h
    obtain ⟨rfl, hgo⟩ := Next.toAdmin_running h
    exact .inl ⟨io, rfl, hgo, rfl⟩
  | @findMapping request' id hrunning =>
    simp only [Server.setAdmin, Function.update_self] at h
    unfold afterFindMapping at h
    split at h
    · next hfind =>
      cases h
      exact .inr (.inl ⟨id, _, hrunning, rfl, hfind, rfl, rfl⟩)
    · cases h
  | startClient hrunning =>
    simp only [Server.setAdmin, Function.update_self] at h
    cases h
    exact .inr (.inr (.inl ⟨_, hrunning, rfl, rfl⟩))
  | add hrunning hadd =>
    simp only [Server.setAdmin, Function.update_self] at h
    cases h
    exact .inr (.inr (.inr ⟨_, _, _, hrunning, rfl, hadd, rfl⟩))
  | _ => simp [Server.setAdmin] at h

/-- What the next stage of a handler is, once its operation on the store is done. -/
inductive NextStage (s : Server) : AdminStage → AdminStage → Prop
  | found {id clientId : String} {m : PortMapping} :
      s.clients.findMapping id = some (clientId, m) →
      NextStage s (.findMapping id)
        (.adding { client := clientId, todo := [m], stage := .idle } true)
  | startClient {id : String} :
      NextStage s (.startClient id) (.adding (startClientListeners s.clients id) false)
  | add {st st' : Starter} {underRead : Bool} {a : AddEvent} {s' : Server} :
      AddStep s st a s' st' → NextStage s (.adding st underRead) (.adding st' underRead)
  | collect {id : String} {arcs : List SessionId} :
      arcs.Perm (s.sessions.entries.map fun x => x.2.sessionId) →
      NextStage s (.removeListener id) (.removing id arcs)
  | removeMiss {id : String} {k : SessionId} {arcs : List SessionId} :
      (s.listeners k).lookup id = none →
      NextStage s (.removing id (k :: arcs)) (.removing id arcs)
  | findSession {id : String} {info : SessionInfo} :
      s.sessions.lookup id = some info →
      NextStage s (.removeClient id) (.draining info.sessionId)

/-- A handler that is running after its step has just begun, or was running before. -/
theorem AdminStep.running {r : RequestId} {e : AdminEvent} (hs : AdminStep env r s e t)
    {request : AdminRequest} {stage' : AdminStage} (h : t.admins r = .running request stage') :
    (∃ io, e = .submit request io ∧ (handle env s.clients request io).1 = .go stage') ∨
      ∃ stage, s.admins r = .running request stage ∧ NextStage s stage stage' := by
  cases hs with
  | @submit request' io _ _ _ =>
    simp only [Server.setAdmin, Function.update_self] at h
    obtain ⟨rfl, hgo⟩ := Next.toAdmin_running h
    exact .inl ⟨io, rfl, hgo⟩
  | findMapping hrunning =>
    simp only [Server.setAdmin, Function.update_self] at h
    unfold afterFindMapping at h
    split at h
    · next hfind =>
      cases h
      exact .inr ⟨_, hrunning, .found hfind⟩
    · cases h
  | startClient hrunning =>
    simp only [Server.setAdmin, Function.update_self] at h
    cases h
    exact .inr ⟨_, hrunning, .startClient⟩
  | add hrunning hadd =>
    simp only [Server.setAdmin, Function.update_self] at h
    cases h
    exact .inr ⟨_, hrunning, .add hadd⟩
  | collect hrunning hperm =>
    simp only [Server.setAdmin, Function.update_self] at h
    cases h
    exact .inr ⟨_, hrunning, .collect hperm⟩
  | removeMiss hrunning hmiss =>
    simp only [Server.setAdmin, Function.update_self] at h
    cases h
    exact .inr ⟨_, hrunning, .removeMiss hmiss⟩
  | findSession hrunning hlookup =>
    simp only [Server.setAdmin, Function.update_self] at h
    cases h
    exact .inr ⟨_, hrunning, .findSession hlookup⟩
  | _ => simp [Server.setAdmin] at h

/-- A step of a handler moves that handler only. -/
theorem AdminStep.moves {r : RequestId} {e : AdminEvent} (hs : AdminStep env r s e t) :
    ∃ task, t.admins = Function.update s.admins r task := by
  cases hs with
  | add _ hadd => rw [hadd.frame]; exact ⟨_, rfl⟩
  | _ => exact ⟨_, rfl⟩

/-- The invocations do not touch the handlers. -/
theorem TunnelStep.admins {k : SessionId} {e : TunnelEvent} (hs : TunnelStep env k s e t) :
    t.admins = s.admins ∧ t.clients = s.clients ∧ t.issued = s.issued ∧
      t.issuedClients = s.issuedClients := by
  cases hs with
  | add _ hadd => rw [hadd.frame]; exact ⟨rfl, rfl, rfl, rfl⟩
  | _ => exact ⟨rfl, rfl, rfl, rfl⟩

/-- Only its own steps move an invocation. -/
theorem tunnel_of_step {e : Event} (hs : Step env s e t) (k : SessionId) :
    t.tunnels k = s.tunnels k ∨ ∃ e', e = .tunnel k e' ∧ TunnelStep env k s e' t := by
  cases hs with
  | loop hs => rw [hs.frame]; exact .inl rfl
  | task hs => rw [hs.frame]; exact .inl rfl
  | admin hs => rw [hs.frame]; exact .inl rfl
  | @tunnel _ k' e' hs =>
    rcases eq_or_ne k k' with rfl | hne
    · exact .inr ⟨e', rfl, hs⟩
    · obtain ⟨task, htunnels, _⟩ := hs.moves
      rw [htunnels, Function.update_of_ne hne]
      exact .inl rfl

/-- Only its own steps move a handler. -/
theorem admin_of_step {e : Event} (hs : Step env s e t) (r : RequestId) :
    t.admins r = s.admins r ∨ ∃ e', e = .admin r e' ∧ AdminStep env r s e' t := by
  cases hs with
  | loop hs => rw [hs.frame]; exact .inl rfl
  | task hs => rw [hs.frame]; exact .inl rfl
  | tunnel hs => rw [hs.admins.1]; exact .inl rfl
  | @admin _ r' e' hs =>
    rcases eq_or_ne r r' with rfl | hne
    · exact .inr ⟨e', rfl, hs⟩
    · obtain ⟨task, hadmins⟩ := hs.moves
      rw [hadmins, Function.update_of_ne hne]
      exact .inl rfl

/-- Only the beginning of a request changes the store. -/
theorem clients_of_step {e : Event} (hs : Step env s e t) :
    ((∀ r request io, e ≠ .admin r (.submit request io)) ∧ t.clients = s.clients) ∨
      ∃ r request io, e = .admin r (.submit request io) ∧ s.admins r = .idle ∧
        request.FreshIn s ∧
        t = (s.setClients (handle env s.clients request io).2).setAdmin r
          ((handle env s.clients request io).1.toAdmin request) := by
  cases hs with
  | loop hs => rw [hs.frame]; exact .inl ⟨nofun, rfl⟩
  | task hs => rw [hs.frame]; exact .inl ⟨nofun, rfl⟩
  | tunnel hs => exact .inl ⟨nofun, hs.admins.2.1⟩
  | admin hs =>
    cases hs with
    | submit hidle _ hfresh => exact .inr ⟨_, _, _, rfl, hidle, hfresh, rfl⟩
    | add _ hadd => rw [hadd.frame]; exact .inl ⟨nofun, rfl⟩
    | _ => exact .inl ⟨fun _ _ _ heq => (by cases heq), rfl⟩

/-- A handler that is to look up what to start is where its request left it. -/
theorem looking_of_step {e : Event} (hs : Step env s e t)
    (hnot : ∀ r request io, e ≠ .admin r (.submit request io)) {r : RequestId}
    {request : AdminRequest} {stage : AdminStage} {id : String}
    (hstage : stage = .findMapping id ∨ stage = .startClient id)
    (h : t.admins r = .running request stage) : s.admins r = .running request stage := by
  rcases admin_of_step hs r with hsame | ⟨e', rfl, hs'⟩
  · exact hsame ▸ h
  · rcases hs'.running h with ⟨io, rfl, _⟩ | ⟨stage₀, _, hnext⟩
    · exact absurd rfl (hnot r request io)
    · rcases hstage with rfl | rfl <;> cases hnext

/-- Where a loop of `add_listener` calls comes from: it was there, it just began
with mappings of its client in the store, or it takes this step. -/
theorem added_of_step {e : Event} (hs : Step env s e t) {st' : Starter}
    (h : t.HasStarter st') :
    s.HasStarter st' ∨
      (st'.stage = .idle ∧ ∀ m ∈ st'.todo, m.route st'.client ∈ routes t.clients.list) ∨
      ∃ st a s', e.Adds s st a ∧ AddStep s st a s' st' ∧ t.loops = s'.loops ∧
        t.spawned = s'.spawned := by
  cases hs with
  | loop hs => rw [hs.frame] at h; exact .inl h
  | task hs => rw [hs.frame] at h; exact .inl h
  | @tunnel _ k _ hs =>
    obtain ⟨hadmins, hclients, _, _⟩ := hs.admins
    rcases h with ⟨k', peer, hstarting⟩ | hadding
    · rcases eq_or_ne k' k with rfl | hne
      · rcases hs.starting hstarting with ⟨_, rfl⟩ | ⟨st, a, s', hst, rfl, hadd, rfl⟩
        · refine .inr (.inl ⟨rfl, fun m hm => ?_⟩)
          rw [hclients]
          exact (mem_startClientListeners hm).1
        · exact .inr (.inr ⟨st, a, s', ⟨rfl, _, hst⟩, hadd, rfl, rfl⟩)
      · obtain ⟨task, htunnels, _⟩ := hs.moves
        rw [htunnels, Function.update_of_ne hne] at hstarting
        exact .inl (.inl ⟨_, _, hstarting⟩)
    · rw [hadmins] at hadding
      exact .inl (.inr hadding)
  | @admin _ r _ hs =>
    rcases h with hstarting | ⟨r', request, underRead, hadding⟩
    · rw [hs.frame] at hstarting
      exact .inl (.inl hstarting)
    · rcases eq_or_ne r' r with rfl | hne
      · rcases hs.adding hadding with ⟨io, _, hgo, hclients⟩ | ⟨id, m, _, _, hfind, heq, hclients⟩ |
          ⟨id, _, rfl, hclients⟩ | ⟨st, a, s', hst, rfl, hadd, rfl⟩
        · refine .inr (.inl ⟨(handle_adding_route hgo).1, fun m hm => ?_⟩)
          rw [hclients]
          exact (handle_adding_route hgo).2 m hm
        · refine .inr (.inl ⟨by rw [heq], fun m' hm' => ?_⟩)
          rw [heq] at hm'
          cases List.mem_singleton.mp hm'
          rw [hclients]
          exact (findMapping_mem hfind).1
        · refine .inr (.inl ⟨rfl, fun m hm => ?_⟩)
          rw [hclients]
          exact (mem_startClientListeners hm).1
        · exact .inr (.inr ⟨st, a, s', ⟨rfl, _, _, hst⟩, hadd, rfl, rfl⟩)
      · obtain ⟨task, hadmins⟩ := hs.moves
        rw [hadmins, Function.update_of_ne hne] at hadding
        exact .inl (.inr ⟨_, _, _, hadding⟩)

theorem starter_of_step {e : Event} (hs : Step env s e t) {st' : Starter}
    (h : t.HasStarter st') :
    s.HasStarter st' ∨
      (st'.stage = .idle ∧ ∀ m ∈ st'.todo, m.route st'.client ∈ routes t.clients.list) ∨
      ∃ st a s', s.HasStarter st ∧ AddStep s st a s' st' ∧ t.loops = s'.loops ∧
        t.spawned = s'.spawned := by
  rcases added_of_step hs h with hold | hnew | ⟨st, a, s', hadds, hadd⟩
  · exact .inl hold
  · exact .inr (.inl hnew)
  · exact .inr (.inr ⟨st, a, s', hadds.hasStarter, hadd⟩)

/-- Where a loop of `add_listener` calls goes: it stays, it takes a step, or it is
over. -/
theorem starter_survives {e : Event} (hs : Step env s e t) {st : Starter} (h : s.HasStarter st) :
    t.HasStarter st ∨
      (∃ a s' st', AddStep s st a s' st' ∧ t.HasStarter st' ∧ t.listeners = s'.listeners) ∨
      st.stage = .idle ∧ st.todo = [] := by
  rcases h with ⟨k, peer, hstarting⟩ | ⟨r, request, underRead, hadding⟩
  · rcases tunnel_of_step hs k with hsame | ⟨e', rfl, hs'⟩
    · exact .inl (.inl ⟨k, peer, hsame.trans hstarting⟩)
    · cases hs' with
      | add hlive hadd =>
        cases hlive.symm.trans hstarting
        exact .inr (.inl ⟨_, _, _, hadd, .inl ⟨_, _, Function.update_self ..⟩, rfl⟩)
      | drive hlive hidle htodo =>
        cases hlive.symm.trans hstarting
        exact .inr (.inr ⟨hidle, htodo⟩)
      | _ => simp_all
  · rcases admin_of_step hs r with hsame | ⟨e', rfl, hs'⟩
    · exact .inl (.inr ⟨r, request, underRead, hsame.trans hadding⟩)
    · cases hs' with
      | add hrunning hadd =>
        cases hrunning.symm.trans hadding
        exact .inr (.inl ⟨_, _, _, hadd, .inr ⟨_, _, _, Function.update_self ..⟩, rfl⟩)
      | added hrunning hidle htodo =>
        cases hrunning.symm.trans hadding
        exact .inr (.inr ⟨hidle, htodo⟩)
      | _ => simp_all

end Starters

/-! ## Accept loops -/

section Loops

variable {env : Env} {s s' t : Server}

/-- `L` is `L₀`, aborted or not. -/
def AcceptLoop.SameTask (L L₀ : AcceptLoop) : Prop :=
  L = { L₀ with aborted := L.aborted } ∧ (L₀.aborted = true → L.aborted = true)

theorem AcceptLoop.SameTask.refl (L : AcceptLoop) : L.SameTask L := ⟨rfl, id⟩

/-- A loop after `abort` was there before. -/
theorem abort_loops {p : LoopId → Bool} {l : LoopId} {L : AcceptLoop}
    (h : (s.abort p).loops l = some L) : ∃ L₀, s.loops l = some L₀ ∧ L.SameTask L₀ := by
  unfold Server.abort at h
  simp only at h
  split at h
  · obtain ⟨L₀, hL₀, rfl⟩ := Option.map_eq_some_iff.mp h
    exact ⟨L₀, hL₀, rfl, fun _ => rfl⟩
  · exact ⟨L, h, .refl L⟩

theorem aborted_of_abort {p : LoopId → Bool} {l : LoopId} {L : AcceptLoop} (hp : p l = true)
    (h : (s.abort p).loops l = some L) : L.aborted = true := by
  simp only [Server.abort, hp, if_true] at h
  obtain ⟨L₀, _, rfl⟩ := Option.map_eq_some_iff.mp h
  rfl

/-- A loop that is there while another is dropped was there before. -/
theorem dropLoop_loops {l l' : LoopId} {L : AcceptLoop} (h : (s.dropLoop l').loops l = some L) :
    s.loops l = some L ∧ l ≠ l' := by
  have h : Function.update s.loops l' none l = some L := h
  rcases eq_or_ne l l' with rfl | hne
  · rw [Function.update_self] at h
    cases h
  · rw [Function.update_of_ne hne] at h
    exact ⟨h, hne⟩

/-- `bound` spawns the loop `l` in state `L`. -/
structure Spawns (s : Server) (st : Starter) (l : LoopId) (L : AcceptLoop) (m : PortMapping)
    (k : SessionId) : Prop where
  stage : st.stage = .found m k
  free : s.PortFree m.remotePort
  id : l = s.spawned
  loop : L = .start st.client m k

theorem AddStep.loop {st st' : Starter} {a : AddEvent} (hs : AddStep s st a s' st') {l : LoopId}
    {L : AcceptLoop} (h : s'.loops l = some L) :
    s.loops l = some L ∨ l < s'.spawned ∧ ∃ m k, st' = { st with stage := .bound m k l } ∧
      Spawns s st l L m k := by
  cases hs with
  | @bound m k hstage hfree =>
    have h : Function.update s.loops s.spawned (some (.start st.client m k)) l = some L := h
    rcases eq_or_ne l s.spawned with rfl | hne
    · rw [Function.update_self] at h
      cases h
      exact .inr ⟨Nat.lt_succ_self _, m, k, rfl, hstage, hfree, rfl, rfl⟩
    · rw [Function.update_of_ne hne] at h
      exact .inl h
  | _ => exact .inl h

/-- `add_listener` has bound a port only by binding it. -/
theorem AddStep.bound_of_stage {st st' : Starter} {a : AddEvent} (hs : AddStep s st a s' st')
    {m : PortMapping} {k : SessionId} {l : LoopId} (hbound : st'.stage = .bound m k l)
    (hfound : st.stage = .found m k) : a = .bound := by
  cases hs with
  | bound _ _ => rfl
  | offline hidle _ _ => cases hidle.symm.trans hfound
  | found hidle _ _ => cases hidle.symm.trans hfound
  | bindFails _ => cases hbound
  | stored _ => cases hbound

/-- Where an accept loop comes from: it was there, or this step of `add_listener`
spawns it. -/
theorem spawned_of_step {e : Event} (hs : Step env s e t) {l : LoopId} {L : AcceptLoop}
    (h : t.loops l = some L) :
    (∃ L₀, s.loops l = some L₀ ∧ L.SameTask L₀) ∨
      l < t.spawned ∧ ∃ st m k, e.Adds s st .bound ∧
        t.HasStarter { st with stage := .bound m k l } ∧ Spawns s st l L m k := by
  cases hs with
  | task hs => rw [hs.frame] at h; exact .inl ⟨L, h, .refl L⟩
  | loop hs =>
    cases hs with
    | sendClosed _ _ _ => exact .inl ⟨L, (dropLoop_loops h).1, .refl L⟩
    | acceptFails _ _ => exact .inl ⟨L, (dropLoop_loops h).1, .refl L⟩
    | reap _ _ => exact .inl ⟨L, (dropLoop_loops h).1, .refl L⟩
    | _ => exact .inl ⟨L, h, .refl L⟩
  | tunnel hs =>
    cases hs with
    | add hlive hadd =>
      rcases hadd.loop h with hold | ⟨hlt, m, k, rfl, hspawn⟩
      · exact .inl ⟨L, hold, .refl L⟩
      · obtain rfl := hadd.bound_of_stage rfl hspawn.stage
        exact .inr ⟨hlt, _, m, k, ⟨rfl, _, hlive⟩, .inl ⟨_, _, Function.update_self ..⟩, hspawn⟩
    | _ => exact .inl ⟨L, h, .refl L⟩
  | admin hs =>
    cases hs with
    | add hrunning hadd =>
      rcases hadd.loop h with hold | ⟨hlt, m, k, rfl, hspawn⟩
      · exact .inl ⟨L, hold, .refl L⟩
      · obtain rfl := hadd.bound_of_stage rfl hspawn.stage
        exact .inr ⟨hlt, _, m, k, ⟨rfl, _, _, hrunning⟩,
          .inr ⟨_, _, _, Function.update_self ..⟩, hspawn⟩
    | @removeIn _ _ _ _ l' _ _ => exact .inl (abort_loops (p := (· == l')) h)
    | @drain _ k _ =>
      exact .inl (abort_loops (p := fun l => (s.listeners k).entries.any fun x => x.2 == l) h)
    | _ => exact .inl ⟨L, h, .refl L⟩

theorem loop_of_step {e : Event} (hs : Step env s e t) {l : LoopId} {L : AcceptLoop}
    (h : t.loops l = some L) :
    (∃ L₀, s.loops l = some L₀ ∧ L.SameTask L₀) ∨
      l < t.spawned ∧ ∃ st m k, s.HasStarter st ∧ t.HasStarter { st with stage := .bound m k l } ∧
        Spawns s st l L m k := by
  rcases spawned_of_step hs h with hold | ⟨hlt, st, m, k, hadds, hspawn⟩
  · exact .inl hold
  · exact .inr ⟨hlt, st, m, k, hadds.hasStarter, hspawn⟩

theorem AddStep.spawned_le {st st' : Starter} {a : AddEvent} (hs : AddStep s st a s' st') :
    s.spawned ≤ s'.spawned := by
  cases hs with
  | bound _ _ => exact Nat.le_succ _
  | _ => exact Nat.le_refl _

/-- Loop ids are not used twice. -/
theorem spawned_le {e : Event} (hs : Step env s e t) : s.spawned ≤ t.spawned := by
  cases hs with
  | task hs => rw [hs.frame]
  | loop hs => cases hs <;> exact Nat.le_refl s.spawned
  | tunnel hs =>
    cases hs with
    | add _ hadd => exact hadd.spawned_le
    | _ => exact Nat.le_refl _
  | admin hs =>
    cases hs with
    | add _ hadd => exact hadd.spawned_le
    | _ => exact Nat.le_refl _

/-- A loop outlives an abort, until its task is dropped. -/
theorem abort_survives (p : LoopId → Bool) {l : LoopId} {L : AcceptLoop}
    (h : s.loops l = some L) : ∃ L', (s.abort p).loops l = some L' ∧ L'.SameTask L := by
  unfold Server.abort
  simp only [h]
  split
  · exact ⟨_, rfl, rfl, fun _ => rfl⟩
  · exact ⟨L, rfl, .refl L⟩

/-- Dropping one loop keeps the others. -/
theorem dropLoop_survives (l' : LoopId) {l : LoopId} {L : AcceptLoop} (h : s.loops l = some L) :
    (∃ L', (s.dropLoop l').loops l = some L' ∧ L'.SameTask L) ∨ s.dropLoop l' = s.dropLoop l := by
  rcases eq_or_ne l l' with rfl | hne
  · exact .inr rfl
  · refine .inl ⟨L, ?_, .refl L⟩
    show Function.update s.loops l' none l = some L
    rw [Function.update_of_ne hne]
    exact h

theorem AddStep.survives {st st' : Starter} {a : AddEvent} (hs : AddStep s st a s' st')
    {l : LoopId} {L : AcceptLoop} (hlt : l < s.spawned) (h : s.loops l = some L) :
    s'.loops l = some L := by
  cases hs with
  | bound _ _ =>
    show Function.update s.loops s.spawned _ l = some L
    rw [Function.update_of_ne (Nat.ne_of_lt hlt)]
    exact h
  | _ => exact h

/-- A loop stays until its task is dropped. -/
theorem loop_survives {e : Event} (hs : Step env s e t) {l : LoopId} {L : AcceptLoop}
    (hlt : l < s.spawned) (h : s.loops l = some L) :
    (∃ L', t.loops l = some L' ∧ L'.SameTask L) ∨ t = s.dropLoop l := by
  cases hs with
  | task hs => rw [hs.frame]; exact .inl ⟨L, h, .refl L⟩
  | loop hs =>
    cases hs with
    | sendClosed _ _ _ => exact dropLoop_survives _ h
    | acceptFails _ _ => exact dropLoop_survives _ h
    | reap _ _ => exact dropLoop_survives _ h
    | _ => exact .inl ⟨L, h, .refl L⟩
  | tunnel hs =>
    cases hs with
    | add _ hadd =>
      have hkept := hadd.survives hlt h
      exact .inl ⟨L, hkept, .refl L⟩
    | _ => exact .inl ⟨L, h, .refl L⟩
  | admin hs =>
    cases hs with
    | add _ hadd =>
      have hkept := hadd.survives hlt h
      exact .inl ⟨L, hkept, .refl L⟩
    | @removeIn _ _ _ _ l' _ _ => exact .inl (abort_survives (· == l') h)
    | @drain _ k _ =>
      exact .inl (abort_survives (fun l => (s.listeners k).entries.any fun x => x.2 == l) h)
    | _ => exact .inl ⟨L, h, .refl L⟩

theorem lookup_of_any {m : AList fun _ : String => LoopId} {l : LoopId}
    (h : (m.entries.any fun x => x.2 == l) = true) : ∃ id, m.lookup id = some l := by
  obtain ⟨⟨id, l'⟩, hmem, heq⟩ := List.any_eq_true.mp h
  cases eq_of_beq heq
  exact ⟨id, AList.mem_lookup_iff.mpr hmem⟩

theorem abort_running {p : LoopId → Bool} {l : LoopId} {L : AcceptLoop}
    (h : s.loops l = some L) : (s.abort p).loops l = some L ∨ p l = true := by
  cases hp : p l with
  | true => exact .inr rfl
  | false =>
    refine .inl ?_
    unfold Server.abort
    simp only [hp, Bool.false_eq_true, if_false]
    exact h

theorem dropLoop_running (l' : LoopId) {l : LoopId} {L : AcceptLoop} (h : s.loops l = some L) :
    (s.dropLoop l').loops l = some L ∨ l = l' := by
  rcases eq_or_ne l l' with rfl | hne
  · exact .inr rfl
  · refine .inl ?_
    show Function.update s.loops l' none l = some L
    rw [Function.update_of_ne hne]
    exact h

/-- A running loop goes on, unless its channel is closed, `accept` fails, or a
handler finds its handle and aborts it. -/
theorem running_of_step {e : Event} (hs : Step env s e t) {l : LoopId} {L : AcceptLoop}
    (hlt : l < s.spawned) (h : s.loops l = some L) (hrunning : L.aborted = false) :
    t.loops l = some L ∨ s.channelOpen L.session = false ∨ e = .loop l .acceptFails ∨
      (∃ r request id k arcs, e = .admin r .removeIn ∧
        s.admins r = .running request (.removing id (k :: arcs)) ∧
        (s.listeners k).lookup id = some l) ∨
      ∃ r request k id, e = .admin r .drain ∧ s.admins r = .running request (.draining k) ∧
        (s.listeners k).lookup id = some l := by
  cases hs with
  | task hs => rw [hs.frame]; exact .inl h
  | @loop _ l' _ hs =>
    cases hs with
    | sendClosed hL _ hclosed =>
      rcases dropLoop_running l' h with hkept | rfl
      · exact .inl hkept
      · cases h.symm.trans hL
        exact .inr (.inl hclosed)
    | acceptFails _ _ =>
      rcases dropLoop_running l' h with hkept | rfl
      · exact .inl hkept
      · exact .inr (.inr (.inl rfl))
    | reap hL haborted =>
      rcases dropLoop_running l' h with hkept | rfl
      · exact .inl hkept
      · cases h.symm.trans hL
        rw [hrunning] at haborted
        cases haborted
    | _ => exact .inl h
  | tunnel hs =>
    cases hs with
    | add _ hadd => exact .inl (hadd.survives hlt h)
    | _ => exact .inl h
  | @admin _ r _ hs =>
    cases hs with
    | add _ hadd => exact .inl (hadd.survives hlt h)
    | @removeIn request id k arcs l' hremoving hlookup =>
      rcases abort_running (p := (· == l')) h with hkept | heq
      · exact .inl hkept
      · cases eq_of_beq heq
        exact .inr (.inr (.inr (.inl ⟨r, request, id, k, arcs, rfl, hremoving, hlookup⟩)))
    | @drain request k hdraining =>
      rcases abort_running (p := fun l => (s.listeners k).entries.any fun x => x.2 == l) h with
        hkept | hany
      · exact .inl hkept
      · obtain ⟨id, hlookup⟩ := lookup_of_any hany
        exact .inr (.inr (.inr (.inr ⟨r, request, k, id, rfl, hdraining, hlookup⟩)))
    | _ => exact .inl h

end Loops

end MiniMask.Tunnel
