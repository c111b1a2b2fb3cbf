import MiniMask.Tunnel.Agreement

/-!
# Administration, one request at a time

With requests that do not overlap, the handlers keep the listeners of a client in line
with the store, but for one flag that two of them leave out: `create_mapping` and
`update_mapping` start a listener without asking whether the client is enabled.

* `Permitted`: the requests that do not meet such a client.
* `administered_agree`: in every run of permitted requests, one at a time, the listeners
  are those of the active mappings after each request.
* `listens_while_disabled`: a mapping of a disabled client is enabled, and listens.
-/

namespace MiniMask.Tunnel

open Lts

/-! ## The runs -/

/-- A steady step; a request comes when no other is being handled and the session of `c`
has started its listeners, and an aborted loop is dropped before anything else happens. -/
structure Administered (env : Env) (c : String) (s : Server) (e : Event) (t : Server) : Prop where
  steady : Steady env c s e t
  sequential : Sequential s e
  connected : ∀ r request io, e = .admin r (.submit request io) →
    ∃ info, s.sessions.lookup c = some info ∧ (s.tunnels info.sessionId).hasStarted = true
  abort : ∀ l L, s.loops l = some L → L.aborted = true → e.isReap = true

/-- The client `c`, if it exists, is enabled. -/
def EnabledIn (list : List Client) (c : String) : Prop :=
  ∀ client ∈ list, client.id = c → client.enabled = true

/-- The handler starts the listener of a mapping of `c`, once the request is saved: the
checks of `create_mapping` pass, or the mapping to be enabled is one of `c`. -/
def AdminRequest.StartsFor (env : Env) (clients : ClientStore) (c : String) : AdminRequest → Prop
  | .createMapping clientId name remotePort localAddr _ _ =>
    clientId = c ∧ trim name ≠ "" ∧ remotePort ≠ 0 ∧ env.isSocketAddr localAddr = true ∧
      clients.remotePortTaken remotePort none = false
  | .updateMapping id enabled =>
    enabled = true ∧ ∃ m : PortMapping, m.id = id ∧ m.route c ∈ routes clients.list
  | _ => False

/-- What keeps the listeners of `c` in line with the store:

* a request that starts a mapping of `c` comes while `c` is enabled;
* where a bind for an active mapping fails, the port is held by a loop for that mapping;
* a save fails only if its request does not change which mappings are active. -/
structure Permitted (env : Env) (c : String) (s : Server) (e : Event) : Prop where
  enabled : ∀ r request, e = .admin r (.submit request .done) →
    request.StartsFor env s.clients c → EnabledIn s.clients.list c
  fails : ∀ m info, e.bindFailure = some (c, m, info.sessionId) →
    s.sessions.lookup c = some info → Active s.clients.list c m →
      ∀ l L, s.loops l = some L → L.port = m.remotePort → L.mapping.id = m.id
  saved : ∀ r request io info, e = .admin r (.submit request io) →
    s.sessions.lookup c = some info → io = .done ∨
      ∀ m, Active (handle env s.clients request io).2.list c m ↔ Active s.clients.list c m

/-! ## What is about to be started -/

/-- The invocation has entered the session table and not yet started its listeners. -/
def TunnelTask.onset : TunnelTask → Option Peer
  | .live peer .registered => some peer
  | .live peer .connected => some peer
  | .live peer (.starting _) => some peer
  | _ => none

/-- Whatever is about to be started for `c` is active. -/
structure Intended (c : String) (s : Server) : Prop where
  own : ∀ k peer, (s.tunnels k).onset = some peer → peer.clientId = c →
    ∃ info, s.sessions.lookup c = some info ∧ info.sessionId = k
  client : ∀ k peer st, s.tunnels k = .live peer (.starting st) → st.client = peer.clientId
  awaiting : (∀ info, s.sessions.lookup c = some info →
      (s.tunnels info.sessionId).hasStarted = false) →
    ∀ k peer, (s.tunnels k).awaiting = some peer → peer.clientId = c →
      EnabledIn s.clients.list c
  starter : ∀ st, s.HasStarter st → st.client = c → ∀ m,
    m ∈ st.todo ∨ st.stage.mapping = some m → ActiveId s.clients.list c m.id
  finding : ∀ r request id, s.admins r = .running request (.findMapping id) →
    ∀ m : PortMapping, m.id = id → m.route c ∈ routes s.clients.list →
      ActiveId s.clients.list c m.id
  starting : ∀ r request, s.admins r = .running request (.startClient c) →
    EnabledIn s.clients.list c

section Requests

/-- Ids are distinct, so one enabled client with the id is all of them. -/
theorem enabledIn_of_mem {list : List Client} {c : String} (hids : (list.map (·.id)).Nodup)
    (h : ∃ client ∈ list, client.id = c ∧ client.enabled = true) : EnabledIn list c := by
  obtain ⟨client, hclient, rfl, henabled⟩ := h
  intro client' hclient' hid
  cases List.inj_on_of_nodup_map hids hclient' hclient hid
  exact henabled

variable {env : Env} {clients : ClientStore} {io : AtomicFile.Outcome} {c : String}

/-- The mappings that `start_client_listeners` takes are active if the client is enabled. -/
theorem active_of_todo {m : PortMapping} (henabled : EnabledIn clients.list c)
    (hm : m ∈ (startClientListeners clients c).todo) : Active clients.list c m := by
  unfold startClientListeners at hm
  simp only at hm
  split at hm
  · next client hfind =>
    obtain ⟨hm, hen⟩ := List.mem_filter.mp hm
    have hmem := List.mem_of_find?_eq_some hfind
    have hid : client.id = c := by simpa using List.find?_some hfind
    exact ⟨client, hmem, hid, henabled client hmem hid, hm, hen⟩
  · cases hm

/-- An enabled mapping of an enabled client is active. -/
theorem activeId_setMappingEnabled {m : PortMapping} (henabled : EnabledIn clients.list c)
    (hroute : m.route c ∈ routes clients.list) :
    ActiveId (clients.setMappingEnabled m.id true io).2.list c m.id := by
  obtain ⟨client, hclient, m', hm', hroute⟩ := mem_routes.mp hroute
  have hid : client.id = c := congrArg Route.clientId hroute
  have hmid : m'.id = m.id := congrArg Route.mappingId hroute
  have hany : (client.mappings.any fun m' => m'.id == m.id) = true :=
    List.any_eq_true.mpr ⟨m', hm', beq_iff_eq.mpr hmid⟩
  obtain ⟨pre, first, post, _, hfirst, hupdate⟩ :=
    updateFirst_split (f := fun m : PortMapping => { m with enabled := true }) hany
  rw [ClientStore.setMappingEnabled_list]
  refine ⟨{ first with enabled := true }, ⟨_, List.mem_map_of_mem hclient, hid,
    henabled client hclient hid, ?_, rfl⟩, beq_iff_eq.mp hfirst⟩
  rw [hupdate]
  exact List.mem_append_right _ List.mem_cons_self

/-- The mapping that `create_mapping` adds to an enabled client is active. -/
theorem active_new {new : PortMapping} (henabled : EnabledIn clients.list c)
    (hnew : new.enabled = true) (hany : (clients.list.any fun client => client.id == c) = true) :
    Active (updateFirst (fun client => client.id == c)
      (fun client => { client with mappings := client.mappings ++ [new] }) clients.list) c new := by
  obtain ⟨pre, first, post, hlist, hfirst, hupdate⟩ := updateFirst_split (f := fun client : Client =>
    { client with mappings := client.mappings ++ [new] }) hany
  have hid : first.id = c := beq_iff_eq.mp hfirst
  rw [hupdate]
  refine ⟨_, List.mem_append_right _ List.mem_cons_self, hid, ?_,
    List.mem_append_right _ (List.mem_singleton_self new), hnew⟩
  exact henabled first (hlist ▸ List.mem_append_right _ List.mem_cons_self) hid

/-- A request that goes on to `add_listener` has passed its checks. -/
theorem startsFor_of_adding {request : AdminRequest} {st : Starter} {underRead : Bool}
    (h : (handle env clients request io).1 = .go (.adding st underRead)) :
    request.StartsFor env clients st.client := by
  obtain ⟨clientId, name, remotePort, localAddr, id, now, rfl, rfl, _⟩ := handle_adding h
  rcases handle_createMapping env clients clientId name remotePort localAddr id now io with
    heq | ⟨⟨hname, hport, haddr⟩, heq⟩
  · rw [heq] at h
    cases h
  rw [heq] at h
  refine ⟨rfl, hname, hport, haddr, ?_⟩
  cases htaken : clients.remotePortTaken remotePort none with
  | false => rfl
  | true => simp [ClientStore.addMapping, htaken, Next.ofMapping] at h

end Requests

section Intended

variable {env : Env} {s t : Server} {e : Event} {c : String}

theorem intended_init (h : Init s) : Intended c s := by
  have hnone := h.no_starter
  obtain ⟨clients, _, rfl⟩ := h
  exact ⟨nofun, nofun, fun _ => nofun, fun st hst => absurd hst (hnone st), nofun, nofun⟩

/-- An invocation that has started its listeners has started them. -/
theorem hasStarted_step {k : SessionId} (hs : Step env s e t)
    (h : (s.tunnels k).hasStarted = true) : (t.tunnels k).hasStarted = true := by
  rcases tunnel_of_step hs k with hsame | ⟨e', rfl, hs'⟩
  · rw [hsame]
    exact h
  · cases hs' with
    | add hlive _ => rw [hlive] at h; cases h
    | recv _ _ _ => simp only [Server.setTunnel, Function.update_self]; rfl
    | openOk _ _ => simp only [Server.setTunnel, Function.update_self]; rfl
    | openFails _ _ => simp only [Server.setTunnel, Function.update_self]; rfl
    | sessionEnds _ => simp only [Server.setTunnel, Function.update_self]; rfl
    | cleanup _ => simp only [Server.setTunnel, Function.update_self]; rfl
    | returns _ => simp only [Server.exit, Function.update_self]; rfl
    | _ => simp_all [TunnelTask.hasStarted, TunnelTask.hasSnapshot]

/-- An invocation that is to start its listeners is the session of its client. -/
theorem Intended.own_step (h : Intended c s) (hs : Administered env c s e t) {k : SessionId}
    {peer : Peer} (honset : (t.tunnels k).onset = some peer) (hclient : peer.clientId = c) :
    ∃ info, t.sessions.lookup c = some info ∧ info.sessionId = k := by
  have hold : (s.tunnels k).onset = some peer →
      ∃ info, t.sessions.lookup c = some info ∧ info.sessionId = k := by
    intro honset
    obtain ⟨info, hlookup, hid⟩ := h.own k peer honset hclient
    exact ⟨info, (hs.steady.session info hlookup).1, hid⟩
  rcases tunnel_of_step hs.steady.step k with hsame | ⟨e', rfl, hs'⟩
  · exact hold (hsame ▸ honset)
  · cases hs' with
    | admitted _ _ =>
      simp only [Server.setTunnel, Function.update_self] at honset
      cases honset
      refine ⟨{ clientId := peer.clientId, sessionId := k, remoteAddr := peer.remoteAddr }, ?_, rfl⟩
      rw [← hclient]
      exact AList.lookup_insert _
    | statusOk hlive =>
      simp only [Server.setTunnel, Function.update_self] at honset
      exact hold (by rw [hlive]; exact honset)
    | startListeners hlive =>
      simp only [Server.setTunnel, Function.update_self] at honset
      exact hold (by rw [hlive]; exact honset)
    | add hlive _ =>
      simp only [Server.setTunnel, Function.update_self] at honset
      exact hold (by rw [hlive]; exact honset)
    | _ => simp [Server.setTunnel, Server.exit, TunnelTask.onset] at honset

theorem Intended.client_step (h : Intended c s) (hs : Step env s e t) {k : SessionId}
    {peer : Peer} {st' : Starter} (hstarting : t.tunnels k = .live peer (.starting st')) :
    st'.client = peer.clientId := by
  rcases tunnel_of_step hs k with hsame | ⟨e', rfl, hs'⟩
  · exact h.client k peer st' (hsame ▸ hstarting)
  · rcases hs'.starting hstarting with ⟨_, rfl⟩ | ⟨st, a, s', hst, _, hadd, _⟩
    · rfl
    · exact hadd.keeps.1.trans (h.client k peer st hst)

/-- A request comes when nothing of `c` is about to be started. -/
theorem Intended.no_starter (h : Intended c s) (hs : Administered env c s e t) {r : RequestId}
    {request : AdminRequest} {io : AtomicFile.Outcome} (heq : e = .admin r (.submit request io))
    {st : Starter} (hclient : st.client = c) : ¬ s.HasStarter st := by
  rintro (⟨k, peer, hstarting⟩ | ⟨r', request', underRead, hadding⟩)
  · obtain ⟨info, hlookup, hstarted⟩ := hs.connected r request io heq
    have hpeer := (h.client k peer st hstarting).symm.trans hclient
    obtain ⟨info', hentry, rfl⟩ := h.own k peer (by rw [hstarting]; rfl) hpeer
    cases hlookup.symm.trans hentry
    rw [hstarting] at hstarted
    cases hstarted
  · have hidle := hs.sequential r request io heq r'
    rw [hadding] at hidle
    cases hidle

/-- A client stays enabled while a handshake of it goes on that is not its session's. -/
theorem Intended.awaiting_step (h : Intended c s) (hr : Reachable (Step env) Init s)
    (hs : Administered env c s e t)
    (hnone : ∀ info, t.sessions.lookup c = some info →
      (t.tunnels info.sessionId).hasStarted = false)
    {k : SessionId} {peer : Peer} (hawaiting : (t.tunnels k).awaiting = some peer)
    (hclient : peer.clientId = c) : EnabledIn t.clients.list c := by
  have hstep := hs.steady.step
  have hyet : ∀ info, s.sessions.lookup c = some info →
      (s.tunnels info.sessionId).hasStarted = false := by
    intro info hlookup
    rw [← Bool.not_eq_true]
    intro hstarted
    have hstarted' := hasStarted_step hstep hstarted
    rw [hnone info (hs.steady.session info hlookup).1] at hstarted'
    cases hstarted'
  rcases clients_of_step hstep with ⟨_, hclients⟩ | ⟨r, request, io, heq, _⟩
  · rw [hclients]
    rcases tunnel_of_step hstep k with hsame | ⟨e', rfl, hs'⟩
    · exact h.awaiting hyet k peer (hsame ▸ hawaiting) hclient
    · cases hs' with
      | verified _ hverify =>
        simp only [Server.setTunnel, Function.update_self] at hawaiting
        cases hawaiting
        cases hclient
        obtain ⟨_, client, hmem, hid, hon, _⟩ := ClientStore.verifyToken_client hverify
        exact enabledIn_of_mem (ledger_reachable hr).ids_nodup ⟨client, hmem, hid, hon⟩
      | admitted hlive _ =>
        simp only [Server.setTunnel, Function.update_self] at hawaiting
        exact h.awaiting hyet k peer (by rw [hlive]; exact hawaiting) hclient
      | statusOk hlive =>
        simp only [Server.setTunnel, Function.update_self] at hawaiting
        exact h.awaiting hyet k peer (by rw [hlive]; exact hawaiting) hclient
      | _ => simp [Server.setTunnel, Server.exit, TunnelTask.awaiting] at hawaiting
  · -- requests come once the session has started
    obtain ⟨info, hlookup, hstarted⟩ := hs.connected r request io heq
    rw [hyet info hlookup] at hstarted
    cases hstarted

/-- A session reads its mappings while its client is enabled. -/
theorem Intended.enabled_of_connected (h : Intended c s) {k : SessionId} {peer : Peer}
    (hconnected : s.tunnels k = .live peer .connected) (hclient : peer.clientId = c) :
    EnabledIn s.clients.list c := by
  refine h.awaiting (fun info hlookup => ?_) k peer (by rw [hconnected]; rfl) hclient
  obtain ⟨info', hentry, hid⟩ := h.own k peer (by rw [hconnected]; rfl) hclient
  cases hlookup.symm.trans hentry
  rw [hid, hconnected]
  rfl

/-- Where the store stays as it is, the next calls of `add_listener` are for active
mappings too. -/
theorem Intended.starter_keep (h : Intended c s) (hs : Step env s e t)
    (hnot : ∀ r request io, e ≠ .admin r (.submit request io)) {st' : Starter}
    (hst' : t.HasStarter st') (hclient : st'.client = c) {m : PortMapping}
    (hm : m ∈ st'.todo ∨ st'.stage.mapping = some m) : ActiveId s.clients.list c m.id := by
  have hadded : ∀ {st a s'}, s.HasStarter st → AddStep s st a s' st' →
      ActiveId s.clients.list c m.id := by
    intro st a s' hst hadd
    obtain ⟨hsame, hmappings, _⟩ := hadd.keeps
    exact h.starter st hst (hsame.symm.trans hclient) m (hmappings m hm)
  rcases hst' with ⟨k, peer, hstarting⟩ | ⟨r, request, underRead, hadding⟩
  · rcases tunnel_of_step hs k with hsame | ⟨e', rfl, hs'⟩
    · exact h.starter st' (.inl ⟨k, peer, hsame ▸ hstarting⟩) hclient m hm
    · rcases hs'.starting hstarting with ⟨hconnected, rfl⟩ | ⟨st, a, s', hst, _, hadd, _⟩
      · cases hclient
        exact ⟨m, active_of_todo (h.enabled_of_connected hconnected rfl) (hm.resolve_right nofun),
          rfl⟩
      · exact hadded (.inl ⟨k, peer, hst⟩) hadd
  · rcases admin_of_step hs r with hsame | ⟨e', rfl, hs'⟩
    · exact h.starter st' (.inr ⟨r, request, underRead, hsame ▸ hadding⟩) hclient m hm
    · rcases hs'.adding hadding with ⟨io, rfl, _⟩ | ⟨id, m', hfind, _, hfound, heq, _⟩ |
        ⟨id, hstart, rfl, _⟩ | ⟨st, a, s', hst, _, hadd, _⟩
      · exact absurd rfl (hnot r request io)
      · rw [heq] at hm
        cases List.mem_singleton.mp (hm.resolve_right nofun)
        obtain ⟨hroute, hid⟩ := findMapping_mem hfound
        rw [hclient] at hroute
        exact h.finding r request id hfind m hid hroute
      · cases hclient
        exact ⟨m, active_of_todo (h.starting r request hstart) (hm.resolve_right nofun), rfl⟩
      · exact hadded (.inr ⟨r, request, underRead, hst⟩) hadd

/-- What a permitted request goes on to start is active in the store it leaves. -/
theorem Permitted.starts {r : RequestId} {request : AdminRequest} {io : AtomicFile.Outcome}
    (hok : Permitted env c s (.admin r (.submit request io))) (hr : Reachable (Step env) Init s)
    {stage : AdminStage} (hgo : (handle env s.clients request io).1 = .go stage) :
    (∀ st underRead, stage = .adding st underRead → st.client = c → ∀ m,
      m ∈ st.todo ∨ st.stage.mapping = some m →
        ActiveId (handle env s.clients request io).2.list c m.id) ∧
    (∀ id, stage = .findMapping id → ∀ m : PortMapping, m.id = id →
      m.route c ∈ routes (handle env s.clients request io).2.list →
        ActiveId (handle env s.clients request io).2.list c m.id) ∧
    (stage = .startClient c → EnabledIn (handle env s.clients request io).2.list c) := by
  obtain ⟨rfl, hgoes⟩ := handle_go hgo
  refine ⟨?_, ?_, ?_⟩
  · rintro st underRead rfl hclient m hm
    have hstarts := startsFor_of_adding hgo
    rw [hclient] at hstarts
    have henabled := hok.enabled r request rfl hstarts
    obtain ⟨_, name, remotePort, localAddr, id, now, rfl, rfl, hany, hlist⟩ := handle_adding hgo
    cases hclient
    cases List.mem_singleton.mp (hm.resolve_right nofun)
    rw [hlist]
    exact ⟨_, active_new henabled rfl hany, rfl⟩
  · rintro id rfl m rfl hroute
    cases hgoes
    have hroute : m.route c ∈ routes (s.clients.setMappingEnabled m.id true .done).2.list := hroute
    rw [s.clients.routes_setMappingEnabled .done m.id true] at hroute
    exact activeId_setMappingEnabled (hok.enabled r _ rfl ⟨rfl, m, rfl, hroute⟩) hroute
  · rintro rfl client hclient hid
    cases hgoes
    have hclient : client ∈ (s.clients.setClientEnabled c true .done).2.list := hclient
    rw [ClientStore.setClientEnabled_list] at hclient
    obtain ⟨_, _, rfl⟩ := mem_updateFirst_key (ledger_reachable hr).ids_nodup hclient hid
    rfl

theorem intended_step (h : Intended c s) (hr : Reachable (Step env) Init s)
    (hs : Administered env c s e t) (hok : Permitted env c s e) : Intended c t := by
  have hstep := hs.steady.step
  refine ⟨fun k peer => h.own_step hs, fun k peer st => h.client_step hstep,
    fun hnone k peer => h.awaiting_step hr hs hnone, ?_, ?_, ?_⟩
  · intro st hst hclient m hm
    rcases clients_of_step hstep with ⟨hnot, hclients⟩ | ⟨r, request, io, rfl, _, _, rfl⟩
    · rw [hclients]
      exact h.starter_keep hstep hnot hst hclient hm
    · rcases hst with hstarting | ⟨r', request', underRead, hadding⟩
      · exact absurd (.inl hstarting) (h.no_starter hs rfl hclient)
      · obtain ⟨_, _, hgo⟩ := hs.sequential.running hadding
        exact (hok.starts hr hgo).1 st underRead rfl hclient m hm
  · intro r' request' id hfind m hid hroute
    rcases clients_of_step hstep with ⟨hnot, hclients⟩ | ⟨r, request, io, rfl, _, _, rfl⟩
    · rw [hclients] at hroute ⊢
      exact h.finding r' request' id (looking_of_step hstep hnot (.inl rfl) hfind) m hid hroute
    · obtain ⟨_, _, hgo⟩ := hs.sequential.running hfind
      exact (hok.starts hr hgo).2.1 id rfl m hid hroute
  · intro r' request' hstart
    rcases clients_of_step hstep with ⟨hnot, hclients⟩ | ⟨r, request, io, rfl, _, _, rfl⟩
    · rw [hclients]
      exact h.starting r' request' (looking_of_step hstep hnot (.inr rfl) hstart)
    · obtain ⟨_, _, hgo⟩ := hs.sequential.running hstart
      exact (hok.starts hr hgo).2.2 rfl

/-- With one request at a time, nothing comes between the store and the listeners. -/
theorem Permitted.undisturbed (hok : Permitted env c s e) (h : Intended c s) (hcleared : Cleared s)
    (hs : Administered env c s e t) : Undisturbed env c s e where
  binds st m k hadds hclient hfound :=
    h.starter st hadds.hasStarter hclient m (.inr (by rw [hfound]; rfl))
  fails m info hfails hlookup hactive l L hL hport := by
    refine ⟨?_, hok.fails m info hfails hlookup hactive l L hL hport⟩
    rw [← Bool.not_eq_true]
    intro haborted
    have hreap := hs.abort l L hL haborted
    unfold Event.isReap at hreap
    split at hreap
    · cases hfails
    · cases hreap
  stops m hactive := hcleared.spares hactive
  unstored r request io heq _ st m k l hst hclient _ :=
    absurd hst (h.no_starter hs heq hclient)
  saved := hok.saved

end Intended

/-! ## Runs of the example server -/

theorem administered_of_isQuiet {env : Env} {c : String} {s t : Server} {e : Event}
    (hs : Steady env c s e t) (hquiet : e.isQuiet = true)
    (hrunning : ∀ l L, s.loops l = some L → L.aborted = false) : Administered env c s e t where
  steady := hs
  sequential r request io heq := by rw [heq] at hquiet; cases hquiet
  connected r request io heq := by rw [heq] at hquiet; cases hquiet
  abort l L hL haborted := by rw [hrunning l L hL] at haborted; cases haborted

theorem permitted_of_isQuiet {env : Env} {c : String} {s : Server} {e : Event}
    (hquiet : e.isQuiet = true) : Permitted env c s e where
  enabled r request heq := by rw [heq] at hquiet; cases hquiet
  fails m info heq := by rw [e.bindFailure_of_isQuiet hquiet] at heq; cases heq
  saved r request io info heq := by rw [heq] at hquiet; cases hquiet

/-- A run of permitted requests of the example server reaches `s`. -/
def Overseen (s : Server) : Prop :=
  ∃ tr, Run (Administered exampleEnv "cli_home") (Server.init exampleStore) tr s ∧
    ∀ x ∈ tr, Permitted exampleEnv "cli_home" x.1 x.2.1

theorem Overseen.snoc {s t : Server} {e : Event} (h : Overseen s)
    (hs : Administered exampleEnv "cli_home" s e t) (hok : Permitted exampleEnv "cli_home" s e) :
    Overseen t := by
  obtain ⟨tr, hrun, hall⟩ := h
  exact ⟨_, hrun.snoc hs, List.forall_mem_append.mpr ⟨hall, List.forall_mem_singleton.mpr hok⟩⟩

theorem Overseen.quiet {s t : Server} {e : Event} (h : Overseen s) (hs : Step exampleEnv s e t)
    (hquiet : e.isQuiet = true)
    (hsession : ∀ info, s.sessions.lookup "cli_home" = some info →
      t.sessions.lookup "cli_home" = some info ∧
        (t.tunnels info.sessionId).isReturned = false)
    (hrunning : ∀ l L, s.loops l = some L → L.aborted = false) : Overseen t :=
  h.snoc (administered_of_isQuiet (steady_of_isQuiet hs hquiet hsession) hquiet hrunning)
    (permitted_of_isQuiet hquiet)

theorem overseen_serving : Overseen exampleServing := by
  have serving := steady_serving
    (p := fun s => Overseen s ∧ ∀ l L, s.loops l = some L → L.aborted = false)
    ⟨⟨_, .nil, fun _ hx => nomatch hx⟩, nofun⟩
    (fun ⟨h, hrunning⟩ hs hplain hrunning' => ⟨h.snoc
      (administered_of_isQuiet hs (Event.isQuiet_of_isPlain hplain) hrunning)
      (permitted_of_isQuiet (Event.isQuiet_of_isPlain hplain)), hrunning'⟩)
    fun ⟨h, hrunning⟩ hs hrunning' => ⟨h.snoc (administered_of_isQuiet hs rfl hrunning)
      (permitted_of_isQuiet rfl), hrunning'⟩
  exact serving.1

/-- The client of the example was disabled while it was connected, and its loop is
dropped. -/
def exampleDisabled : Server :=
  let request := AdminRequest.updateClient "cli_home" false
  let stopping := (exampleServing.setClients
    (handle exampleEnv exampleServing.clients request .done).2).setAdmin 0
      (.running request (.removeClient "cli_home"))
  (((stopping.setAdmin 0 (.running request (.draining 0))).drainListeners 0).setAdmin 0
    (.done request .ok)).dropLoop 0

theorem exampleDisabled_loops (l : LoopId) : exampleDisabled.loops l = none := by
  rcases eq_or_ne l 0 with rfl | hne
  · rfl
  · have hnone : exampleServing.loops l = none :=
      Option.eq_none_iff_forall_ne_some.mpr fun L hL => hne (example_loop rfl hL).1
    simp only [exampleDisabled, Server.dropLoop, Function.update_of_ne hne, Server.setAdmin,
      Server.drainListeners, Server.abort, Server.setClients, hnone]
    split <;> rfl

theorem exampleDisabled_admins {r : RequestId} (hne : r ≠ 0) :
    exampleDisabled.admins r = .idle := by
  simp only [exampleDisabled, Server.dropLoop, Server.setAdmin, Server.drainListeners,
    Server.abort, Server.setClients, Function.update_of_ne hne]
  rfl

theorem exampleDisabled_idle (r : RequestId) : (exampleDisabled.admins r).isRunning = false := by
  rcases eq_or_ne r 0 with rfl | hne
  · rfl
  · rw [exampleDisabled_admins hne]
    rfl

theorem exampleDisabled_lock : exampleDisabled.WriteLockFree := by
  intro r request st heq
  have hidle := exampleDisabled_idle r
  rw [heq] at hidle
  cases hidle

theorem overseen_disabled : Overseen exampleDisabled := by
  have submitted := overseen_serving.snoc
    (e := .admin 0 (.submit (.updateClient "cli_home" false) .done))
    ⟨⟨.admin (@AdminStep.submit _ 0 _ (.updateClient "cli_home" false) .done rfl
      serving_lock trivial), session_stays rfl rfl rfl, nofun, nofun⟩,
      fun _ _ _ _ _ => rfl, fun _ _ _ _ => ⟨_, rfl, rfl⟩, fun l L hL haborted => by
        rw [example_running rfl l L hL] at haborted; cases haborted⟩
    ⟨fun _ _ heq hstarts => (by cases heq; cases hstarts), nofun,
      fun _ _ _ _ heq _ => .inl (by cases heq; rfl)⟩
  have found := submitted.quiet (.admin (.findSession (r := 0) rfl rfl)) rfl
    (session_stays rfl rfl rfl) (example_running rfl)
  have drained := found.quiet (.admin (.drain (r := 0) rfl)) rfl
    (session_stays rfl rfl rfl) (example_running rfl)
  exact drained.snoc ⟨steady_of_isQuiet (.loop (.reap (l := 0) rfl rfl)) rfl
    (session_stays rfl rfl rfl), nofun, nofun, fun _ _ _ _ => rfl⟩ (permitted_of_isQuiet rfl)

/-! ## Whole runs -/

/-- In every run of permitted requests, one at a time and while one session of `c` stays
connected, the mappings of `c` with a running accept loop are the active ones after each
request. -/
theorem administered_agree {env : Env} {c : String} {s₀ s : Server}
    {tr : List (Server × Event × Server)} (h₀ : Init s₀) (hrun : Run (Administered env c) s₀ tr s)
    (hok : ∀ x ∈ tr, Permitted env c x.1 x.2.1) :
    ∀ x ∈ tr, Settled c x.2.2 → Agree c x.2.2 := by
  have hkeep : ∀ s e t, Agreeing env c s ∧ Intended c s ∧ Cleared s →
      Guarded (Administered env c) (Permitted env c) s e t →
        Agreeing env c t ∧ Intended c t ∧ Cleared t := by
    rintro s e t ⟨hagreeing, hintended, hcleared⟩ ⟨hs, hok⟩
    exact ⟨agreeing_step hagreeing hs.steady (hok.undisturbed hintended hcleared hs),
      intended_step hintended hagreeing.reachable hs hok,
      cleared_step hagreeing.reachable hcleared hs.steady.step hs.sequential⟩
  have hgood := (hrun.guarded hok).forall_states hkeep
    ⟨agreeing_init h₀, intended_init h₀, (promised_init h₀).1⟩
  exact fun x hx => (hgood x hx).1.agree

theorem exampleDisabled_running :
    ∀ l L, exampleDisabled.loops l = some L → L.aborted = false := fun l L hL => by
  cases (exampleDisabled_loops l).symm.trans hL

/-- The loop that a request after it binds is the only one. -/
theorem exampleDisabled_bound :
    ∀ l L, Function.update exampleDisabled.loops 1 (some exampleLoop) l = some L →
      L.aborted = false := by
  intro l L hL
  rcases eq_or_ne l 1 with rfl | hne
  · cases hL
    rfl
  · rw [Function.update_of_ne hne] at hL
    exact exampleDisabled_running l L hL

/-- The client is disabled and enabled again: its mapping is bound anew. -/
theorem administered_agree_reenabled :
    ∃ tr s, Run (Administered exampleEnv "cli_home") (Server.init exampleStore) tr s ∧
      s.admins 0 = .done (.updateClient "cli_home" false) .ok ∧
      s.admins 1 = .done (.updateClient "cli_home" true) .ok ∧ Settled "cli_home" s ∧
      ∀ x ∈ tr, Settled "cli_home" x.2.2 → Agree "cli_home" x.2.2 := by
  have submitted := overseen_disabled.snoc
    (e := .admin 1 (.submit (.updateClient "cli_home" true) .done))
    ⟨⟨.admin (@AdminStep.submit _ 1 _ (.updateClient "cli_home" true) .done rfl
      exampleDisabled_lock trivial), session_stays rfl rfl rfl, nofun, nofun⟩,
      fun _ _ _ _ => exampleDisabled_idle, fun _ _ _ _ => ⟨_, rfl, rfl⟩, fun l L hL haborted => by
        rw [exampleDisabled_running l L hL] at haborted; cases haborted⟩
    ⟨fun _ _ heq hstarts => (by cases heq; cases hstarts), nofun,
      fun _ _ _ _ heq _ => .inl (by cases heq; rfl)⟩
  have starting := submitted.quiet (.admin (.startClient (r := 1) rfl)) rfl
    (session_stays rfl rfl rfl) exampleDisabled_running
  have found := starting.quiet (.admin (.add (r := 1) rfl
    (@AddStep.found _ _ exampleMapping [] ⟨"cli_home", 0, "198.51.100.7:5000"⟩ rfl rfl rfl))) rfl
    (session_stays rfl rfl rfl) exampleDisabled_running
  have bound := found.quiet (.admin (.add (r := 1) rfl (.bound rfl fun l L hL => by
    cases (exampleDisabled_loops l).symm.trans hL))) rfl (session_stays rfl rfl rfl) exampleDisabled_running
  have stored := bound.quiet (.admin (.add (r := 1) rfl (.stored rfl))) rfl
    (session_stays rfl rfl rfl) exampleDisabled_bound
  have answered := stored.quiet (.admin (.added (r := 1) rfl rfl rfl)) rfl
    (session_stays rfl rfl rfl) exampleDisabled_bound
  obtain ⟨tr, hrun, hok⟩ := answered
  refine ⟨tr, _, hrun, rfl, rfl, ⟨fun r => ?_, _, rfl, rfl⟩,
    administered_agree init_example hrun hok⟩
  rcases eq_or_ne r 1 with rfl | hne
  · rfl
  · simp only [Server.setAdmin, Server.storeHandle, Server.spawn, Server.setClients,
      Function.update_of_ne hne]
    exact exampleDisabled_idle r

/-- The mapping of a disabled client is enabled: its port is bound, and it listens. -/
theorem listens_while_disabled :
    ∃ tr s, Run (Administered exampleEnv "cli_home") (Server.init exampleStore) tr s ∧
      s.admins 0 = .done (.updateClient "cli_home" false) .ok ∧
      s.admins 1 = .done (.updateMapping "map_web" true) .ok ∧
      (∀ r, r ≠ 0 → r ≠ 1 → s.admins r = .idle) ∧ Settled "cli_home" s ∧
      s.Listens "cli_home" "map_web" ∧ (∀ m, ¬ Active s.clients.list "cli_home" m) ∧
      ¬ Agree "cli_home" s := by
  obtain ⟨tr, disabled, _⟩ := overseen_disabled
  have submitted := disabled.snoc (e := .admin 1 (.submit (.updateMapping "map_web" true) .done))
    ⟨⟨.admin (@AdminStep.submit _ 1 _ (.updateMapping "map_web" true) .done rfl
      exampleDisabled_lock trivial), session_stays rfl rfl rfl, nofun, nofun⟩,
      fun _ _ _ _ => exampleDisabled_idle, fun _ _ _ _ => ⟨_, rfl, rfl⟩, fun l L hL haborted => by
        rw [exampleDisabled_running l L hL] at haborted; cases haborted⟩
  have adding := submitted.snoc (administered_of_isQuiet (steady_of_isQuiet
    (.admin (.findMapping (r := 1) rfl)) rfl (session_stays rfl rfl rfl)) rfl
    exampleDisabled_running)
  have found := adding.snoc (administered_of_isQuiet (steady_of_isQuiet (.admin (.add (r := 1) rfl
    (@AddStep.found _ _ exampleMapping [] ⟨"cli_home", 0, "198.51.100.7:5000"⟩ rfl rfl rfl))) rfl
    (session_stays rfl rfl rfl)) rfl exampleDisabled_running)
  have bound := found.snoc (administered_of_isQuiet (steady_of_isQuiet (.admin (.add (r := 1) rfl
    (.bound rfl fun l L hL => by cases (exampleDisabled_loops l).symm.trans hL))) rfl
    (session_stays rfl rfl rfl)) rfl exampleDisabled_running)
  have stored := bound.snoc (administered_of_isQuiet (steady_of_isQuiet
    (.admin (.add (r := 1) rfl (.stored rfl))) rfl (session_stays rfl rfl rfl)) rfl
    exampleDisabled_bound)
  have answered := stored.snoc (administered_of_isQuiet (steady_of_isQuiet
    (.admin (.added (r := 1) rfl rfl rfl)) rfl (session_stays rfl rfl rfl)) rfl
    exampleDisabled_bound)
  have hinactive : ∀ m, ¬ Active [{ exampleClient with enabled := false }] "cli_home" m := by
    rintro m ⟨client, hclient, _, henabled, _⟩
    cases List.mem_singleton.mp hclient
    cases henabled
  have hlistens : ∀ s : Server, s.loops 1 = some exampleLoop → s.Listens "cli_home" "map_web" :=
    fun s hL => ⟨1, exampleLoop, hL, rfl, rfl, rfl⟩
  refine ⟨_, _, answered, rfl, rfl, fun r h0 h1 => ?_, ⟨fun r => ?_, _, rfl, rfl⟩, hlistens _ rfl,
    hinactive, fun hagree => ?_⟩
  · simp only [Server.setAdmin, Server.storeHandle, Server.spawn, Server.setClients,
      Function.update_of_ne h1]
    exact exampleDisabled_admins h0
  · rcases eq_or_ne r 1 with rfl | hne
    · rfl
    · simp only [Server.setAdmin, Server.storeHandle, Server.spawn, Server.setClients,
        Function.update_of_ne hne]
      exact exampleDisabled_idle r
  · obtain ⟨m, hactive, _⟩ := (hagree "map_web").mp (hlistens _ rfl)
    exact hinactive m hactive

end MiniMask.Tunnel
