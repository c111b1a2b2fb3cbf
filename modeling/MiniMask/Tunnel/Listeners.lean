import MiniMask.Tunnel.Sessions

/-!
# The accept loops and whom they serve

* `Ledger`: the store has distinct ids, and every mapping in it is on record.
* `Listening`: every accept loop has the port and address of a mapping on record
  and the channel of a session authenticated as the owner of that mapping; what
  the loops of `add_listener` calls are about to start agrees with it.

Both hold in every reachable state.
-/

namespace MiniMask.Tunnel

open Lts

/-! ## The store -/

/-- The ids in the store are distinct and on record. -/
structure Ledger (s : Server) : Prop where
  routes_issued : ∀ route ∈ routes s.clients.list, route ∈ s.issued
  issued_nodup : (s.issued.map (·.mappingId)).Nodup
  routes_nodup : ((routes s.clients.list).map (·.mappingId)).Nodup
  ids_issued : ∀ id ∈ s.clients.list.map (·.id), id ∈ s.issuedClients
  ids_nodup : (s.clients.list.map (·.id)).Nodup

section Ledger

variable {env : Env} {s t : Server}

/-- A mapping on record has one owner, port and address. -/
theorem Ledger.route_eq (h : Ledger s) {route route' : Route} (hr : route ∈ s.issued)
    (hr' : route' ∈ s.issued) (hid : route.mappingId = route'.mappingId) : route = route' :=
  List.inj_on_of_nodup_map h.issued_nodup hr hr' hid

theorem ledger_init (h : Init s) : Ledger s := by
  obtain ⟨clients, ⟨hids, hroutes⟩, rfl⟩ := h
  exact ⟨fun _ h => h, hroutes, hroutes, fun _ h => h, hids⟩

/-- A new store whose routes were there or have one new id is well kept. -/
theorem ledger_setClients (h : Ledger s) {clients : ClientStore}
    (hroutes : (routes clients.list).Sublist (routes s.clients.list) ∨
      ∃ route : Route, (∀ route' ∈ s.issued, route'.mappingId ≠ route.mappingId) ∧
        (routes clients.list).Perm (route :: routes s.clients.list))
    (hids : (clients.list.map (·.id)).Sublist (s.clients.list.map (·.id)) ∨
      ∃ id, id ∉ s.issuedClients ∧
        clients.list.map (·.id) = s.clients.list.map (·.id) ++ [id]) :
    Ledger (s.setClients clients) := by
  have hnew : ∀ route ∈ routes clients.list, route ∉ s.issued →
      ∀ route' ∈ s.issued, route'.mappingId ≠ route.mappingId := by
    intro route hmem hnot
    rcases hroutes with hsub | ⟨route₀, hfresh, hperm⟩
    · exact absurd (h.routes_issued route (hsub.subset hmem)) hnot
    · rcases List.mem_cons.mp (hperm.subset hmem) with rfl | hold
      · exact hfresh
      · exact absurd (h.routes_issued route hold) hnot
  have hnodup : ((routes clients.list).map (·.mappingId)).Nodup := by
    rcases hroutes with hsub | ⟨route₀, hfresh, hperm⟩
    · exact h.routes_nodup.sublist (hsub.map _)
    · refine (hperm.map _).nodup_iff.mpr (List.nodup_cons.mpr ⟨fun hmem => ?_, h.routes_nodup⟩)
      obtain ⟨route, hroute, hid⟩ := List.mem_map.mp hmem
      exact hfresh route (h.routes_issued route hroute) hid
  refine ⟨fun route hmem => ?_, ?_, hnodup, fun id hmem => ?_, ?_⟩
  · by_cases hin : route ∈ s.issued
    · exact List.mem_append_left _ hin
    · exact List.mem_append_right _ (List.mem_filter.mpr ⟨hmem, by simpa using hin⟩)
  · show ((s.issued ++ (routes clients.list).filter _).map _).Nodup
    rw [List.map_append]
    refine List.nodup_append.mpr
      ⟨h.issued_nodup, hnodup.sublist (List.filter_sublist.map _), fun id hid id' hid' heq => ?_⟩
    obtain ⟨route', hroute', rfl⟩ := List.mem_map.mp hid
    obtain ⟨route, hroute, rfl⟩ := List.mem_map.mp hid'
    obtain ⟨hmem, hnot⟩ := List.mem_filter.mp hroute
    exact hnew route hmem (by simpa using hnot) route' hroute' heq
  · by_cases hin : id ∈ s.issuedClients
    · exact List.mem_append_left _ hin
    · exact List.mem_append_right _ (List.mem_filter.mpr ⟨hmem, by simpa using hin⟩)
  · rcases hids with hsub | ⟨id, hfresh, heq⟩
    · exact h.ids_nodup.sublist hsub
    · show (clients.list.map (·.id)).Nodup
      rw [heq]
      refine List.nodup_append.mpr
        ⟨h.ids_nodup, List.nodup_singleton id, fun id' hid' id'' hid'' => ?_⟩
      cases List.mem_singleton.mp hid''
      exact fun heq => hfresh (heq ▸ h.ids_issued id' hid')

theorem ledger_step {e : Event} (h : Ledger s) (hs : Step env s e t) : Ledger t := by
  cases hs with
  | loop hs => rw [hs.frame]; exact ⟨h.1, h.2, h.3, h.4, h.5⟩
  | task hs => rw [hs.frame]; exact ⟨h.1, h.2, h.3, h.4, h.5⟩
  | tunnel hs =>
    obtain ⟨_, hclients, hissued, hissuedClients⟩ := hs.admins
    constructor
    · rw [hclients, hissued]; exact h.routes_issued
    · rw [hissued]; exact h.issued_nodup
    · rw [hclients]; exact h.routes_nodup
    · rw [hclients, hissuedClients]; exact h.ids_issued
    · rw [hclients]; exact h.ids_nodup
  | @admin _ r _ hs =>
    cases hs with
    | @submit request io _ _ hfresh =>
      have hledger : Ledger (s.setClients (handle env s.clients request io).2) := by
        refine ledger_setClients h ?_ ?_
        · rcases routes_handle env s.clients request io with hsub |
            ⟨clientId, name, remotePort, localAddr, id, now, rfl, hperm⟩
          · exact .inl hsub
          · exact .inr ⟨{ clientId, mappingId := id, remotePort, localAddr }, hfresh, hperm⟩
        · rcases ids_handle env s.clients request io with hsub | ⟨name, token, id, now, rfl, heq⟩
          · exact .inl hsub
          · exact .inr ⟨id, hfresh, heq⟩
      exact ⟨hledger.1, hledger.2, hledger.3, hledger.4, hledger.5⟩
    | add _ hadd => rw [hadd.frame]; exact ⟨h.1, h.2, h.3, h.4, h.5⟩
    | _ => exact ⟨h.1, h.2, h.3, h.4, h.5⟩

theorem ledger_reachable (h : Reachable (Step env) Init s) : Ledger s :=
  h.invariant (fun _ h => ledger_init h) fun _ _ _ h hs => ledger_step h hs

/-- What was on record stays on record. -/
theorem issued_step {e : Event} (hs : Step env s e t) {route : Route} (h : route ∈ s.issued) :
    route ∈ t.issued := by
  cases hs with
  | loop hs => rw [hs.frame]; exact h
  | task hs => rw [hs.frame]; exact h
  | tunnel hs => rw [hs.admins.2.2.1]; exact h
  | admin hs =>
    cases hs with
    | submit _ _ _ => exact List.mem_append_left _ h
    | add _ hadd => rw [hadd.frame]; exact h
    | _ => exact h

end Ledger

/-! ## Accept loops and starters -/

/-- The session that `add_listener` has found. -/
def AddStage.session : AddStage → Option SessionId
  | .idle => none
  | .found _ k => some k
  | .bound _ k _ => some k

/-- The mapping that `add_listener` is called with. -/
def AddStage.mapping : AddStage → Option PortMapping
  | .idle => none
  | .found m _ => some m
  | .bound m _ _ => some m

/-- Who serves whom. -/
structure Listening (s : Server) : Prop where
  loop_lt : ∀ l L, s.loops l = some L → l < s.spawned
  loop_session : ∀ l L, s.loops l = some L → s.AuthenticatedAs L.session L.clientId
  loop_mapping : ∀ l L, s.loops l = some L →
    L.port = L.mapping.remotePort ∧ L.localAddr = L.mapping.localAddr
  loop_route : ∀ l L, s.loops l = some L → L.mapping.route L.clientId ∈ s.issued
  starter_session : ∀ st, s.HasStarter st → ∀ k, st.stage.session = some k →
    s.AuthenticatedAs k st.client
  starter_route : ∀ st, s.HasStarter st → ∀ m, m ∈ st.todo ∨ st.stage.mapping = some m →
    m.route st.client ∈ s.issued

section Listening

variable {env : Env} {s s' t : Server}

theorem listening_init (h : Init s) : Listening s := by
  have hnone := h.no_starter
  obtain ⟨clients, _, rfl⟩ := h
  exact ⟨nofun, nofun, nofun, nofun, fun st hst => absurd hst (hnone st),
    fun st hst => absurd hst (hnone st)⟩

/-- `add_listener` goes on with the mappings it had, and the session it finds is
one of its client. -/
theorem AddStep.keeps {st st' : Starter} {a : AddEvent} (hs : AddStep s st a s' st') :
    st'.client = st.client ∧
      (∀ m, m ∈ st'.todo ∨ st'.stage.mapping = some m → m ∈ st.todo ∨ st.stage.mapping = some m) ∧
      ∀ k, st'.stage.session = some k → st.stage.session = some k ∨
        ∃ info, s.sessions.lookup st.client = some info ∧ info.sessionId = k := by
  cases hs with
  | offline _ htodo _ =>
    refine ⟨rfl, fun m hm => ?_, fun k hk => .inl hk⟩
    rw [htodo]
    exact hm.imp_left (List.mem_cons_of_mem _)
  | found hidle htodo hlookup =>
    refine ⟨rfl, fun m hm => .inl ?_, fun k hk => .inr ⟨_, hlookup, Option.some.inj hk⟩⟩
    rw [htodo]
    rcases hm with hm | hm
    · exact List.mem_cons_of_mem _ hm
    · cases hm
      exact List.mem_cons_self
  | bindFails hfound => exact ⟨rfl, fun m hm => .inl (hm.resolve_right nofun), nofun⟩
  | bound hfound _ =>
    rw [hfound]
    exact ⟨rfl, fun m hm => hm, fun k hk => .inl hk⟩
  | stored hbound => exact ⟨rfl, fun m hm => .inl (hm.resolve_right nofun), nofun⟩

/-- An entry of the table is authenticated as its client. -/
theorem authenticatedAs_of_lookup (hr : Reachable (Step env) Init s) {c : String}
    {info : SessionInfo} (hlookup : s.sessions.lookup c = some info) :
    s.AuthenticatedAs info.sessionId c := by
  obtain ⟨peer, hpeer, rfl⟩ := Option.map_eq_some_iff.mp
    (entry_admitted (registry_good hr) (histories_reachable hr) hlookup).1
  unfold Server.AuthenticatedAs
  have hsame : (s.tunnels info.sessionId).peer = some peer := by
    unfold TunnelTask.admittedPeer at hpeer
    split at hpeer
    · cases hpeer
    · next htask => rw [htask]; exact hpeer
    · next htask => rw [htask]; exact hpeer
    · next htask => rw [htask]; exact hpeer
    · cases hpeer
  rw [hsame]
  rfl

theorem listening_step {e : Event} (hr : Reachable (Step env) Init s) (h : Listening s)
    (hs : Step env s e t) : Listening t := by
  constructor
  · intro l L hL
    rcases loop_of_step hs hL with ⟨L₀, hL₀, _⟩ | ⟨hlt, _⟩
    · exact Nat.lt_of_lt_of_le (h.loop_lt l L₀ hL₀) (spawned_le hs)
    · exact hlt
  · intro l L hL
    rcases loop_of_step hs hL with ⟨L₀, hL₀, hsame, _⟩ | ⟨_, st, m, k, hst, _, hspawn⟩
    · rw [hsame]
      exact authenticatedAs_step hs (h.loop_session l L₀ hL₀)
    · rw [hspawn.loop]
      exact authenticatedAs_step hs (h.starter_session st hst k (by rw [hspawn.stage]; rfl))
  · intro l L hL
    rcases loop_of_step hs hL with ⟨L₀, hL₀, hsame, _⟩ | ⟨_, st, m, k, hst, _, hspawn⟩
    · rw [hsame]
      exact h.loop_mapping l L₀ hL₀
    · rw [hspawn.loop]
      exact ⟨rfl, rfl⟩
  · intro l L hL
    rcases loop_of_step hs hL with ⟨L₀, hL₀, hsame, _⟩ | ⟨_, st, m, k, hst, _, hspawn⟩
    · rw [hsame]
      exact issued_step hs (h.loop_route l L₀ hL₀)
    · rw [hspawn.loop]
      exact issued_step hs (h.starter_route st hst m (.inr (by rw [hspawn.stage]; rfl)))
  · intro st' hst' k hk
    rcases starter_of_step hs hst' with hst | ⟨hidle, _⟩ | ⟨st, a, s', hst, hadd, _⟩
    · exact authenticatedAs_step hs (h.starter_session st' hst k hk)
    · rw [hidle] at hk
      cases hk
    · obtain ⟨hclient, _, hsession⟩ := hadd.keeps
      rw [hclient]
      refine authenticatedAs_step hs ?_
      rcases hsession k hk with hk | ⟨info, hlookup, rfl⟩
      · exact h.starter_session st hst k hk
      · exact authenticatedAs_of_lookup hr hlookup
  · intro st' hst' m hm
    rcases starter_of_step hs hst' with hst | ⟨hidle, hroutes⟩ | ⟨st, a, s', hst, hadd, _⟩
    · exact issued_step hs (h.starter_route st' hst m hm)
    · rw [hidle] at hm
      have hledger : Ledger t := ledger_reachable (hr.step hs)
      exact hledger.routes_issued _ (hroutes m (hm.resolve_right nofun))
    · obtain ⟨hclient, hmappings, _⟩ := hadd.keeps
      rw [hclient]
      exact issued_step hs (h.starter_route st hst m (hmappings m hm))

theorem listening_reachable (h : Reachable (Step env) Init s) : Listening s :=
  h.invariant_of (fun _ h => h) (fun _ h => listening_init h) fun _ _ _ hr h hs =>
    listening_step hr h hs

end Listening

/-! ## Handles -/

/-- A handle in the `listeners` map of a session, or about to be stored there, is
that of a loop of this session for the mapping it is stored under, as long as that
loop runs; and that mapping is one of the session's client. -/
structure Handles (s : Server) : Prop where
  handle : ∀ k id l, (s.listeners k).lookup id = some l →
    l < s.spawned ∧ ∀ L, s.loops l = some L → L.session = k ∧ L.mapping.id = id
  owner : ∀ k id l, (s.listeners k).lookup id = some l →
    ∃ route ∈ s.issued, route.mappingId = id ∧ s.AuthenticatedAs k route.clientId
  bound : ∀ st, s.HasStarter st → ∀ m k l, st.stage = .bound m k l →
    l < s.spawned ∧ ∀ L, s.loops l = some L → L.session = k ∧ L.mapping.id = m.id

section Handles

variable {env : Env} {s s' t : Server}

theorem lookup_update_insert {listeners : SessionId → AList fun _ : String => LoopId}
    {k k' : SessionId} {id id' : String} {l l' : LoopId}
    (h : (Function.update listeners k ((listeners k).insert id l) k').lookup id' = some l') :
    (listeners k').lookup id' = some l' ∨ k' = k ∧ id' = id ∧ l' = l := by
  rcases eq_or_ne k' k with rfl | hne
  · rw [Function.update_self] at h
    rcases eq_or_ne id' id with rfl | hid
    · rw [AList.lookup_insert] at h
      exact .inr ⟨rfl, rfl, (Option.some.inj h).symm⟩
    · rw [AList.lookup_insert_ne hid] at h
      exact .inl h
  · rw [Function.update_of_ne hne] at h
    exact .inl h

theorem AddStep.handle {st st' : Starter} {a : AddEvent} (hs : AddStep s st a s' st')
    {k : SessionId} {id : String} {l : LoopId} (h : (s'.listeners k).lookup id = some l) :
    (s.listeners k).lookup id = some l ∨ ∃ m, st.stage = .bound m k l ∧ id = m.id := by
  cases hs with
  | stored hbound =>
    rcases lookup_update_insert h with h | ⟨rfl, rfl, rfl⟩
    · exact .inl h
    · exact .inr ⟨_, hbound, rfl⟩
  | _ => exact .inl h

/-- Where a handle comes from: it was there, or `add_listener` stores it. -/
theorem handle_of_step {e : Event} (hs : Step env s e t) {k : SessionId} {id : String}
    {l : LoopId} (h : (t.listeners k).lookup id = some l) :
    (s.listeners k).lookup id = some l ∨
      ∃ st m, s.HasStarter st ∧ st.stage = .bound m k l ∧ id = m.id := by
  cases hs with
  | task hs => rw [hs.frame] at h; exact .inl h
  | loop hs => rw [hs.frame] at h; exact .inl h
  | tunnel hs =>
    cases hs with
    | add hlive hadd =>
      rcases hadd.handle h with h | ⟨m, hbound, hid⟩
      · exact .inl h
      · exact .inr ⟨_, m, .inl ⟨_, _, hlive⟩, hbound, hid⟩
    | _ => exact .inl h
  | admin hs =>
    cases hs with
    | add hrunning hadd =>
      rcases hadd.handle h with h | ⟨m, hbound, hid⟩
      · exact .inl h
      · exact .inr ⟨_, m, .inr ⟨_, _, _, hrunning⟩, hbound, hid⟩
    | @removeIn _ id' k' _ l' _ _ =>
      have h : (Function.update s.listeners k' ((s.listeners k').erase id') k).lookup id =
        some l := h
      rcases eq_or_ne k k' with rfl | hne
      · rw [Function.update_self] at h
        rcases eq_or_ne id id' with rfl | hid
        · rw [AList.lookup_erase] at h
          cases h
        · rw [AList.lookup_erase_ne hid] at h
          exact .inl h
      · rw [Function.update_of_ne hne] at h
        exact .inl h
    | @drain _ k' _ =>
      have h : (Function.update s.listeners k' ∅ k).lookup id = some l := h
      rcases eq_or_ne k k' with rfl | hne
      · rw [Function.update_self] at h
        cases h
      · rw [Function.update_of_ne hne] at h
        exact .inl h
    | _ => exact .inl h

/-- A loop that was spawned before is the one it was. -/
theorem loop_before {e : Event} (hs : Step env s e t) {l : LoopId} {L : AcceptLoop}
    (hlt : l < s.spawned) (h : t.loops l = some L) : ∃ L₀, s.loops l = some L₀ ∧ L.SameTask L₀ := by
  rcases loop_of_step hs h with hold | ⟨_, _, _, _, _, _, hspawn⟩
  · exact hold
  · exact absurd (hspawn.id ▸ hlt) (Nat.lt_irrefl _)

theorem handles_step {e : Event} (hr : Reachable (Step env) Init s) (h : Handles s)
    (hs : Step env s e t) : Handles t := by
  have hlisten := listening_reachable hr
  have keep : ∀ l k id, (l < s.spawned ∧
      ∀ L, s.loops l = some L → L.session = k ∧ L.mapping.id = id) →
      l < t.spawned ∧ ∀ L, t.loops l = some L → L.session = k ∧ L.mapping.id = id := by
    rintro l k id ⟨hlt, hold⟩
    refine ⟨Nat.lt_of_lt_of_le hlt (spawned_le hs), fun L hL => ?_⟩
    obtain ⟨L₀, hL₀, hsame, _⟩ := loop_before hs hlt hL
    rw [hsame]
    exact hold L₀ hL₀
  constructor
  · intro k id l hlookup
    rcases handle_of_step hs hlookup with hold | ⟨st, m, hst, hbound, rfl⟩
    · exact keep l k id (h.handle k id l hold)
    · exact keep l k m.id (h.bound st hst m k l hbound)
  · intro k id l hlookup
    rcases handle_of_step hs hlookup with hold | ⟨st, m, hst, hbound, rfl⟩
    · obtain ⟨route, hroute, hid, hclient⟩ := h.owner k id l hold
      exact ⟨route, issued_step hs hroute, hid, authenticatedAs_step hs hclient⟩
    · have hroute := hlisten.starter_route st hst m (.inr (by rw [hbound]; rfl))
      have hclient := hlisten.starter_session st hst k (by rw [hbound]; rfl)
      exact ⟨_, issued_step hs hroute, rfl, authenticatedAs_step hs hclient⟩
  · intro st' hst' m k l hbound
    rcases starter_of_step hs hst' with hst | ⟨hidle, _⟩ | ⟨st, a, s', hst, hadd, hloops, hspawned⟩
    · exact keep l k m.id (h.bound st' hst m k l hbound)
    · rw [hidle] at hbound
      cases hbound
    · cases hadd with
      | offline hidle _ _ => exact keep l k m.id (h.bound st hst m k l hbound)
      | found _ _ _ => cases hbound
      | bindFails _ => cases hbound
      | stored _ => cases hbound
      | @bound m' k' _ _ =>
        cases hbound
        rw [hspawned]
        refine ⟨Nat.lt_succ_self _, fun L hL => ?_⟩
        rw [hloops] at hL
        have hL : Function.update s.loops s.spawned (some (.start st.client m k)) s.spawned =
          some L := hL
        rw [Function.update_self] at hL
        cases hL
        exact ⟨rfl, rfl⟩

theorem handles_init (h : Init s) : Handles s := by
  have hnone := h.no_starter
  obtain ⟨clients, _, rfl⟩ := h
  exact ⟨nofun, nofun, fun st hst => absurd hst (hnone st)⟩

theorem handles_reachable (h : Reachable (Step env) Init s) : Handles s :=
  h.invariant_of (fun _ h => h) (fun _ h => handles_init h) fun _ _ _ hr h hs =>
    handles_step hr h hs

end Handles

end MiniMask.Tunnel
