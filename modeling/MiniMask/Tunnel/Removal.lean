import MiniMask.Tunnel.NonOverlapping
import MiniMask.Tunnel.Visitors

/-!
# Taking ports off the network

Deleting or disabling stops the accept loops whose handles are in the maps of
registered sessions. A session that was replaced keeps its loops, and no handle of
theirs is looked at.

* `removal_misses_replaced`: such a run, after which a disabled mapping still gives a
  visitor to the client.
* `removed_off_network`: in every run without such a request, a mapping that was
  turned off has no running loop until it is turned on again.
-/

namespace MiniMask.Tunnel

open Lts

/-! ## What is off -/

/-- The mappings that are off, by their routes: those of a request that deleted or
disabled and was answered `Ok`, until a request enables them or their client again. -/
def watch (off : List Route) (_ : Server) (e : Event) (t : Server) : List Route :=
  match e with
  | .admin r (.submit request _) =>
    if request.turnsOn = true ∧ t.admins r ≠ .done request .notFound then
      off.filter fun route => !request.concerns route
    else off
  | .admin r _ =>
    match t.admins r with
    | .done request .ok =>
      if request.turnsOff then off ++ t.issued.filter request.concerns else off
    | _ => off
  | _ => off

/-- No loop that was started for a mapping that is off is running, in any session. -/
def OffNetwork (s : Server) (off : List Route) : Prop :=
  ∀ l L, s.loops l = some L → L.aborted = false → ∀ route ∈ off, route.mappingId ≠ L.mapping.id

/-- The session of the loop is the one registered for its client. -/
def AcceptLoop.Registered (L : AcceptLoop) (s : Server) : Prop :=
  ∃ info, s.sessions.lookup L.clientId = some info ∧ info.sessionId = L.session

/-- The loop `l` was started for a mapping that the request concerns. -/
def Server.Concerned (s : Server) (request : AdminRequest) (l : LoopId) (L : AcceptLoop) : Prop :=
  s.loops l = some L ∧ request.concerns (L.mapping.route L.clientId) = true

/-- When a request to delete or disable comes in and is saved, every loop for a
mapping that it concerns belongs to the session that is registered for its client. -/
def InTable (s : Server) (e : Event) : Prop :=
  ∀ r request, e = .admin r (.submit request .done) → request.turnsOff = true →
    ∀ l L, s.Concerned request l L → L.Registered s

/-! ## The handlers reach the loops -/

/-- The handler is going to abort every loop that its request concerns. -/
def AdminStage.Reaches (s : Server) (request : AdminRequest) : AdminStage → Prop
  | .removeListener id => request.concerns = (fun route => route.mappingId == id) ∧
      ∀ l L, s.Concerned request l L → L.Registered s
  | .removing id arcs => request.concerns = (fun route => route.mappingId == id) ∧
      (∀ k ∈ arcs, ∃ c info, s.sessions.lookup c = some info ∧ info.sessionId = k) ∧
      ∀ l L, s.Concerned request l L → L.Registered s ∧ L.session ∈ arcs
  | .removeClient id => request.concerns = (fun route => route.clientId == id) ∧
      ∀ l L, s.Concerned request l L → L.Registered s
  | .draining k =>
      (∃ c, s.AuthenticatedAs k c ∧ request.concerns = fun route => route.clientId == c) ∧
      ∀ l L, s.Concerned request l L → L.session = k
  | _ => request.turnsOff = false

/-- Every handler that stops listeners reaches all that it should stop. -/
def Reaching (s : Server) : Prop :=
  ∀ r request stage, s.admins r = .running request stage → stage.Reaches s request

section Reaching

variable {env : Env} {s t : Server}

theorem reaching_init (h : Init s) : Reaching s := by
  intro r request stage hrunning
  cases (h.admins r).symm.trans hrunning

/-- Dropping a loop leaves fewer to reach. -/
theorem AdminStage.Reaches.dropLoop {request : AdminRequest} {stage : AdminStage} {l : LoopId}
    (h : stage.Reaches s request) : stage.Reaches (s.dropLoop l) request := by
  have hfewer : ∀ l' L, (s.dropLoop l).Concerned request l' L → s.Concerned request l' L :=
    fun l' L hL => ⟨(dropLoop_loops hL.1).1, hL.2⟩
  cases stage with
  | removeListener id => exact ⟨h.1, fun l' L hL => h.2 l' L (hfewer l' L hL)⟩
  | removing id arcs => exact ⟨h.1, h.2.1, fun l' L hL => h.2.2 l' L (hfewer l' L hL)⟩
  | removeClient id => exact ⟨h.1, fun l' L hL => h.2 l' L (hfewer l' L hL)⟩
  | draining k => exact ⟨h.1, fun l' L hL => h.2 l' L (hfewer l' L hL)⟩
  | _ => exact h

/-- A request that is saved and concerns only loops of registered sessions reaches
them all. -/
theorem handle_reaches {request : AdminRequest} {io : AtomicFile.Outcome} {stage : AdminStage}
    (hgo : (handle env s.clients request io).1 = .go stage)
    (hin : io = .done → request.turnsOff = true →
      ∀ l L, s.Concerned request l L → L.Registered s) {r : RequestId} {a : Admin} :
    stage.Reaches ((s.setClients (handle env s.clients request io).2).setAdmin r a) request := by
  obtain ⟨hdone, hgoes⟩ := handle_go hgo
  cases hgoes with
  | disableClient => exact ⟨rfl, hin hdone rfl⟩
  | deleteClient => exact ⟨rfl, hin hdone rfl⟩
  | disableMapping => exact ⟨rfl, hin hdone rfl⟩
  | deleteMapping => exact ⟨rfl, hin hdone rfl⟩
  | enableClient => exact rfl
  | enableMapping => exact rfl
  | createMapping => exact rfl

/-- Of a client, one session is registered. -/
theorem AcceptLoop.Registered.session_eq {L : AcceptLoop} (h : L.Registered s)
    {info : SessionInfo} (hlookup : s.sessions.lookup L.clientId = some info) :
    L.session = info.sessionId := by
  obtain ⟨info', hlookup', hsession⟩ := h
  cases hlookup.symm.trans hlookup'
  exact hsession.symm

/-- Where no loop of `add_listener` calls is in the way, every running loop has its
handle stored. -/
theorem Stored.lookup (h : Stored s) (hnone : ∀ st, ¬ s.HasStarter st) {l : LoopId}
    {L : AcceptLoop} (hL : s.loops l = some L) (hrunning : L.aborted = false) :
    (s.listeners L.session).lookup L.mapping.id = some l := by
  rcases h.handle l L hL hrunning with hlookup | ⟨st, _, hst, _⟩
  · exact hlookup
  · exact absurd hst (hnone st)

theorem AdminStep.reaching {r : RequestId} {e : AdminEvent} (hr : Reachable (Step env) Init s)
    (hstored : Stored s) (h : Reaching s) (hs : AdminStep env r s e t)
    (hno : NonOverlapping s (.admin r e)) (hin : InTable s (.admin r e)) {request : AdminRequest}
    {stage : AdminStage} (hrunning : t.admins r = .running request stage) :
    stage.Reaches t request := by
  cases hs with
  | @submit request' io _ _ _ =>
    simp only [Server.setAdmin, Function.update_self] at hrunning
    obtain ⟨rfl, hgo⟩ := Next.toAdmin_running hrunning
    refine handle_reaches hgo ?_
    rintro rfl hoff
    exact hin r request rfl hoff
  | @findMapping request' id hfind =>
    simp only [Server.setAdmin, Function.update_self] at hrunning
    unfold afterFindMapping at hrunning
    split at hrunning
    · cases hrunning
      exact h r _ _ hfind
    · cases hrunning
  | startClient hstart =>
    simp only [Server.setAdmin, Function.update_self] at hrunning
    cases hrunning
    exact h r _ _ hstart
  | add hadding _ =>
    simp only [Server.setAdmin, Function.update_self] at hrunning
    cases hrunning
    exact h r _ _ hadding
  | collect hremove hperm =>
    simp only [Server.setAdmin, Function.update_self] at hrunning
    cases hrunning
    obtain ⟨hconcerns, hregistered⟩ := h r _ _ hremove
    refine ⟨hconcerns, fun k hk => (mem_collected hperm).mp hk, fun l L hL => ?_⟩
    have hL := hregistered l L hL
    exact ⟨hL, (mem_collected hperm).mpr ⟨_, hL⟩⟩
  | @removeMiss request' id k arcs hremoving hmiss =>
    simp only [Server.setAdmin, Function.update_self] at hrunning
    cases hrunning
    obtain ⟨hconcerns, harcs, hregistered⟩ := h r _ _ hremoving
    refine ⟨hconcerns, fun k' hk' => harcs k' (List.mem_cons_of_mem _ hk'), fun l L hL => ?_⟩
    obtain ⟨hL', hmem⟩ := hregistered l L hL
    refine ⟨hL', (List.mem_cons.mp hmem).resolve_left fun heq => ?_⟩
    -- a loop of session `k` has its handle there
    have hnone := hno.no_starter hremoving rfl
    have hlookup := hstored.lookup hnone hL.1 (hno.running rfl hL.1)
    have hid : L.mapping.id = id := by
      have := hL.2
      rw [hconcerns] at this
      exact beq_iff_eq.mp this
    rw [heq, hid, hmiss] at hlookup
    cases hlookup
  | @findSession request' id info hremove hlookup =>
    simp only [Server.setAdmin, Function.update_self] at hrunning
    cases hrunning
    obtain ⟨hconcerns, hregistered⟩ := h r _ _ hremove
    refine ⟨⟨id, authenticatedAs_of_lookup hr hlookup, hconcerns⟩, fun l L hL => ?_⟩
    have hid : L.clientId = id := by
      have := hL.2
      rw [hconcerns] at this
      exact beq_iff_eq.mp this
    rw [← hid] at hlookup
    exact (hregistered l L hL).session_eq hlookup
  | _ => simp [Server.setAdmin] at hrunning

theorem reaching_step {e : Event} (hr : Reachable (Step env) Init s) (hstored : Stored s)
    (h : Reaching s) (hs : Step env s e t) (hno : NonOverlapping s e) (hin : InTable s e) :
    Reaching t := by
  intro r request stage hrunning
  cases hreap : e.isReap with
  | true =>
    obtain ⟨l, rfl⟩ := reap_step hs hreap
    exact (h r request stage hrunning).dropLoop
  | false =>
    have hown : ∃ e', e = .admin r e' ∧ AdminStep env r s e' t := by
      rcases admin_of_step hs r with hsame | hown
      · exact hno.own hs hreap (by rw [← hsame, hrunning]; rfl)
      · exact hown
    obtain ⟨e', rfl, hs'⟩ := hown
    exact hs'.reaching hr hstored h hno hin hrunning

/-- Aborting every loop that a request concerns leaves none of them running. -/
theorem abort_stops {request : AdminRequest} {p : LoopId → Bool}
    (h : ∀ l L, s.Concerned request l L → p l = true) {l : LoopId} {L : AcceptLoop}
    (hL : (s.abort p).loops l = some L) (hrunning : L.aborted = false) :
    request.concerns (L.mapping.route L.clientId) = false := by
  obtain ⟨L₀, hL₀, hsame⟩ := abort_loops hL
  cases hsame.eq hrunning
  rw [← Bool.not_eq_true]
  intro hconcerned
  rw [aborted_of_abort (h l L ⟨hL₀, hconcerned⟩) hL] at hrunning
  cases hrunning

/-- The handle that `remove_listener` finds is that of the only loop for the mapping. -/
theorem removing_handle (hr : Reachable (Step env) Init s) (hstored : Stored s)
    (hnone : ∀ st, ¬ s.HasStarter st) (habort : ∀ l L, s.loops l = some L → L.aborted = false)
    {request : AdminRequest} {id : String} {k : SessionId} {arcs : List SessionId}
    (h : (AdminStage.removing id (k :: arcs)).Reaches s request) {l : LoopId}
    (hlookup : (s.listeners k).lookup id = some l) {l' : LoopId} {L : AcceptLoop}
    (hL : s.Concerned request l' L) : l' = l := by
  obtain ⟨hconcerns, harcs, hregistered⟩ := h
  have hid : L.mapping.id = id := by
    have hconcerned := hL.2
    rw [hconcerns] at hconcerned
    exact beq_iff_eq.mp hconcerned
  -- session `k` is the one registered for the owner of the mapping
  obtain ⟨route, hroute, hrid, hauth⟩ := (handles_reachable hr).owner k id l hlookup
  have hclient := congrArg Route.clientId (loop_route_eq hr hL.1 hroute (hrid.trans hid.symm))
  obtain ⟨c, info, hc, rfl⟩ := harcs k List.mem_cons_self
  cases AuthenticatedAs.unique (authenticatedAs_of_lookup hr hc) hauth
  -- and so is that of the loop, whose handle is stored there
  have hlookup' : s.sessions.lookup L.clientId = some info := by
    rw [show L.clientId = route.clientId from hclient]
    exact hc
  have hown := hstored.lookup hnone hL.1 (habort l' L hL.1)
  rw [(hregistered l' L hL).1.session_eq hlookup', hid, hlookup] at hown
  exact (Option.some.inj hown).symm

/-- A handler that answers `Ok` to a request that deletes or disables leaves no
running loop that the request concerns. -/
theorem AdminStep.stops {r : RequestId} {e : AdminEvent} (hr : Reachable (Step env) Init s)
    (hstored : Stored s) (h : Reaching s) (hs : AdminStep env r s e t)
    (hno : NonOverlapping s (.admin r e)) (hnot : ∀ request io, e ≠ .submit request io)
    {request : AdminRequest} (hdone : t.admins r = .done request .ok)
    (hoff : request.turnsOff = true) {l : LoopId} {L : AcceptLoop} (hL : t.loops l = some L)
    (hrunning : L.aborted = false) : request.concerns (L.mapping.route L.clientId) = false := by
  have habort : ∀ l L, s.loops l = some L → L.aborted = false := fun l L hL => hno.running rfl hL
  cases hs with
  | submit _ _ _ => exact absurd rfl (hnot _ _)
  | findMapping hfind =>
    simp only [Server.setAdmin, Function.update_self] at hdone
    unfold afterFindMapping at hdone
    split at hdone
    · cases hdone
    · cases hdone
      rw [show request.turnsOff = false from h r _ _ hfind] at hoff
      cases hoff
  | added hadding _ _ =>
    simp only [Server.setAdmin, Function.update_self] at hdone
    cases hdone
    rw [show request.turnsOff = false from h r _ _ hadding] at hoff
    cases hoff
  | @removeIn _ _ _ _ l₁ hremoving hlookup =>
    simp only [Server.setAdmin, Function.update_self] at hdone
    cases hdone
    have hnone := hno.no_starter hremoving rfl
    refine abort_stops (p := (· == l₁)) (fun l' L' hL' => ?_) hL hrunning
    exact beq_iff_eq.mpr (removing_handle hr hstored hnone habort (h r _ _ hremoving) hlookup hL')
  | removeNowhere hremoving =>
    simp only [Server.setAdmin, Function.update_self] at hdone
    cases hdone
    obtain ⟨_, _, hregistered⟩ := h r _ _ hremoving
    rw [← Bool.not_eq_true]
    intro hconcerned
    cases (hregistered l L ⟨hL, hconcerned⟩).2
  | offline hremove hnone =>
    simp only [Server.setAdmin, Function.update_self] at hdone
    cases hdone
    obtain ⟨hconcerns, hregistered⟩ := h r _ _ hremove
    rw [← Bool.not_eq_true]
    intro hconcerned
    obtain ⟨info, hlookup, _⟩ := hregistered l L ⟨hL, hconcerned⟩
    rw [hconcerns] at hconcerned
    rw [show L.clientId = _ from beq_iff_eq.mp hconcerned, hnone] at hlookup
    cases hlookup
  | @drain _ k hdraining =>
    simp only [Server.setAdmin, Function.update_self] at hdone
    cases hdone
    obtain ⟨_, hsessions⟩ := h r _ _ hdraining
    have hnone := hno.no_starter hdraining rfl
    refine abort_stops (p := fun l => (s.listeners k).entries.any fun x => x.2 == l)
      (fun l' L' hL' => ?_) hL hrunning
    have hown := hstored.lookup hnone hL'.1 (habort l' L' hL'.1)
    rw [hsessions l' L' hL'] at hown
    exact List.any_eq_true.mpr ⟨_, AList.mem_lookup_iff.mp hown, beq_self_eq_true l'⟩
  | _ => simp [Server.setAdmin] at hdone

/-- The mappings that a handler stops are not active. -/
theorem AdminStage.Reaches.inactive {request : AdminRequest} {stage : AdminStage}
    (h : stage.Reaches s request) (hcleared : stage.Cleared s) (hoff : request.turnsOff = true)
    {c : String} {m : PortMapping} (hactive : Active s.clients.list c m) :
    request.concerns (m.route c) = false := by
  cases stage with
  | removeListener id =>
    rw [h.1]
    exact beq_eq_false_iff_ne.mpr (hcleared c m hactive)
  | removing id arcs =>
    rw [h.1]
    exact beq_eq_false_iff_ne.mpr (hcleared c m hactive)
  | removeClient id =>
    rw [h.1]
    refine beq_eq_false_iff_ne.mpr fun heq => hcleared m ?_
    rw [← show c = id from heq]
    exact hactive
  | draining k =>
    obtain ⟨⟨c₀, hauth, hconcerns⟩, _⟩ := h
    obtain ⟨c', hauth', hnot⟩ := hcleared
    cases AuthenticatedAs.unique hauth hauth'
    rw [hconcerns]
    refine beq_eq_false_iff_ne.mpr fun heq => hnot m ?_
    rw [← show c = c₀ from heq]
    exact hactive
  | findMapping id => rw [show request.turnsOff = false from h] at hoff; cases hoff
  | startClient id => rw [show request.turnsOff = false from h] at hoff; cases hoff
  | adding st underRead => rw [show request.turnsOff = false from h] at hoff; cases hoff

end Reaching

/-! ## What is off stays off -/

/-- Nothing that is off is running, or about to run. -/
structure Off (s : Server) (off : List Route) : Prop where
  issued : ∀ route ∈ off, route ∈ s.issued
  inactive : ∀ c m, Active s.clients.list c m → m.route c ∉ off
  starter : ∀ st, s.HasStarter st → ∀ m, m ∈ st.todo ∨ st.stage.mapping = some m →
    m.route st.client ∉ off
  finding : ∀ r request id, s.admins r = .running request (.findMapping id) →
    ∀ route ∈ off, route.mappingId ≠ id
  starting : ∀ r request id, s.admins r = .running request (.startClient id) →
    ∀ route ∈ off, route.clientId ≠ id
  loop : ∀ l L, s.loops l = some L → L.aborted = false → L.mapping.route L.clientId ∉ off

section Off

variable {env : Env} {s t : Server} {off off' : List Route}

theorem off_nil : Off s [] :=
  ⟨nofun, fun _ _ _ => List.not_mem_nil, fun _ _ _ _ => List.not_mem_nil, fun _ _ _ _ => nofun,
    fun _ _ _ _ => nofun, fun _ _ _ _ => List.not_mem_nil⟩

/-- The mappings that a new session reads are not off. -/
theorem Off.startClientListeners (h : Off s off) (hids : (s.clients.list.map (·.id)).Nodup)
    {c : String} (henabled : ∃ client ∈ s.clients.list, client.id = c ∧ client.enabled = true)
    {m : PortMapping} (hm : m ∈ (startClientListeners s.clients c).todo) : m.route c ∉ off := by
  obtain ⟨client, hclient, rfl, hen⟩ := henabled
  unfold Tunnel.startClientListeners at hm
  rw [ClientStore.find_of_mem hids hclient] at hm
  obtain ⟨hm, hmen⟩ := List.mem_filter.mp hm
  exact h.inactive client.id m ⟨client, hclient, rfl, hen, hm, hmen⟩

/-- No step but the beginning of a request starts anything that is off. -/
theorem off_keep {e : Event} (hr : Reachable (Step env) Init s) (hawaiting : AwaitingEnabled s)
    (h : Off s off) (hs : Step env s e t)
    (hnot : ∀ r request io, e ≠ .admin r (.submit request io)) (hclients : t.clients = s.clients) :
    Off t off := by
  have hids := (ledger_reachable hr).ids_nodup
  refine ⟨fun route hroute => issued_step hs (h.issued route hroute), ?_, ?_, ?_, ?_, ?_⟩
  · rw [hclients]
    exact h.inactive
  · rintro st' (⟨k, peer, hstarting⟩ | ⟨r, request, underRead, hadding⟩) m hm
    · rcases tunnel_of_step hs k with hsame | ⟨e', rfl, hs'⟩
      · exact h.starter st' (.inl ⟨k, peer, hsame ▸ hstarting⟩) m hm
      · rcases hs'.starting hstarting with ⟨hconnected, rfl⟩ | ⟨st, a, s', hst, _, hadd, _⟩
        · refine h.startClientListeners hids (hawaiting k peer ?_) (hm.resolve_right nofun)
          rw [hconnected]
          rfl
        · obtain ⟨hclient, hmappings, _⟩ := hadd.keeps
          rw [hclient]
          exact h.starter st (.inl ⟨k, peer, hst⟩) m (hmappings m hm)
    · rcases admin_of_step hs r with hsame | ⟨e', rfl, hs'⟩
      · exact h.starter st' (.inr ⟨r, request, underRead, hsame ▸ hadding⟩) m hm
      · rcases hs'.adding hadding with ⟨io, rfl, _⟩ | ⟨id, m', hfind, _, hfound, heq, _⟩ |
          ⟨id, hstart, rfl, _⟩ | ⟨st, a, s', hst, _, hadd, _⟩
        · exact absurd rfl (hnot r request io)
        · rw [heq] at hm
          cases List.mem_singleton.mp (hm.resolve_right nofun)
          exact fun hmem => h.finding r request id hfind _ hmem (findMapping_mem hfound).2
        · exact fun hmem => h.starting r request id hstart _ hmem rfl
        · obtain ⟨hclient, hmappings, _⟩ := hadd.keeps
          rw [hclient]
          exact h.starter st (.inr ⟨r, request, underRead, hst⟩) m (hmappings m hm)
  · intro r request id hfind
    exact h.finding r request id (looking_of_step hs hnot (.inl rfl) hfind)
  · intro r request id hstart
    exact h.starting r request id (looking_of_step hs hnot (.inr rfl) hstart)
  · intro l L hL hrunning
    rcases loop_of_step hs hL with ⟨L₀, hL₀, hsame⟩ | ⟨_, st, m, k, hst, _, hspawn⟩
    · cases hsame.eq hrunning
      exact h.loop l L hL₀ hrunning
    · rw [hspawn.loop]
      exact h.starter st hst m (.inr (by rw [hspawn.stage]; rfl))

/-- A request that is not answered `404` leaves nothing off that it turns on. -/
theorem mem_watch_submit {r : RequestId} {request : AdminRequest} {io : AtomicFile.Outcome}
    {route : Route} (h : route ∈ watch off s (.admin r (.submit request io)) t) :
    route ∈ off ∧ (request.turnsOn = true → t.admins r ≠ .done request .notFound →
      request.concerns route = false) := by
  have h : route ∈ if request.turnsOn = true ∧ t.admins r ≠ .done request .notFound then
      off.filter fun route => !request.concerns route else off := h
  split at h
  · obtain ⟨hmem, hnot⟩ := List.mem_filter.mp h
    exact ⟨hmem, fun _ _ => by simpa using hnot⟩
  · next hnot => exact ⟨h, fun hon hfound => absurd ⟨hon, hfound⟩ hnot⟩

/-- Other steps turn off what a request concerns that was answered `Ok`, or nothing. -/
theorem watch_cases {e : Event} (hnot : ∀ r request io, e ≠ .admin r (.submit request io)) :
    watch off s e t = off ∨ ∃ r e' request, e = .admin r e' ∧ t.admins r = .done request .ok ∧
      request.turnsOff = true ∧ watch off s e t = off ++ t.issued.filter request.concerns := by
  unfold watch
  split
  · exact absurd rfl (hnot _ _ _)
  · next r e' _ =>
    split
    · next request hdone =>
      split
      · next hoff => exact .inr ⟨r, e', request, rfl, hdone, hoff, rfl⟩
      · exact .inl rfl
    · exact .inl rfl
  · exact .inl rfl

/-- A request that comes in starts nothing that is off after it. -/
theorem off_submit {r : RequestId} {request : AdminRequest} {io : AtomicFile.Outcome}
    (h : Off s off) (hfresh : request.FreshIn s)
    (ht : t = (s.setClients (handle env s.clients request io).2).setAdmin r
      ((handle env s.clients request io).1.toAdmin request)) :
    Off t (watch off s (.admin r (.submit request io)) t) := by
  have hadmin : t.admins r = (handle env s.clients request io).1.toAdmin request := by
    rw [ht]
    exact Function.update_self ..
  have hothers : ∀ r', r' ≠ r → t.admins r' = s.admins r' := by
    intro r' hne
    rw [ht]
    exact Function.update_of_ne hne ..
  -- a request that goes on was not answered
  have hgoes : ∀ {request' stage}, t.admins r = .running request' stage →
      Goes request stage ∧ t.admins r ≠ .done request .notFound := by
    intro request' stage hrunning
    refine ⟨(handle_go (Next.toAdmin_running (hadmin.symm.trans hrunning)).2).2, ?_⟩
    rw [hrunning]
    nofun
  -- nothing that is off has the id of a new mapping
  have hnew : ∀ {clientId name localAddr id remotePort now},
      request = .createMapping clientId name remotePort localAddr id now →
        ∀ route ∈ off, route.mappingId ≠ id := by
    rintro _ _ _ _ _ _ rfl route hmem
    exact hfresh route (h.issued route hmem)
  refine ⟨fun route hmem => ?_, fun c m hactive hmem => ?_, fun st hst m hm hmem => ?_,
    fun r' request' id hfind route hmem => ?_, fun r' request' id hstart route hmem => ?_,
    fun l L hL hrunning hmem => ?_⟩
  · rw [ht]
    exact List.mem_append_left _ (h.issued route (mem_watch_submit hmem).1)
  · obtain ⟨hoff, hon⟩ := mem_watch_submit hmem
    rw [show t.clients = (handle env s.clients request io).2 by rw [ht]; rfl] at hactive
    rcases active_handle hactive with hold | hactivates
    · exact h.inactive c m hold hoff
    · rcases hactivates.kind with ⟨hturns, hconcerns⟩ | ⟨_, _, _, _, hkind⟩
      · have hfound : t.admins r ≠ .done request .notFound := fun heq =>
          hactivates.found (Next.toAdmin_done (hadmin.symm.trans heq))
        rw [hon hturns hfound] at hconcerns
        cases hconcerns
      · exact hnew hkind _ hoff rfl
  · obtain ⟨hoff, _⟩ := mem_watch_submit hmem
    rcases hst with ⟨k, peer, hstarting⟩ | ⟨r', request', underRead, hadding⟩
    · refine h.starter st (.inl ⟨k, peer, ?_⟩) m hm hoff
      rw [ht] at hstarting
      exact hstarting
    · rcases eq_or_ne r' r with rfl | hne
      · generalize hstage : AdminStage.adding st underRead = stage at hadding
        cases (hgoes hadding).1 with
        | createMapping =>
          cases hstage
          cases List.mem_singleton.mp (hm.resolve_right nofun)
          exact hnew rfl _ hoff rfl
        | _ => cases hstage
      · exact h.starter st (.inr ⟨r', request', underRead, hothers r' hne ▸ hadding⟩) m hm hoff
  · obtain ⟨hoff, hon⟩ := mem_watch_submit hmem
    rcases eq_or_ne r' r with rfl | hne
    · obtain ⟨hkind, hfound⟩ := hgoes hfind
      cases hkind
      exact beq_eq_false_iff_ne.mp (hon rfl hfound)
    · exact h.finding r' request' id (hothers r' hne ▸ hfind) route hoff
  · obtain ⟨hoff, hon⟩ := mem_watch_submit hmem
    rcases eq_or_ne r' r with rfl | hne
    · obtain ⟨hkind, hfound⟩ := hgoes hstart
      cases hkind
      exact beq_eq_false_iff_ne.mp (hon rfl hfound)
    · exact h.starting r' request' id (hothers r' hne ▸ hstart) route hoff
  · rw [ht] at hL
    exact h.loop l L hL hrunning (mem_watch_submit hmem).1

/-- A handler answers the request it is running for. -/
theorem AdminStep.request {r : RequestId} {e : AdminEvent} (hs : AdminStep env r s e t)
    (hnot : ∀ request io, e ≠ .submit request io) {request : AdminRequest} {response : Response}
    (hdone : t.admins r = .done request response) :
    ∃ stage, s.admins r = .running request stage := by
  cases hs with
  | submit _ _ _ => exact absurd rfl (hnot _ _)
  | findMapping hfind =>
    simp only [Server.setAdmin, Function.update_self] at hdone
    unfold Next.toAdmin at hdone
    split at hdone
    · cases hdone
    · cases hdone
      exact ⟨_, hfind⟩
  | added hrunning _ _ =>
    simp only [Server.setAdmin, Function.update_self] at hdone
    cases hdone
    exact ⟨_, hrunning⟩
  | removeIn hrunning _ =>
    simp only [Server.setAdmin, Function.update_self] at hdone
    cases hdone
    exact ⟨_, hrunning⟩
  | removeNowhere hrunning =>
    simp only [Server.setAdmin, Function.update_self] at hdone
    cases hdone
    exact ⟨_, hrunning⟩
  | offline hrunning _ =>
    simp only [Server.setAdmin, Function.update_self] at hdone
    cases hdone
    exact ⟨_, hrunning⟩
  | drain hrunning =>
    simp only [Server.setAdmin, Function.update_self] at hdone
    cases hdone
    exact ⟨_, hrunning⟩
  | _ => simp [Server.setAdmin] at hdone

/-- When a handler that adds no listeners answers, nobody else is busy. -/
theorem NonOverlapping.idle {r : RequestId} {e : AdminEvent} (hno : NonOverlapping s (.admin r e))
    (hs : AdminStep env r s e t) {request : AdminRequest} {stage : AdminStage}
    {response : Response} (hrunning : s.admins r = .running request stage)
    (hnot : stage.isAdding = false) (hdone : t.admins r = .done request response) :
    (∀ st, ¬ t.HasStarter st) ∧ ∀ r', (t.admins r').isRunning = false := by
  have hothers : ∀ r', r' ≠ r → (t.admins r').isRunning = false := by
    intro r' hne
    obtain ⟨task, hadmins⟩ := hs.moves
    rw [hadmins, Function.update_of_ne hne, ← Bool.not_eq_true]
    intro hrunning
    have hbusy : s.Busy (.admin r') := hrunning
    cases hno.actor rfl hbusy
    exact hne rfl
  constructor
  · rintro st (⟨k, peer, hstarting⟩ | ⟨r', request', underRead, hadding⟩)
    · rw [hs.frame] at hstarting
      exact hno.no_starter hrunning hnot st (.inl ⟨k, peer, hstarting⟩)
    · rcases eq_or_ne r' r with rfl | hne
      · cases hdone.symm.trans hadding
      · have hidle := hothers r' hne
        rw [hadding] at hidle
        cases hidle
  · intro r'
    rcases eq_or_ne r' r with rfl | hne
    · rw [hdone]
      rfl
    · exact hothers r' hne

/-- When a request that deletes or disables is answered `Ok`, what it concerns is off. -/
theorem off_answered {r : RequestId} {e : AdminEvent} (hr : Reachable (Step env) Init s)
    (hcleared : Cleared s) (hstored : Stored s) (hreaching : Reaching s) (h : Off t off)
    (hs : AdminStep env r s e t) (hno : NonOverlapping s (.admin r e))
    (hnot : ∀ request io, e ≠ .submit request io) (hclients : t.clients = s.clients)
    {request : AdminRequest} (hdone : t.admins r = .done request .ok)
    (hoff : request.turnsOff = true) :
    Off t (off ++ t.issued.filter request.concerns) := by
  obtain ⟨stage, hrunning⟩ := hs.request hnot hdone
  -- a handler that was adding listeners does not turn anything off
  have hadding : stage.isAdding = false := by
    cases stage with
    | adding st underRead =>
      rw [show request.turnsOff = false from hreaching r _ _ hrunning] at hoff
      cases hoff
    | _ => rfl
  obtain ⟨hnone, hidle⟩ := hno.idle hs hrunning hadding hdone
  refine ⟨fun route hmem => ?_, fun c m hactive hmem => ?_, fun st hst => absurd hst (hnone st),
    fun r' request' id hfind => ?_, fun r' request' id hstart => ?_,
    fun l L hL hloop hmem => ?_⟩
  · rcases List.mem_append.mp hmem with hmem | hmem
    · exact h.issued route hmem
    · exact (List.mem_filter.mp hmem).1
  · rcases List.mem_append.mp hmem with hmem | hmem
    · exact h.inactive c m hactive hmem
    · have hconcerns := (List.mem_filter.mp hmem).2
      rw [hclients] at hactive
      rw [(hreaching r _ _ hrunning).inactive (hcleared r _ _ hrunning) hoff hactive] at hconcerns
      cases hconcerns
  · have hnot := hidle r'
    rw [hfind] at hnot
    cases hnot
  · have hnot := hidle r'
    rw [hstart] at hnot
    cases hnot
  · rcases List.mem_append.mp hmem with hmem | hmem
    · exact h.loop l L hL hloop hmem
    · have hconcerns := (List.mem_filter.mp hmem).2
      rw [hs.stops hr hstored hreaching hno hnot hdone hoff hL hloop] at hconcerns
      cases hconcerns

theorem off_step {e : Event} (hr : Reachable (Step env) Init s) (hcleared : Cleared s)
    (hstored : Stored s) (hawaiting : AwaitingEnabled s) (hreaching : Reaching s)
    (h : Off s off) (hs : Step env s e t) (hno : NonOverlapping s e) :
    Off t (watch off s e t) := by
  rcases clients_of_step hs with ⟨hnot, hclients⟩ | ⟨r, request, io, rfl, _, hfresh, ht⟩
  · have hkept := off_keep hr hawaiting h hs hnot hclients
    rcases watch_cases hnot with hsame | ⟨r, e', request, rfl, hdone, hoff, hwatch⟩
    · rw [hsame]
      exact hkept
    · rw [hwatch]
      cases hs with
      | admin hs =>
        exact off_answered hr hcleared hstored hreaching hkept hs hno
          (fun request io heq => hnot r request io (by rw [heq])) hclients hdone hoff
  · exact off_submit h hfresh ht

end Off

/-! ## What is off is off the network -/

/-- The server with the monitor of what is off, in runs whose steps do not overlap. -/
abbrev WatchedStep (env : Env) : Server × List Route → Event → Server × List Route → Prop :=
  Observed (Guarded (Step env) NonOverlapping) watch

/-- All that the proof carries along a run. -/
structure Watched (env : Env) (x : Server × List Route) : Prop where
  reachable : Reachable (Step env) Init x.1
  cleared : Cleared x.1
  stored : Stored x.1
  awaiting : AwaitingEnabled x.1
  reaching : Reaching x.1
  off : Off x.1 x.2

section Watched

variable {env : Env} {x y : Server × List Route} {e : Event}

theorem watched_init {s : Server} (h : Init s) : Watched env (s, []) := by
  have hreachable : Reachable (Step env) Init s := .init h
  refine ⟨hreachable, cleared_init h, stored_init h, ?_, reaching_init h, off_nil⟩
  obtain ⟨clients, _, rfl⟩ := h
  exact nofun

theorem NonOverlapping.sequential {s t : Server} (h : NonOverlapping s e) (hs : Step env s e t) :
    Sequential s e := by
  rintro r request io rfl r'
  rw [← Bool.not_eq_true]
  intro hrunning
  have hbusy : s.Busy (.admin r') := hrunning
  cases h.actor rfl hbusy
  cases hs with
  | admin hs =>
    cases hs with
    | submit hidle _ _ =>
      rw [hidle] at hrunning
      cases hrunning

theorem watched_step (h : Watched env x) (hs : WatchedStep env x e y) (hin : InTable x.1 e) :
    Watched env y := by
  obtain ⟨⟨hs, hno⟩, hwatch⟩ := hs
  refine ⟨h.reachable.step hs, cleared_step h.reachable h.cleared hs (hno.sequential hs),
    stored_step h.reachable h.stored hs hno, awaiting_step h.awaiting hs hno,
    reaching_step h.reachable h.stored h.reaching hs hno hin, ?_⟩
  rw [hwatch]
  exact off_step h.reachable h.cleared h.stored h.awaiting h.reaching h.off hs hno

theorem Watched.offNetwork (h : Watched env x) : OffNetwork x.1 x.2 := by
  intro l L hL hrunning route hroute hid
  have heq := loop_route_eq h.reachable hL (h.off.issued route hroute) hid
  exact h.off.loop l L hL hrunning (heq ▸ hroute)

/-- A visitor that comes is not one of a mapping that is off. -/
theorem Watched.accepts (h : Watched env x) (hs : WatchedStep env x e y) {a : Accepted}
    (ha : y.1.accepted = x.1.accepted ++ [a]) : ∀ route ∈ x.2, route.mappingId ≠ a.mapping.id := by
  obtain ⟨⟨hs, hno⟩, _⟩ := hs
  have hmore : y.1.accepted ≠ x.1.accepted := by
    rw [ha]
    exact fun heq => nomatch List.append_right_eq_self.mp heq
  rcases visitors_step hs with ⟨hsame, _⟩ | ⟨l, L, hL, haccepted, _⟩
  · exact absurd hsame hmore
  · have hreap : e.isReap = false := by
      rw [← Bool.not_eq_true]
      intro hreap
      obtain ⟨l, heq⟩ := reap_step hs hreap
      exact hmore (by rw [heq]; rfl)
    cases List.append_cancel_left (ha.symm.trans haccepted)
    exact h.offNetwork l L hL (hno.running hreap hL)

end Watched

/-- In every run of steps that do not overlap, in which every request to delete or
disable finds the loops it concerns in registered sessions:

* no loop that was started for a mapping that is off is running, in any session;
* no visitor that comes is one of a mapping that is off. -/
theorem removed_off_network {env : Env} {s₀ : Server} {x : Server × List Route}
    {tr : List ((Server × List Route) × Event × (Server × List Route))} (h₀ : Init s₀)
    (hrun : Run (WatchedStep env) (s₀, []) tr x) (hin : ∀ y ∈ tr, InTable y.1.1 y.2.1) :
    ∀ y ∈ tr, OffNetwork y.2.2.1 y.2.2.2 ∧
      ∀ a, y.2.2.1.accepted = y.1.1.accepted ++ [a] →
        ∀ route ∈ y.1.2, route.mappingId ≠ a.mapping.id := by
  have hguarded : Run (Guarded (WatchedStep env) fun x e => InTable x.1 e) (s₀, []) tr x :=
    hrun.guarded hin
  have hsteps : ∀ x e y, Watched env x →
      Guarded (WatchedStep env) (fun x e => InTable x.1 e) x e y →
        Watched env y ∧ OffNetwork y.1 y.2 ∧ ∀ a, y.1.accepted = x.1.accepted ++ [a] →
          ∀ route ∈ x.2, route.mappingId ≠ a.mapping.id := by
    rintro x e y h ⟨hs, hin⟩
    have hwatched := watched_step h hs hin
    exact ⟨hwatched, hwatched.offNetwork, fun a ha => h.accepts hs ha⟩
  exact hguarded.forall_steps hsteps (watched_init h₀)

/-! ## Runs of the example server -/

theorem inTable_of_isQuiet {s : Server} {e : Event} (h : e.isQuiet = true) : InTable s e := by
  intro r request heq
  rw [heq] at h
  cases h

/-- Only `a` may be busy, and no loop is aborted. -/
def Ready (s : Server) (a : Option Actor) : Prop :=
  (∀ b, s.Busy b → a = some b) ∧ ∀ l L, s.loops l = some L → L.aborted = false

/-- A run of the example server reaches `s`, where `off` is off and `Ready s a`; if
`b`, its requests find their loops in the table. -/
def Traced (b : Bool) (s : Server) (off : List Route) (a : Option Actor) : Prop :=
  (∃ tr, Run (WatchedStep exampleEnv) (Server.init exampleStore, []) tr (s, off) ∧
    (b = true → ∀ y ∈ tr, InTable y.1.1 y.2.1)) ∧ Ready s a

section Traced

variable {b : Bool} {s t : Server} {off : List Route} {e : Event} {a : Option Actor}

theorem traced_init (b : Bool) (a : Option Actor) : Traced b (Server.init exampleStore) [] a := by
  refine ⟨⟨[], .nil, fun _ _ hy => absurd hy List.not_mem_nil⟩, fun c hbusy => ?_, nofun⟩
  cases c <;> cases hbusy

theorem Traced.nonOverlapping (h : Traced b s off a) (hactor : e.actor = a) :
    NonOverlapping s e := by
  obtain ⟨_, halone, habort⟩ := h
  refine ⟨fun c hbusy => .inr (hactor.trans (halone c hbusy)), fun l L hL haborted => ?_⟩
  rw [habort l L hL] at haborted
  cases haborted

/-- Whoever is busy goes on. -/
theorem Traced.step (h : Traced b s off a) (hs : Step exampleEnv s e t) (hactor : e.actor = a)
    (hin : b = true → InTable s e) (hrunning : ∀ l L, t.loops l = some L → L.aborted = false) :
    Traced b t (watch off s e t) a := by
  have hno := h.nonOverlapping hactor
  obtain ⟨⟨tr, hrun, hall⟩, halone, _⟩ := h
  refine ⟨⟨_, hrun.snoc ⟨⟨hs, hno⟩, rfl⟩, fun hb y hy => ?_⟩, fun c hbusy => ?_, hrunning⟩
  · rcases List.mem_append.mp hy with hy | hy
    · exact hall hb y hy
    · cases List.mem_singleton.mp hy
      exact hin hb
  · cases c with
    | tunnel k =>
      rcases tunnel_of_step hs k with hsame | ⟨e', rfl, _⟩
      · exact halone (.tunnel k) (by rw [Server.Busy, ← hsame]; exact hbusy)
      · exact hactor.symm
    | admin r =>
      rcases admin_of_step hs r with hsame | ⟨e', rfl, _⟩
      · exact halone (.admin r) (by rw [Server.Busy, ← hsame]; exact hbusy)
      · exact hactor.symm

/-- Where nobody is busy, anyone may go on. -/
theorem Traced.free (h : Traced b s off a) (hfree : ∀ c, a = some c → ¬ s.Busy c)
    (a' : Option Actor) : Traced b s off a' :=
  ⟨h.1, fun c hbusy => absurd hbusy (hfree c (h.2.1 c hbusy)), h.2.2⟩

end Traced

/-- The first session of the example server is driven. -/
theorem traced_serving (b : Bool) : Traced b exampleServing [] (some (.tunnel 0)) :=
  example_serving (p := fun s => Traced b s [] (some (.tunnel 0))) (traced_init b _)
    fun h hs hquiet hrunning => h.step hs rfl (fun _ => inTable_of_isQuiet hquiet) hrunning

/-- The mapping is disabled while its client is connected once: its loop is aborted. -/
theorem removed_off_network_disabled :
    ∃ tr s off, Run (WatchedStep exampleEnv) (Server.init exampleStore, []) tr (s, off) ∧
      off = [exampleMapping.route "cli_home"] ∧ s.loops 0 = none ∧
      ∀ y ∈ tr, OffNetwork y.2.2.1 y.2.2.2 := by
  have idle := (traced_serving true).free (by rintro _ ⟨rfl⟩ hbusy; cases hbusy) (some (.admin 0))
  have submitted := idle.step (.admin (@AdminStep.submit _ 0 _ (.updateMapping "map_web" false)
    .done rfl serving_lock trivial)) rfl
    (fun _ _ _ _ _ l L hL => by
      rw [(example_loop rfl hL.1).2]
      exact ⟨⟨"cli_home", 0, "198.51.100.7:5000"⟩, rfl, rfl⟩) (example_running rfl)
  have collected := submitted.step (.admin (@AdminStep.collect _ 0 _ _ "map_web" [0] rfl
    (.refl _))) rfl (fun _ => inTable_of_isQuiet rfl) (example_running rfl)
  obtain ⟨⟨tr, hrun, hin⟩, _⟩ := id collected
  have answered := hrun.snoc (t := (_, _)) (e := .admin 0 .removeIn)
    ⟨⟨.admin (.removeIn (r := 0) rfl rfl), collected.nonOverlapping rfl⟩, rfl⟩
  have reaped := answered.snoc (t := (_, _)) (e := .loop 0 .reap)
    ⟨⟨.loop (.reap (l := 0) rfl rfl), fun _ _ => .inl rfl, fun _ _ _ _ => rfl⟩, rfl⟩
  refine ⟨_, _, _, reaped, rfl, rfl, fun y hy =>
    (removed_off_network init_example reaped ?_ y hy).1⟩
  intro y hy
  rcases List.mem_append.mp hy with hy | hy
  · rcases List.mem_append.mp hy with hy | hy
    · exact hin rfl y hy
    · cases List.mem_singleton.mp hy
      exact inTable_of_isQuiet rfl
  · cases List.mem_singleton.mp hy
    exact inTable_of_isQuiet rfl

/-- The mapping is disabled while its client is connected a second time, the first
session still being driven. The request is answered `Ok`, and the next visitor still
goes to the client, through the first session. -/
theorem removal_misses_replaced :
    ∃ tr s off, Run (WatchedStep exampleEnv) (Server.init exampleStore, []) tr (s, off) ∧
      s.admins 0 = .done (.updateMapping "map_web" false) .ok ∧
      s.streams = [(0, { target := "127.0.0.1:80", conn := 0 })] ∧ ¬ OffNetwork s off := by
  have idle := (traced_serving false).free (by rintro _ ⟨rfl⟩ hbusy; cases hbusy) (some (.tunnel 1))
  have found := example_found (p := fun s => Traced false s [] (some (.tunnel 1))) (k := 1)
    "198.51.100.7:5001" rfl rfl (by decide) (example_running rfl) idle
    fun h hs hquiet hrunning => h.step hs rfl (fun _ => inTable_of_isQuiet hquiet) hrunning
  have replaced := (found.step (.tunnel (.add (k := 1) rfl (.bindFails rfl))) rfl nofun
    (example_running rfl)).step (.tunnel (.drive (k := 1) rfl rfl rfl)) rfl nofun
    (example_running rfl)
  have alone := replaced.free (by rintro _ ⟨rfl⟩ hbusy; cases hbusy) (some (.admin 0))
  have submitted := alone.step (.admin (@AdminStep.submit _ 0 _ (.updateMapping "map_web" false)
    .done rfl serving_lock trivial)) rfl nofun (example_running rfl)
  -- the only map that is looked at is that of session 1, which is empty
  have answered := ((submitted.step (.admin (@AdminStep.collect _ 0 _ _ "map_web" [1] rfl
    (.refl _))) rfl nofun (example_running rfl)).step (.admin (.removeMiss (r := 0) rfl rfl)) rfl
    nofun (example_running rfl)).step (.admin (.removeNowhere (r := 0) rfl)) rfl nofun
    (example_running rfl)
  have rest := answered.free (by rintro _ ⟨rfl⟩ hbusy; cases hbusy) none
  have queued := (rest.step (.loop (.accept (l := 0) rfl nofun fun hlimit => absurd rfl hlimit.1))
    rfl nofun (example_running rfl)).step
    (.loop (@LoopStep.sendOk _ 0 _ _ _ [] [] rfl rfl rfl (by decide))) rfl nofun
    (example_running rfl)
  have proxied := ((queued.free nofun (some (.tunnel 0))).step
    (.tunnel (@TunnelStep.recv _ 0 _ _ _ [] [] rfl rfl nofun)) rfl nofun (example_running rfl)).step
    (.tunnel (@TunnelStep.openOk _ 0 _ _ _ [] [] rfl rfl)) rfl nofun (example_running rfl)
  obtain ⟨⟨tr, hrun, _⟩, _⟩ := proxied
  refine ⟨tr, _, _, hrun, rfl, rfl, fun hoff => ?_⟩
  exact hoff 0 _ rfl rfl (exampleMapping.route "cli_home") (List.mem_singleton_self _) rfl

end MiniMask.Tunnel
