import MiniMask.Tunnel.NonOverlapping
import MiniMask.Tunnel.Reconnect

/-!
# Listeners that agree with the configuration

A handler changes the store first and the listeners later, and `add_listener` stores
the handle of its loop only after binding the port. What another task does in between
is not looked at again.

* `Agree`: the mappings of a client with a running loop are its active ones.
* `Undisturbed`: the condition on a step that keeps other tasks out of these gaps.
* `listeners_agree`: in every run of undisturbed steps with one session of the client,
  they agree whenever all requests have returned.
* `reenabled_too_early`: a run of overlapping requests after which they do not.
-/

namespace MiniMask.Tunnel

open Lts

/-! ## Agreement -/

/-- The mapping `id` of `c` has a running accept loop. -/
def Server.Listens (s : Server) (c id : String) : Prop :=
  ∃ l L, s.loops l = some L ∧ L.aborted = false ∧ L.clientId = c ∧ L.mapping.id = id

/-- The mappings of `c` that have a running accept loop are the active ones. -/
def Agree (c : String) (s : Server) : Prop :=
  ∀ id, s.Listens c id ↔ ActiveId s.clients.list c id

/-- All requests have returned, and the session of `c` has started its listeners. -/
structure Settled (c : String) (s : Server) : Prop where
  answered : ∀ r, (s.admins r).isRunning = false
  started : ∃ info, s.sessions.lookup c = some info ∧
    (s.tunnels info.sessionId).hasStarted = true

/-! ## The runs -/

/-- A step during which the session of `c` stays connected and is not replaced, no
`accept` fails, and a bind fails only while an accept loop holds the port. -/
structure Steady (env : Env) (c : String) (s : Server) (e : Event) (t : Server) : Prop where
  step : Step env s e t
  session : ∀ info, s.sessions.lookup c = some info → t.sessions.lookup c = some info ∧
    (t.tunnels info.sessionId).isReturned = false
  accepts : ∀ l, e ≠ .loop l .acceptFails
  portHeld : ∀ c m k, e.bindFailure = some (c, m, k) →
    ∃ l L, s.loops l = some L ∧ L.port = m.remotePort

/-- Nothing comes between the store and the listeners of `c`:

* a port is bound only for a mapping that is active now;
* where a bind for an active mapping fails, the port is held by a running loop for that
  mapping;
* only loops of mappings that are not active now are stopped;
* no request disables or deletes a mapping whose port is bound and whose handle is not
  stored;
* a save fails only if its request does not change which mappings are active. -/
structure Undisturbed (env : Env) (c : String) (s : Server) (e : Event) : Prop where
  binds : ∀ st m k, e.Adds s st .bound → st.client = c → st.stage = .found m k →
    ActiveId s.clients.list c m.id
  fails : ∀ m info, e.bindFailure = some (c, m, info.sessionId) →
    s.sessions.lookup c = some info → Active s.clients.list c m →
      ∀ l L, s.loops l = some L → L.port = m.remotePort →
        L.aborted = false ∧ L.mapping.id = m.id
  stops : ∀ m, Active s.clients.list c m → Spares c m s e
  unstored : ∀ r request io, e = .admin r (.submit request io) → request.turnsOff = true →
    ∀ st m k l, s.HasStarter st → st.client = c → st.stage = .bound m k l →
      request.concerns (m.route c) = false
  saved : ∀ r request io info, e = .admin r (.submit request io) →
    s.sessions.lookup c = some info → io = .done ∨
      ∀ m, Active (handle env s.clients request io).2.list c m ↔ Active s.clients.list c m

/-! ## The session of the client -/

/-- The loops of `c` and the calls of `add_listener` for `c` are of its session, which
is connected; a session that `remove_listener` has collected is one of another client
or this one. -/
structure OneSession (c : String) (s : Server) : Prop where
  loop : ∀ l L, s.loops l = some L → L.clientId = c →
    ∃ info, s.sessions.lookup c = some info ∧ info.sessionId = L.session
  starter : ∀ st, s.HasStarter st → st.client = c → ∀ k, st.stage.session = some k →
    ∃ info, s.sessions.lookup c = some info ∧ info.sessionId = k
  connected : ∀ info, s.sessions.lookup c = some info →
    (s.tunnels info.sessionId).isReturned = false
  collected : ∀ r request id arcs, s.admins r = .running request (.removing id arcs) →
    ∀ k ∈ arcs, ∃ c', s.AuthenticatedAs k c' ∧
      (c' = c → ∃ info, s.sessions.lookup c = some info ∧ info.sessionId = k)

section OneSession

variable {env : Env} {s t : Server} {e : Event} {c : String}

theorem oneSession_init (h : Init s) : OneSession c s := by
  have hnone := h.no_starter
  have hidle := h.admins
  obtain ⟨clients, _, rfl⟩ := h
  refine ⟨nofun, fun st hst => absurd hst (hnone st), nofun, fun r _ _ _ hrunning => ?_⟩
  cases (hidle r).symm.trans hrunning

theorem oneSession_step (hr : Reachable (Step env) Init s) (h : OneSession c s)
    (hs : Steady env c s e t) : OneSession c t := by
  have hstays : ∀ {k}, (∃ info, s.sessions.lookup c = some info ∧ info.sessionId = k) →
      ∃ info, t.sessions.lookup c = some info ∧ info.sessionId = k := fun ⟨info, hlookup, hid⟩ =>
    ⟨info, (hs.session info hlookup).1, hid⟩
  constructor
  · rintro l L hL hclient
    rcases loop_of_step hs.step hL with ⟨L₀, hL₀, hsame, _⟩ | ⟨_, st, m, k, hst, _, hspawn⟩
    · rw [hsame] at hclient ⊢
      exact hstays (h.loop l L₀ hL₀ hclient)
    · rw [hspawn.loop] at hclient ⊢
      exact hstays (h.starter st hst hclient k (by rw [hspawn.stage]; rfl))
  · intro st' hst' hclient k hk
    rcases starter_of_step hs.step hst' with hst | ⟨hidle, _⟩ | ⟨st, a, s', hst, hadd, _⟩
    · exact hstays (h.starter st' hst hclient k hk)
    · rw [hidle] at hk
      cases hk
    · obtain ⟨hsame, _, hsession⟩ := hadd.keeps
      rw [hsame] at hclient
      rcases hsession k hk with hk | hfound
      · exact hstays (h.starter st hst hclient k hk)
      · exact hstays (hclient ▸ hfound)
  · intro info hlookup
    rcases lookup_of_step hs.step hlookup with hold | ⟨peer, hregistered⟩
    · exact (hs.session info hold).2
    · rw [hregistered]
      rfl
  · intro r request id arcs hremoving k hk
    have hold : ∀ {arcs'}, s.admins r = .running request (.removing id arcs') → k ∈ arcs' →
        ∃ c', t.AuthenticatedAs k c' ∧
          (c' = c → ∃ info, t.sessions.lookup c = some info ∧ info.sessionId = k) := by
      intro arcs' hremoving hk
      obtain ⟨c', hauth, hentry⟩ := h.collected r request id arcs' hremoving k hk
      exact ⟨c', authenticatedAs_step hs.step hauth, fun heq => hstays (hentry heq)⟩
    rcases admin_of_step hs.step r with hsame | ⟨e', rfl, hs'⟩
    · exact hold (hsame ▸ hremoving) hk
    · rcases hs'.running hremoving with ⟨io, _, hgo⟩ | ⟨stage, hrunning, hnext⟩
      · cases (handle_go hgo).2
      · cases hnext with
        | collect hperm =>
          obtain ⟨c', info, hlookup, rfl⟩ := (mem_collected hperm).mp hk
          exact ⟨c', authenticatedAs_step hs.step (authenticatedAs_of_lookup hr hlookup),
            fun heq => hstays (heq ▸ ⟨info, hlookup, rfl⟩)⟩
        | removeMiss _ => exact hold hrunning (List.mem_cons_of_mem _ hk)

end OneSession

/-! ## Ports and handles -/

/-- Two loops never hold one port. -/
def PortsDistinct (s : Server) : Prop :=
  ∀ l L l' L', s.loops l = some L → s.loops l' = some L' → L.port = L'.port → l = l'

/-- What the handles of `c` tell: a bound port is that of an active mapping, its loop
runs until the handle is stored, and every running loop has its handle stored or is
about to have. -/
structure Kept (c : String) (s : Server) : Prop where
  bound : ∀ st, s.HasStarter st → st.client = c → ∀ m k l, st.stage = .bound m k l →
    ActiveId s.clients.list c m.id ∧ ∃ L, s.loops l = some L ∧ L.aborted = false
  handle : ∀ l L, s.loops l = some L → L.clientId = c → L.aborted = false →
    (s.listeners L.session).lookup L.mapping.id = some l ∨
      ∃ st m, s.HasStarter st ∧ st.client = c ∧ st.stage = .bound m L.session l

section Kept

variable {env : Env} {s t : Server} {e : Event} {c : String}

theorem portsDistinct_reachable (h : Reachable (Step env) Init s) : PortsDistinct s := by
  refine h.invariant (fun s h => ?_) fun s e t h hs l L l' L' hL hL' hport => ?_
  · obtain ⟨clients, _, rfl⟩ := h
    intro l L l' L' hL
    cases hL
  rcases loop_of_step hs hL with ⟨L₀, hL₀, hsame, _⟩ | ⟨_, _, m, _, _, _, hspawn⟩
  · rcases loop_of_step hs hL' with ⟨L₀', hL₀', hsame', _⟩ | ⟨_, _, m', _, _, _, hspawn'⟩
    · rw [hsame, hsame'] at hport
      exact h l L₀ l' L₀' hL₀ hL₀' hport
    · rw [hsame, hspawn'.loop] at hport
      exact absurd hport (hspawn'.free l L₀ hL₀)
  · rcases loop_of_step hs hL' with ⟨L₀', hL₀', hsame', _⟩ | ⟨_, _, m', _, _, _, hspawn'⟩
    · rw [hspawn.loop, hsame'] at hport
      exact absurd hport.symm (hspawn.free l' L₀' hL₀')
    · exact hspawn.id.trans hspawn'.id.symm

/-- Loops for one mapping are one loop. -/
theorem loop_unique (hr : Reachable (Step env) Init s) {l l' : LoopId} {L L' : AcceptLoop}
    (hL : s.loops l = some L) (hL' : s.loops l' = some L') (hid : L.mapping.id = L'.mapping.id) :
    l = l' := by
  have hlisten := listening_reachable hr
  have hroute := loop_route_eq hr hL (hlisten.loop_route l' L' hL') hid.symm
  refine portsDistinct_reachable hr l L l' L' hL hL' ?_
  rw [(hlisten.loop_mapping l L hL).1, (hlisten.loop_mapping l' L' hL').1]
  exact congrArg Route.remotePort hroute

/-- The loops for an active mapping are of its client. -/
theorem owner_of_active (hr : Reachable (Step env) Init s) {l : LoopId} {L : AcceptLoop}
    {m : PortMapping} (hL : s.loops l = some L) (hactive : Active s.clients.list c m)
    (hid : L.mapping.id = m.id) : L.clientId = c := by
  have hissued := (ledger_reachable hr).routes_issued _ hactive.route_mem
  exact congrArg Route.clientId (loop_route_eq hr hL hissued hid.symm)

/-- The channel of a registered session is open. -/
theorem OneSession.channelOpen (h : OneSession c s) {k : SessionId}
    (hentry : ∃ info, s.sessions.lookup c = some info ∧ info.sessionId = k) :
    s.channelOpen k = true := by
  obtain ⟨info, hlookup, rfl⟩ := hentry
  unfold Server.channelOpen
  rw [h.connected info hlookup]
  rfl

/-- What an undisturbed step leaves running: the loops of active mappings. -/
theorem Undisturbed.running (hok : Undisturbed env c s e) (hr : Reachable (Step env) Init s)
    (hone : OneSession c s) (hs : Steady env c s e t) {l : LoopId} {L : AcceptLoop}
    (hL : s.loops l = some L) (hrunning : L.aborted = false) (hclient : L.clientId = c)
    (hactive : ActiveId s.clients.list c L.mapping.id) : t.loops l = some L := by
  have hlisten := listening_reachable hr
  have hhandles := handles_reachable hr
  obtain ⟨m, hactive, hid⟩ := hactive
  rcases running_of_step hs.step (hlisten.loop_lt l L hL) hL hrunning with
    hkept | hclosed | rfl | ⟨r, request, id, k, arcs, rfl, hremoving, hhandle⟩ |
      ⟨r, request, k, id, rfl, hdraining, hhandle⟩
  · exact hkept
  · rw [hone.channelOpen (hone.loop l L hL hclient)] at hclosed
    cases hclosed
  · exact absurd rfl (hs.accepts l)
  · cases hid.trans ((hhandles.handle k id l hhandle).2 L hL).2
    rw [(hok.stops m hactive).1 r request k arcs rfl hremoving] at hhandle
    cases hhandle
  · have hauth := hlisten.loop_session l L hL
    rw [((hhandles.handle k id l hhandle).2 L hL).1, hclient] at hauth
    exact absurd hauth ((hok.stops m hactive).2 r request k rfl hdraining)

theorem kept_init (h : Init s) : Kept c s := by
  have hnone := h.no_starter
  obtain ⟨clients, _, rfl⟩ := h
  exact ⟨fun st hst => absurd hst (hnone st), nofun⟩

/-- A loop whose port was bound runs, and its mapping is active, until its handle is
stored. -/
theorem Kept.bound_step (h : Kept c s) (hr : Reachable (Step env) Init s) (hone : OneSession c s)
    (hs : Steady env c s e t) (hok : Undisturbed env c s e) {st' : Starter}
    (hst' : t.HasStarter st') (hclient : st'.client = c) {m : PortMapping} {k : SessionId}
    {l : LoopId} (hbound : st'.stage = .bound m k l) :
    ActiveId t.clients.list c m.id ∧ ∃ L, t.loops l = some L ∧ L.aborted = false := by
  rcases added_of_step hs.step hst' with hst | ⟨hidle, _⟩ | ⟨st, a, s', hadds, hadd, hloops, _⟩
  · obtain ⟨hactive, L, hL, hrunning⟩ := h.bound st' hst hclient m k l hbound
    obtain ⟨hsession, hid⟩ := ((handles_reachable hr).bound st' hst m k l hbound).2 L hL
    have hauth := (listening_reachable hr).starter_session st' hst k (by rw [hbound]; rfl)
    have hown : L.clientId = c := by
      refine AuthenticatedAs.unique ((listening_reachable hr).loop_session l L hL) ?_
      rw [hsession, ← hclient]
      exact hauth
    refine ⟨?_, L, hok.running hr hone hs hL hrunning hown (hid ▸ hactive), hrunning⟩
    rcases clients_of_step hs.step with ⟨_, hclients⟩ | ⟨r, request, io, rfl, _, _, rfl⟩
    · rw [hclients]
      exact hactive
    · obtain ⟨m', hactive', hsame⟩ := hactive
      rw [← hsame]
      refine active_kept hactive' fun hoff => ?_
      have hissued := (listening_reachable hr).starter_route st' hst m (.inr (by rw [hbound]; rfl))
      rw [hclient] at hissued
      have hledger := ledger_reachable hr
      rw [hledger.route_eq (hledger.routes_issued _ hactive'.route_mem) hissued hsame]
      exact hok.unstored r request io rfl hoff st' m k l hst hclient hbound
  · rw [hbound] at hidle
    cases hidle
  · cases hadd with
    | @bound m' k' hfound hfree =>
      cases hbound
      have hactive := hok.binds st m k hadds hclient hfound
      have hclients : t.clients = s.clients := by
        rcases clients_of_step hs.step with ⟨_, hclients⟩ | ⟨r, request, io, rfl, _⟩
        · exact hclients
        · cases hadds
      rw [hclients, hloops]
      exact ⟨hactive, _, Function.update_self .., rfl⟩
    | offline hidle _ _ => cases hidle.symm.trans hbound
    | found _ _ _ => cases hbound
    | bindFails _ => cases hbound
    | stored _ => cases hbound

/-- The handle of a running loop stays where it is, or it is stored now. -/
theorem Kept.handle_step (h : Kept c s) (hr : Reachable (Step env) Init s)
    (hs : Step env s e t) {l : LoopId} {L : AcceptLoop} (hL : t.loops l = some L)
    (hclient : L.clientId = c) (hrunning : L.aborted = false) :
    (t.listeners L.session).lookup L.mapping.id = some l ∨
      ∃ st m, t.HasStarter st ∧ st.client = c ∧ st.stage = .bound m L.session l := by
  have hunique : ∀ st m l', s.HasStarter st → st.stage = .bound m L.session l' →
      m.id = L.mapping.id → s.loops l = some L → l' = l := by
    intro st m l' hst hbound hid hL₀
    have hlisten := listening_reachable hr
    have hauth := hlisten.starter_session st hst L.session (by rw [hbound]; rfl)
    have hown : st.client = c :=
      (AuthenticatedAs.unique hauth (hlisten.loop_session l L hL₀)).trans hclient
    -- the loop whose handle replaces its own is still there, so it is the same
    obtain ⟨_, L', hL', _⟩ := h.bound st hst hown m _ l' hbound
    have hid' := (((handles_reachable hr).bound st hst m _ l' hbound).2 L' hL').2
    exact loop_unique hr hL' hL₀ (hid'.trans hid)
  have hold : s.loops l = some L → (s.listeners L.session).lookup L.mapping.id = some l ∨
      ∃ st m, s.HasStarter st ∧ st.stage = .bound m L.session l := by
    intro hL₀
    rcases h.handle l L hL₀ hclient hrunning with hlookup | ⟨st, m, hst, _, hbound⟩
    · exact .inl hlookup
    · exact .inr ⟨st, m, hst, hbound⟩
  rcases handle_of_running hr hs hL hrunning hold hunique with hlookup | ⟨st, m, hst, hbound⟩
  · exact .inl hlookup
  · have hlisten := listening_reachable (hr.step hs)
    have hauth := hlisten.starter_session st hst L.session (by rw [hbound]; rfl)
    exact .inr ⟨st, m, hst, (AuthenticatedAs.unique hauth (hlisten.loop_session l L hL)).trans
      hclient, hbound⟩

theorem kept_step (h : Kept c s) (hr : Reachable (Step env) Init s) (hone : OneSession c s)
    (hs : Steady env c s e t) (hok : Undisturbed env c s e) : Kept c t :=
  ⟨fun _ hst' hclient _ _ _ => h.bound_step hr hone hs hok hst' hclient,
    fun _ _ hL => h.handle_step hr hs.step hL⟩

/-- A running loop of a mapping that is not active has its handle stored. -/
theorem Kept.lookup (h : Kept c s) (hr : Reachable (Step env) Init s) {l : LoopId}
    {L : AcceptLoop} (hL : s.loops l = some L) (hclient : L.clientId = c)
    (hrunning : L.aborted = false) (hnot : ¬ ActiveId s.clients.list c L.mapping.id) :
    (s.listeners L.session).lookup L.mapping.id = some l := by
  rcases h.handle l L hL hclient hrunning with hlookup | ⟨st, m, hst, hown, hbound⟩
  · exact hlookup
  · have hid := (((handles_reachable hr).bound st hst m _ l hbound).2 L hL).2
    exact absurd (hid ▸ (h.bound st hst hown m _ l hbound).1) hnot

end Kept

/-! ## Running loops -/

/-- The handler is going to abort the loop. -/
def AdminStage.Stops (L : AcceptLoop) : AdminStage → Prop
  | .removeListener id => L.mapping.id = id
  | .removing id arcs => L.mapping.id = id ∧ L.session ∈ arcs
  | .removeClient id => L.clientId = id
  | .draining k => L.session = k
  | _ => False

/-- Every running loop of `c` is for an active mapping, or a handler is going to abort
it. -/
def Accounted (c : String) (s : Server) : Prop :=
  ∀ l L, s.loops l = some L → L.clientId = c → L.aborted = false →
    ActiveId s.clients.list c L.mapping.id ∨
      ∃ r request stage, s.admins r = .running request stage ∧ stage.Stops L

section Accounted

variable {env : Env} {s t : Server} {e : Event} {c : String}

/-- A handler that is going to abort a loop is still going to, or has aborted it. -/
theorem AdminStep.stops_loop {r : RequestId} {e : AdminEvent} (hr : Reachable (Step env) Init s)
    (hone : OneSession c s) (hkept : Kept c s) (hs : AdminStep env r s e t)
    {request : AdminRequest} {stage : AdminStage} (hrunning : s.admins r = .running request stage)
    {l : LoopId} {L : AcceptLoop} (hL : s.loops l = some L) (hL' : t.loops l = some L)
    (hclient : L.clientId = c) (haborted : L.aborted = false) (hstops : stage.Stops L)
    (hnot : ¬ ActiveId s.clients.list c L.mapping.id) :
    ∃ stage', t.admins r = .running request stage' ∧ stage'.Stops L := by
  have hlookup := hkept.lookup hr hL hclient haborted hnot
  obtain ⟨info, hentry, hsession⟩ := hone.loop l L hL hclient
  cases hs with
  | submit hidle _ _ => cases hidle.symm.trans hrunning
  | findMapping hfind => cases hfind.symm.trans hrunning; cases hstops
  | startClient hstart => cases hstart.symm.trans hrunning; cases hstops
  | add hadding _ => cases hadding.symm.trans hrunning; cases hstops
  | added hadding _ _ => cases hadding.symm.trans hrunning; cases hstops
  | collect hremove hperm =>
    cases hremove.symm.trans hrunning
    exact ⟨_, Function.update_self .., hstops, (mem_collected hperm).mpr ⟨c, info, hentry, hsession⟩⟩
  | @removeIn _ id k arcs l₁ hremoving hfound =>
    cases hremoving.symm.trans hrunning
    -- the session is that of the loop: its client owns the mapping
    obtain ⟨route, hroute, hid, hauth⟩ := (handles_reachable hr).owner k id l₁ hfound
    have hown := congrArg Route.clientId
      (loop_route_eq hr hL hroute (hid.trans hstops.1.symm))
    obtain ⟨c', hauth', hcollected⟩ :=
      hone.collected r request id (k :: arcs) hrunning k List.mem_cons_self
    have hc : c' = c := (AuthenticatedAs.unique hauth' hauth).trans (hown.symm.trans hclient)
    obtain ⟨info', hentry', rfl⟩ := hcollected hc
    cases hentry.symm.trans hentry'
    rw [← hsession, hstops.1, hfound] at hlookup
    cases hlookup
    rw [aborted_of_abort (p := (· == l)) (beq_self_eq_true l) hL'] at haborted
    cases haborted
  | @removeMiss _ id k arcs hremoving hmiss =>
    cases hremoving.symm.trans hrunning
    refine ⟨_, Function.update_self .., hstops.1, ?_⟩
    refine (List.mem_cons.mp hstops.2).resolve_left fun heq => ?_
    rw [heq, hstops.1, hmiss] at hlookup
    cases hlookup
  | removeNowhere hremoving =>
    cases hremoving.symm.trans hrunning
    cases hstops.2
  | offline hremove hnone =>
    cases hremove.symm.trans hrunning
    rw [← show L.clientId = _ from hstops, hclient, hentry] at hnone
    cases hnone
  | findSession hremove hfound =>
    cases hremove.symm.trans hrunning
    rw [← show L.clientId = _ from hstops, hclient] at hfound
    cases hentry.symm.trans hfound
    exact ⟨_, Function.update_self .., hsession.symm⟩
  | @drain _ k hdraining =>
    cases hdraining.symm.trans hrunning
    rw [show L.session = k from hstops] at hlookup
    have hany : ((s.listeners k).entries.any fun x => x.2 == l) = true :=
      List.any_eq_true.mpr ⟨_, AList.mem_lookup_iff.mp hlookup, beq_self_eq_true l⟩
    rw [aborted_of_abort (p := fun l => (s.listeners k).entries.any fun x => x.2 == l) hany hL']
      at haborted
    cases haborted

/-- A request leaves the mapping of a loop active, or its handler goes on to stop the loop. -/
theorem Undisturbed.submit {r : RequestId} {request : AdminRequest} {io : AtomicFile.Outcome}
    (hok : Undisturbed env c s (.admin r (.submit request io))) {info : SessionInfo}
    (hentry : s.sessions.lookup c = some info) {L : AcceptLoop} (hclient : L.clientId = c)
    (hactive : ActiveId s.clients.list c L.mapping.id) :
    ActiveId (handle env s.clients request io).2.list c L.mapping.id ∨
      ∃ stage, (handle env s.clients request io).1 = .go stage ∧ stage.Stops L := by
  by_cases hactive' : ActiveId (handle env s.clients request io).2.list c L.mapping.id
  · exact .inl hactive'
  · obtain ⟨m, hm, hid⟩ := hactive
    rcases hok.saved r request io info rfl hentry with rfl | hunchanged
    · rw [← hid] at hactive'
      rcases inactive_handle hm hactive' with hgo | hgo
      · exact .inr ⟨.removeListener m.id, hgo, hid.symm⟩
      · exact .inr ⟨.removeClient c, hgo, hclient⟩
    · exact absurd ⟨m, (hunchanged m).mpr hm, hid⟩ hactive'

theorem accounted_step (h : Accounted c s) (hr : Reachable (Step env) Init s)
    (hone : OneSession c s) (hkept : Kept c s) (hs : Steady env c s e t)
    (hok : Undisturbed env c s e) : Accounted c t := by
  intro l L hL hclient haborted
  rcases spawned_of_step hs.step hL with ⟨L₀, hL₀, hsame⟩ | ⟨_, st, m, k, hadds, _, hspawn⟩
  · cases hsame.eq haborted
    by_cases hactive : ActiveId s.clients.list c L.mapping.id
    · rcases clients_of_step hs.step with ⟨_, hclients⟩ | ⟨r, request, io, rfl, _, _, rfl⟩
      · rw [hclients]
        exact .inl hactive
      · obtain ⟨info, hentry, _⟩ := hone.loop l L hL₀ hclient
        rcases hok.submit hentry hclient hactive with hactive' | ⟨stage, hgo, hstops⟩
        · exact .inl hactive'
        · refine .inr ⟨r, request, stage, ?_, hstops⟩
          simp only [Server.setAdmin, Function.update_self, hgo]
          rfl
    · obtain ⟨r, request, stage, hrunning, hstops⟩ :=
        (h l L hL₀ hclient haborted).resolve_left hactive
      rcases admin_of_step hs.step r with hadmin | ⟨e', rfl, hs'⟩
      · exact .inr ⟨r, request, stage, hadmin.trans hrunning, hstops⟩
      · obtain ⟨stage', hrunning', hstops'⟩ :=
          hs'.stops_loop hr hone hkept hrunning hL₀ hL hclient haborted hstops hactive
        exact .inr ⟨r, request, stage', hrunning', hstops'⟩
  · rw [hspawn.loop] at hclient ⊢
    have hactive := hok.binds st m k hadds hclient hspawn.stage
    rcases clients_of_step hs.step with ⟨_, hclients⟩ | ⟨r, request, io, rfl, _⟩
    · rw [hclients]
      exact .inl hactive
    · cases hadds

end Accounted

/-! ## Listeners agree with the store -/

/-- Every active mapping of a session of `c` that has read the mappings is served or
about to be bound. -/
def PromisedTo (c : String) (s : Server) : Prop :=
  ∀ m info, s.sessions.lookup c = some info → (s.tunnels info.sessionId).hasSnapshot = true →
    Active s.clients.list c m → s.Serves info.sessionId m ∨ s.Pending c info.sessionId m

/-- What holds of `c` in every state of an undisturbed run. -/
structure Agreeing (env : Env) (c : String) (s : Server) : Prop where
  reachable : Reachable (Step env) Init s
  one : OneSession c s
  kept : Kept c s
  accounted : Accounted c s
  promised : PromisedTo c s

section Agreeing

variable {env : Env} {s t : Server} {e : Event} {c : String}

theorem agreeing_init (h : Init s) : Agreeing env c s := by
  refine ⟨.init h, oneSession_init h, kept_init h, ?_, ?_⟩
  · obtain ⟨clients, _, rfl⟩ := h
    exact nofun
  · obtain ⟨clients, _, rfl⟩ := h
    exact nofun

theorem agreeing_step (h : Agreeing env c s) (hs : Steady env c s e t)
    (hok : Undisturbed env c s e) : Agreeing env c t := by
  obtain ⟨hr, hone, hkept, haccounted, hpromised⟩ := h
  refine ⟨hr.step hs.step, oneSession_step hr hone hs, kept_step hkept hr hone hs hok,
    accounted_step haccounted hr hone hkept hs hok, fun m info => ?_⟩
  refine promise_step hr hs.step hs.accepts (hok.stops m) (fun info hfails hlookup hactive => ?_)
    (fun r request io info heq hlookup _ => ?_) (hpromised m)
  · obtain ⟨l, L, hL, hport⟩ := hs.portHeld c m _ hfails
    obtain ⟨hrunning, hid⟩ := hok.fails m info hfails hlookup hactive l L hL hport
    obtain ⟨info', hentry, hsession⟩ := hone.loop l L hL (owner_of_active hr hL hactive hid)
    cases hlookup.symm.trans hentry
    exact ⟨l, L, hL, hrunning, hport, hsession.symm, hid⟩
  · exact (hok.saved r request io info heq hlookup).imp_right fun hsame => (hsame m).mp

theorem Agreeing.agree (h : Agreeing env c s) (hsettled : Settled c s) : Agree c s := by
  have hnone : ∀ r request stage, s.admins r ≠ .running request stage := by
    intro r request stage hrunning
    have hidle := hsettled.answered r
    rw [hrunning] at hidle
    cases hidle
  refine fun id => ⟨?_, ?_⟩
  · rintro ⟨l, L, hL, haborted, hclient, rfl⟩
    refine (h.accounted l L hL hclient haborted).resolve_right ?_
    rintro ⟨r, request, stage, hrunning, _⟩
    exact hnone r request stage hrunning
  · rintro ⟨m, hactive, rfl⟩
    obtain ⟨info, hlookup, hstarted⟩ := hsettled.started
    have hsnapshot := (TunnelTask.snapshot_of_hasStarted hstarted).1
    obtain ⟨l, L, hL, haborted, _, hsession, hid⟩ :=
      (h.promised m info hlookup hsnapshot hactive).resolve_right
        (not_pending hstarted hsettled.answered)
    have hauth := (listening_reachable h.reachable).loop_session l L hL
    rw [hsession] at hauth
    exact ⟨l, L, hL, haborted,
      AuthenticatedAs.unique hauth (authenticatedAs_of_lookup h.reachable hlookup), hid⟩

end Agreeing

/-! ## Runs of the example server -/

/-- The event is quiet, binds no port and stops no listener. -/
def Event.isPlain : Event → Bool
  | .tunnel _ (.add .bound) => false
  | .admin _ (.add .bound) => false
  | .admin _ .removeIn => false
  | .admin _ .drain => false
  | e => e.isQuiet

theorem Event.isQuiet_of_isPlain {e : Event} (h : e.isPlain = true) : e.isQuiet = true := by
  unfold Event.isPlain at h
  split at h
  · cases h
  · cases h
  · cases h
  · cases h
  · exact h

/-- A step that begins no request and stops no listener can disturb only by a bind. -/
theorem undisturbed_of_binds {env : Env} {c : String} {s : Server} {e : Event}
    (hbinds : ∀ st m k, e.Adds s st .bound → st.client = c → st.stage = .found m k →
      ActiveId s.clients.list c m.id)
    (hfails : ∀ m info, e.bindFailure = some (c, m, info.sessionId) →
      s.sessions.lookup c = some info → Active s.clients.list c m →
        ∀ l L, s.loops l = some L → L.port = m.remotePort →
          L.aborted = false ∧ L.mapping.id = m.id)
    (hsubmit : ∀ r request io, e ≠ .admin r (.submit request io))
    (hremove : ∀ r, e ≠ .admin r .removeIn) (hdrain : ∀ r, e ≠ .admin r .drain) :
    Undisturbed env c s e where
  binds := hbinds
  fails := hfails
  stops _ _ := ⟨fun r _ _ _ heq => absurd heq (hremove r), fun r _ _ heq => absurd heq (hdrain r)⟩
  unstored r request io heq := absurd heq (hsubmit r request io)
  saved r request io _ heq := absurd heq (hsubmit r request io)

theorem undisturbed_of_isPlain {env : Env} {c : String} {s : Server} {e : Event}
    (h : e.isPlain = true) : Undisturbed env c s e := by
  have hquiet := e.isQuiet_of_isPlain h
  refine undisturbed_of_binds (fun st m k hadds => ?_) (fun m info hfails => ?_) ?_ ?_ ?_
  · unfold Event.Adds at hadds
    split at hadds
    · cases hadds.1
      cases h
    · cases hadds.1
      cases h
    · cases hadds
  · rw [e.bindFailure_of_isQuiet hquiet] at hfails
    cases hfails
  · rintro r request io rfl
    cases h
  · rintro r rfl
    cases h
  · rintro r rfl
    cases h

theorem steady_of_isQuiet {env : Env} {c : String} {s t : Server} {e : Event}
    (hs : Step env s e t) (hquiet : e.isQuiet = true)
    (hsession : ∀ info, s.sessions.lookup c = some info → t.sessions.lookup c = some info ∧
      (t.tunnels info.sessionId).isReturned = false) : Steady env c s e t where
  step := hs
  session := hsession
  accepts l heq := by rw [heq] at hquiet; cases hquiet
  portHeld c m k heq := by rw [e.bindFailure_of_isQuiet hquiet] at heq; cases heq

theorem session_stays {c : String} {s t : Server} {info : SessionInfo}
    (hs : s.sessions.lookup c = some info) (ht : t.sessions.lookup c = some info)
    (hlive : (t.tunnels info.sessionId).isReturned = false) :
    ∀ info, s.sessions.lookup c = some info → t.sessions.lookup c = some info ∧
      (t.tunnels info.sessionId).isReturned = false := by
  intro info' hlookup
  cases hs.symm.trans hlookup
  exact ⟨ht, hlive⟩

theorem writeLockFree_setAdmin {s : Server} {r : RequestId} {a : Admin} (h : s.WriteLockFree)
    (ha : ∀ request st, a ≠ .running request (.adding st true)) :
    (s.setAdmin r a).WriteLockFree := by
  intro r' request st heq
  rcases eq_or_ne r' r with rfl | hne
  · exact ha request st ((Function.update_self ..).symm.trans heq)
  · exact h r' request st ((Function.update_of_ne hne ..).symm.trans heq)

/-- A run of undisturbed steps of the example server reaches `s`. -/
def Calm (s : Server) : Prop :=
  ∃ tr, Run (Steady exampleEnv "cli_home") (Server.init exampleStore) tr s ∧
    ∀ x ∈ tr, Undisturbed exampleEnv "cli_home" x.1 x.2.1

theorem Calm.snoc {s t : Server} {e : Event} (h : Calm s)
    (hs : Steady exampleEnv "cli_home" s e t) (hok : Undisturbed exampleEnv "cli_home" s e) :
    Calm t := by
  obtain ⟨tr, hrun, hall⟩ := h
  exact ⟨_, hrun.snoc hs, List.forall_mem_append.mpr ⟨hall, List.forall_mem_singleton.mpr hok⟩⟩

theorem Calm.plain {s t : Server} {e : Event} (h : Calm s) (hs : Step exampleEnv s e t)
    (hplain : e.isPlain = true)
    (hsession : ∀ info, s.sessions.lookup "cli_home" = some info →
      t.sessions.lookup "cli_home" = some info ∧
        (t.tunnels info.sessionId).isReturned = false) : Calm t :=
  h.snoc (steady_of_isQuiet hs (e.isQuiet_of_isPlain hplain) hsession)
    (undisturbed_of_isPlain hplain)

/-- What the steps up to the first bind keep holds of `exampleFound`. -/
theorem steady_found {p : Server → Prop} (h₀ : p (Server.init exampleStore))
    (keep : ∀ {s t e}, p s → Steady exampleEnv "cli_home" s (.tunnel 0 e) t →
      (Event.tunnel 0 e).isPlain = true → (∀ l L, t.loops l = some L → L.aborted = false) → p t) :
    p (exampleFound (Server.init exampleStore) 0 "198.51.100.7:5000") := by
  have verified := keep h₀ (steady_of_isQuiet
    (example_verified (k := 0) "198.51.100.7:5000" (s := Server.init exampleStore) rfl rfl) rfl
    nofun) rfl nofun
  have registered := keep verified (steady_of_isQuiet
    (.tunnel (.admitted (k := 0) rfl (by decide))) rfl nofun) rfl nofun
  have connected := keep registered (steady_of_isQuiet (.tunnel (.statusOk (k := 0) rfl)) rfl
    (session_stays rfl rfl rfl)) rfl nofun
  have starting := keep connected (steady_of_isQuiet (.tunnel (.startListeners (k := 0) rfl)) rfl
    (session_stays rfl rfl rfl)) rfl nofun
  exact keep starting (steady_of_isQuiet (.tunnel (.add (k := 0) rfl
    (@AddStep.found _ _ exampleMapping [] ⟨"cli_home", 0, "198.51.100.7:5000"⟩ rfl rfl rfl))) rfl
    (session_stays rfl rfl rfl)) rfl nofun

/-- What the steps of the first session keep, its bind included, holds of
`exampleServing`. -/
theorem steady_serving {p : Server → Prop} (h₀ : p (Server.init exampleStore))
    (keep : ∀ {s t e}, p s → Steady exampleEnv "cli_home" s (.tunnel 0 e) t →
      (Event.tunnel 0 e).isPlain = true → (∀ l L, t.loops l = some L → L.aborted = false) → p t)
    (bind : ∀ {t}, p (exampleFound (Server.init exampleStore) 0 "198.51.100.7:5000") →
      Steady exampleEnv "cli_home"
        (exampleFound (Server.init exampleStore) 0 "198.51.100.7:5000") (.tunnel 0 (.add .bound)) t →
      (∀ l L, t.loops l = some L → L.aborted = false) → p t) :
    p exampleServing := by
  have bound := bind (steady_found h₀ keep) (steady_of_isQuiet
    (.tunnel (.add (k := 0) rfl (.bound rfl fun l L hL => by cases hL))) rfl
    (session_stays rfl rfl rfl)) (example_running rfl)
  have stored := keep bound (steady_of_isQuiet (.tunnel (.add (k := 0) rfl (.stored rfl))) rfl
    (session_stays rfl rfl rfl)) rfl (example_running rfl)
  exact keep stored (steady_of_isQuiet (.tunnel (.drive (k := 0) rfl rfl rfl)) rfl
    (session_stays rfl rfl rfl)) rfl (example_running rfl)

theorem calm_init : Calm (Server.init exampleStore) := ⟨_, .nil, fun _ hx => nomatch hx⟩

theorem calm_found : Calm (exampleFound (Server.init exampleStore) 0 "198.51.100.7:5000") :=
  steady_found calm_init fun h hs hplain _ => h.snoc hs (undisturbed_of_isPlain hplain)

/-- The only mapping of the example store is active. -/
theorem activeId_example : ActiveId exampleStore.list "cli_home" "map_web" :=
  ⟨exampleMapping, ⟨exampleClient, List.mem_singleton_self _, rfl, rfl, List.mem_singleton_self _,
    rfl⟩, rfl⟩

/-- The session binds the port of the mapping while it is active. -/
theorem undisturbed_bound {s : Server} {peer : Peer} {st : Starter}
    (hlive : s.tunnels 0 = .live peer (.starting st)) (hfound : st.stage = .found exampleMapping 0)
    (hactive : ActiveId s.clients.list "cli_home" "map_web") :
    Undisturbed exampleEnv "cli_home" s (.tunnel 0 (.add .bound)) := by
  refine undisturbed_of_binds ?_ (fun _ _ heq => by cases heq) nofun nofun nofun
  rintro st' m k ⟨_, peer', hlive'⟩ _ hfound'
  cases hlive.symm.trans hlive'
  cases hfound.symm.trans hfound'
  exact hactive

/-! ## Whole runs -/

/-- In every run of undisturbed steps in which one session of `c` stays connected, the
mappings of `c` with a running accept loop are the active ones whenever all requests have
returned and the session has started its listeners. -/
theorem listeners_agree {env : Env} {c : String} {s₀ s : Server}
    {tr : List (Server × Event × Server)} (h₀ : Init s₀) (hrun : Run (Steady env c) s₀ tr s)
    (hok : ∀ x ∈ tr, Undisturbed env c x.1 x.2.1) :
    ∀ x ∈ tr, Settled c x.2.2 → Agree c x.2.2 := by
  have hkeep : ∀ s e t, Agreeing env c s →
      Guarded (Steady env c) (Undisturbed env c) s e t → Agreeing env c t :=
    fun _ _ _ h hs => agreeing_step h hs.1 hs.2
  have hagreeing := (hrun.guarded hok).forall_states hkeep (agreeing_init h₀)
  exact fun x hx => (hagreeing x hx).agree

/-- The mapping is enabled while the session starts its listeners: the handler finds the
port held by the loop of the mapping. -/
theorem listeners_agree_started :
    ∃ tr s, Run (Steady exampleEnv "cli_home") (Server.init exampleStore) tr s ∧
      s.admins 0 = .done (.updateMapping "map_web" true) .ok ∧ Settled "cli_home" s ∧
      ∀ x ∈ tr, Settled "cli_home" x.2.2 → Agree "cli_home" x.2.2 := by
  have submitted := calm_found.snoc (e := .admin 0 (.submit (.updateMapping "map_web" true) .done))
    ⟨.admin (.submit (r := 0) rfl (fun _ _ _ heq => by cases heq) trivial),
      session_stays rfl rfl rfl, nofun, nofun⟩
    ⟨fun _ _ _ hadds => hadds.elim, nofun, fun _ _ => ⟨nofun, nofun⟩,
      fun _ _ _ heq hoff => (by cases heq; cases hoff),
      fun _ _ _ _ heq _ => .inl (by cases heq; rfl)⟩
  have adding := submitted.plain (.admin (.findMapping (r := 0) rfl)) rfl
    (session_stays rfl rfl rfl)
  have found := adding.plain (.admin (.add (r := 0) rfl
    (@AddStep.found _ _ exampleMapping [] ⟨"cli_home", 0, "198.51.100.7:5000"⟩ rfl rfl rfl))) rfl
    (session_stays rfl rfl rfl)
  have bound := found.snoc
    (steady_of_isQuiet (.tunnel (.add (k := 0) rfl (.bound rfl fun l L hL => by cases hL))) rfl
      (session_stays rfl rfl rfl))
    (undisturbed_bound rfl rfl activeId_example)
  have stored := bound.plain (.tunnel (.add (k := 0) rfl (.stored rfl))) rfl
    (session_stays rfl rfl rfl)
  have driving := stored.plain (.tunnel (.drive (k := 0) rfl rfl rfl)) rfl
    (session_stays rfl rfl rfl)
  have failed := driving.snoc
    ⟨.admin (.add (r := 0) rfl (.bindFails rfl)),
      session_stays rfl rfl rfl, nofun,
      fun c m k heq => by cases heq; exact ⟨0, _, rfl, rfl⟩⟩
    (undisturbed_of_binds (fun _ _ _ hadds => nomatch hadds.1) (fun m info heq _ _ l L hL _ => by
      rw [(example_loop rfl hL).2]
      simp only [Event.bindFailure, Option.some.injEq, Prod.mk.injEq] at heq
      obtain ⟨_, rfl, _⟩ := heq
      exact ⟨rfl, rfl⟩) nofun nofun nofun)
  have answered := failed.plain (.admin (.added (r := 0) rfl rfl rfl)) rfl
    (session_stays rfl rfl rfl)
  obtain ⟨tr, hrun, hok⟩ := answered
  refine ⟨tr, _, hrun, rfl, ⟨fun r => ?_, _, rfl, rfl⟩, listeners_agree init_example hrun hok⟩
  rcases eq_or_ne r 0 with rfl | hne
  · rfl
  · simp only [Server.setAdmin, Server.setTunnel, Server.storeHandle, Server.spawn,
      Server.setClients, exampleFound, exampleStarting, Server.insertSession,
      Function.update_of_ne hne]
    rfl

/-- The mapping is disabled and enabled again. The second handler tries to bind the port
before the first has stopped the old loop: both requests are answered `Ok`, the mapping
is enabled and nothing listens. -/
theorem reenabled_too_early :
    ∃ tr s, Run (Steady exampleEnv "cli_home") (Server.init exampleStore) tr s ∧
      s.admins 0 = .done (.updateMapping "map_web" false) .ok ∧
      s.admins 1 = .done (.updateMapping "map_web" true) .ok ∧
      (∀ r, r ≠ 0 → r ≠ 1 → s.admins r = .idle) ∧
      (∀ l, s.loops l = none) ∧ Settled "cli_home" s ∧ ¬ Agree "cli_home" s := by
  obtain ⟨tr, driving⟩ := steady_serving
    (p := fun s => ∃ tr, Run (Steady exampleEnv "cli_home") (Server.init exampleStore) tr s)
    ⟨_, .nil⟩ (fun ⟨_, hrun⟩ hs _ _ => ⟨_, hrun.snoc hs⟩) fun ⟨_, hrun⟩ hs _ => ⟨_, hrun.snoc hs⟩
  have disabled := driving.snoc (e := .admin 0 (.submit (.updateMapping "map_web" false) .done))
    ⟨.admin (@AdminStep.submit _ 0 _ (.updateMapping "map_web" false) .done rfl serving_lock trivial),
      session_stays rfl rfl rfl, nofun, nofun⟩
  have enabled := disabled.snoc (e := .admin 1 (.submit (.updateMapping "map_web" true) .done))
    ⟨.admin (@AdminStep.submit _ 1 _ (.updateMapping "map_web" true) .done rfl
      (by exact writeLockFree_setAdmin serving_lock fun _ _ heq => by cases heq) trivial),
      session_stays rfl rfl rfl, nofun, nofun⟩
  have adding := enabled.snoc (steady_of_isQuiet (.admin (.findMapping (r := 1) rfl)) rfl
    (session_stays rfl rfl rfl))
  have found := adding.snoc (steady_of_isQuiet (.admin (.add (r := 1) rfl
    (@AddStep.found _ _ exampleMapping [] ⟨"cli_home", 0, "198.51.100.7:5000"⟩ rfl rfl rfl))) rfl
    (session_stays rfl rfl rfl))
  have failed := found.snoc ⟨.admin (.add (r := 1) rfl (.bindFails rfl)),
    session_stays rfl rfl rfl, nofun, fun c m k heq => by cases heq; exact ⟨0, _, rfl, rfl⟩⟩
  have answered := failed.snoc (steady_of_isQuiet (.admin (.added (r := 1) rfl rfl rfl)) rfl
    (session_stays rfl rfl rfl))
  have collected := answered.snoc (steady_of_isQuiet
    (.admin (@AdminStep.collect _ 0 _ _ "map_web" [0] rfl (.refl _))) rfl
    (session_stays rfl rfl rfl))
  have removed := collected.snoc (steady_of_isQuiet (.admin (.removeIn (r := 0) rfl rfl)) rfl
    (session_stays rfl rfl rfl))
  have reaped := removed.snoc (steady_of_isQuiet (.loop (.reap (l := 0) rfl rfl)) rfl
    (session_stays rfl rfl rfl))
  have hnone : ∀ l, Function.update
      (fun l => if l == 0 then (exampleServing.loops l).map fun L => { L with aborted := true }
        else exampleServing.loops l) 0 none l = none := by
    intro l
    rcases eq_or_ne l 0 with rfl | hne
    · rfl
    · rw [Function.update_of_ne hne, if_neg (by simpa using hne), Option.eq_none_iff_forall_ne_some]
      intro L hL
      exact hne (example_loop rfl hL).1
  refine ⟨_, _, reaped, rfl, rfl, ?_, hnone, ⟨fun r => ?_, _, rfl, rfl⟩, fun hagree => ?_⟩
  · intro r h0 h1
    simp only [Server.setAdmin, Server.removeHandle, Server.dropLoop, Server.abort,
      Server.setClients, Function.update_of_ne h0, Function.update_of_ne h1]
    rfl
  · rcases eq_or_ne r 0 with rfl | h0
    · rfl
    · rcases eq_or_ne r 1 with rfl | h1
      · rfl
      · simp only [Server.setAdmin, Server.removeHandle, Server.dropLoop, Server.abort,
          Server.setClients, Function.update_of_ne h0, Function.update_of_ne h1]
        rfl
  · obtain ⟨l, L, hL, _⟩ := (hagree "map_web").mpr activeId_example
    cases (hnone l).symm.trans hL

end MiniMask.Tunnel
