import MiniMask.Tunnel.Requests

/-!
# Steps that do not overlap

The runs in which a handshake, a disconnect or a request is over before anything
else happens, and an aborted loop is dropped at once.

* `stored_step`: the handle of every running loop is in the map of its session,
  under its mapping.
* `awaiting_step`: a client is enabled until its session has read its mappings.
-/

namespace MiniMask.Tunnel

open Lts

/-! ## The runs -/

/-- Who takes steps that must not be interrupted. -/
inductive Actor
  | tunnel (k : SessionId)
  | admin (r : RequestId)
deriving DecidableEq, Repr

def Event.actor : Event → Option Actor
  | .tunnel k _ => some (.tunnel k)
  | .admin r _ => some (.admin r)
  | _ => none

def Event.isReap : Event → Bool
  | .loop _ .reap => true
  | _ => false

/-- The invocation is in a handshake or a disconnect, not driving its session. -/
def TunnelTask.isBusy : TunnelTask → Bool
  | .live _ .driving => false
  | .live _ .opening => false
  | .live _ _ => true
  | _ => false

def Server.Busy (s : Server) : Actor → Prop
  | .tunnel k => (s.tunnels k).isBusy = true
  | .admin r => (s.admins r).isRunning = true

/-- Nothing happens while an aborted loop is to be dropped, or while someone else is
busy. -/
structure NonOverlapping (s : Server) (e : Event) : Prop where
  alone : ∀ a, s.Busy a → e.isReap = true ∨ e.actor = some a
  abort : ∀ l L, s.loops l = some L → L.aborted = true → e.isReap = true

section Alone

variable {env : Env} {s t : Server} {e : Event}

/-- A reaping step drops one loop and nothing else. -/
theorem reap_step (hs : Step env s e t) (hreap : e.isReap = true) : ∃ l, t = s.dropLoop l := by
  cases hs with
  | @loop _ l _ hs =>
    cases hs with
    | reap _ _ => exact ⟨l, rfl⟩
    | _ => cases hreap
  | _ => cases hreap

theorem NonOverlapping.running (h : NonOverlapping s e) (hreap : e.isReap = false) {l : LoopId}
    {L : AcceptLoop} (hL : s.loops l = some L) : L.aborted = false := by
  rw [← Bool.not_eq_true]
  intro haborted
  rw [h.abort l L hL haborted] at hreap
  cases hreap

theorem NonOverlapping.actor (h : NonOverlapping s e) (hreap : e.isReap = false) {a : Actor}
    (hbusy : s.Busy a) : e.actor = some a := by
  rcases h.alone a hbusy with hreap' | hactor
  · rw [hreap] at hreap'
    cases hreap'
  · exact hactor

/-- While a handler is running, the steps are its own. -/
theorem NonOverlapping.own (h : NonOverlapping s e) (hs : Step env s e t)
    (hreap : e.isReap = false) {r : RequestId} (hrunning : (s.admins r).isRunning = true) :
    ∃ e', e = .admin r e' ∧ AdminStep env r s e' t := by
  have hactor : e.actor = some (.admin r) := h.actor hreap hrunning
  cases hs with
  | admin hs =>
    cases hactor
    exact ⟨_, rfl, hs⟩
  | _ => cases hactor

/-- Whoever is in a loop of `add_listener` calls is busy. -/
theorem Server.HasStarter.busy {st : Starter} (h : s.HasStarter st) :
    (∃ k peer, s.tunnels k = .live peer (.starting st) ∧ s.Busy (.tunnel k)) ∨
      ∃ r request underRead, s.admins r = .running request (.adding st underRead) ∧
        s.Busy (.admin r) := by
  rcases h with ⟨k, peer, hstarting⟩ | ⟨r, request, underRead, hadding⟩
  · refine .inl ⟨k, peer, hstarting, ?_⟩
    show (s.tunnels k).isBusy = true
    rw [hstarting]
    rfl
  · refine .inr ⟨r, request, underRead, hadding, ?_⟩
    show (s.admins r).isRunning = true
    rw [hadding]
    rfl

/-- There is one loop of `add_listener` calls at a time. -/
theorem NonOverlapping.starter_unique (h : NonOverlapping s e) (hreap : e.isReap = false)
    {st st' : Starter} (hst : s.HasStarter st) (hst' : s.HasStarter st') : st = st' := by
  rcases hst.busy with ⟨k, peer, hstarting, hbusy⟩ | ⟨r, request, underRead, hadding, hbusy⟩
  · have hactor := h.actor hreap hbusy
    rcases hst'.busy with ⟨k', peer', hstarting', hbusy'⟩ | ⟨r', _, _, _, hbusy'⟩
    · cases hactor.symm.trans (h.actor hreap hbusy')
      cases hstarting.symm.trans hstarting'
      rfl
    · cases hactor.symm.trans (h.actor hreap hbusy')
  · have hactor := h.actor hreap hbusy
    rcases hst'.busy with ⟨k', _, _, hbusy'⟩ | ⟨r', request', underRead', hadding', hbusy'⟩
    · cases hactor.symm.trans (h.actor hreap hbusy')
    · cases hactor.symm.trans (h.actor hreap hbusy')
      cases hadding.symm.trans hadding'
      rfl

/-- The handler is in a loop of `add_listener` calls. -/
def AdminStage.isAdding : AdminStage → Bool
  | .adding _ _ => true
  | _ => false

/-- While a handler that adds no listeners takes a step, nobody adds any. -/
theorem NonOverlapping.no_starter {r : RequestId} {e : AdminEvent}
    (h : NonOverlapping s (.admin r e)) {request : AdminRequest} {stage : AdminStage}
    (hrunning : s.admins r = .running request stage) (hnot : stage.isAdding = false)
    (st : Starter) : ¬ s.HasStarter st := by
  intro hst
  rcases hst.busy with ⟨k, _, _, hbusy⟩ | ⟨r', request', underRead, hadding, hbusy⟩
  · cases h.actor rfl hbusy
  · cases h.actor rfl hbusy
    cases hrunning.symm.trans hadding
    cases hnot

theorem AcceptLoop.SameTask.eq {L L₀ : AcceptLoop} (h : L.SameTask L₀)
    (hrunning : L.aborted = false) : L = L₀ := by
  obtain ⟨hsame, haborted⟩ := h
  have hrunning₀ : L₀.aborted = false := by
    rw [← Bool.not_eq_true]
    intro h
    rw [haborted h] at hrunning
    cases hrunning
  rw [hsame, hrunning, ← hrunning₀]

/-- Loops for one mapping have one port and one client. -/
theorem loop_route_eq (hr : Reachable (Step env) Init s) {l : LoopId} {L : AcceptLoop}
    (hL : s.loops l = some L) {route : Route} (hroute : route ∈ s.issued)
    (hid : route.mappingId = L.mapping.id) : L.mapping.route L.clientId = route :=
  (ledger_reachable hr).route_eq ((listening_reachable hr).loop_route l L hL) hroute hid.symm

end Alone

/-! ## Handles -/

/-- The handle of a running loop is in the `listeners` map of its session, under its
mapping, or about to be stored there; and then it is the only loop for that mapping. -/
structure Stored (s : Server) : Prop where
  handle : ∀ l L, s.loops l = some L → L.aborted = false →
    (s.listeners L.session).lookup L.mapping.id = some l ∨
      ∃ st m, s.HasStarter st ∧ st.stage = .bound m L.session l
  bound : ∀ st, s.HasStarter st → ∀ m k l, st.stage = .bound m k l →
    ∀ l' L', s.loops l' = some L' → L'.mapping.id = m.id → l' = l

section Stored

variable {env : Env} {s s' t : Server} {e : Event}

theorem stored_init (h : Init s) : Stored s := by
  have hnone := h.no_starter
  obtain ⟨clients, _, rfl⟩ := h
  exact ⟨nofun, fun st hst => absurd hst (hnone st)⟩

/-- What happens to a handle: it stays, `add_listener` replaces it by that of a loop
it spawned for the same mapping, or its loop is aborted. -/
theorem handle_survives (hs : Step env s e t) {k : SessionId} {id : String} {l : LoopId}
    (h : (s.listeners k).lookup id = some l) :
    (t.listeners k).lookup id = some l ∨
      (∃ st m l', s.HasStarter st ∧ st.stage = .bound m k l' ∧ m.id = id ∧
        (t.listeners k).lookup id = some l') ∨
      ∀ L, t.loops l = some L → L.aborted = true := by
  have stored : ∀ {st st' : Starter} {a : AddEvent} {s' : Server}, s.HasStarter st →
      AddStep s st a s' st' → (s'.listeners k).lookup id = some l ∨
        ∃ st m l', s.HasStarter st ∧ st.stage = .bound m k l' ∧ m.id = id ∧
          (s'.listeners k).lookup id = some l' := by
    intro st st' a s' hst hadd
    cases hadd with
    | @stored m k' l' hbound =>
      rcases eq_or_ne k k' with rfl | hne
      · rcases eq_or_ne id m.id with rfl | hid
        · refine .inr ⟨st, m, l', hst, hbound, rfl, ?_⟩
          simp only [Server.storeHandle, Function.update_self, AList.lookup_insert]
        · refine .inl ?_
          simp only [Server.storeHandle, Function.update_self, AList.lookup_insert_ne hid]
          exact h
      · refine .inl ?_
        simp only [Server.storeHandle, Function.update_of_ne hne]
        exact h
    | _ => exact .inl h
  cases hs with
  | task hs => rw [hs.frame]; exact .inl h
  | loop hs => rw [hs.frame]; exact .inl h
  | tunnel hs =>
    cases hs with
    | add hlive hadd => exact (stored (.inl ⟨_, _, hlive⟩) hadd).imp_right .inl
    | _ => exact .inl h
  | admin hs =>
    cases hs with
    | add hrunning hadd => exact (stored (.inr ⟨_, _, _, hrunning⟩) hadd).imp_right .inl
    | @removeIn request id' k' arcs l' _ hlookup =>
      rcases eq_or_ne k k' with rfl | hne
      · rcases eq_or_ne id id' with rfl | hid
        · cases h.symm.trans hlookup
          exact .inr (.inr fun L => aborted_of_abort (beq_self_eq_true l))
        · refine .inl ?_
          simp only [Server.setAdmin, Server.removeHandle, Function.update_self,
            AList.lookup_erase_ne hid]
          exact h
      · refine .inl ?_
        simp only [Server.setAdmin, Server.removeHandle, Function.update_of_ne hne]
        exact h
    | @drain request k' _ =>
      rcases eq_or_ne k k' with rfl | hne
      · have hany : ((s.listeners k).entries.any fun x => x.2 == l) = true :=
          List.any_eq_true.mpr ⟨_, AList.mem_lookup_iff.mp h, beq_self_eq_true l⟩
        exact .inr (.inr fun L => aborted_of_abort
          (p := fun l => (s.listeners k).entries.any fun x => x.2 == l) hany)
      · refine .inl ?_
        simp only [Server.setAdmin, Server.drainListeners, Function.update_of_ne hne]
        exact h
    | _ => exact .inl h

/-- The handle of a running loop stays where it is, or it is stored now, as long as no
handle of another loop is about to replace it. -/
theorem handle_of_running (hr : Reachable (Step env) Init s) (hs : Step env s e t) {l : LoopId}
    {L : AcceptLoop} (hL : t.loops l = some L) (hrunning : L.aborted = false)
    (h : s.loops l = some L → (s.listeners L.session).lookup L.mapping.id = some l ∨
      ∃ st m, s.HasStarter st ∧ st.stage = .bound m L.session l)
    (hunique : ∀ st m l', s.HasStarter st → st.stage = .bound m L.session l' →
      m.id = L.mapping.id → s.loops l = some L → l' = l) :
    (t.listeners L.session).lookup L.mapping.id = some l ∨
      ∃ st m, t.HasStarter st ∧ st.stage = .bound m L.session l := by
  rcases loop_of_step hs hL with ⟨L₀, hL₀, hsame⟩ | ⟨_, st, m, k, _, hst', hspawn⟩
  · cases hsame.eq hrunning
    rcases h hL₀ with hlookup | ⟨st, m, hst, hbound⟩
    · rcases handle_survives hs hlookup with hkept | ⟨st, m, l', hst, hbound, hid, hkept⟩ |
        haborted
      · exact .inl hkept
      · -- the handle of the new loop replaces its own
        cases hunique st m l' hst hbound hid hL₀
        exact .inl hkept
      · rw [haborted L hL] at hrunning
        cases hrunning
    · rcases starter_survives hs hst with hkept | ⟨a, s', st', hadd, _, hlisteners⟩ | ⟨hidle, _⟩
      · exact .inr ⟨st, m, hkept, hbound⟩
      · have hid := (((handles_reachable hr).bound st hst m _ l hbound).2 L hL₀).2
        cases hadd with
        | stored hstage =>
          cases hbound.symm.trans hstage
          rw [hlisteners]
          refine .inl ?_
          simp only [Server.storeHandle, Function.update_self]
          rw [hid, AList.lookup_insert]
        | _ => simp_all
      · rw [hbound] at hidle
        cases hidle
  · rw [hspawn.loop]
    exact .inr ⟨_, m, hst', rfl⟩

theorem Stored.handle_step (h : Stored s) (hr : Reachable (Step env) Init s) (hs : Step env s e t)
    {l : LoopId} {L : AcceptLoop} (hL : t.loops l = some L) (hrunning : L.aborted = false) :
    (t.listeners L.session).lookup L.mapping.id = some l ∨
      ∃ st m, t.HasStarter st ∧ st.stage = .bound m L.session l :=
  handle_of_running hr hs hL hrunning (fun hL₀ => h.handle l L hL₀ hrunning)
    fun st m l' hst hbound hid hL₀ => (h.bound st hst m _ l' hbound l L hL₀ hid.symm).symm

/-- A loop about to be stored stays the only one for its mapping: nobody else adds a
loop, and it was bound while its port was free. -/
theorem Stored.bound_step (h : Stored s) (hr : Reachable (Step env) Init s) (hs : Step env s e t)
    (hno : NonOverlapping s e) (hreap : e.isReap = false) {st' : Starter} (hst' : t.HasStarter st')
    {m : PortMapping} {k : SessionId} {l : LoopId} (hbound : st'.stage = .bound m k l) {l' : LoopId}
    {L' : AcceptLoop} (hL' : t.loops l' = some L') (hid : L'.mapping.id = m.id) : l' = l := by
  have hlisten := listening_reachable hr
  rcases starter_of_step hs hst' with hst | ⟨hidle, _⟩ | ⟨st, a, s', hst, hadd, hloops, _⟩
  · rcases loop_of_step hs hL' with ⟨L₀, hL₀, hsame, _⟩ | ⟨_, st₀, m₀, k₀, hst₀, _, hspawn⟩
    · refine h.bound st' hst m k l hbound l' L₀ hL₀ ?_
      rw [hsame] at hid
      exact hid
    · -- the only caller of `add_listener` has not bound anything
      cases hno.starter_unique hreap hst hst₀
      cases hbound.symm.trans hspawn.stage
  · rw [hbound] at hidle
    cases hidle
  · cases hadd with
    | @bound m₀ k₀ hstage hfree =>
      cases hbound
      rw [hloops] at hL'
      have hL' : Function.update s.loops s.spawned (some (.start st.client m k)) l' =
        some L' := hL'
      rcases eq_or_ne l' s.spawned with rfl | hne
      · rfl
      · rw [Function.update_of_ne hne] at hL'
        have hroute := hlisten.starter_route st hst m (.inr (by rw [hstage]; rfl))
        have hport := congrArg Route.remotePort (loop_route_eq hr hL' hroute hid.symm)
        exact absurd ((hlisten.loop_mapping l' L' hL').1.trans hport) (hfree l' L' hL')
    | _ => simp_all

theorem stored_step (hr : Reachable (Step env) Init s) (h : Stored s) (hs : Step env s e t)
    (hno : NonOverlapping s e) : Stored t := by
  cases hreap : e.isReap with
  | true =>
    obtain ⟨l₀, rfl⟩ := reap_step hs hreap
    refine ⟨fun l L hL hrunning => h.handle l L (dropLoop_loops hL).1 hrunning,
      fun st hst m k l hbound l' L' hL' hid => ?_⟩
    exact h.bound st hst m k l hbound l' L' (dropLoop_loops hL').1 hid
  | false =>
    exact ⟨fun l L => h.handle_step hr hs,
      fun st hst m k l hbound l' L' => h.bound_step hr hs hno hreap hst hbound⟩

end Stored

/-! ## Clients of new sessions -/

/-- The peer of an invocation that has checked the token and not yet read the
mappings. -/
def TunnelTask.awaiting : TunnelTask → Option Peer
  | .live peer .verified => some peer
  | .live peer .registered => some peer
  | .live peer .connected => some peer
  | _ => none

/-- The client of an invocation that has not yet read the mappings is enabled. -/
def AwaitingEnabled (s : Server) : Prop :=
  ∀ k peer, (s.tunnels k).awaiting = some peer →
    ∃ client ∈ s.clients.list, client.id = peer.clientId ∧ client.enabled = true

section Awaiting

variable {env : Env} {s t : Server} {e : Event}

theorem TunnelTask.awaiting_busy {task : TunnelTask} {peer : Peer}
    (h : task.awaiting = some peer) : task.isBusy = true := by
  unfold TunnelTask.awaiting at h
  split at h
  · rfl
  · rfl
  · rfl
  · cases h

theorem awaiting_step (h : AwaitingEnabled s) (hs : Step env s e t) (hno : NonOverlapping s e) :
    AwaitingEnabled t := by
  intro k peer hawaiting
  rcases tunnel_of_step hs k with hsame | ⟨e', rfl, hs'⟩
  · rw [hsame] at hawaiting
    rcases clients_of_step hs with ⟨_, hclients⟩ | ⟨r, request, io, rfl, _⟩
    · rw [hclients]
      exact h k peer hawaiting
    · -- no request comes in during a handshake
      have hbusy : s.Busy (.tunnel k) := TunnelTask.awaiting_busy hawaiting
      cases hno.actor rfl hbusy
  · rw [hs'.admins.2.1]
    cases hs' with
    | verified _ hverify =>
      simp only [Server.setTunnel, Function.update_self] at hawaiting
      cases hawaiting
      obtain ⟨_, client, hclient, hid, hon, _⟩ := ClientStore.verifyToken_client hverify
      exact ⟨client, hclient, hid, hon⟩
    | admitted hlive _ =>
      simp only [Server.setTunnel, Function.update_self] at hawaiting
      exact h k peer (by rw [hlive]; exact hawaiting)
    | statusOk hlive =>
      simp only [Server.setTunnel, Function.update_self] at hawaiting
      exact h k peer (by rw [hlive]; exact hawaiting)
    | _ => simp [Server.setTunnel, Server.exit, TunnelTask.awaiting] at hawaiting

end Awaiting

end MiniMask.Tunnel
