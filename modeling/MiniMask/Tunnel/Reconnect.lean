import MiniMask.Tunnel.Requests

/-!
# Reconnecting clients

A session that ends leaves its accept loops behind: they hold their ports until the
next visitor shows them that the channel is closed. A client that reconnects before
finds its ports taken, and nothing tries to bind them again.

* `reconnect_without_visitor`: such a run, after which the mapping of the client is
  not served.
* `reconnect_restores`: in every run without such a bind, the mappings of connected
  clients are served.
-/

namespace MiniMask.Tunnel

open Lts

/-! ## What should be restored -/

/-- A loop that was started for `m` holds the port of `m`, runs, and sends into the
channel of `k`. -/
def Server.Serves (s : Server) (k : SessionId) (m : PortMapping) : Prop :=
  ∃ l L, s.loops l = some L ∧ L.aborted = false ∧ L.port = m.remotePort ∧ L.session = k ∧
    L.mapping.id = m.id

/-- `start_client_listeners` has read the mappings of the client. -/
def TunnelTask.hasSnapshot : TunnelTask → Bool
  | .live _ .verified => false
  | .live _ .registered => false
  | .live _ .connected => false
  | .live _ _ => true
  | .returned (.driven _) => true
  | _ => false

/-- `start_client_listeners` has returned. -/
def TunnelTask.hasStarted : TunnelTask → Bool
  | .live _ (.starting _) => false
  | task => task.hasSnapshot

/-- While no request is being handled, every active mapping of a client whose
registered session has started its listeners is served by that session. -/
def Restored (s : Server) : Prop :=
  (∀ r, (s.admins r).isRunning = false) →
    ∀ c info m, s.sessions.lookup c = some info →
      (s.tunnels info.sessionId).hasStarted = true → Active s.clients.list c m →
        s.Serves info.sessionId m

/-! ## The runs -/

/-- The client, mapping and session of a bind that fails. -/
def Event.bindFailure : Event → Option (String × PortMapping × SessionId)
  | .tunnel _ (.add (.bindFails c m k)) => some (c, m, k)
  | .admin _ (.add (.bindFails c m k)) => some (c, m, k)
  | _ => none

/-- Requests come one at a time, `accept` does not fail, and a bind fails only while
an accept loop holds the port. -/
structure Orderly (s : Server) (e : Event) : Prop where
  sequential : Sequential s e
  accepts : ∀ l, e ≠ .loop l .acceptFails
  portHeld : ∀ c m k, e.bindFailure = some (c, m, k) →
    ∃ l L, s.loops l = some L ∧ L.port = m.remotePort

/-- Nothing keeps the step from restoring a mapping:

* where a bind for an active mapping and the registered session of its client fails,
  the port is held by a running loop of that session for that mapping;
* a save fails only if its request makes no mapping active whose client has a
  session that has read the mappings already. -/
structure Restorable (env : Env) (s : Server) (e : Event) : Prop where
  ownPort : ∀ c m info, e.bindFailure = some (c, m, info.sessionId) →
    s.sessions.lookup c = some info → Active s.clients.list c m →
      ∀ l L, s.loops l = some L → L.port = m.remotePort →
        L.aborted = false ∧ L.session = info.sessionId ∧ L.mapping.id = m.id
  saved : ∀ r request io, e = .admin r (.submit request io) → io = .done ∨
    ∀ c info m, s.sessions.lookup c = some info →
      (s.tunnels info.sessionId).hasSnapshot = true →
        Active (handle env s.clients request io).2.list c m → Active s.clients.list c m

/-! ## The invariant -/

/-- The session itself or a handler is about to bind the port of `m`. -/
def Server.Pending (s : Server) (c : String) (k : SessionId) (m : PortMapping) : Prop :=
  (∃ peer st, s.tunnels k = .live peer (.starting st) ∧ st.Covers c k m) ∨
    ∃ r request stage, s.admins r = .running request stage ∧ stage.Covers c k m

/-- Every active mapping of a client whose registered session has read the mappings
is served by that session, or will be bound. -/
def Promised (s : Server) : Prop :=
  ∀ c info m, s.sessions.lookup c = some info →
    (s.tunnels info.sessionId).hasSnapshot = true → Active s.clients.list c m →
      s.Serves info.sessionId m ∨ s.Pending c info.sessionId m

/-- The step of a handler stops no listener of the mapping `m` of `c`. -/
def Spares (c : String) (m : PortMapping) (s : Server) (e : Event) : Prop :=
  (∀ r request k arcs, e = .admin r .removeIn →
    s.admins r = .running request (.removing m.id (k :: arcs)) →
      (s.listeners k).lookup m.id = none) ∧
  ∀ r request k, e = .admin r .drain → s.admins r = .running request (.draining k) →
    ¬ s.AuthenticatedAs k c

section Invariant

variable {env : Env} {s s' t : Server} {c : String} {info : SessionInfo} {m : PortMapping}

/-- Where handlers stop only what is not active, active mappings are spared. -/
theorem Cleared.spares {e : Event} (h : Cleared s) (hactive : Active s.clients.list c m) :
    Spares c m s e := by
  refine ⟨fun r request k arcs _ hremoving => ?_, fun r request k _ hdraining hauth => ?_⟩
  · exact absurd rfl (h r _ _ hremoving c m hactive)
  · obtain ⟨c', hauth', hnot⟩ := h r _ _ hdraining
    cases AuthenticatedAs.unique hauth hauth'
    exact absurd hactive (hnot m)

/-- The mappings of a session are read by `start_client_listeners`, for its client. -/
theorem snapshot_of_step {e : Event} {k : SessionId} (hs : Step env s e t)
    (h : (t.tunnels k).hasSnapshot = true) :
    (s.tunnels k).hasSnapshot = true ∨ ∃ peer, t.clients = s.clients ∧
      t.tunnels k = .live peer (.starting (startClientListeners s.clients peer.clientId)) := by
  rcases tunnel_of_step hs k with hsame | ⟨e', rfl, hs'⟩
  · exact .inl (hsame ▸ h)
  · cases hs' with
    | startListeners _ => exact .inr ⟨_, rfl, Function.update_self ..⟩
    | add hlive _ => exact .inl (by rw [hlive]; rfl)
    | drive hlive _ _ => exact .inl (by rw [hlive]; rfl)
    | recv hlive _ _ => exact .inl (by rw [hlive]; rfl)
    | openOk hlive _ => exact .inl (by rw [hlive]; rfl)
    | openFails hlive _ => exact .inl (by rw [hlive]; rfl)
    | sessionEnds hlive => exact .inl (by rw [hlive]; rfl)
    | cleanup hlive => exact .inl (by rw [hlive]; rfl)
    | returns hlive => exact .inl (by rw [hlive]; rfl)
    | _ => simp [Server.setTunnel, Server.exit, TunnelTask.hasSnapshot] at h

/-- The channel of a registered session that has read the mappings is open. -/
theorem channelOpen_of_registered (hr : Reachable (Step env) Init s)
    (hlookup : s.sessions.lookup c = some info)
    (hsnapshot : (s.tunnels info.sessionId).hasSnapshot = true) :
    s.channelOpen info.sessionId = true := by
  have hkept := (entry_admitted (registry_good hr) (histories_reachable hr) hlookup).2
  unfold Server.channelOpen
  cases htask : s.tunnels info.sessionId with
  | returned exit =>
    rw [htask] at hsnapshot hkept
    cases exit with
    | driven _ => exact absurd hkept nofun
    | _ => cases hsnapshot
  | _ => rfl

/-- A mapping that is served goes on being served unless a handler stops it. -/
theorem serves_step {e : Event} (hr : Reachable (Step env) Init s) (hs : Step env s e t)
    (haccepts : ∀ l, e ≠ .loop l .acceptFails) (hspares : Spares c m s e)
    (hlookup : s.sessions.lookup c = some info)
    (hsnapshot : (s.tunnels info.sessionId).hasSnapshot = true)
    (h : s.Serves info.sessionId m) : t.Serves info.sessionId m := by
  obtain ⟨l, L, hL, hrunning, hport, hsession, hid⟩ := h
  have hhandles := handles_reachable hr
  rcases running_of_step hs ((listening_reachable hr).loop_lt l L hL) hL hrunning with
    hkept | hclosed | rfl | ⟨r, request, id, k, arcs, rfl, hremoving, hhandle⟩ |
      ⟨r, request, k, id, rfl, hdraining, hhandle⟩
  · exact ⟨l, L, hkept, hrunning, hport, hsession, hid⟩
  · rw [hsession, channelOpen_of_registered hr hlookup hsnapshot] at hclosed
    cases hclosed
  · exact absurd rfl (haccepts l)
  · have hsame := ((hhandles.handle k id l hhandle).2 L hL).2
    cases hid.symm.trans hsame
    rw [hspares.1 r request k arcs rfl hremoving] at hhandle
    cases hhandle
  · have hsame := ((hhandles.handle k id l hhandle).2 L hL).1
    have hauth := authenticatedAs_of_lookup hr hlookup
    rw [← hsession, hsame] at hauth
    exact absurd hauth (hspares.2 r request k rfl hdraining)

/-- A call of `add_listener` to come is still to come, or it binds the port, or the
bind fails. -/
theorem AddStep.covers {st st' : Starter} {a : AddEvent} (hs : AddStep s st a s' st')
    (hlookup : s.sessions.lookup c = some info) (h : st.Covers c info.sessionId m) :
    st'.Covers c info.sessionId m ∨ s'.Serves info.sessionId m ∨
      a = .bindFails c m info.sessionId ∧ s' = s := by
  obtain ⟨rfl, h⟩ := h
  cases hs with
  | offline _ _ hnone =>
    rw [hlookup] at hnone
    cases hnone
  | found hidle htodo hfound =>
    cases hlookup.symm.trans hfound
    rcases h with h | h
    · rw [htodo] at h
      rcases List.mem_cons.mp h with rfl | h
      · exact .inl ⟨rfl, .inr rfl⟩
      · exact .inl ⟨rfl, .inl h⟩
    · rw [hidle] at h
      cases h
  | bindFails hfound =>
    rcases h with h | h
    · exact .inl ⟨rfl, .inl h⟩
    · cases hfound.symm.trans h
      exact .inr (.inr ⟨rfl, rfl⟩)
  | bound hfound _ =>
    rcases h with h | h
    · exact .inl ⟨rfl, .inl h⟩
    · cases hfound.symm.trans h
      exact .inr (.inl ⟨_, _, Function.update_self .., rfl, rfl, rfl, rfl⟩)
  | stored hbound =>
    rcases h with h | h
    · exact .inl ⟨rfl, .inl h⟩
    · rw [hbound] at h
      cases h

/-- A finished loop of calls has none to come. -/
theorem Starter.not_covers {st : Starter} {k : SessionId} (hidle : st.stage = .idle)
    (htodo : st.todo = []) : ¬ st.Covers c k m := by
  rintro ⟨_, h | h⟩
  · rw [htodo] at h
    cases h
  · rw [hidle] at h
    cases h

/-- What is to be bound is still to be bound, or it is served, or its bind fails. -/
theorem pending_step {e : Event} (hr : Reachable (Step env) Init s) (hs : Step env s e t)
    (hlookup : s.sessions.lookup c = some info) (hactive : Active s.clients.list c m)
    (h : s.Pending c info.sessionId m) :
    t.Pending c info.sessionId m ∨ t.Serves info.sessionId m ∨
      e.bindFailure = some (c, m, info.sessionId) ∧ t.loops = s.loops := by
  have hledger := ledger_reachable hr
  rcases h with ⟨peer, st, hstarting, hcovers⟩ | ⟨r, request, stage, hrunning, hcovers⟩
  · rcases tunnel_of_step hs info.sessionId with hsame | ⟨e', rfl, hs'⟩
    · exact .inl (.inl ⟨peer, st, hsame.trans hstarting, hcovers⟩)
    · cases hs' with
      | add hlive hadd =>
        cases hlive.symm.trans hstarting
        rcases hadd.covers hlookup hcovers with hcovers | hserves | ⟨rfl, rfl⟩
        · exact .inl (.inl ⟨_, _, Function.update_self .., hcovers⟩)
        · exact .inr (.inl hserves)
        · exact .inr (.inr ⟨rfl, rfl⟩)
      | drive hlive hidle htodo =>
        cases hlive.symm.trans hstarting
        exact absurd hcovers (Starter.not_covers hidle htodo)
      | _ => simp_all
  · rcases admin_of_step hs r with hsame | ⟨e', rfl, hs'⟩
    · exact .inl (.inr ⟨r, request, stage, hsame.trans hrunning, hcovers⟩)
    · cases hs' with
      | submit hidle _ _ => cases hidle.symm.trans hrunning
      | findMapping hfind =>
        cases hfind.symm.trans hrunning
        cases hcovers
        refine .inl (.inr ⟨r, request, .adding { client := c, todo := [m], stage := .idle } true,
          ?_, rfl, .inl (List.mem_singleton_self m)⟩)
        simp only [Server.setAdmin, Function.update_self, afterFindMapping,
          findMapping_of_active hledger.ids_nodup hledger.routes_nodup hactive]
        rfl
      | startClient hstart =>
        cases hstart.symm.trans hrunning
        cases hcovers
        exact .inl (.inr ⟨r, request, _, Function.update_self .., rfl,
          .inl (mem_todo_of_active hledger.ids_nodup hactive)⟩)
      | add hadding hadd =>
        cases hadding.symm.trans hrunning
        rcases hadd.covers hlookup hcovers with hcovers | hserves | ⟨rfl, rfl⟩
        · exact .inl (.inr ⟨r, request, _, Function.update_self .., hcovers⟩)
        · exact .inr (.inl hserves)
        · exact .inr (.inr ⟨rfl, rfl⟩)
      | added hadding hidle htodo =>
        cases hadding.symm.trans hrunning
        exact absurd hcovers (Starter.not_covers hidle htodo)
      | collect hremoving _ => cases hremoving.symm.trans hrunning; cases hcovers
      | removeIn hremoving _ => cases hremoving.symm.trans hrunning; cases hcovers
      | removeMiss hremoving _ => cases hremoving.symm.trans hrunning; cases hcovers
      | removeNowhere hremoving => cases hremoving.symm.trans hrunning; cases hcovers
      | offline hremoving _ => cases hremoving.symm.trans hrunning; cases hcovers
      | findSession hremoving _ => cases hremoving.symm.trans hrunning; cases hcovers
      | drain hdraining => cases hdraining.symm.trans hrunning; cases hcovers

/-- An active mapping of a session that has read the mappings stays served or to be
bound, as long as no handler stops it, its binds fail only while it is served, and the
request that makes it active is saved. -/
theorem promise_step {e : Event} (hr : Reachable (Step env) Init s) (hs : Step env s e t)
    (haccepts : ∀ l, e ≠ .loop l .acceptFails)
    (hspares : Active s.clients.list c m → Spares c m s e)
    (hfails : ∀ info, e.bindFailure = some (c, m, info.sessionId) →
      s.sessions.lookup c = some info → Active s.clients.list c m → s.Serves info.sessionId m)
    (hsaved : ∀ r request io info, e = .admin r (.submit request io) →
      s.sessions.lookup c = some info → (s.tunnels info.sessionId).hasSnapshot = true →
        io = .done ∨ (Active (handle env s.clients request io).2.list c m →
          Active s.clients.list c m))
    (h : ∀ info, s.sessions.lookup c = some info → (s.tunnels info.sessionId).hasSnapshot = true →
      Active s.clients.list c m → s.Serves info.sessionId m ∨ s.Pending c info.sessionId m)
    (hlookup : t.sessions.lookup c = some info)
    (hsnapshot : (t.tunnels info.sessionId).hasSnapshot = true)
    (hactive : Active t.clients.list c m) :
    t.Serves info.sessionId m ∨ t.Pending c info.sessionId m := by
  have hledger := ledger_reachable hr
  -- an entry that is new belongs to a session that has read nothing yet
  have hlookup : s.sessions.lookup c = some info := by
    rcases lookup_of_step hs hlookup with hold | ⟨peer, hregistered⟩
    · exact hold
    · rw [hregistered] at hsnapshot
      cases hsnapshot
  rcases snapshot_of_step hs hsnapshot with hsnapshot | ⟨peer, hclients, hstarting⟩
  · have hold : Active s.clients.list c m →
        t.Serves info.sessionId m ∨ t.Pending c info.sessionId m := by
      intro hactive
      rcases h info hlookup hsnapshot hactive with hserves | hpending
      · exact .inl (serves_step hr hs haccepts (hspares hactive) hlookup hsnapshot hserves)
      · rcases pending_step hr hs hlookup hactive hpending with hpending | hserves |
          ⟨hfailed, hloops⟩
        · exact .inr hpending
        · exact .inl hserves
        · obtain ⟨l, L, hL, hserves⟩ := hfails info hfailed hlookup hactive
          exact .inl ⟨l, L, by rw [hloops]; exact hL, hserves⟩
    rcases clients_of_step hs with ⟨_, hclients⟩ | ⟨r, request, io, rfl, hidle, _, rfl⟩
    · exact hold (hclients ▸ hactive)
    · rcases hsaved r request io info rfl hlookup hsnapshot with rfl | hsaved
      · rcases active_handle hactive with hactive | hactivates
        · exact hold hactive
        · obtain ⟨stage, hgo, hcovers⟩ := hactivates.starts rfl
          refine .inr (.inr ⟨r, request, stage, ?_, hcovers info.sessionId⟩)
          simp only [Server.setAdmin, Function.update_self, hgo]
          rfl
      · exact hold (hsaved hactive)
  · -- the session has just read its mappings
    have hclient : peer.clientId = c := by
      have hauth := authenticatedAs_step hs (authenticatedAs_of_lookup hr hlookup)
      unfold Server.AuthenticatedAs at hauth
      rw [hstarting] at hauth
      exact Option.some.inj hauth
    rw [hclients] at hactive
    refine .inr (.inl ⟨peer, _, hstarting, hclient, .inl ?_⟩)
    rw [hclient]
    exact mem_todo_of_active hledger.ids_nodup hactive

theorem promised_step {e : Event} (hr : Reachable (Step env) Init s) (hcleared : Cleared s)
    (h : Promised s) (hs : Step env s e t) (horderly : Orderly s e)
    (hrestorable : Restorable env s e) : Promised t := by
  intro c info m
  refine promise_step hr hs horderly.accepts (fun hactive => hcleared.spares hactive)
    (fun info hfails hlookup hactive => ?_) (fun r request io info heq hlookup hsnapshot => ?_)
    (fun info => h c info m)
  · -- the loop that holds the port serves the mapping
    obtain ⟨l, L, hL, hport⟩ := horderly.portHeld c m _ hfails
    obtain ⟨hrunning, hsession, hid⟩ :=
      hrestorable.ownPort c m info hfails hlookup hactive l L hL hport
    exact ⟨l, L, hL, hrunning, hport, hsession, hid⟩
  · exact (hrestorable.saved r request io heq).imp_right fun hsaved =>
      hsaved c info m hlookup hsnapshot

theorem TunnelTask.snapshot_of_hasStarted {task : TunnelTask} (h : task.hasStarted = true) :
    task.hasSnapshot = true ∧ ∀ peer st, task ≠ .live peer (.starting st) := by
  unfold TunnelTask.hasStarted at h
  split at h
  · cases h
  · next hnot => exact ⟨h, fun peer st heq => hnot peer st heq⟩

/-- Nothing is pending once the session and the handlers are done. -/
theorem not_pending {k : SessionId} (hstarted : (s.tunnels k).hasStarted = true)
    (hidle : ∀ r, (s.admins r).isRunning = false) : ¬ s.Pending c k m := by
  rintro (⟨peer, st, hstarting, _⟩ | ⟨r, request, stage, hrunning, _⟩)
  · exact (TunnelTask.snapshot_of_hasStarted hstarted).2 peer st hstarting
  · have hnot := hidle r
    rw [hrunning] at hnot
    cases hnot

/-- What is promised is restored once the session and the handlers are done. -/
theorem Promised.restored (h : Promised s) : Restored s := by
  intro hidle c info m hlookup hstarted hactive
  have hsnapshot := (TunnelTask.snapshot_of_hasStarted hstarted).1
  exact (h c info m hlookup hsnapshot hactive).resolve_right (not_pending hstarted hidle)

theorem promised_init (h : Init s) : Cleared s ∧ Promised s := by
  have hcleared := cleared_init h
  obtain ⟨clients, _, rfl⟩ := h
  exact ⟨hcleared, nofun⟩

end Invariant

/-! ## Reconnecting restores the mappings -/

/-- In every orderly run whose steps are all restorable, every state reached has the
mappings of connected clients served. -/
theorem reconnect_restores {env : Env} {s₀ s : Server} {tr : List (Server × Event × Server)}
    (h₀ : Init s₀) (hrun : Run (Guarded (Step env) Orderly) s₀ tr s)
    (hrestorable : ∀ x ∈ tr, Restorable env x.1 x.2.1) : ∀ x ∈ tr, Restored x.2.2 := by
  have keep : ∀ s e t, (Reachable (Step env) Init s ∧ Cleared s ∧ Promised s) →
      Guarded (Guarded (Step env) Orderly) (Restorable env) s e t →
        Reachable (Step env) Init t ∧ Cleared t ∧ Promised t := by
    rintro s e t ⟨hr, hcleared, hpromised⟩ ⟨⟨hs, horderly⟩, hrestorable⟩
    exact ⟨hr.step hs, cleared_step hr hcleared hs horderly.sequential,
      promised_step hr hcleared hpromised hs horderly hrestorable⟩
  have hgood := (hrun.guarded hrestorable).forall_states keep ⟨.init h₀, promised_init h₀⟩
  exact fun x hx => (hgood x hx).2.2.restored

theorem Event.bindFailure_of_isQuiet {e : Event} (h : e.isQuiet = true) :
    e.bindFailure = none := by
  unfold Event.bindFailure
  split
  · cases h
  · cases h
  · rfl

theorem orderly_of_isQuiet {s : Server} {e : Event} (h : e.isQuiet = true) : Orderly s e where
  sequential r request io heq := by rw [heq] at h; cases h
  accepts l heq := by rw [heq] at h; cases h
  portHeld c m k heq := by rw [e.bindFailure_of_isQuiet h] at heq; cases heq

theorem restorable_of_isQuiet {env : Env} {s : Server} {e : Event} (h : e.isQuiet = true) :
    Restorable env s e := by
  constructor
  · intro c m info heq
    rw [e.bindFailure_of_isQuiet h] at heq
    cases heq
  · intro r request io heq
    rw [heq] at h
    cases h

/-- An orderly run of the example server reaches `s`, and all its steps are restorable. -/
def Restoring (s : Server) : Prop :=
  ∃ tr, Run (Guarded (Guarded (Step exampleEnv) Orderly) (Restorable exampleEnv))
    (Server.init exampleStore) tr s

theorem Restoring.step {s t : Server} {e : Event} (h : Restoring s) (hs : Step exampleEnv s e t)
    (hquiet : e.isQuiet = true) : Restoring t :=
  let ⟨_, hrun⟩ := h
  ⟨_, hrun.snoc ⟨⟨hs, orderly_of_isQuiet hquiet⟩, restorable_of_isQuiet hquiet⟩⟩

theorem restoring_left : Restoring exampleLeft :=
  example_left (example_serving ⟨_, .nil⟩ fun h hs hquiet _ => h.step hs hquiet)
    fun h hs hquiet => h.step hs hquiet

/-- The client connects, disconnects and connects again. In between, a visitor made
the old loop stop. -/
theorem reconnect_restores_after_visitor :
    ∃ tr s, Run (Guarded (Step exampleEnv) Orderly) (Server.init exampleStore) tr s ∧
      s.sessions.lookup "cli_home" = some ⟨"cli_home", 1, "198.51.100.7:5001"⟩ ∧
      ∀ x ∈ tr, Restored x.2.2 := by
  have stopped := (restoring_left.step (.loop (.accept (l := 0) rfl nofun
    fun hlimit => absurd rfl hlimit.1)) rfl).step
    (.loop (.sendClosed (l := 0) rfl List.mem_cons_self rfl)) rfl
  have hloops : ∀ l, Function.update (Function.update (fun _ => none) 0 (some exampleLoop)) 0 none
      l = none := by
    intro l
    rw [Function.update_idem, Function.update_eq_self_iff.mpr rfl]
  have found := example_found (k := 1) "198.51.100.7:5001" rfl rfl (by decide)
    (fun l L hL => by cases (hloops l).symm.trans hL) stopped fun h hs hquiet _ => h.step hs hquiet
  have driving := ((found.step (.tunnel (.add (k := 1) rfl (.bound rfl
    fun l L hL => by cases (hloops l).symm.trans hL))) rfl).step
    (.tunnel (.add (k := 1) rfl (.stored rfl))) rfl).step
    (.tunnel (.drive (k := 1) rfl rfl rfl)) rfl
  obtain ⟨tr, hrun⟩ := driving
  obtain ⟨horderly, hrestorable⟩ := hrun.of_guarded
  exact ⟨tr, _, horderly, rfl, reconnect_restores init_example horderly hrestorable⟩

/-- Reconnecting does not restore the mappings when no visitor came in between: the
old loop still holds the port. -/
theorem reconnect_without_visitor :
    ∃ tr s, Run (Guarded (Step exampleEnv) Orderly) (Server.init exampleStore) tr s ∧
      ¬ Restored s := by
  obtain ⟨tr, hrun⟩ : Restoring (exampleFound exampleLeft 1 "198.51.100.7:5001") :=
    example_found (k := 1) "198.51.100.7:5001" rfl rfl (by decide) (example_running rfl)
      restoring_left fun h hs hquiet _ => h.step hs hquiet
  have failed := hrun.of_guarded.1.snoc ⟨.tunnel (.add (k := 1) rfl (.bindFails rfl)), nofun,
    nofun, fun c m k heq => by cases heq; exact ⟨0, _, rfl, rfl⟩⟩
  have driving := failed.snoc ⟨.tunnel (.drive (k := 1) rfl rfl rfl), orderly_of_isQuiet rfl⟩
  refine ⟨_, _, driving, fun hrestored => ?_⟩
  have hactive : Active exampleStore.list "cli_home" exampleMapping :=
    ⟨exampleClient, List.mem_singleton_self _, rfl, rfl, List.mem_singleton_self _, rfl⟩
  obtain ⟨l, L, hL, _, _, hsession, _⟩ := hrestored (fun _ => rfl) "cli_home"
    ⟨"cli_home", 1, "198.51.100.7:5001"⟩ exampleMapping rfl rfl hactive
  -- the only loop is that of the first session
  rw [(example_loop rfl hL).2] at hsession
  cases hsession

end MiniMask.Tunnel
