import Mathlib.Data.Finset.Card
import MiniMask.Tunnel.Sessions

/-!
# The limit on connected clients

`handle_tunnel` compares the size of the session table with `max_clients`. The table
has one entry per client: a client that connects again replaces its entry, while the
session that was replaced is driven on until its connection ends.

* `OwnEntry`: every open session has its own entry in the table.
* `client_limit`: no more sessions than `max_clients` are driven in a run whose
  handshakes replace no entry of a session that is still open.
* `three_driven_at_limit_two`: one client connects three times.
-/

namespace MiniMask.Tunnel

open Lts

/-- The session was inserted and has not been cleaned up. -/
def TunnelTask.isOpen : TunnelTask → Bool
  | .live _ .verified => false
  | .live _ .cleaned => false
  | .live _ _ => true
  | _ => false

/-- The invocation is in `drive_server`, before its cleanup. -/
def TunnelTask.isDriven : TunnelTask → Bool
  | .live _ .driving => true
  | .live _ .opening => true
  | .live _ .ending => true
  | _ => false

theorem TunnelTask.isOpen_of_isDriven {task : TunnelTask} (h : task.isDriven = true) :
    task.isOpen = true := by
  cases task with
  | live peer stage => cases stage <;> first | rfl | cases h
  | fresh => cases h
  | returned exit => cases h

/-- An admitted handshake replaces no entry of a session that is still open. -/
def ReplacesNoOpen (env : Env) (s : Server) (e : Event) : Prop :=
  ∀ k peer info, e = .tunnel k .insert → s.tunnels k = .live peer .verified →
    s.sessions.entries.length < env.security.maxClients →
    s.sessions.lookup peer.clientId = some info → (s.tunnels info.sessionId).isOpen = false

def OwnEntry (s : Server) : Prop :=
  ∀ k peer, (s.tunnels k).isOpen = true → (s.tunnels k).peer = some peer →
    ∃ info, s.sessions.lookup peer.clientId = some info ∧ info.sessionId = k

section OwnEntry

variable {env : Env} {s t : Server}

/-- An open session was open before, or it has just been inserted. -/
theorem open_of_step {e : Event} (hs : Step env s e t) {k : SessionId} {peer : Peer}
    (hopen : (t.tunnels k).isOpen = true) (hpeer : (t.tunnels k).peer = some peer) :
    ((s.tunnels k).isOpen = true ∧ (s.tunnels k).peer = some peer) ∨
      t.sessions.lookup peer.clientId = some ⟨peer.clientId, k, peer.remoteAddr⟩ := by
  rcases tunnel_of_step hs k with hsame | ⟨e', rfl, hs'⟩
  · rw [hsame] at hopen hpeer
    exact .inl ⟨hopen, hpeer⟩
  · obtain ⟨task, htunnels, hkeep⟩ := hs'.moves
    have hpeer' : task.peer = some peer := by rwa [htunnels, Function.update_self] at hpeer
    have hsame : ∀ {peer' stage}, s.tunnels k = .live peer' stage →
        (TunnelTask.live peer' stage).isOpen = true →
        (s.tunnels k).isOpen = true ∧ (s.tunnels k).peer = some peer := by
      intro peer' stage hlive hbefore
      have heq := (hkeep peer' (by rw [hlive]; rfl)).symm.trans hpeer'
      cases heq
      rw [hlive]
      exact ⟨hbefore, rfl⟩
    cases hs' with
    | @admitted peer' hlive _ =>
      have heq := (hkeep peer' (by rw [hlive]; rfl)).symm.trans hpeer'
      cases heq
      exact .inr (AList.lookup_insert _)
    | statusOk hlive => exact .inl (hsame hlive rfl)
    | startListeners hlive => exact .inl (hsame hlive rfl)
    | add hlive _ => exact .inl (hsame hlive rfl)
    | drive hlive _ _ => exact .inl (hsame hlive rfl)
    | recv hlive _ _ => exact .inl (hsame hlive rfl)
    | openOk hlive _ => exact .inl (hsame hlive rfl)
    | openFails hlive _ => exact .inl (hsame hlive rfl)
    | sessionEnds hlive => exact .inl (hsame hlive rfl)
    | _ =>
      -- no session is open after the other steps
      simp [Server.exit, Server.setTunnel, TunnelTask.isOpen] at hopen

/-- An entry stays until another session of the client replaces it or its own is
cleaned up. -/
theorem entry_survives {e : Event} (hs : Step env s e t) {c : String} {info : SessionInfo}
    (hlookup : s.sessions.lookup c = some info) :
    t.sessions.lookup c = some info ∨
      (∃ k peer, e = .tunnel k .insert ∧ s.tunnels k = .live peer .verified ∧ peer.clientId = c ∧
        s.sessions.entries.length < env.security.maxClients) ∨
      (t.tunnels info.sessionId).isOpen = false := by
  cases hs with
  | loop hs => rw [hs.frame]; exact .inl hlookup
  | task hs => rw [hs.frame]; exact .inl hlookup
  | admin hs => rw [hs.frame]; exact .inl hlookup
  | @tunnel _ k _ hs =>
    cases hs with
    | @admitted peer hlive hroom =>
      rcases eq_or_ne c peer.clientId with rfl | hne
      · exact .inr (.inl ⟨k, peer, rfl, hlive, rfl, hroom⟩)
      · exact .inl ((AList.lookup_insert_ne hne).trans hlookup)
    | @cleanup peer _ =>
      have hremoved : ((s.cleanup k peer).setTunnel k (.live peer .cleaned)).sessions =
        Registry.removeOwn SessionInfo.sessionId s.sessions peer.clientId k := rfl
      rcases eq_or_ne c peer.clientId with rfl | hne
      · rcases eq_or_ne info.sessionId k with rfl | hother
        · refine .inr (.inr ?_)
          show (Function.update s.tunnels info.sessionId _ info.sessionId).isOpen = false
          rw [Function.update_self]
          rfl
        · rw [hremoved, Registry.removeOwn_of_ne hlookup hother]
          exact .inl hlookup
      · rw [hremoved, Registry.lookup_removeOwn_ne _ _ _ hne]
        exact .inl hlookup
    | add _ hadd => rw [hadd.frame]; exact .inl hlookup
    | _ => exact .inl hlookup

theorem ownEntry_step {e : Event} (h : OwnEntry s) (hs : Step env s e t)
    (hok : ReplacesNoOpen env s e) : OwnEntry t := by
  intro k peer hopen hpeer
  rcases open_of_step hs hopen hpeer with ⟨hbefore, hpeer'⟩ | hinserted
  · obtain ⟨info, hlookup, rfl⟩ := h k peer hbefore hpeer'
    rcases entry_survives hs hlookup with hkept | ⟨k', peer', rfl, hlive, hclient, hroom⟩ | hclosed
    · exact ⟨info, hkept, rfl⟩
    · have hreplaced := hok k' peer' info rfl hlive hroom (hclient ▸ hlookup)
      rw [hbefore] at hreplaced
      cases hreplaced
    · rw [hopen] at hclosed
      cases hclosed
  · exact ⟨_, hinserted, rfl⟩

/-- There are no more open sessions than entries. -/
theorem OwnEntry.card_le (h : OwnEntry s) (ks : Finset SessionId)
    (hopen : ∀ k ∈ ks, (s.tunnels k).isOpen = true) : ks.card ≤ s.sessions.entries.length := by
  have hsub : ks ⊆ (s.sessions.entries.map (·.2.sessionId)).toFinset := by
    intro k hk
    have hopen := hopen k hk
    obtain ⟨peer, hpeer⟩ : ∃ peer, (s.tunnels k).peer = some peer := by
      cases htask : s.tunnels k with
      | live peer stage => exact ⟨peer, rfl⟩
      | fresh => rw [htask] at hopen; cases hopen
      | returned exit => rw [htask] at hopen; cases hopen
    obtain ⟨info, hlookup, rfl⟩ := h k peer hopen hpeer
    exact List.mem_toFinset.mpr (List.mem_map.mpr ⟨_, AList.mem_lookup_iff.mp hlookup, rfl⟩)
  calc ks.card ≤ (s.sessions.entries.map (·.2.sessionId)).toFinset.card := Finset.card_le_card hsub
    _ ≤ (s.sessions.entries.map (·.2.sessionId)).length := List.toFinset_card_le _
    _ = s.sessions.entries.length := List.length_map _

end OwnEntry

/-! ## The limit -/

/-- In every run in which no admitted handshake replaces the entry of a session that is
still open, at most `max_clients` sessions are in `drive_server` at any time. -/
theorem client_limit {env : Env} {s₀ s : Server} {tr : List (Server × Event × Server)}
    (h₀ : Init s₀) (hrun : Run (Step env) s₀ tr s)
    (hok : ∀ x ∈ tr, ReplacesNoOpen env x.1 x.2.1) :
    ∀ x ∈ tr, ∀ ks : Finset SessionId, (∀ k ∈ ks, (x.2.2.tunnels k).isDriven = true) →
      ks.card ≤ env.security.maxClients := by
  have hkeep : ∀ s e t, Reachable (Step env) Init s ∧ OwnEntry s →
      Guarded (Step env) (ReplacesNoOpen env) s e t →
        Reachable (Step env) Init t ∧ OwnEntry t := fun s e t h hs =>
    ⟨h.1.step hs.1, ownEntry_step h.2 hs.1 hs.2⟩
  have hkept := (hrun.guarded hok).forall_states hkeep
    ⟨.init h₀, by obtain ⟨clients, _, rfl⟩ := h₀; exact fun _ _ hopen => nomatch hopen⟩
  intro x hx ks hdriven
  obtain ⟨hr, hown⟩ := hkept x hx
  have hcard := hown.card_le ks fun k hk => TunnelTask.isOpen_of_isDriven (hdriven k hk)
  exact Nat.le_trans hcard (registry_good hr).size_le

/-- A session of the example server whose port is taken is driven without a listener. -/
theorem example_driven {p : Server → Prop} {s : Server} {k : SessionId} (addr : String) (h : p s)
    (hclients : s.clients = exampleStore) (hfresh : s.tunnels k = .fresh)
    (hroom : s.sessions.entries.length < 2) (hloops : ∀ l L, s.loops l = some L → L.aborted = false)
    (keep : ∀ {s t e}, p s → Step exampleEnv s (.tunnel k e) t → p t) :
    p (((exampleFound s k addr).setTunnel k
      (.live (examplePeer addr) (.starting { client := "cli_home", todo := [], stage := .idle }))
      ).setTunnel k (.live (examplePeer addr) .driving)) := by
  have hstage : ∀ (s : Server) (x : TunnelTask), (s.setTunnel k x).tunnels k = x :=
    fun s x => Function.update_self ..
  have found : p (exampleFound s k addr) :=
    example_found addr hclients hfresh hroom hloops h fun h hs _ _ => keep h hs
  have failed := keep found (.tunnel (.add (hstage ..) (.bindFails rfl)))
  exact keep failed (.tunnel (.drive (hstage ..) rfl rfl))

section OneAtATime

variable {s t : Server} {k : SessionId}

/-- The table has entries of session `k` only. -/
def OnlyOf (k : SessionId) (s : Server) : Prop :=
  ∀ c info, s.sessions.lookup c = some info → info.sessionId = k

theorem onlyOf_step {e : TunnelEvent} (h : OnlyOf k s) (hs : Step exampleEnv s (.tunnel k e) t) :
    OnlyOf k t := by
  intro c info hlookup
  cases hs with
  | tunnel hs =>
    cases hs with
    | @admitted peer _ _ =>
      rcases eq_or_ne c peer.clientId with rfl | hne
      · cases (AList.lookup_insert _).symm.trans hlookup
        rfl
      · exact h c info ((AList.lookup_insert_ne hne).symm.trans hlookup)
    | @cleanup peer _ =>
      exact h c info (Registry.lookup_of_removeOwn hlookup)
    | add _ hadd =>
      rw [hadd.frame] at hlookup
      exact h c info hlookup
    | _ => exact h c info hlookup

/-- A run of the example that replaces no entry reaches `s`, which has entries of session `k`
only. -/
def Unreplaced (k : SessionId) (s : Server) : Prop :=
  (∃ tr, Run (Step exampleEnv) (Server.init exampleStore) tr s ∧
    ∀ x ∈ tr, ReplacesNoOpen exampleEnv x.1 x.2.1) ∧ OnlyOf k s

theorem Unreplaced.step {e : TunnelEvent} (h : Unreplaced k s)
    (hs : Step exampleEnv s (.tunnel k e) t) : Unreplaced k t := by
  obtain ⟨⟨tr, run, hok⟩, honly⟩ := h
  refine ⟨⟨_, run.snoc hs, List.forall_mem_append.mpr ⟨hok, ?_⟩⟩, onlyOf_step honly hs⟩
  refine List.forall_mem_singleton.mpr fun k' peer info heq hlive _ hlookup => ?_
  -- the entry could only be of the session that is inserted, which is not open yet
  cases heq
  rw [honly _ _ hlookup, hlive]
  rfl

end OneAtATime

/-- A client is driven, its session ends and is cleaned up, and the client comes back and is
driven again. -/
theorem client_limit_reconnected :
    ∃ tr s, Run (Step exampleEnv) (Server.init exampleStore) tr s ∧
      (s.tunnels 0).isReturned = true ∧ (s.tunnels 1).isDriven = true ∧
      ∀ x ∈ tr, ∀ ks : Finset SessionId,
        (∀ k ∈ ks, (x.2.2.tunnels k).isDriven = true) → ks.card ≤ 2 := by
  have serving : Unreplaced 0 exampleServing :=
    example_serving ⟨⟨[], .nil, fun _ hx => nomatch hx⟩, fun _ _ h => nomatch h⟩
      fun h hs _ _ => h.step hs
  have left : Unreplaced 0 exampleLeft := example_left serving fun h hs _ => h.step hs
  have hempty : OnlyOf 1 exampleLeft := fun _ _ hlookup => nomatch hlookup
  obtain ⟨⟨tr, run, hok⟩, -⟩ := example_driven (p := Unreplaced 1) (k := 1) "198.51.100.7:5001"
    ⟨left.1, hempty⟩ rfl rfl (by decide) (example_running rfl) fun h hs => h.step hs
  exact ⟨tr, _, run, rfl, rfl, client_limit init_example run hok⟩

/-- The client connects three times before a connection ends: all three sessions are
driven, with a limit of two. -/
theorem three_driven_at_limit_two :
    exampleEnv.security.maxClients = 2 ∧ ∃ s, Reachable (Step exampleEnv) Init s ∧
      ∃ ks : Finset SessionId, ks.card = 3 ∧ ∀ k ∈ ks, (s.tunnels k).isDriven = true := by
  have second := example_driven (p := Reachable (Step exampleEnv) Init) (k := 1)
    "198.51.100.7:5001" reachable_serving rfl rfl (by decide) (example_running rfl)
    fun h hs => h.step hs
  have third := example_driven (p := Reachable (Step exampleEnv) Init) (k := 2)
    "198.51.100.7:5002" second rfl rfl (by decide) (example_running rfl) fun h hs => h.step hs
  refine ⟨rfl, _, third, {0, 1, 2}, rfl, fun k hk => ?_⟩
  simp only [Finset.mem_insert, Finset.mem_singleton] at hk
  rcases hk with rfl | rfl | rfl
  · rfl
  · rfl
  · rfl

end MiniMask.Tunnel
