import MiniMask.Tunnel.Steps

/-!
# The session table

The table of sessions is a registry of latest claims (`Lib/Registry.lean`): the
insert of `handle_tunnel` is a claim, the cleanup of `drive_server` is a release,
and no other step touches the table (`table_simulation`).

* `session_table`: the invariant of the table in every reachable state.
* `leak_exact`: an entry outlives its connection exactly when the status message
  cannot be written to a client whose entry is still its own.
-/

namespace MiniMask.Tunnel

open Lts

/-! ## The histories of the table -/

/-- The peer of an invocation whose session was inserted. -/
def TunnelTask.admittedPeer : TunnelTask → Option Peer
  | .live _ .verified => none
  | .live peer _ => some peer
  | .returned (.statusFailed peer) => some peer
  | .returned (.driven peer) => some peer
  | _ => none

/-- Whether the cleanup of `drive_server` has run. -/
def TunnelTask.isCleaned : TunnelTask → Bool
  | .live _ .cleaned => true
  | .returned (.driven _) => true
  | _ => false

/-- `admitted` has the sessions that were inserted, `cleaned` those whose cleanup
has run. -/
structure HistoriesAgree (tunnels : SessionId → TunnelTask) (admitted : List SessionInfo)
    (cleaned : List SessionId) : Prop where
  admitted_iff : ∀ k c, (∃ info ∈ admitted, info.sessionId = k ∧ info.clientId = c) ↔
    (tunnels k).admittedPeer.map (·.clientId) = some c
  cleaned_iff : ∀ k, k ∈ cleaned ↔ (tunnels k).isCleaned = true

namespace HistoriesAgree

variable {tunnels : SessionId → TunnelTask} {admitted : List SessionInfo}
  {cleaned : List SessionId}

theorem init : HistoriesAgree (fun _ => .fresh) [] [] :=
  ⟨fun _ _ => by simp [TunnelTask.admittedPeer], fun _ => by simp [TunnelTask.isCleaned]⟩

/-- An invocation may move on as long as neither history is concerned. -/
theorem update (h : HistoriesAgree tunnels admitted cleaned) {k : SessionId} {task : TunnelTask}
    (hpeer : task.admittedPeer = (tunnels k).admittedPeer)
    (hcleaned : task.isCleaned = (tunnels k).isCleaned) :
    HistoriesAgree (Function.update tunnels k task) admitted cleaned := by
  constructor
  · intro k' c
    rw [h.admitted_iff k' c]
    rcases eq_or_ne k' k with rfl | hne
    · rw [Function.update_self, hpeer]
    · rw [Function.update_of_ne hne]
  · intro k'
    rw [h.cleaned_iff k']
    rcases eq_or_ne k' k with rfl | hne
    · rw [Function.update_self, hcleaned]
    · rw [Function.update_of_ne hne]

/-- A verified session was not inserted before. -/
theorem fresh (h : HistoriesAgree tunnels admitted cleaned) {k : SessionId}
    (hnone : (tunnels k).admittedPeer = none) : k ∉ admitted.map (·.sessionId) := by
  intro hmem
  obtain ⟨info, hinfo, rfl⟩ := List.mem_map.mp hmem
  have := (h.admitted_iff info.sessionId info.clientId).mp ⟨info, hinfo, rfl, rfl⟩
  rw [hnone] at this
  cases this

theorem insert (h : HistoriesAgree tunnels admitted cleaned) {k : SessionId} {peer : Peer}
    {info : SessionInfo} (hlive : tunnels k = .live peer .verified) (hid : info.sessionId = k)
    (hclient : info.clientId = peer.clientId) :
    HistoriesAgree (Function.update tunnels k (.live peer .registered)) (info :: admitted)
      cleaned := by
  have hnone : (tunnels k).admittedPeer = none := by rw [hlive]; rfl
  constructor
  · intro k' c
    simp only [List.exists_mem_cons_iff]
    rcases eq_or_ne k' k with rfl | hne
    · rw [Function.update_self, hid, hclient, h.admitted_iff k' c, hnone]
      simp [TunnelTask.admittedPeer]
    · rw [Function.update_of_ne hne, ← h.admitted_iff k' c, hid]
      simp [hne.symm]
  · intro k'
    rw [h.cleaned_iff k']
    rcases eq_or_ne k' k with rfl | hne
    · rw [Function.update_self, hlive]; rfl
    · rw [Function.update_of_ne hne]

theorem cleanup (h : HistoriesAgree tunnels admitted cleaned) {k : SessionId} {peer : Peer}
    (hlive : tunnels k = .live peer .ending) :
    HistoriesAgree (Function.update tunnels k (.live peer .cleaned)) admitted (k :: cleaned) := by
  constructor
  · intro k' c
    rw [h.admitted_iff k' c]
    rcases eq_or_ne k' k with rfl | hne
    · rw [Function.update_self, hlive]; rfl
    · rw [Function.update_of_ne hne]
  · intro k'
    rw [List.mem_cons, h.cleaned_iff k']
    rcases eq_or_ne k' k with rfl | hne
    · simp [Function.update_self, TunnelTask.isCleaned]
    · rw [Function.update_of_ne hne]
      simp [hne]

end HistoriesAgree

/-! ## The table is a registry -/

/-- A session is claimed for its client and told apart by its id. -/
def sessionSchema : Registry.Schema String SessionId SessionInfo where
  key := SessionInfo.clientId
  ident := SessionInfo.sessionId

/-- The session table with its histories. -/
def Server.registry (s : Server) : Registry.State String SessionId SessionInfo where
  table := s.sessions
  log := s.admitted
  released := s.cleaned

def Histories (s : Server) : Prop := HistoriesAgree s.tunnels s.admitted s.cleaned

section Simulation

variable {env : Env} {s t : Server}

theorem histories_tunnelStep {k : SessionId} {e : TunnelEvent} (h : Histories s)
    (hs : TunnelStep env k s e t) : Histories t := by
  cases hs with
  | handshakeFails hfresh => exact h.update (by rw [hfresh]; rfl) (by rw [hfresh]; rfl)
  | invalidToken hfresh _ => exact h.update (by rw [hfresh]; rfl) (by rw [hfresh]; rfl)
  | verified hfresh _ => exact h.update (by rw [hfresh]; rfl) (by rw [hfresh]; rfl)
  | rejected hlive _ => exact h.update (by rw [hlive]; rfl) (by rw [hlive]; rfl)
  | admitted hlive _ => exact h.insert hlive rfl rfl
  | statusOk hlive => exact h.update (by rw [hlive]; rfl) (by rw [hlive]; rfl)
  | statusFails hlive => exact h.update (by rw [hlive]; rfl) (by rw [hlive]; rfl)
  | startListeners hlive => exact h.update (by rw [hlive]; rfl) (by rw [hlive]; rfl)
  | add hlive hadd =>
    rw [hadd.frame]
    exact h.update (by rw [hlive]; rfl) (by rw [hlive]; rfl)
  | drive hlive _ _ => exact h.update (by rw [hlive]; rfl) (by rw [hlive]; rfl)
  | recv hlive _ _ => exact h.update (by rw [hlive]; rfl) (by rw [hlive]; rfl)
  | openOk hlive _ => exact h.update (by rw [hlive]; rfl) (by rw [hlive]; rfl)
  | openFails hlive _ => exact h.update (by rw [hlive]; rfl) (by rw [hlive]; rfl)
  | sessionEnds hlive => exact h.update (by rw [hlive]; rfl) (by rw [hlive]; rfl)
  | cleanup hlive => exact h.cleanup hlive
  | returns hlive => exact h.update (by rw [hlive]; rfl) (by rw [hlive]; rfl)

theorem histories_step {e : Event} (h : Histories s) (hs : Step env s e t) : Histories t := by
  cases hs with
  | tunnel hs => exact histories_tunnelStep h hs
  | loop hs => rw [hs.frame]; exact h
  | task hs => rw [hs.frame]; exact h
  | admin hs => rw [hs.frame]; exact h

/-- Every step claims a session, releases one, or leaves the table alone. -/
theorem table_follow {e : Event} (h : Histories s) (hs : Step env s e t) :
    t.registry = s.registry ∨
      ∃ e', Registry.Step sessionSchema env.security.maxClients s.registry e' t.registry := by
  cases hs with
  | loop hs => rw [hs.frame]; exact .inl rfl
  | task hs => rw [hs.frame]; exact .inl rfl
  | admin hs => rw [hs.frame]; exact .inl rfl
  | @tunnel _ k _ hs =>
    cases hs with
    | @admitted peer hlive hroom =>
      have hfresh : k ∉ s.admitted.map (·.sessionId) := h.fresh (by rw [hlive]; rfl)
      have hclaim := @Registry.Step.claim _ _ _ _ _ sessionSchema env.security.maxClients
        s.registry ⟨peer.clientId, k, peer.remoteAddr⟩ hroom hfresh
      exact .inr ⟨_, hclaim⟩
    | @cleanup peer hlive =>
      obtain ⟨info, hmem, rfl, hclient⟩ :=
        (h.admitted_iff k peer.clientId).mpr (by rw [hlive]; rfl)
      refine .inr ⟨.release info, ?_⟩
      have hrelease := @Registry.Step.release _ _ _ _ _ sessionSchema env.security.maxClients
        s.registry info hmem
      unfold Registry.release at hrelease
      rw [show sessionSchema.key info = peer.clientId from hclient] at hrelease
      exact hrelease
    | add _ hadd => rw [hadd.frame]; exact .inl rfl
    | _ => exact .inl rfl

/-- The server's table follows the registry of latest claims. -/
theorem table_simulation (env : Env) :
    Simulation (Step env) Histories (Registry.Step sessionSchema env.security.maxClients)
      Server.registry :=
  ⟨fun _ _ _ h hs => histories_step h hs, fun _ _ _ h hs => table_follow h hs⟩

theorem table_init (h : Init s) : Histories s ∧ Registry.Initial s.registry := by
  obtain ⟨clients, _, rfl⟩ := h
  exact ⟨.init, rfl⟩

theorem histories_reachable (h : Reachable (Step env) Init s) : Histories s :=
  ((table_simulation env).reachable (fun _ => table_init) h).1

theorem registry_good (h : Reachable (Step env) Init s) :
    Registry.Good sessionSchema env.security.maxClients s.registry :=
  Registry.reachable_good ((table_simulation env).reachable (fun _ => table_init) h).2

end Simulation

/-! ## The invariant of the table -/

/-- The session a lookup must give: the client's most recently inserted one, unless
its own cleanup has run. -/
def Server.currentSession (s : Server) (clientId : String) : Option SessionInfo :=
  (s.admitted.find? fun info => info.clientId = clientId).filter
    fun info => !decide (info.sessionId ∈ s.cleaned)

/-- In every reachable state the table has at most `max_clients` entries, each
under its own client, and the entry of a client is its most recently inserted
session, unless that very session has been cleaned up. The cleanup of a replaced
session changes nothing. -/
theorem session_table {env : Env} {s : Server} (h : Reachable (Step env) Init s) :
    s.sessions.entries.length ≤ env.security.maxClients ∧
    (∀ c info, s.sessions.lookup c = some info → info.clientId = c) ∧
    (∀ c, s.sessions.lookup c = s.currentSession c) ∧
    ∀ k peer info, s.sessions.lookup peer.clientId = some info → info.sessionId ≠ k →
      (s.cleanup k peer).sessions = s.sessions := by
  have hgood := registry_good h
  exact ⟨hgood.size_le, hgood.own_key, hgood.lookup_eq,
    fun k peer info hlookup hne => Registry.removeOwn_of_ne hlookup hne⟩

/-- A client connects again while its first session is there. The cleanup of the first
session leaves the entry of the second one. -/
theorem session_table_reconnected :
    ∃ s, Reachable (Step exampleEnv) Init s ∧
      s.sessions.lookup "cli_home" = some ⟨"cli_home", 1, "198.51.100.7:5001"⟩ ∧
      s.sessions.entries.length ≤ 2 ∧
      (s.cleanup 0 (examplePeer "198.51.100.7:5000")).sessions = s.sessions := by
  have again := reachable_serving.step (example_verified (k := 1) "198.51.100.7:5001" rfl rfl)
  have replaced := again.step (.tunnel (.admitted (k := 1) rfl (by decide)))
  obtain ⟨hsize, -, -, hcleanup⟩ := session_table replaced
  exact ⟨_, replaced, rfl, hsize, hcleanup 0 (examplePeer "198.51.100.7:5000") _ rfl nofun⟩

/-! ## Entries that outlive their connection -/

/-- No invocation that has returned has an entry in the table. -/
def NoLeak (s : Server) : Prop :=
  ∀ k, (s.tunnels k).isReturned = true →
    ∀ c info, s.sessions.lookup c = some info → info.sessionId ≠ k

/-- When the status message cannot be written, a newer session has replaced the
entry already. -/
def ReplacedAtFailure (s : Server) (e : Event) : Prop :=
  ∀ k, e = .tunnel k .statusFails →
    ∀ c info, s.sessions.lookup c = some info → info.sessionId ≠ k

section Leaks

variable {env : Env} {s t : Server}

/-- What the invariant of the table says about one entry: its session was
inserted and has not been cleaned up. -/
theorem entry_admitted (hgood : Registry.Good sessionSchema env.security.maxClients s.registry)
    (h : Histories s) {c : String} {info : SessionInfo}
    (hlookup : s.sessions.lookup c = some info) :
    (s.tunnels info.sessionId).admittedPeer.map (·.clientId) = some c ∧
      (s.tunnels info.sessionId).isCleaned = false := by
  have hcurrent := (hgood.lookup_eq c).symm.trans hlookup
  obtain ⟨hlatest, hkept⟩ := Option.filter_eq_some_iff.mp hcurrent
  obtain ⟨hmem, hkey⟩ := Registry.latest_mem hlatest
  refine ⟨(h.admitted_iff _ _).mp ⟨info, hmem, rfl, hkey⟩, ?_⟩
  have hnot : info.sessionId ∉ s.cleaned := by
    intro hmem
    simp [show sessionSchema.ident info ∈ s.registry.released from hmem] at hkept
  rwa [h.cleaned_iff, Bool.not_eq_true] at hnot

/-- An entry that is there after a step was there before, or its session was
just inserted. -/
theorem lookup_of_step {e : Event} (hs : Step env s e t) {c : String} {info : SessionInfo}
    (hlookup : t.sessions.lookup c = some info) :
    s.sessions.lookup c = some info ∨
      ∃ peer, t.tunnels info.sessionId = .live peer .registered := by
  cases hs with
  | loop hs => rw [hs.frame] at hlookup; exact .inl hlookup
  | task hs => rw [hs.frame] at hlookup; exact .inl hlookup
  | admin hs => rw [hs.frame] at hlookup; exact .inl hlookup
  | @tunnel _ k _ hs =>
    cases hs with
    | @admitted peer _ _ =>
      rcases eq_or_ne c peer.clientId with rfl | hne
      · rw [show ((s.insertSession k peer).setTunnel k (.live peer .registered)).sessions =
          s.sessions.insert peer.clientId _ from rfl, AList.lookup_insert] at hlookup
        cases hlookup
        exact .inr ⟨peer, Function.update_self ..⟩
      · rw [show ((s.insertSession k peer).setTunnel k (.live peer .registered)).sessions =
          s.sessions.insert peer.clientId _ from rfl, AList.lookup_insert_ne hne] at hlookup
        exact .inl hlookup
    | cleanup _ => exact .inl (Registry.lookup_of_removeOwn hlookup)
    | add _ hadd => rw [hadd.frame] at hlookup; exact .inl hlookup
    | _ => exact .inl hlookup

/-- A registered session is among those that `remove_listener` collects. -/
theorem mem_collected {arcs : List SessionId}
    (hperm : arcs.Perm (s.sessions.entries.map fun x => x.2.sessionId)) {k : SessionId} :
    k ∈ arcs ↔ ∃ c info, s.sessions.lookup c = some info ∧ info.sessionId = k := by
  rw [hperm.mem_iff, List.mem_map]
  constructor
  · rintro ⟨⟨c, info⟩, hmem, rfl⟩
    exact ⟨c, info, AList.mem_lookup_iff.mpr hmem, rfl⟩
  · rintro ⟨c, info, hlookup, rfl⟩
    exact ⟨⟨c, info⟩, AList.mem_lookup_iff.mp hlookup, rfl⟩

theorem isReturned_update {tunnels : SessionId → TunnelTask} {k k' : SessionId}
    {task : TunnelTask} (h : (Function.update tunnels k' task k).isReturned = true) :
    (tunnels k).isReturned = true ∨ k = k' ∧ task.isReturned = true := by
  rcases eq_or_ne k k' with rfl | hne
  · rw [Function.update_self] at h
    exact .inr ⟨rfl, h⟩
  · rw [Function.update_of_ne hne] at h
    exact .inl h

/-- What a step can make return: an invocation whose session was never inserted,
one whose session was cleaned up, or one that fails to write the status. -/
theorem returned_of_step {e : Event} (hs : Step env s e t) {k : SessionId}
    (hreturned : (t.tunnels k).isReturned = true) :
    (s.tunnels k).isReturned = true ∨ (s.tunnels k).admittedPeer = none ∨
      (s.tunnels k).isCleaned = true ∨ e = .tunnel k .statusFails := by
  cases hs with
  | loop hs => rw [hs.frame] at hreturned; exact .inl hreturned
  | task hs => rw [hs.frame] at hreturned; exact .inl hreturned
  | admin hs => rw [hs.frame] at hreturned; exact .inl hreturned
  | @tunnel _ k' _ hs =>
    -- only the steps that call `exit` end an invocation
    cases hs with
    | handshakeFails hfresh =>
      rcases isReturned_update hreturned with h | ⟨rfl, _⟩
      · exact .inl h
      · exact .inr (.inl (by rw [hfresh]; rfl))
    | invalidToken hfresh _ =>
      rcases isReturned_update hreturned with h | ⟨rfl, _⟩
      · exact .inl h
      · exact .inr (.inl (by rw [hfresh]; rfl))
    | rejected hlive _ =>
      rcases isReturned_update hreturned with h | ⟨rfl, _⟩
      · exact .inl h
      · exact .inr (.inl (by rw [hlive]; rfl))
    | statusFails _ =>
      rcases isReturned_update hreturned with h | ⟨rfl, _⟩
      · exact .inl h
      · exact .inr (.inr (.inr rfl))
    | returns hlive =>
      rcases isReturned_update hreturned with h | ⟨rfl, _⟩
      · exact .inl h
      · exact .inr (.inr (.inl (by rw [hlive]; rfl)))
    | add _ hadd =>
      rw [hadd.frame] at hreturned
      exact .inl ((isReturned_update hreturned).resolve_right nofun)
    | _ => exact .inl ((isReturned_update hreturned).resolve_right nofun)

/-- A step leaks an entry exactly if it fails to write the status of a session
whose entry is still its own. -/
theorem noLeak_step {e : Event} (h : Histories s)
    (hgood : Registry.Good sessionSchema env.security.maxClients s.registry)
    (hleak : NoLeak s) (hs : Step env s e t) : NoLeak t ↔ ReplacedAtFailure s e := by
  constructor
  · rintro hnoleak k rfl c info hlookup
    cases hs with
    | tunnel hs =>
      cases hs with
      | statusFails _ =>
        refine hnoleak k ?_ c info hlookup
        show (Function.update s.tunnels k _ k).isReturned = true
        rw [Function.update_self]
        rfl
  · rintro hok k hreturned c info hlookup rfl
    have hbefore : s.sessions.lookup c = some info := by
      rcases lookup_of_step hs hlookup with hbefore | ⟨peer, hlive⟩
      · exact hbefore
      · rw [hlive] at hreturned
        cases hreturned
    obtain ⟨hadmitted, hkept⟩ := entry_admitted hgood h hbefore
    rcases returned_of_step hs hreturned with hret | hnone | hcleaned | rfl
    · exact hleak _ hret c info hbefore rfl
    · rw [hnone] at hadmitted
      cases hadmitted
    · rw [hcleaned] at hkept
      cases hkept
    · exact hok _ rfl c info hbefore rfl

/-- In every run, no entry outlives its connection if and only if the status
message can be written to every client whose entry is not replaced before. -/
theorem leak_exact {s₀ : Server} {tr : List (Server × Event × Server)} (h₀ : Init s₀)
    (hrun : Run (Step env) s₀ tr s) :
    (∀ x ∈ tr, NoLeak x.2.2) ↔ ∀ x ∈ tr, ReplacedAtFailure x.1 x.2.1 := by
  have keep : ∀ s e t, Reachable (Step env) Init s → Step env s e t →
      Reachable (Step env) Init t := fun _ _ _ h hs => h.step hs
  refine hrun.forall_states_iff keep (fun s e t h hleak hs =>
    noLeak_step (histories_reachable h) (registry_good h) hleak hs) (.init h₀) ?_
  obtain ⟨clients, _, rfl⟩ := h₀
  exact fun _ hreturned => nomatch hreturned

end Leaks

/-- The client resets the connection before it reads the status: its entry stays
in the table, under a session whose invocation is over. -/
theorem status_failure_leaks :
    ∃ tr s, Run (Step exampleEnv) (Server.init exampleStore) tr s ∧
      s.tunnels 0 = .returned (.statusFailed (examplePeer "198.51.100.7:5000")) ∧
      s.sessions.lookup "cli_home" = some ⟨"cli_home", 0, "198.51.100.7:5000"⟩ ∧ ¬ NoLeak s := by
  have verified := Run.nil.snoc (example_verified (k := 0) "198.51.100.7:5000"
    (s := Server.init exampleStore) rfl rfl)
  have registered := verified.snoc (.tunnel (.admitted (k := 0) rfl (by decide)))
  have failed := registered.snoc (.tunnel (.statusFails (k := 0) rfl))
  exact ⟨_, _, failed, rfl, rfl, fun hnoleak => hnoleak 0 rfl "cli_home" _ rfl rfl⟩

/-- The same, but the client has connected once more before the status of the
first session fails. -/
theorem leak_exact_replaced :
    ∃ tr s, Run (Step exampleEnv) (Server.init exampleStore) tr s ∧
      (s.tunnels 0).isReturned = true ∧ ∀ x ∈ tr, NoLeak x.2.2 := by
  have verified := Run.nil.snoc (example_verified (k := 0) "198.51.100.7:5000"
    (s := Server.init exampleStore) rfl rfl)
  have registered := verified.snoc (.tunnel (.admitted (k := 0) rfl (by decide)))
  have verified' := registered.snoc (example_verified (k := 1) "198.51.100.7:5001" rfl rfl)
  have registered' := verified'.snoc (.tunnel (.admitted (k := 1) rfl (by decide)))
  have failed := registered'.snoc (.tunnel (.statusFails (k := 0) rfl))
  refine ⟨_, _, failed, rfl, (leak_exact init_example failed).mpr ?_⟩
  simp only [List.mem_append, List.mem_singleton, or_imp, forall_and, forall_eq,
    List.not_mem_nil, ReplacedAtFailure, Event.tunnel.injEq, reduceCtorEq, and_false,
    false_implies, implies_true, true_and, and_true]
  rintro _ rfl c info hlookup
  -- the table has one entry, that of the session 1
  cases List.mem_singleton.mp (AList.mem_lookup_iff.mp hlookup)
  decide

end MiniMask.Tunnel
