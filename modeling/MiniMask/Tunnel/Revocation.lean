import MiniMask.Tunnel.Listeners

/-!
# Revocation

The token of a session is checked once, when the client connects. `delete_client`,
`update_client` and `regenerate_token` change the store, which decides about later
checks; no handler removes an entry of the session table.

* `Checked`: a step of a run that checks the token of a session.
* `sessions_checked`: there is one for each session in the table.
* `revocation`: the sessions in the table after such a request are those checked
  before it, and those that presented a token drawn since.
* `revocation_keeps_sessions`: a session that is connected when its client is disabled
  or deleted, or gets a new token, stays in the table.
-/

namespace MiniMask.Tunnel

open Lts

/-- The step checks the token of session `k`: it is that of client `c`, which is there
and enabled. -/
def Checked (env : Env) (c : String) (k : SessionId) (token : String)
    (x : Server × Event × Server) : Prop :=
  (∃ announced addr, x.2.1 = .tunnel k (.handshake announced token addr)) ∧
    ∃ client ∈ x.1.clients.list, client.id = c ∧ client.enabled = true ∧
      client.tokenHash = env.sha256HexWithPepper token env.tokenPepper

section Checks

variable {env : Env} {s t : Server}

/-- An invocation has its peer from the handshake and the check of its token. -/
theorem peer_of_step {e : Event} (hs : Step env s e t) {k : SessionId} {peer : Peer}
    (h : (t.tunnels k).peer = some peer) :
    (s.tunnels k).peer = some peer ∨
      e = .tunnel k (.handshake peer.announced peer.token peer.remoteAddr) ∧
        Checked env peer.clientId k peer.token (s, e, t) := by
  rcases tunnel_of_step hs k with hsame | ⟨e', rfl, hs'⟩
  · exact .inl (hsame ▸ h)
  · cases hbefore : (s.tunnels k).peer with
    | some peer' =>
      obtain ⟨task, htunnels, hkeep⟩ := hs'.moves
      rw [htunnels, Function.update_self, hkeep peer' hbefore] at h
      exact .inl h
    | none =>
      cases hs' with
      | @verified announced token addr clientId enabled _ hverify =>
        simp only [Server.setTunnel, Function.update_self] at h
        cases h
        exact .inr ⟨rfl, ⟨announced, addr, rfl⟩, (ClientStore.verifyToken_client hverify).2⟩
      | handshakeFails _ | invalidToken _ _ => simp [Server.exit, TunnelTask.peer] at h
      | _ => simp_all [TunnelTask.peer]

/-- A session is authenticated by the check of its token. -/
theorem authenticated_of_step {e : Event} (hs : Step env s e t) {k : SessionId} {c : String}
    (h : t.AuthenticatedAs k c) :
    s.AuthenticatedAs k c ∨ ∃ token, Checked env c k token (s, e, t) := by
  obtain ⟨peer, hpeer, rfl⟩ := Option.map_eq_some_iff.mp h
  rcases peer_of_step hs hpeer with hbefore | ⟨-, hchecked⟩
  · exact .inl (Option.map_eq_some_iff.mpr ⟨peer, hbefore, rfl⟩)
  · exact .inr ⟨peer.token, hchecked⟩

theorem checked_of_run {s₀ : Server} {tr : List (Server × Event × Server)}
    (hrun : Run (Step env) s₀ tr s) {k : SessionId} {c : String} (h : s.AuthenticatedAs k c) :
    s₀.AuthenticatedAs k c ∨ ∃ x ∈ tr, ∃ token, Checked env c k token x :=
  hrun.since (·.AuthenticatedAs k c) (fun x => ∃ token, Checked env c k token x)
    (fun _ _ _ hs => authenticated_of_step hs) h

theorem not_authenticated_init (h : Init s) (k : SessionId) (c : String) :
    ¬ s.AuthenticatedAs k c := by
  obtain ⟨clients, _, rfl⟩ := h
  exact nofun

end Checks

/-! ## What the handlers do to a client -/

section Handlers

variable {env : Env} {clients : ClientStore} {request : AdminRequest} {io : AtomicFile.Outcome}

/-- A client in the store after a request was there, changed only as the request says,
or the request creates it. -/
theorem client_of_handle {client' : Client} (h : client' ∈ (handle env clients request io).2.list) :
    (∃ name token id now, request = .createClient name token id now ∧ client'.id = id) ∨
      ∃ client ∈ clients.list, client'.id = client.id ∧
        (client'.enabled = client.enabled ∨
          request = .updateClient client.id client'.enabled) ∧
        (client'.tokenHash = client.tokenHash ∨ ∃ token,
          request = .regenerateToken client.id token ∧
            client'.tokenHash = env.sha256HexWithPepper token env.tokenPepper) := by
  cases request with
  | createClient name token id now =>
    rcases handle_createClient env clients name token id now io with heq | ⟨_, heq⟩
    · rw [heq] at h
      exact .inr ⟨client', h, rfl, .inl rfl, .inl rfl⟩
    · rw [heq, ClientStore.addClient_list] at h
      rcases List.mem_append.mp h with h | h
      · exact .inr ⟨client', h, rfl, .inl rfl, .inl rfl⟩
      · cases List.mem_singleton.mp h
        exact .inl ⟨_, _, _, _, rfl, rfl⟩
  | updateClient id enabled =>
    have h : client' ∈ (clients.setClientEnabled id enabled io).2.list := h
    rw [ClientStore.setClientEnabled_list] at h
    rcases mem_updateFirst h with h | ⟨client, hmem, hid, rfl⟩
    · exact .inr ⟨client', h, rfl, .inl rfl, .inl rfl⟩
    · exact .inr ⟨client, hmem, rfl, .inr (by rw [eq_of_beq hid]), .inl rfl⟩
  | deleteClient id =>
    have h : client' ∈ (clients.deleteClient id io).2.list := h
    rw [ClientStore.deleteClient_list] at h
    exact .inr ⟨client', (List.mem_filter.mp h).1, rfl, .inl rfl, .inl rfl⟩
  | regenerateToken id token =>
    have h : client' ∈ (clients.regenerateToken _ id _ token io).2.list := h
    rw [ClientStore.regenerateToken_list] at h
    rcases mem_updateFirst h with h | ⟨client, hmem, hid, rfl⟩
    · exact .inr ⟨client', h, rfl, .inl rfl, .inl rfl⟩
    · exact .inr ⟨client, hmem, rfl, .inl rfl, .inr ⟨token, by rw [eq_of_beq hid], rfl⟩⟩
  | createMapping clientId name remotePort localAddr id now =>
    rcases createMapping_cases env clients clientId name remotePort localAddr id now io with
      ⟨_, _, heq⟩ | ⟨_, hlist, _⟩
    · rw [heq] at h
      exact .inr ⟨client', h, rfl, .inl rfl, .inl rfl⟩
    · rw [hlist] at h
      rcases mem_updateFirst h with h | ⟨client, hmem, _, rfl⟩
      · exact .inr ⟨client', h, rfl, .inl rfl, .inl rfl⟩
      · exact .inr ⟨client, hmem, rfl, .inl rfl, .inl rfl⟩
  | updateMapping id enabled =>
    have h : client' ∈ (clients.setMappingEnabled id enabled io).2.list := h
    rw [ClientStore.setMappingEnabled_list] at h
    obtain ⟨client, hmem, rfl⟩ := List.mem_map.mp h
    exact .inr ⟨client, hmem, rfl, .inl rfl, .inl rfl⟩
  | deleteMapping id =>
    have h : client' ∈ (clients.deleteMapping id io).2.list := h
    rw [ClientStore.deleteMapping_list] at h
    obtain ⟨client, hmem, rfl⟩ := List.mem_map.mp h
    exact .inr ⟨client, hmem, rfl, .inl rfl, .inl rfl⟩

/-- The client that a request is about. -/
def AdminRequest.client : AdminRequest → Option String
  | .updateClient id _ => some id
  | .deleteClient id => some id
  | .regenerateToken id _ => some id
  | _ => none

/-- A request about a client that is not there is answered so. -/
theorem handle_notFound {c : String} (hclient : request.client = some c)
    (hnone : ∀ client ∈ clients.list, client.id ≠ c) :
    (handle env clients request io).1 = .answer .notFound := by
  have hany : (clients.list.any fun client => client.id == c) = false := by
    simpa using hnone
  cases request with
  | updateClient id enabled =>
    cases hclient
    simp [handle, ClientStore.setClientEnabled, hany, Next.ofChanged]
  | deleteClient id =>
    cases hclient
    have hsame : (clients.list.filter fun client => client.id != c) = clients.list := by
      simpa using hnone
    simp [handle, ClientStore.deleteClient, hsame, Next.ofChanged]
  | regenerateToken id token =>
    cases hclient
    simp [handle, ClientStore.regenerateToken, hany]
  | _ => cases hclient

/-- No client `c` is enabled. -/
def ShutOut (c : String) (clients : ClientStore) : Prop :=
  ∀ client ∈ clients.list, client.id = c → client.enabled = false

/-- Client `c` has the digest of one of some tokens. -/
def HasTokenIn (env : Env) (c : String) (tokens : String → Prop) (clients : ClientStore) : Prop :=
  ∀ client ∈ clients.list, client.id = c → ∃ token, tokens token ∧
    client.tokenHash = env.sha256HexWithPepper token env.tokenPepper

/-- The requests that take a client out. -/
def AdminRequest.ShutsOut (request : AdminRequest) (c : String) : Prop :=
  request = .deleteClient c ∨ request = .updateClient c false

theorem shutOut_handle {c : String} (hids : (clients.list.map (·.id)).Nodup)
    (h : request.ShutsOut c) : ShutOut c (handle env clients request io).2 := by
  intro client hmem hid
  rcases h with rfl | rfl
  · have hmem : client ∈ (clients.deleteClient c io).2.list := hmem
    rw [ClientStore.deleteClient_list] at hmem
    simp [hid] at hmem
  · have hmem : client ∈ (clients.setClientEnabled c false io).2.list := hmem
    rw [ClientStore.setClientEnabled_list] at hmem
    obtain ⟨_, _, rfl⟩ := mem_updateFirst_key hids hmem hid
    rfl

theorem hasTokenIn_handle {c token : String} {tokens : String → Prop}
    (hids : (clients.list.map (·.id)).Nodup) (htoken : tokens token) :
    HasTokenIn env c tokens (handle env clients (.regenerateToken c token) io).2 := by
  intro client hmem hid
  have hmem : client ∈ (clients.regenerateToken _ c _ token io).2.list := hmem
  rw [ClientStore.regenerateToken_list] at hmem
  obtain ⟨_, _, rfl⟩ := mem_updateFirst_key hids hmem hid
  exact ⟨token, htoken, rfl⟩

end Handlers

/-! ## What stays so -/

section Kept

variable {env : Env} {s t : Server} {c : String}

/-- No step enables the client. -/
def NotEnabling (c : String) (e : Event) : Prop :=
  ∀ r io, e ≠ .admin r (.submit (.updateClient c true) io)

/-- A token that a step draws for the client is one of `tokens`. -/
def DrawnIn (c : String) (tokens : String → Prop) (e : Event) : Prop :=
  ∀ r io token, e = .admin r (.submit (.regenerateToken c token) io) → tokens token

theorem issuedClients_step {e : Event} (hs : Step env s e t) (h : c ∈ s.issuedClients) :
    c ∈ t.issuedClients := by
  cases hs with
  | loop hs => rw [hs.frame]; exact h
  | task hs => rw [hs.frame]; exact h
  | tunnel hs => rw [hs.admins.2.2.2]; exact h
  | admin hs =>
    cases hs with
    | submit _ _ _ => exact List.mem_append_left _ h
    | add _ hadd => rw [hadd.frame]; exact h
    | _ => exact h

/-- An id that was drawn is not drawn again, so a client that is shut out comes back
only when it is enabled. -/
theorem shutOut_step {e : Event} (hissued : c ∈ s.issuedClients) (h : ShutOut c s.clients)
    (hs : Step env s e t) (hnot : NotEnabling c e) : ShutOut c t.clients := by
  rcases clients_of_step hs with ⟨_, hclients⟩ | ⟨r, request, io, rfl, _, hfresh, rfl⟩
  · rwa [hclients]
  · intro client' hmem hid
    rcases client_of_handle hmem with ⟨name, token, id, now, rfl, hdrawn⟩ |
      ⟨client, hold, hsame, henabled, _⟩
    · exact absurd hissued (hid ▸ hdrawn ▸ hfresh)
    · rcases henabled with henabled | rfl
      · rw [henabled]
        exact h client hold (hsame.symm.trans hid)
      · cases hen : client'.enabled with
        | false => rfl
        | true => exact absurd (by rw [hen, ← hsame, hid]) (hnot r io)

theorem hasTokenIn_step {e : Event} {tokens : String → Prop} (hissued : c ∈ s.issuedClients)
    (h : HasTokenIn env c tokens s.clients) (hs : Step env s e t) (hdrawn : DrawnIn c tokens e) :
    HasTokenIn env c tokens t.clients := by
  rcases clients_of_step hs with ⟨_, hclients⟩ | ⟨r, request, io, rfl, _, hfresh, rfl⟩
  · rwa [hclients]
  · intro client' hmem hid
    rcases client_of_handle hmem with ⟨name, token, id, now, rfl, hid'⟩ |
      ⟨client, hold, hsame, _, hdigest⟩
    · exact absurd hissued (hid ▸ hid' ▸ hfresh)
    · rcases hdigest with hdigest | ⟨token, rfl, hdigest⟩
      · rw [hdigest]
        exact h client hold (hsame.symm.trans hid)
      · exact ⟨token, hdrawn r io token (by rw [← hsame, hid]), hdigest⟩

/-- A client that is shut out stays so in a run that does not enable it. -/
theorem shutOut_run {tr : List (Server × Event × Server)} (hissued : c ∈ s.issuedClients)
    (h : ShutOut c s.clients) (hrun : Run (Step env) s tr t)
    (hnot : ∀ x ∈ tr, NotEnabling c x.2.1) :
    ShutOut c t.clients ∧ ∀ x ∈ tr, ShutOut c x.1.clients := by
  have hkeep : ∀ s e t, c ∈ s.issuedClients ∧ ShutOut c s.clients → Step env s e t →
      NotEnabling c e → c ∈ t.issuedClients ∧ ShutOut c t.clients := fun s e t h hs hnot =>
    ⟨issuedClients_step hs h.1, shutOut_step h.1 h.2 hs hnot⟩
  obtain ⟨hend, hall⟩ := hrun.keeps_guarded hkeep hnot ⟨hissued, h⟩
  exact ⟨hend.2, fun x hx => (hall x hx).2⟩

/-- A client that has a token among `tokens` has one of them as long as only such tokens
are drawn for it. -/
theorem hasTokenIn_run {tokens : String → Prop} {tr : List (Server × Event × Server)}
    (hissued : c ∈ s.issuedClients) (h : HasTokenIn env c tokens s.clients)
    (hrun : Run (Step env) s tr t) (hdrawn : ∀ x ∈ tr, DrawnIn c tokens x.2.1) :
    ∀ x ∈ tr, HasTokenIn env c tokens x.1.clients := by
  have hkeep : ∀ s e t, c ∈ s.issuedClients ∧ HasTokenIn env c tokens s.clients → Step env s e t →
      DrawnIn c tokens e → c ∈ t.issuedClients ∧ HasTokenIn env c tokens t.clients :=
    fun s e t h hs hdrawn => ⟨issuedClients_step hs h.1, hasTokenIn_step h.1 h.2 hs hdrawn⟩
  exact fun x hx => ((hrun.keeps_guarded hkeep hdrawn ⟨hissued, h⟩).2 x hx).2

/-- A handler that has answered has given its answer. -/
theorem answered_step {e : Event} (hs : Step env s e t) {r : RequestId} {request : AdminRequest}
    {response : Response} (h : s.admins r = .done request response) :
    t.admins r = .done request response := by
  rcases admin_of_step hs r with hsame | ⟨e', rfl, hs'⟩
  · exact hsame.trans h
  · cases hs' <;> simp_all

theorem answered_run {tr : List (Server × Event × Server)} (hrun : Run (Step env) s tr t)
    {r : RequestId} {request : AdminRequest} {response : Response}
    (h : s.admins r = .done request response) : t.admins r = .done request response := by
  induction hrun with
  | nil => exact h
  | snoc _ hs ih => exact answered_step hs ih

/-- A request about a client that is answered `Ok` found the client. -/
theorem issued_of_ok {r : RequestId} {request : AdminRequest} {io : AtomicFile.Outcome}
    {u : Server} {tr : List (Server × Event × Server)} (hledger : Ledger s)
    (hsubmit : Step env s (.admin r (.submit request io)) t) (hrun : Run (Step env) t tr u)
    (hok : u.admins r = .done request .ok) (hclient : request.client = some c) :
    c ∈ s.issuedClients := by
  by_contra hnot
  have hnone : ∀ client ∈ s.clients.list, client.id ≠ c := fun client hmem hid =>
    hnot (hid ▸ hledger.ids_issued _ (List.mem_map_of_mem hmem))
  have hanswer : t.admins r = .done request .notFound := by
    cases hsubmit with
    | admin hs =>
      cases hs with
      | submit _ _ _ =>
        rw [handle_notFound hclient hnone]
        exact Function.update_self ..
  cases (answered_run hrun hanswer).symm.trans hok

end Kept

/-! ## Revocation -/

/-- In every run, each session in the table belongs to a client that was there, enabled, and
had the token presented, when its token was checked. -/
theorem sessions_checked {env : Env} {s₀ s : Server} {tr : List (Server × Event × Server)}
    {c : String} {info : SessionInfo} (h₀ : Init s₀) (hrun : Run (Step env) s₀ tr s)
    (hlookup : s.sessions.lookup c = some info) :
    ∃ x ∈ tr, ∃ token, Checked env c info.sessionId token x :=
  (checked_of_run hrun (authenticatedAs_of_lookup (hrun.reachable h₀) hlookup)).resolve_left
    (not_authenticated_init h₀ _ _)

/-- A request about client `c` is submitted in a run from the start and answered `Ok`.
At the end of the run,

* each session of `c` in the table belongs to a client that was there, enabled, and had
  the token presented, when its token was checked;
* if the request deleted or disabled `c`, and `c` has not been enabled again, the store
  has no enabled client `c`, and the token of each session of `c` in the table was
  checked before the request;
* if the request drew a new token, the token of each session of `c` in the table was
  checked before the request or has the digest of a token drawn by this or a later
  request. -/
theorem revocation {env : Env} {s₀ s t u : Server} {before after : List (Server × Event × Server)}
    {r : RequestId} {request : AdminRequest} {io : AtomicFile.Outcome} {c : String} (h₀ : Init s₀)
    (hbefore : Run (Step env) s₀ before s)
    (hsubmit : Step env s (.admin r (.submit request io)) t)
    (hafter : Run (Step env) t after u) (hok : u.admins r = .done request .ok) :
    (∀ info, u.sessions.lookup c = some info →
      ∃ x ∈ before ++ after, ∃ token, Checked env c info.sessionId token x) ∧
    (request.ShutsOut c → (∀ x ∈ after, NotEnabling c x.2.1) →
      ShutOut c u.clients ∧ ∀ info, u.sessions.lookup c = some info →
        ∃ x ∈ before, ∃ token, Checked env c info.sessionId token x) ∧
    (∀ drawn, request = .regenerateToken c drawn → ∀ info, u.sessions.lookup c = some info →
      (∃ x ∈ before, ∃ token, Checked env c info.sessionId token x) ∨
        ∃ x ∈ after, ∃ token, Checked env c info.sessionId token x ∧ ∃ drawn',
          (drawn' = drawn ∨ ∃ y ∈ after, ∃ r io,
            y.2.1 = .admin r (.submit (.regenerateToken c drawn') io)) ∧
          env.sha256HexWithPepper token env.tokenPepper =
            env.sha256HexWithPepper drawn' env.tokenPepper) := by
  have hr := hbefore.reachable h₀
  have hledger := ledger_reachable hr
  have hissued : ∀ {c}, request.client = some c → c ∈ t.issuedClients := fun hclient =>
    issuedClients_step hsubmit (issued_of_ok hledger hsubmit hafter hok hclient)
  have hclients : t.clients = (handle env s.clients request io).2 := by
    cases hsubmit with
    | admin hs => cases hs; rfl
  have hchecked : ∀ info, u.sessions.lookup c = some info →
      (∃ x ∈ before, ∃ token, Checked env c info.sessionId token x) ∨
        ∃ x ∈ after, ∃ token, Checked env c info.sessionId token x := by
    intro info hlookup
    have hru := hafter.keeps (fun _ _ _ hr hs => hr.step hs) (hr.step hsubmit)
    rcases checked_of_run hafter (authenticatedAs_of_lookup hru hlookup) with hauth | hcheck
    · rcases authenticated_of_step hsubmit hauth with hauth | ⟨_, ⟨_, _, heq⟩, _⟩
      · exact .inl ((checked_of_run hbefore hauth).resolve_left (not_authenticated_init h₀ _ _))
      · cases heq
    · exact .inr hcheck
  refine ⟨fun info hlookup => ?_, fun hout hnot => ?_, ?_⟩
  · rcases hchecked info hlookup with ⟨x, hx, hcheck⟩ | ⟨x, hx, hcheck⟩
    · exact ⟨x, List.mem_append_left _ hx, hcheck⟩
    · exact ⟨x, List.mem_append_right _ hx, hcheck⟩
  · have hclient : request.client = some c := by rcases hout with rfl | rfl <;> rfl
    obtain ⟨hend, hall⟩ := shutOut_run (hissued hclient)
      (hclients ▸ shutOut_handle hledger.ids_nodup hout) hafter hnot
    refine ⟨hend, fun info hlookup => (hchecked info hlookup).resolve_right ?_⟩
    rintro ⟨x, hx, token, _, client, hmem, hid, henabled, _⟩
    -- the token would have been checked while the client was shut out
    have hshut := hall x hx client hmem hid
    rw [henabled] at hshut
    cases hshut
  · rintro drawn rfl info hlookup
    rcases hchecked info hlookup with hbefore' | ⟨x, hx, token, hcheck⟩
    · exact .inl hbefore'
    · let tokens : String → Prop := fun drawn' => drawn' = drawn ∨ ∃ y ∈ after, ∃ r io,
        y.2.1 = .admin r (.submit (.regenerateToken c drawn') io)
      have hdrawn : ∀ y ∈ after, DrawnIn c tokens y.2.1 := fun y hy r io drawn' heq =>
        .inr ⟨y, hy, r, io, heq⟩
      have htokens := hasTokenIn_run (hissued rfl)
        (hclients ▸ hasTokenIn_handle hledger.ids_nodup (.inl rfl)) hafter hdrawn x hx
      obtain ⟨client, hmem, hid, _, hdigest⟩ := hcheck.2
      obtain ⟨drawn', hin, hdigest'⟩ := htokens client hmem hid
      exact .inr ⟨x, hx, token, hcheck, drawn', hin, hdigest.symm.trans hdigest'⟩

/-- A handler is about to stop the listeners of the client of the example. -/
def exampleStopping (request : AdminRequest) : Server :=
  (exampleServing.setClients (handle exampleEnv exampleServing.clients request .done).2).setAdmin 0
    (.running request (.removeClient "cli_home"))

theorem example_stopping {request : AdminRequest} (hout : request.ShutsOut "cli_home") :
    Step exampleEnv exampleServing (.admin 0 (.submit request .done)) (exampleStopping request) := by
  have hgo : (handle exampleEnv exampleServing.clients request .done).1 =
      .go (.removeClient "cli_home") := by
    rcases hout with rfl | rfl
    · decide
    · decide
  have hfresh : request.FreshIn exampleServing := by
    rcases hout with rfl | rfl
    · trivial
    · trivial
  have hsubmit : AdminStep exampleEnv 0 exampleServing (.submit request .done) _ :=
    .submit rfl serving_lock hfresh
  rw [hgo] at hsubmit
  exact .admin hsubmit

/-- The client is disabled while it is connected: the token of its session was checked
before. -/
theorem revocation_disabled :
    ∃ before after s, Run (Step exampleEnv) (Server.init exampleStore) before exampleServing ∧
      Run (Step exampleEnv) (exampleStopping (.updateClient "cli_home" false)) after s ∧
      s.admins 0 = .done (.updateClient "cli_home" false) .ok ∧ ShutOut "cli_home" s.clients ∧
      ∃ x ∈ before, ∃ token, Checked exampleEnv "cli_home" 0 token x := by
  obtain ⟨before, hbefore⟩ := example_serving
    (p := fun s => ∃ tr, Run (Step exampleEnv) (Server.init exampleStore) tr s) ⟨_, .nil⟩
    fun ⟨_, hrun⟩ hs _ _ => ⟨_, hrun.snoc hs⟩
  have start : Run (Step exampleEnv) (exampleStopping (.updateClient "cli_home" false)) [] _ := .nil
  have stopped := (start.snoc (.admin (.findSession (r := 0) rfl rfl))).snoc
    (.admin (.drain (r := 0) rfl))
  have hsessions := (revocation (c := "cli_home") init_example hbefore (example_stopping (.inr rfl))
    stopped rfl).2.1 (.inr rfl) ?_
  · exact ⟨before, _, _, hbefore, stopped, rfl, hsessions.1, hsessions.2 _ rfl⟩
  · intro x hx r io heq
    rcases List.mem_append.mp hx with hx | hx
    · cases List.mem_singleton.mp hx
      cases heq
    · cases List.mem_singleton.mp hx
      cases heq

/-- A run of the example server answers the request `Ok` while no token is under check,
and the session of the client is in the table after it. -/
def StaysConnected (request : AdminRequest) : Prop :=
  ∃ s, Reachable (Step exampleEnv) Init s ∧ s.admins 0 = .done request .ok ∧
    (∀ k peer, s.tunnels k ≠ .live peer .verified) ∧
    s.sessions.lookup "cli_home" = some ⟨"cli_home", 0, "198.51.100.7:5000"⟩

/-- A session stays in the table when its client is disabled or deleted, and when the
client gets a new token. -/
theorem revocation_keeps_sessions :
    StaysConnected (.updateClient "cli_home" false) ∧ StaysConnected (.deleteClient "cli_home") ∧
      StaysConnected (.regenerateToken "cli_home" "mmk_new") := by
  have hdriven : ∀ k peer, exampleServing.tunnels k ≠ .live peer .verified := by
    intro k peer hlive
    rcases eq_or_ne k 0 with rfl | hne
    · cases hlive
    · simp [exampleServing, exampleFound, exampleStarting, Server.setTunnel, Server.storeHandle,
        Server.spawn, Server.insertSession, Server.init, hne] at hlive
  have hshut : ∀ request : AdminRequest, request.ShutsOut "cli_home" → StaysConnected request := by
    intro request hout
    have stopped := ((reachable_serving.step (example_stopping hout)).step
      (.admin (.findSession (r := 0) rfl rfl))).step (.admin (.drain (r := 0) rfl))
    exact ⟨_, stopped, rfl, hdriven, rfl⟩
  have drawn := reachable_serving.step (.admin (@AdminStep.submit _ 0 _
    (.regenerateToken "cli_home" "mmk_new") .done rfl serving_lock trivial))
  exact ⟨hshut _ (.inr rfl), hshut _ (.inl rfl), _, drawn, rfl, hdriven, rfl⟩

end MiniMask.Tunnel
