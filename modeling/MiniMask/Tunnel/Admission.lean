import MiniMask.Protocol
import MiniMask.Tunnel.Revocation

/-!
# Admission (`tunnel/listener.rs`, `handle_tunnel` up to its answer)

`handle_tunnel` reads a handshake, looks up whose token it carries, and enters a session
in the table unless the table is full. `handleTunnel` is all of this at one moment;
`handleTunnel_steps` is its part in the steps of `Server`, where other tasks come between
the check of the token and the entry.

* `replace_own_exact`: a client that has an entry can always replace it, except in a
  table that is exactly full. `returning_client_rejected` is the run in which it cannot.
* `identity_by_token`: the session is entered for the client that the token belongs to,
  which is enabled. The id that the handshake announces plays no part
  (`announced_id_differs`).
-/

namespace MiniMask.Tunnel

open Lts Framing Protocol

/-! ## A client and its own entry -/

/-- The entries of other clients than `c`. -/
def Server.others (s : Server) (c : String) : Nat := s.sessions.entries.countP fun x => x.1 != c

/-- The entry of session `k`. -/
def Peer.info (peer : Peer) (k : SessionId) : SessionInfo where
  clientId := peer.clientId
  sessionId := k
  remoteAddr := peer.remoteAddr

/-- How the capacity should meet the session `k` of `peer`, whose token has been checked:

* only the entries of other clients count against it;
* where its client has an entry already, in a table of any size up to the limit, the
  session replaces it;
* where it has none, the session is entered if there is room and only then. -/
structure ReplacesOwn (env : Env) (s : Server) (k : SessionId) (peer : Peer) : Prop where
  rejected : ∀ t, TunnelStep env k s .insert t → t.tunnels k = .returned (.rejected peer) →
    env.security.maxClients ≤ s.others peer.clientId
  returning : (s.sessions.lookup peer.clientId).isSome = true →
    s.sessions.entries.length ≤ env.security.maxClients →
      ∀ t, TunnelStep env k s .insert t → t.sessions.lookup peer.clientId = some (peer.info k)
  newcomer : s.sessions.lookup peer.clientId = none → ∀ t, TunnelStep env k s .insert t →
    (t.sessions.lookup peer.clientId = some (peer.info k) ↔
      s.sessions.entries.length < env.security.maxClients)

section Own

variable {env : Env} {s t : Server} {k : SessionId} {peer : Peer}

/-- What the insert does to a session whose token has been checked. -/
theorem insert_cases (hlive : s.tunnels k = .live peer .verified)
    (hs : TunnelStep env k s .insert t) :
    (env.security.maxClients ≤ s.sessions.entries.length ∧ t = s.exit k (.rejected peer)) ∨
      (s.sessions.entries.length < env.security.maxClients ∧
        t = (s.insertSession k peer).setTunnel k (.live peer .registered)) := by
  cases hs with
  | rejected hlive' hfull =>
    cases hlive.symm.trans hlive'
    exact .inl ⟨hfull, rfl⟩
  | admitted hlive' hroom =>
    cases hlive.symm.trans hlive'
    exact .inr ⟨hroom, rfl⟩

theorem exit_tunnel (e : Exit) : (s.exit k e).tunnels k = .returned e := Function.update_self ..

theorem setTunnel_tunnel (task : TunnelTask) : (s.setTunnel k task).tunnels k = task :=
  Function.update_self ..

theorem admitted_tunnel :
    ((s.insertSession k peer).setTunnel k (.live peer .registered)).tunnels k =
      .live peer .registered := setTunnel_tunnel _

theorem admitted_lookup :
    ((s.insertSession k peer).setTunnel k (.live peer .registered)).sessions.lookup
      peer.clientId = some (peer.info k) := AList.lookup_insert _

/-- All entries but its own are those of other clients. -/
theorem others_of_some (h : (s.sessions.lookup peer.clientId).isSome = true) :
    s.others peer.clientId + 1 = s.sessions.entries.length := by
  have hkey : peer.clientId ∈ s.sessions.keys := AList.lookup_isSome.mp h
  have hsplit :=
    List.length_eq_countP_add_countP (fun x => x != peer.clientId) (l := s.sessions.keys)
  have hone : s.sessions.keys.countP (fun x => ¬ (x != peer.clientId) = true) = 1 := by
    have hcount := List.count_eq_one_of_mem s.sessions.nodupKeys hkey
    rw [← hcount, List.count]
    exact List.countP_congr fun x _ => by simp
  have hothers : s.sessions.keys.countP (fun x => x != peer.clientId) =
      s.others peer.clientId := List.countP_map
  rw [hone, hothers] at hsplit
  rw [← hsplit]
  exact List.length_map ..

/-- Without an entry of its own, all are of other clients. -/
theorem others_of_none (h : s.sessions.lookup peer.clientId = none) :
    s.others peer.clientId = s.sessions.entries.length := by
  refine List.countP_eq_length.mpr fun x hx => bne_iff_ne.mpr fun heq => ?_
  have hmem : peer.clientId ∈ s.sessions := heq ▸ List.mem_map_of_mem hx
  rw [AList.lookup_eq_none] at h
  exact h hmem

end Own

/-- The capacity meets a session as it should exactly if its client has no entry or the
table is not exactly full. -/
theorem replace_own_exact {env : Env} {s : Server} {k : SessionId} {peer : Peer}
    (hlive : s.tunnels k = .live peer .verified) :
    ReplacesOwn env s k peer ↔ ((s.sessions.lookup peer.clientId).isSome = true →
      s.sessions.entries.length ≠ env.security.maxClients) := by
  constructor
  · -- One of the entries of a full table is the client's own, so the others are too few.
    intro h hown hfull
    have hs : TunnelStep env k s .insert (s.exit k (.rejected peer)) :=
      .rejected hlive (Nat.le_of_eq hfull.symm)
    have hle := h.rejected _ hs (exit_tunnel _)
    have hothers := others_of_some hown
    omega
  · intro hfree
    refine ⟨fun t hs hrejected => ?_, fun hown hle t hs => ?_, fun hnone t hs => ?_⟩
    · rcases insert_cases hlive hs with ⟨hfull, rfl⟩ | ⟨_, rfl⟩
      · cases hown : s.sessions.lookup peer.clientId with
        | none => exact others_of_none hown ▸ hfull
        | some info =>
          have hsome : (s.sessions.lookup peer.clientId).isSome = true := by rw [hown]; rfl
          have hne := hfree hsome
          have hothers := others_of_some hsome
          omega
      · cases hrejected.symm.trans admitted_tunnel
    · rcases insert_cases hlive hs with ⟨hfull, rfl⟩ | ⟨_, rfl⟩
      · exact absurd (Nat.le_antisymm hle hfull) (hfree hown)
      · exact admitted_lookup
    · rcases insert_cases hlive hs with ⟨hfull, rfl⟩ | ⟨hroom, rfl⟩
      · refine ⟨fun hentry => ?_, fun hroom => absurd hroom (Nat.not_lt.mpr hfull)⟩
        cases hnone.symm.trans hentry
      · exact ⟨fun _ => hroom, fun _ => admitted_lookup⟩

/-- The example server for one client. -/
def oneClientEnv : Env :=
  { exampleEnv with security := { exampleEnv.security with maxClients := 1 } }

theorem oneClient_verified {s : Server} {k : SessionId} (addr : String)
    (hclients : s.clients = exampleStore) (hfresh : s.tunnels k = .fresh) :
    TunnelStep oneClientEnv k s (.handshake "cli_home" "mmk_home" addr)
      (s.setTunnel k (.live (examplePeer addr) .verified)) := by
  have hverify : s.clients.verifyToken oneClientEnv.sha256HexWithPepper "mmk_home"
      oneClientEnv.tokenPepper = some ("cli_home", true) := by
    rw [hclients]
    decide
  exact .verified hfresh hverify

/-- A client comes back to a table with room while its first session has an entry. -/
theorem replace_own_exact_returning :
    ∃ s, Reachable (Step exampleEnv) Init s ∧
      s.sessions.lookup "cli_home" = some ((examplePeer "198.51.100.7:5000").info 0) ∧
      ReplacesOwn exampleEnv s 1 (examplePeer "198.51.100.7:5001") := by
  have again := reachable_serving.step (example_verified (k := 1) "198.51.100.7:5001" rfl rfl)
  exact ⟨_, again, rfl, (replace_own_exact rfl).mpr fun _ => by decide⟩

/-- The only client of a server for one client comes back while the entry of its first
session is still there: it is rejected, by its own entry. -/
theorem returning_client_rejected :
    ∃ s t, Reachable (Step oneClientEnv) Init s ∧
      s.tunnels 1 = .live (examplePeer "198.51.100.7:5001") .verified ∧
      s.sessions.lookup "cli_home" = some ((examplePeer "198.51.100.7:5000").info 0) ∧
      TunnelStep oneClientEnv 1 s .insert t ∧
      t.tunnels 1 = .returned (.rejected (examplePeer "198.51.100.7:5001")) ∧
      s.others "cli_home" = 0 ∧
      ¬ ReplacesOwn oneClientEnv s 1 (examplePeer "198.51.100.7:5001") := by
  have verified : Reachable (Step oneClientEnv) Init _ := .step (.init init_example)
    (.tunnel (k := 0) (oneClient_verified "198.51.100.7:5000" rfl rfl))
  have registered := verified.step (.tunnel (.admitted (k := 0) rfl (by decide)))
  have again := registered.step (.tunnel (k := 1) (oneClient_verified "198.51.100.7:5001" rfl rfl))
  refine ⟨_, _, again, rfl, rfl, .rejected rfl (by decide), rfl, by decide, fun h => ?_⟩
  have hfull := h.rejected _ (.rejected rfl (by decide)) rfl
  revert hfull
  decide

/-! ## Whose session it is -/

/-- What `handle_tunnel` makes of the bytes of a peer. -/
inductive Admission
  | unreadable (e : ProtocolError)
  | invalidToken
  | rejected (peer : Peer)
  | registered (peer : Peer)
deriving DecidableEq, Repr

/-- The status it then writes. -/
def Admission.status : Admission → Option (Bool × String)
  | .unreadable _ => none
  | .invalidToken => some (false, "invalid token")
  | .rejected _ => some (false, "max clients reached")
  | .registered _ => some (true, "ok")

/-- The invocation `k` of `handle_tunnel` up to its answer: `clients` is the store when it
checks the token, `sessions` the table when it looks for room. -/
def handleTunnel (env : Env) (clients : ClientStore)
    (sessions : AList fun _ : String => SessionInfo) (source : Chunks) (remoteAddr : String)
    (k : SessionId) :
    Admission × AList fun _ : String => SessionInfo :=
  match readHandshake source with
  | .error e => (.unreadable e, sessions)
  | .ok ((announced, token), _) =>
    match clients.verifyToken env.sha256HexWithPepper token env.tokenPepper with
    | none => (.invalidToken, sessions)
    | some (clientId, _) =>
      let peer : Peer := { announced, token, clientId, remoteAddr }
      -- `sessions.len()` counts every entry, whoever it belongs to.
      if sessions.entries.length ≥ env.security.maxClients then (.rejected peer, sessions)
      else (.registered peer, sessions.insert clientId (peer.info k))

section Identity

variable {env : Env} {clients : ClientStore} {sessions : AList fun _ : String => SessionInfo}
  {source : Chunks} {remoteAddr : String} {k : SessionId}

theorem handleTunnel_of_handshake {announced token : String} {rest : Chunks}
    (h : readHandshake source = .ok ((announced, token), rest)) :
    handleTunnel env clients sessions source remoteAddr k =
      match clients.verifyToken env.sha256HexWithPepper token env.tokenPepper with
      | none => (.invalidToken, sessions)
      | some (clientId, _) =>
        let peer : Peer := { announced, token, clientId, remoteAddr }
        if sessions.entries.length ≥ env.security.maxClients then (.rejected peer, sessions)
        else (.registered peer, sessions.insert clientId (peer.info k)) := by
  unfold handleTunnel
  rw [h]

/-- What a registered session went through. -/
theorem registered_inv {peer : Peer} {table : AList fun _ : String => SessionInfo}
    (h : handleTunnel env clients sessions source remoteAddr k = (.registered peer, table)) :
    (∃ rest, readHandshake source = .ok ((peer.announced, peer.token), rest)) ∧
      peer.remoteAddr = remoteAddr ∧
      (∃ enabled, clients.verifyToken env.sha256HexWithPepper peer.token env.tokenPepper =
        some (peer.clientId, enabled)) ∧
      sessions.entries.length < env.security.maxClients ∧
      table = sessions.insert peer.clientId (peer.info k) := by
  unfold handleTunnel at h
  split at h
  · cases h
  · next announced token rest hread =>
    split at h
    · cases h
    · next clientId enabled hverify =>
      split at h
      · cases h
      · next hroom =>
        cases h
        exact ⟨⟨rest, hread⟩, rfl, ⟨enabled, hverify⟩, Nat.lt_of_not_le hroom, rfl⟩

/-- The steps of `Server` do what `handleTunnel` says: the check in the state `s`, the
insert in a later state `s'`. -/
theorem handleTunnel_steps {s s' : Server} {peer : Peer}
    {table : AList fun _ : String => SessionInfo} (hfresh : s.tunnels k = .fresh)
    (h : handleTunnel env s.clients s'.sessions source remoteAddr k = (.registered peer, table)) :
    TunnelStep env k s (.handshake peer.announced peer.token remoteAddr)
        (s.setTunnel k (.live peer .verified)) ∧
      (s'.tunnels k = .live peer .verified →
        ∃ t, TunnelStep env k s' .insert t ∧ t.sessions = table) := by
  obtain ⟨_, rfl, ⟨enabled, hverify⟩, hroom, rfl⟩ := registered_inv h
  exact ⟨.verified hfresh hverify, fun hlive => ⟨_, .admitted hlive hroom, rfl⟩⟩

/-- Two handshakes that carry the same token get the same status, and leave the same
table. -/
theorem announced_ignored {source' : Chunks} {announced announced' token : String}
    {rest rest' : Chunks} (h : readHandshake source = .ok ((announced, token), rest))
    (h' : readHandshake source' = .ok ((announced', token), rest')) :
    (handleTunnel env clients sessions source remoteAddr k).1.status =
        (handleTunnel env clients sessions source' remoteAddr k).1.status ∧
      (handleTunnel env clients sessions source remoteAddr k).2 =
        (handleTunnel env clients sessions source' remoteAddr k).2 := by
  rw [handleTunnel_of_handshake h, handleTunnel_of_handshake h']
  cases clients.verifyToken env.sha256HexWithPepper token env.tokenPepper with
  | none => exact ⟨rfl, rfl⟩
  | some x =>
    by_cases hfull : sessions.entries.length ≥ env.security.maxClients
    · simp only [if_pos hfull, Admission.status, and_self]
    · simp only [if_neg hfull, Admission.status, true_and]
      rfl

end Identity

/-- A session is registered for the client that the token of the handshake belongs to,
which is in the store and enabled when the token is checked. Which id the handshake
announces makes no difference to the answer and to the table. -/
theorem identity_by_token (env : Env) (clients : ClientStore)
    (sessions : AList fun _ : String => SessionInfo) (remoteAddr : String) (k : SessionId) :
    (∀ source peer table,
      handleTunnel env clients sessions source remoteAddr k = (.registered peer, table) →
        (∃ rest, (Fits peer.announced ∧ Fits peer.token) ∧
          source.pieces.flatten = handshakeBytes peer.announced peer.token ++ rest) ∧
        table = sessions.insert peer.clientId (peer.info k) ∧
        ∃ client ∈ clients.list, client.id = peer.clientId ∧ client.enabled = true ∧
          client.tokenHash = env.sha256HexWithPepper peer.token env.tokenPepper) ∧
      ∀ (source source' : Chunks) announced announced' token rest rest',
        Fits announced ∧ Fits token → Fits announced' ∧ Fits token →
        source.pieces.flatten = handshakeBytes announced token ++ rest →
        source'.pieces.flatten = handshakeBytes announced' token ++ rest' →
        (handleTunnel env clients sessions source remoteAddr k).1.status =
            (handleTunnel env clients sessions source' remoteAddr k).1.status ∧
          (handleTunnel env clients sessions source remoteAddr k).2 =
            (handleTunnel env clients sessions source' remoteAddr k).2 := by
  constructor
  · intro source peer table h
    obtain ⟨⟨rest, hread⟩, _, ⟨enabled, hverify⟩, _, htable⟩ := registered_inv h
    exact ⟨⟨_, readHandshake_ok_iff.mp ⟨rest, hread, rfl⟩⟩, htable,
      (ClientStore.verifyToken_client hverify).2⟩
  · intro source source' announced announced' token rest rest' hfits hfits' hbytes hbytes'
    obtain ⟨_, hread, _⟩ := readHandshake_ok_iff.mpr ⟨hfits, hbytes⟩
    obtain ⟨_, hread', _⟩ := readHandshake_ok_iff.mpr ⟨hfits', hbytes'⟩
    exact announced_ignored hread hread'

/-- The example store with a second client. The digest is that of HMAC-SHA256 for its
token `mmk_work`. -/
def twoClientStore : ClientStore :=
  let work : Client :=
    { id := "cli_work", name := "work",
      tokenHash := "7881d2ec77fec88d07889a6fcf358e7115fe102b73b519c4c74793723f154cf0",
      tokenPrefix := "mmk_work", enabled := true, createdAt := 0, mappings := [] }
  { exampleStore with list := [exampleClient, work] }

/-- A peer that announces the client of its token. -/
theorem identity_by_token_home :
    ∃ peer table, handleTunnel exampleEnv twoClientStore ∅
        ⟨[handshakeBytes "cli_home" "mmk_home"]⟩ "198.51.100.7:5000" 0 =
          (.registered peer, table) ∧
      peer.clientId = "cli_home" ∧
      ∃ client ∈ twoClientStore.list, client.id = peer.clientId ∧ client.enabled = true ∧
        client.tokenHash = exampleEnv.sha256HexWithPepper peer.token exampleEnv.tokenPepper := by
  have hfits : Fits "cli_home" ∧ Fits "mmk_home" := by decide
  obtain ⟨rest, hread, _⟩ := (@readHandshake_ok_iff
    ⟨[handshakeBytes "cli_home" "mmk_home"]⟩ _ _ []).mpr ⟨hfits, rfl⟩
  have hregistered := @handleTunnel_of_handshake exampleEnv twoClientStore ∅ _
    "198.51.100.7:5000" 0 _ _ _ hread
  exact ⟨_, _, hregistered, rfl,
    ((identity_by_token exampleEnv twoClientStore ∅ _ 0).1 _ _ _ hregistered).2.2⟩

/-- A peer that announces one client with the token of another is registered as the
other. -/
theorem announced_id_differs :
    ∃ peer table, handleTunnel exampleEnv twoClientStore ∅
        ⟨[handshakeBytes "cli_work" "mmk_home"]⟩ "198.51.100.7:5000" 0 =
          (.registered peer, table) ∧
      (∃ client ∈ twoClientStore.list, client.id = peer.announced ∧ client.enabled = true ∧
        client.tokenHash ≠ exampleEnv.sha256HexWithPepper peer.token exampleEnv.tokenPepper) ∧
      peer.clientId ≠ peer.announced ∧ table.lookup peer.announced = none := by
  have hfits : Fits "cli_work" ∧ Fits "mmk_home" := by decide
  obtain ⟨rest, hread, _⟩ := (@readHandshake_ok_iff
    ⟨[handshakeBytes "cli_work" "mmk_home"]⟩ _ _ []).mpr ⟨hfits, rfl⟩
  rw [handleTunnel_of_handshake hread]
  exact ⟨_, _, rfl, by decide, by decide, by decide⟩

end MiniMask.Tunnel
