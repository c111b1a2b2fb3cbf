import MiniMask.Lib.Hosting
import MiniMask.Tunnel.Revocation
import MiniMask.Tunnel.Transport

/-!
# The handshake of the tunnel connections (`run_once` and `handle_tunnel`)

The server with all its tasks, and each tunnel connection with the client at its other end.
The server's check of the token and its look at the table come between the two messages of
a connection, in between the steps of all others.

* `handshake_completes`: a handshake that neither end has given up can be brought to its end,
  and lets in a client with a good token while there is room. `work` is what is left of it.
* `handshake_agreement`: a client that is connected has a session that was entered in the table
  for the owner of its token; one that is refused was refused for the reason that it is told.
-/

namespace MiniMask.Tunnel

open Lts Hosting Framing
open Protocol (ProtocolError Fits writeHandshake writeStatus handshakeBytes)

namespace Transport

/-! ## The server and its connections -/

/-- What the client behind a connection was started with. -/
structure Args where
  id : String
  token : String
deriving DecidableEq, Repr

/-- Whom `handle_tunnel` is about to answer, and what. -/
def answering : TunnelTask → Option Admission
  | .live peer .registered => some (.registered peer)
  | .returned .invalidToken => some .invalidToken
  | .returned (.rejected peer) => some (.rejected peer)
  | _ => none

abbrev State := Hosted Server Conn SessionId

abbrev Event := Hosting.Event Tunnel.Event ConnEvent SessionId

/-- The connections of clients; the peers of the others may send anything. -/
def starts (args : SessionId → Option Args) (_ : Server) (k : SessionId) : Option Conn :=
  (args k).map fun a => .init a.id a.token

/-- Where an invocation of `handle_tunnel` and its connection go together. -/
def Bound (s : State) : Event → Prop
  | .host (.tunnel k (.handshake id token _)) =>
    ∀ c, s.parts k = some c → c.server = .announced id token
  | .host (.tunnel k .handshakeFails) => ∀ c, s.parts k = some c → c.server = .closed
  | .host (.tunnel k .statusOk) => ∀ c, s.parts k = some c → c.server = .connected
  | .host (.tunnel k .statusFails) => ∀ c, s.parts k = some c → c.server = .closed
  | .part k (.answers a) => answering (s.host.tunnels k) = some a
  | .part k (.serverSends _) | .part k (.serverReceives _) =>
    ∃ peer stage, s.host.tunnels k = .live peer stage ∧ (stage = .driving ∨ stage = .opening)
  | .part k .serverCloses =>
    ∀ c, s.parts k = some c → c.server = .connected → answering (s.host.tunnels k) = none
  | _ => True

def Step (env : Env) (args : SessionId → Option Args) : State → Event → State → Prop :=
  Guarded (Hosting.Step (Tunnel.Step env) ConnStep (starts args)) Bound

def Init (args : SessionId → Option Args) : State → Prop := Hosting.Init Tunnel.Init (starts args)

/-! ## What an invocation has seen -/

/-- The step finds that the token of session `k` is nobody's. -/
def TokenRefused (env : Env) (k : SessionId) (token : String)
    (x : Server × Tunnel.Event × Server) : Prop :=
  (∃ announced addr, x.2.1 = .tunnel k (.handshake announced token addr)) ∧
    x.1.clients.verifyToken env.sha256HexWithPepper token env.tokenPepper = none

/-- The step finds no room for session `k`. -/
def TableFull (env : Env) (k : SessionId) (x : Server × Tunnel.Event × Server) : Prop :=
  x.2.1 = .tunnel k .insert ∧ env.security.maxClients ≤ x.1.sessions.entries.length

/-- The step enters session `k` in the table. -/
def Entered (env : Env) (k : SessionId) (peer : Peer) (x : Server × Tunnel.Event × Server) : Prop :=
  x.2.1 = .tunnel k .insert ∧ x.1.sessions.entries.length < env.security.maxClients ∧
    x.2.2.sessions.lookup peer.clientId = some (peer.info k)

/-- The invocation has not gone back on its answer. -/
def Stands (task : TunnelTask) : Admission → Prop
  | .unreadable _ => False
  | .invalidToken => task = .returned .invalidToken
  | .rejected peer => task = .returned (.rejected peer)
  | .registered peer => task.admittedPeer = some peer

section Invocations

variable {env : Env} {s t : Server} {e : Tunnel.Event} {k : SessionId} {peer : Peer}

theorem refused_of_step (hs : Tunnel.Step env s e t) (h : t.tunnels k = .returned .invalidToken) :
    s.tunnels k = .returned .invalidToken ∨ ∃ token, TokenRefused env k token (s, e, t) := by
  rcases tunnel_of_step hs k with hsame | ⟨e', rfl, hs'⟩
  · exact .inl (hsame ▸ h)
  · cases hs' with
    | invalidToken _ hverify => exact .inr ⟨_, ⟨_, _, rfl⟩, hverify⟩
    | _ => simp [Server.setTunnel, Server.exit] at h

theorem rejected_of_step (hs : Tunnel.Step env s e t)
    (h : t.tunnels k = .returned (.rejected peer)) :
    s.tunnels k = .returned (.rejected peer) ∨ TableFull env k (s, e, t) := by
  rcases tunnel_of_step hs k with hsame | ⟨e', rfl, hs'⟩
  · exact .inl (hsame ▸ h)
  · cases hs' with
    | rejected _ hfull => exact .inr ⟨rfl, hfull⟩
    | _ => simp [Server.setTunnel, Server.exit] at h

theorem admittedPeer_step {e : TunnelEvent} (hs : TunnelStep env k s e t)
    (h : (s.tunnels k).admittedPeer = some peer) : (t.tunnels k).admittedPeer = some peer := by
  cases hs with
  | handshakeFails hlive | invalidToken hlive _ | verified hlive _ | rejected hlive _
  | admitted hlive _ =>
    rw [hlive] at h
    cases h
  | statusFails hlive | returns hlive =>
    rw [exit_tunnel]
    rw [hlive] at h
    exact h
  | statusOk hlive | startListeners hlive | add hlive _ | drive hlive _ _ | recv hlive _ _
  | openOk hlive _ | openFails hlive _ | sessionEnds hlive | cleanup hlive =>
    rw [setTunnel_tunnel]
    rw [hlive] at h
    exact h

theorem entered_of_step (hs : Tunnel.Step env s e t)
    (h : (t.tunnels k).admittedPeer = some peer) :
    (s.tunnels k).admittedPeer = some peer ∨ Entered env k peer (s, e, t) := by
  rcases tunnel_of_step hs k with hsame | ⟨e', rfl, hs'⟩
  · exact .inl (hsame ▸ h)
  cases hbefore : (s.tunnels k).admittedPeer with
  | some peer' => exact .inl ((admittedPeer_step hs' hbefore).symm.trans h)
  | none =>
    cases hs' with
    | admitted _ hroom =>
      rw [admitted_tunnel] at h
      cases h
      exact .inr ⟨rfl, hroom, admitted_lookup⟩
    | _ => simp_all [Server.setTunnel, Server.exit, TunnelTask.admittedPeer]

theorem stands_of_answering {task : TunnelTask} {x : Admission} (h : answering task = some x) :
    Stands task x := by
  unfold answering at h
  split at h <;> cases h <;> rfl

theorem peer_of_admittedPeer {task : TunnelTask} (h : task.admittedPeer = some peer) :
    task.peer = some peer := by
  unfold TunnelTask.admittedPeer at h
  split at h <;> first | exact h | cases h

/-- An answer is final. -/
theorem stands_step (hs : Tunnel.Step env s e t) {x : Admission} (h : Stands (s.tunnels k) x) :
    Stands (t.tunnels k) x := by
  rcases tunnel_of_step hs k with hsame | ⟨e', rfl, hs'⟩
  · exact hsame ▸ h
  cases x with
  | unreadable _ => exact h
  | registered peer => exact admittedPeer_step hs' h
  | invalidToken | rejected _ =>
    -- an invocation that has returned takes no step
    have hreturned : s.tunnels k = _ := h
    cases hs' <;> simp_all

end Invocations

/-! ## Connections and invocations -/

section Connections

variable {env : Env} {args : SessionId → Option Args} {s t : State} {e : Event} {k : SessionId}
  {a : Args} {c d : Conn} {x : Admission}

/-- The connection of a client that was started with `a`. -/
structure ClientOf (a : Args) (c : Conn) : Prop where
  id : c.id = a.id
  token : c.token = a.token
  sound : Sound c

theorem clientOf_step {e : ConnEvent} (h : ClientOf a c) (hs : ConnStep c e d) : ClientOf a d := by
  have hsame : d.id = c.id ∧ d.token = c.token := by cases hs <;> exact ⟨rfl, rfl⟩
  exact ⟨hsame.1.trans h.id, hsame.2.trans h.token, sound_step h.sound hs⟩

theorem answer_of_step {e : ConnEvent} (hs : ConnStep c e d) (h : d.answer = some x) :
    c.answer = some x ∨ e = .answers x := by
  cases hs with
  | answers _ _ =>
    cases h
    exact .inr rfl
  | _ => exact .inl h

theorem reachable_unbound (hr : Reachable (Step env args) (Init args) s) :
    Reachable (Hosting.Step (Tunnel.Step env) ConnStep (starts args)) (Init args) s :=
  hr.of_guarded

theorem clientOf_reachable (hr : Reachable (Step env args) (Init args) s)
    (hc : s.parts k = some c) : ∃ a, args k = some a ∧ ClientOf a c := by
  have keep : ∀ u e v i c, Tunnel.Step env u e v → starts args u i = some c →
      starts args v i = some c := fun _ _ _ _ _ _ h => h
  obtain ⟨c₀, hstart, hpart⟩ := part_reachable keep (reachable_unbound hr) k c hc
  obtain ⟨a, hargs, rfl⟩ := Option.map_eq_some_iff.mp hstart
  have hinit : ∀ d, d = Conn.init a.id a.token → ClientOf a d := fun _ heq =>
    heq ▸ ⟨rfl, rfl, sound_init a.id a.token⟩
  exact ⟨a, hargs, hpart.invariant hinit fun _ _ _ h hs => clientOf_step h hs⟩

/-- What a connection was answered is what its invocation has come to. -/
def Answerable (s : State) : Prop :=
  ∀ k c x, s.parts k = some c → c.answer = some x → Stands (s.host.tunnels k) x

theorem answerable_init (h : Init args s) : Answerable s := by
  intro k c x hc hx
  rw [h.2] at hc
  obtain ⟨_, _, rfl⟩ := Option.map_eq_some_iff.mp hc
  cases hx

theorem answerable_step (h : Answerable s) (hs : Step env args s e t) : Answerable t := by
  obtain ⟨hs, hbound⟩ := hs
  intro k c x hc hx
  cases hs with
  | host hs =>
    rcases Option.or_eq_some_iff.mp hc with hold | ⟨-, hnew⟩
    · exact stands_step hs (h k c x hold hx)
    · obtain ⟨_, _, rfl⟩ := Option.map_eq_some_iff.mp hnew
      cases hx
  | @part j e c' d hc' hs =>
    by_cases hkj : k = j
    · subst hkj
      cases (Function.update_self k (some d) s.parts).symm.trans hc
      rcases answer_of_step hs hx with hbefore | rfl
      · exact h k c' x hc' hbefore
      · exact stands_of_answering hbound
    · exact h k c x ((Function.update_of_ne hkj (some d) s.parts).symm.trans hc) hx

theorem answerable_reachable (hr : Reachable (Step env args) (Init args) s) : Answerable s :=
  hr.invariant (fun _ h => answerable_init h) fun _ _ _ h hs => answerable_step h hs

/-- A client that has read the status of a session has one. -/
theorem admitted_of_connected (hr : Reachable (Step env args) (Init args) s)
    (hc : s.parts k = some c) (h : c.client = .connected) :
    ∃ peer, (s.host.tunnels k).admittedPeer = some peer := by
  obtain ⟨_, -, hclient⟩ := clientOf_reachable hr hc
  have htook := hclient.sound.clientTook
  rw [h] at htook
  obtain ⟨x, _, hanswer, hstatus, -⟩ := htook
  cases x with
  | registered peer => exact ⟨peer, answerable_reachable hr k c _ hc hanswer⟩
  | _ => cases hstatus

/-- A client that is refused is told what its invocation has returned. -/
theorem returned_of_refused (hr : Reachable (Step env args) (Init args) s)
    (hc : s.parts k = some c) {msg : String} (h : c.client = .refused msg) :
    (msg = "invalid token" ∧ s.host.tunnels k = .returned .invalidToken) ∨
      (msg = "max clients reached" ∧ ∃ peer, s.host.tunnels k = .returned (.rejected peer)) := by
  obtain ⟨_, -, hclient⟩ := clientOf_reachable hr hc
  have htook := hclient.sound.clientTook
  rw [h] at htook
  obtain ⟨-, x, hanswer, hstatus⟩ := htook
  have hstands := answerable_reachable hr k c x hc hanswer
  cases x with
  | invalidToken =>
    cases hstatus
    exact .inl ⟨rfl, hstands⟩
  | rejected peer =>
    cases hstatus
    exact .inr ⟨rfl, peer, hstands⟩
  | _ => cases hstatus

theorem conn_there (hr : Reachable (Step env args) (Init args) s) (hargs : args k = some a) :
    ∃ c, s.parts k = some c :=
  part_there (reachable_unbound hr) (c := .init a.id a.token) (by rw [starts, hargs]; rfl)

/-- What an invocation reads is what its client was started with. -/
theorem handshake_eq (hr : Reachable (Step env args) (Init args) s) (hargs : args k = some a)
    {id token addr : String}
    (hs : Step env args s (.host (.tunnel k (.handshake id token addr))) t) :
    id = a.id ∧ token = a.token := by
  obtain ⟨c, hc⟩ := conn_there hr hargs
  have hannounced : c.server = .announced id token := hs.2 c hc
  obtain ⟨a', hargs', hclient⟩ := clientOf_reachable hr hc
  cases hargs.symm.trans hargs'
  have htook := hclient.sound.serverTook
  rw [hannounced] at htook
  exact ⟨htook.1.1.trans hclient.id, htook.1.2.trans hclient.token⟩

/-- Where an invocation can be while its connection is not answered. -/
def Linked (task : TunnelTask) : ServerStage → Prop
  | .reading _ => task = .fresh
  | .announced _ _ =>
    task = .fresh ∨ (∃ peer, task = .live peer .verified) ∨ ∃ x, answering task = some x
  | _ => True

theorem linked_host {e : Tunnel.Event} {t : Server} (h : Linked (s.host.tunnels k) c.server)
    (hs : Tunnel.Step env s.host e t) (hc : s.parts k = some c) (hbound : Bound s (.host e)) :
    Linked (t.tunnels k) c.server := by
  rcases tunnel_of_step hs k with hsame | ⟨e', rfl, hs'⟩
  · exact hsame ▸ h
  cases hs' with
  | handshakeFails _ | statusFails _ =>
    rw [hbound c hc]
    trivial
  | invalidToken _ _ =>
    rw [hbound c hc, exit_tunnel]
    exact .inr (.inr ⟨_, rfl⟩)
  | @verified announced token addr clientId _ _ _ =>
    rw [hbound c hc, setTunnel_tunnel]
    exact .inr (.inl ⟨_, rfl⟩)
  | rejected hlive _ =>
    rw [hlive] at h
    rw [exit_tunnel]
    cases hserver : c.server with
    | announced _ _ => exact .inr (.inr ⟨_, rfl⟩)
    | _ => simp_all [Linked]
  | admitted hlive _ =>
    rw [hlive] at h
    rw [admitted_tunnel]
    cases hserver : c.server with
    | announced _ _ => exact .inr (.inr ⟨_, rfl⟩)
    | _ => simp_all [Linked]
  | statusOk _ =>
    rw [hbound c hc]
    trivial
  | startListeners hlive | add hlive _ | drive hlive _ _ | recv hlive _ _ | openOk hlive _
  | openFails hlive _ | sessionEnds hlive | cleanup hlive | returns hlive =>
    -- its connection has been answered
    rw [hlive] at h
    cases hserver : c.server <;> simp_all [Linked, answering]

theorem linked_part {task : TunnelTask} {e : ConnEvent} (h : Linked task c.server)
    (hs : ConnStep c e d) : Linked task d.server := by
  cases hs with
  | readHandshake hstage _ _ =>
    rw [hstage] at h
    exact h
  | handshakeRead hstage _ =>
    rw [hstage] at h
    exact .inl h
  | answers _ _ | sendStatus _ _ | serverCloses _ => trivial
  | @statusSent _ ok _ _ _ => cases ok <;> trivial
  | _ => exact h

theorem linked_reachable (hr : Reachable (Step env args) (Init args) s)
    (hc : s.parts k = some c) : Linked (s.host.tunnels k) c.server := by
  induction hr generalizing c with
  | init h₀ =>
    obtain ⟨⟨_, _, heq⟩, hparts⟩ := h₀
    rw [hparts] at hc
    obtain ⟨_, _, rfl⟩ := Option.map_eq_some_iff.mp hc
    rw [heq]
    rfl
  | @step s t e hr hs ih =>
    obtain ⟨hs, hbound⟩ := hs
    cases hs with
    | host hs =>
      rcases Option.or_eq_some_iff.mp hc with hold | ⟨hnone, hnew⟩
      · exact linked_host (ih hold) hs hold hbound
      · obtain ⟨a, hargs, -⟩ := Option.map_eq_some_iff.mp hnew
        obtain ⟨_, hold⟩ := conn_there hr hargs
        cases hnone.symm.trans hold
    | @part j e c' d hc' hs =>
      by_cases hkj : k = j
      · subst hkj
        cases (Function.update_self k (some d) s.parts).symm.trans hc
        exact linked_part (ih hc') hs
      · exact ih ((Function.update_of_ne hkj (some d) s.parts).symm.trans hc)

end Connections

/-! ## Completion -/

/-- The client has its answer. -/
def Conn.Over (c : Conn) : Prop := c.client = .connected ∨ ∃ msg, c.client = .refused msg

/-- Neither end has given up: a server that has closed the connection had sent its answer. -/
structure Conn.Open (c : Conn) : Prop where
  client : c.client ≠ .ended
  server : c.server = .closed → ∃ x, c.answer = some x ∧ answerBytes x <+: c.down.sent

/-- The steps of a connection up to the answer. -/
def ConnEvent.Shakes : ConnEvent → Prop
  | .sendHandshake _ | .handshakeSent | .readHandshake _ | .handshakeRead | .answers _
  | .sendStatus _ | .statusSent | .readStatus _ | .statusRead => True
  | _ => False

/-- A step of the handshake of session `k`, on either side. -/
def Proceeds (k : SessionId) : Event → Prop
  | .host (.tunnel j (.handshake _ _ _)) | .host (.tunnel j .insert) => j = k
  | .part j e => j = k ∧ e.Shakes
  | _ => False

/-! What is still to be done before the client has its answer. -/

def ClientStage.left : ClientStage → Nat
  | .announcing rest _ => rest.length + 2
  | .waiting _ => 1
  | _ => 0

def ServerStage.left : ServerStage → Nat
  | .reading _ => 4
  | .announced _ _ => 3
  | .answering _ rest => if rest = [] then 1 else 2
  | _ => 0

def stagesLeft : TunnelTask → Nat
  | .fresh => 2
  | .live _ .verified => 1
  | _ => 0

/-- The length of the longest answer. -/
def longestAnswer : Nat := 22

def work (task : TunnelTask) (c : Conn) : Nat :=
  c.client.left + c.server.left + stagesLeft task +
    ((writeHandshake c.id c.token).emitted.2.length - c.up.received.length) +
    (longestAnswer - c.down.received.length)

theorem length_answerBytes (x : Admission) : (answerBytes x).length ≤ longestAnswer := by
  cases x with
  | unreadable _ => exact Nat.zero_le _
  | invalidToken | rejected _ | registered _ =>
    show (writeStatus _ _).emitted.2.length ≤ longestAnswer
    decide

section Progress

variable {env : Env} {args : SessionId → Option Args} {s : State} {k : SessionId} {a : Args}
  {c d : Conn} {x : Admission}

/-- The handshake of session `k` goes on, and neither end gives up. -/
def Advances (env : Env) (args : SessionId → Option Args) (k : SessionId) (s : State) (c : Conn) :
    Prop :=
  ∃ e t d, Proceeds k e ∧ Step env args s e t ∧ t.parts k = some d ∧ d.Open ∧
    work (t.host.tunnels k) d < work (s.host.tunnels k) c

theorem advances_part {e : ConnEvent} (hc : s.parts k = some c) (hs : ConnStep c e d)
    (he : e.Shakes) (hbound : Bound s (.part k e)) (hopen : d.Open)
    (hless : work (s.host.tunnels k) d < work (s.host.tunnels k) c) : Advances env args k s c :=
  ⟨.part k e, _, d, ⟨rfl, he⟩, ⟨.part hc hs, hbound⟩, Function.update_self .., hopen, hless⟩

theorem advances_host {e : TunnelEvent} {t : Server} (hc : s.parts k = some c)
    (hs : TunnelStep env k s.host e t) (he : Proceeds k (.host (.tunnel k e)))
    (hbound : Bound s (.host (.tunnel k e))) (hopen : c.Open)
    (hless : stagesLeft (t.tunnels k) < stagesLeft (s.host.tunnels k)) :
    Advances env args k s c := by
  refine ⟨_, _, c, he, ⟨.host (.tunnel hs), hbound⟩, ?_, hopen, ?_⟩
  · show (s.parts k).or _ = some c
    rw [hc]
    rfl
  · show work (t.tunnels k) c < _
    unfold work
    omega

theorem advances_announcing {rest : List UInt8} {res : Except ProtocolError Unit}
    (hc : s.parts k = some c) (hsound : Sound c) (hopen : c.Open)
    (hfits : Fits c.id ∧ Fits c.token) (hstage : c.client = .announcing rest res) :
    Advances env args k s c := by
  have hres : res = .ok () := by
    have hsent := hsound.clientSent
    rw [hstage, Protocol.handshake_emitted_ok.mpr ⟨hfits, rfl⟩] at hsent
    exact hsent.2.1
  cases rest with
  | nil =>
    refine advances_part hc (.handshakeSent (hres ▸ hstage)) trivial trivial
      ⟨nofun, hopen.server⟩ ?_
    simp [work, hstage, ClientStage.left]
  | cons b rest =>
    refine advances_part hc (.sendHandshake (b :: rest).length hstage) trivial trivial
      ⟨nofun, hopen.server⟩ ?_
    simp [work, hstage, ClientStage.left]

theorem advances_reading {got payload : List UInt8} (hc : s.parts k = some c) (hsound : Sound c)
    (hopen : c.Open) (hfits : Fits c.id ∧ Fits c.token) (hstage : c.server = .reading got)
    (hsent : c.up.sent = handshakeBytes c.id c.token ++ payload) : Advances env args k s c := by
  have htook := hsound.serverTook
  rw [hstage] at htook
  obtain ⟨hreceived, hfed, -⟩ := htook
  have hsplit : got ++ c.up.inFlight = handshakeBytes c.id c.token ++ payload := by
    rw [← hreceived, c.up.received_append_inFlight, hsent]
  rcases hfed.next (Protocol.reads_handshake hfits.1 hfits.2)
    (starves_handshake hfits.1 hfits.2) hsplit with ⟨b, more, hnext, hpart, hawaits⟩ | ⟨r, hread⟩
  · refine advances_part hc (.readHandshake hstage hawaits hnext) trivial trivial
      ⟨hopen.client, nofun⟩ ?_
    have hlength := hpart.length_le
    rw [List.length_append, List.length_singleton] at hlength
    have hemitted := congrArg Prod.snd (Protocol.handshake_emitted_ok.mpr ⟨hfits, rfl⟩)
    simp only [work, hstage, ServerStage.left, received_next hnext, hreceived, hemitted,
      List.length_append, List.length_singleton]
    omega
  · refine advances_part hc (.handshakeRead hstage hread) trivial trivial ⟨hopen.client, nofun⟩ ?_
    simp [work, hstage, ServerStage.left]

theorem advances_announced {id token : String} (hc : s.parts k = some c) (hopen : c.Open)
    (hstage : c.server = .announced id token) (hlinked : Linked (s.host.tunnels k) c.server) :
    Advances env args k s c := by
  have hsame : ∀ d, s.parts k = some d → d.server = .announced id token := fun d hd => by
    cases hc.symm.trans hd
    exact hstage
  rw [hstage] at hlinked
  rcases hlinked with hfresh | ⟨peer, hverified⟩ | ⟨x, hanswering⟩
  · cases hverify : s.host.clients.verifyToken env.sha256HexWithPepper token env.tokenPepper with
    | none =>
      have hs : TunnelStep env k s.host (.handshake id token "") _ := .invalidToken hfresh hverify
      refine advances_host hc hs rfl hsame hopen ?_
      rw [hfresh, exit_tunnel]
      decide
    | some found =>
      have hs : TunnelStep env k s.host (.handshake id token "") _ := .verified hfresh hverify
      refine advances_host hc hs rfl hsame hopen ?_
      rw [hfresh, setTunnel_tunnel]
      exact Nat.one_lt_two
  · rcases Nat.lt_or_ge s.host.sessions.entries.length env.security.maxClients with hroom | hfull
    · refine advances_host hc (.admitted hverified hroom) rfl trivial hopen ?_
      rw [hverified, admitted_tunnel]
      exact Nat.one_pos
    · refine advances_host hc (.rejected hverified hfull) rfl trivial hopen ?_
      rw [hverified, exit_tunnel]
      exact Nat.one_pos
  · obtain ⟨⟨ok, msg⟩, hstatus⟩ : ∃ y, x.status = some y := by
      unfold answering at hanswering
      split at hanswering <;> cases hanswering <;> exact ⟨_, rfl⟩
    refine advances_part hc (.answers hstage hstatus) trivial hanswering ⟨hopen.client, nofun⟩ ?_
    simp only [work, hstage, ServerStage.left]
    split <;> omega

theorem advances_answering {rest : List UInt8} (hc : s.parts k = some c) (hsound : Sound c)
    (hopen : c.Open) (hstage : c.server = .answering x rest) : Advances env args k s c := by
  have hanswered := hsound.serverSent
  rw [hstage] at hanswered
  obtain ⟨hanswer, hsent, -⟩ := hanswered
  cases rest with
  | nil =>
    obtain ⟨⟨ok, msg⟩, hstatus⟩ := hsound.status x hanswer
    rw [List.append_nil] at hsent
    refine advances_part hc (.statusSent hstage hstatus) trivial trivial
      ⟨hopen.client, fun _ => ⟨x, hanswer, hsent ▸ List.prefix_rfl⟩⟩ ?_
    cases ok <;> simp [work, hstage, ServerStage.left]
  | cons b rest =>
    refine advances_part hc (.sendStatus (b :: rest).length hstage) trivial trivial
      ⟨hopen.client, nofun⟩ ?_
    simp [work, hstage, ServerStage.left]

theorem advances_waiting {got payload : List UInt8} (hc : s.parts k = some c) (hsound : Sound c)
    (hopen : c.Open) (hstage : c.client = .waiting got) (hanswer : c.answer = some x)
    (hsent : c.down.sent = answerBytes x ++ payload) : Advances env args k s c := by
  have htook := hsound.clientTook
  rw [hstage] at htook
  obtain ⟨hreceived, hfed, -⟩ := htook
  have hsplit : got ++ c.down.inFlight = answerBytes x ++ payload := by
    rw [← hreceived, c.down.received_append_inFlight, hsent]
  obtain ⟨⟨ok, msg⟩, hstatus⟩ := hsound.status x hanswer
  have hfits := fits_status hstatus
  have hbytes := answerBytes_eq hstatus
  rw [hbytes] at hsplit
  rcases hfed.next (Protocol.reads_status hfits) (starves_status hfits _) hsplit with
    ⟨b, more, hnext, hpart, hawaits⟩ | ⟨r, hread⟩
  · refine advances_part hc (.readStatus hstage hawaits hnext) trivial trivial
      ⟨nofun, hopen.server⟩ ?_
    have hlength := hpart.length_le.trans (hbytes ▸ length_answerBytes x)
    rw [List.length_append, List.length_singleton] at hlength
    simp only [work, hstage, ClientStage.left, received_next hnext, hreceived, List.length_append,
      List.length_singleton]
    omega
  · refine advances_part hc (.statusRead hstage hread) trivial trivial ⟨?_, hopen.server⟩ ?_
    · cases ok <;> exact nofun
    · cases ok <;> simp [work, hstage, ClientStage.left]

/-- Until the client has its answer, one of the two ends has a step to take. -/
theorem advances (hr : Reachable (Step env args) (Init args) s) (hargs : args k = some a)
    (hfits : Fits a.id ∧ Fits a.token) (hc : s.parts k = some c) (hopen : c.Open)
    (hnot : ¬ c.Over) : Advances env args k s c := by
  obtain ⟨a', hargs', hclient⟩ := clientOf_reachable hr hc
  cases hargs.symm.trans hargs'
  rw [← hclient.id, ← hclient.token] at hfits
  have hsound := hclient.sound
  cases hstage : c.client with
  | announcing rest res => exact advances_announcing hc hsound hopen hfits hstage
  | connected => exact absurd (.inl hstage) hnot
  | refused msg => exact absurd (.inr ⟨msg, hstage⟩) hnot
  | ended => exact absurd hstage hopen.client
  | waiting got =>
    have hhello := hsound.clientSent
    have hanswered := hsound.serverSent
    rw [hstage, Protocol.handshake_emitted_ok.mpr ⟨hfits, rfl⟩] at hhello
    cases hserver : c.server with
    | reading _ => exact advances_reading hc hsound hopen hfits hserver hhello.2
    | announced _ _ => exact advances_announced hc hopen hserver (linked_reachable hr hc)
    | answering _ _ => exact advances_answering hc hsound hopen hserver
    | connected =>
      rw [hserver] at hanswered
      obtain ⟨x, hanswer, hsent⟩ := hanswered
      exact advances_waiting hc hsound hopen hstage hanswer hsent
    | closed =>
      obtain ⟨x, hanswer, payload, hsent⟩ := hopen.server hserver
      exact advances_waiting hc hsound hopen hstage hanswer hsent.symm

/-- The handshake can be brought to its end by its own steps. -/
theorem completes (hr : Reachable (Step env args) (Init args) s) (hargs : args k = some a)
    (hfits : Fits a.id ∧ Fits a.token) (hc : s.parts k = some c) (hopen : c.Open) :
    ∃ tr t d, Run (Step env args) s tr t ∧ (∀ x ∈ tr, Proceeds k x.2.1) ∧
      t.parts k = some d ∧ d.Over := by
  suffices key : ∀ n tr u b, Run (Step env args) s tr u → (∀ x ∈ tr, Proceeds k x.2.1) →
      u.parts k = some b → b.Open → work (u.host.tunnels k) b < n →
      ∃ tr t d, Run (Step env args) s tr t ∧ (∀ x ∈ tr, Proceeds k x.2.1) ∧
        t.parts k = some d ∧ d.Over from
    key _ [] s c .nil (List.forall_mem_nil _) hc hopen (Nat.lt_succ_self _)
  intro n
  induction n with
  | zero => exact fun _ _ _ _ _ _ _ hwork => absurd hwork (Nat.not_lt_zero _)
  | succ n ih =>
    intro tr u b hrun hall hb hopen hwork
    by_cases hover : b.Over
    · exact ⟨tr, u, b, hrun, hall, hb, hover⟩
    have hr' := hrun.keeps (fun _ _ _ h hs => h.step hs) hr
    obtain ⟨e, t, d, he, hs, hd, hopen', hless⟩ := advances hr' hargs hfits hb hopen hover
    refine ih _ t d (hrun.snoc hs) (fun x hx => ?_) hd hopen'
      (Nat.lt_of_lt_of_le hless (Nat.le_of_lt_succ hwork))
    rcases List.mem_append.mp hx with hx | hx
    · exact hall x hx
    · cases List.mem_singleton.mp hx
      exact he

end Progress

/-! ## Clients that are let in -/

/-- Session `k`, with a token of client `clientId`, is on its way into the table. -/
inductive Welcome (env : Env) (k : SessionId) (token clientId : String) (s : Server) : Prop
  | fresh {enabled : Bool} :
      s.tunnels k = .fresh →
      s.clients.verifyToken env.sha256HexWithPepper token env.tokenPepper =
        some (clientId, enabled) →
      s.sessions.entries.length < env.security.maxClients → Welcome env k token clientId s
  | verified {peer : Peer} :
      s.tunnels k = .live peer .verified → peer.clientId = clientId →
      s.sessions.entries.length < env.security.maxClients → Welcome env k token clientId s
  | registered {peer : Peer} :
      s.tunnels k = .live peer .registered → s.sessions.lookup clientId = some (peer.info k) →
      Welcome env k token clientId s

section Welcomed

variable {env : Env} {args : SessionId → Option Args} {s t : State} {e : Event} {k : SessionId}
  {a : Args} {c : Conn} {clientId : String}

theorem welcome_host {u v : Server} {e : Tunnel.Event} (hs : Tunnel.Step env u e v)
    (he : Proceeds k (.host e))
    (htoken : ∀ id token addr, e = .tunnel k (.handshake id token addr) → token = a.token)
    (h : Welcome env k a.token clientId u) : Welcome env k a.token clientId v := by
  cases hs with
  | @tunnel _ j e hs =>
    cases hs with
    | invalidToken hfresh hnone =>
      cases he
      cases htoken _ _ _ rfl
      cases h with
      | fresh _ hverify _ => cases hnone.symm.trans hverify
      | verified hlive _ _ | registered hlive _ => cases hfresh.symm.trans hlive
    | verified hfresh hverify =>
      cases he
      cases htoken _ _ _ rfl
      cases h with
      | fresh _ hverify' hroom =>
        cases hverify.symm.trans hverify'
        exact .verified (setTunnel_tunnel _) rfl hroom
      | verified hlive _ _ | registered hlive _ => cases hfresh.symm.trans hlive
    | rejected hlive hfull =>
      cases he
      cases h with
      | fresh hfresh _ _ => cases hfresh.symm.trans hlive
      | verified _ _ hroom => exact absurd hroom (Nat.not_lt.mpr hfull)
      | registered hlive' _ => cases hlive.symm.trans hlive'
    | admitted hlive hroom =>
      cases he
      cases h with
      | fresh hfresh _ _ => cases hfresh.symm.trans hlive
      | verified hlive' hclient _ =>
        cases hlive.symm.trans hlive'
        exact .registered admitted_tunnel (hclient ▸ admitted_lookup)
      | registered hlive' _ => cases hlive.symm.trans hlive'
    | _ => cases he
  | _ => cases he

/-- By the steps of its handshake alone, a session gets on. -/
theorem welcome_run {tr : List (State × Event × State)}
    (hr : Reachable (Step env args) (Init args) s) (hargs : args k = some a)
    (hrun : Run (Step env args) s tr t) (hall : ∀ x ∈ tr, Proceeds k x.2.1)
    (h : Welcome env k a.token clientId s.host) : Welcome env k a.token clientId t.host := by
  have hkeep : ∀ u e v, Reachable (Step env args) (Init args) u ∧
      Welcome env k a.token clientId u.host → Step env args u e v → Proceeds k e →
      Reachable (Step env args) (Init args) v ∧ Welcome env k a.token clientId v.host := by
    rintro u e v ⟨hu, h⟩ hs he
    refine ⟨hu.step hs, ?_⟩
    have htoken : ∀ id token addr, e = .host (.tunnel k (.handshake id token addr)) →
        token = a.token := fun id token addr heq => (handshake_eq hu hargs (heq ▸ hs)).2
    cases hs.1 with
    | host hs' =>
      exact welcome_host hs' he (fun id token addr heq => htoken id token addr (heq ▸ rfl)) h
    | part _ _ => exact h
  exact (hrun.keeps_guarded hkeep hall ⟨hr, h⟩).1.2

/-- If its client has an answer, that is that it is connected. -/
theorem Welcome.connected (h : Welcome env k a.token clientId s.host)
    (hr : Reachable (Step env args) (Init args) s) (hc : s.parts k = some c) (hover : c.Over) :
    c.client = .connected ∧ ∃ info, s.host.sessions.lookup clientId = some info ∧
      info.sessionId = k := by
  rcases hover with hconnected | ⟨msg, hrefused⟩
  · refine ⟨hconnected, ?_⟩
    obtain ⟨peer, hpeer⟩ := admitted_of_connected hr hc hconnected
    cases h with
    | fresh hlive _ _ | verified hlive _ _ =>
      rw [hlive] at hpeer
      cases hpeer
    | registered _ hlookup => exact ⟨_, hlookup, rfl⟩
  · have hreturned : ∃ exit, s.host.tunnels k = .returned exit := by
      rcases returned_of_refused hr hc hrefused with ⟨-, htask⟩ | ⟨-, peer, htask⟩
      · exact ⟨_, htask⟩
      · exact ⟨_, htask⟩
    obtain ⟨exit, hreturned⟩ := hreturned
    cases h with
    | fresh hlive _ _ | verified hlive _ _ | registered hlive _ =>
      cases hreturned.symm.trans hlive

end Welcomed

/-- Wherever a run has come to, a handshake that neither end has given up can be brought to its
end by its own steps. If its token has not been checked yet, is that of an enabled client, and
the table has room, they connect the client. -/
theorem handshake_completes {env : Env} {args : SessionId → Option Args} {s : State} {k : SessionId}
    {a : Args} {c : Conn} (hr : Reachable (Step env args) (Init args) s) (hargs : args k = some a)
    (hfits : Fits a.id ∧ Fits a.token) (hc : s.parts k = some c) (hopen : c.Open) :
    ∃ tr t d, Run (Step env args) s tr t ∧ (∀ x ∈ tr, Proceeds k x.2.1) ∧
      t.parts k = some d ∧ d.Over ∧
      ∀ clientId enabled, s.host.tunnels k = .fresh →
        s.host.clients.verifyToken env.sha256HexWithPepper a.token env.tokenPepper =
          some (clientId, enabled) →
        s.host.sessions.entries.length < env.security.maxClients →
        d.client = .connected ∧ ∃ info, t.host.sessions.lookup clientId = some info ∧
          info.sessionId = k := by
  obtain ⟨tr, t, d, hrun, hall, hd, hover⟩ := completes hr hargs hfits hc hopen
  refine ⟨tr, t, d, hrun, hall, hd, hover, fun clientId enabled hfresh hverify hroom => ?_⟩
  have hwelcome := welcome_run hr hargs hrun hall (.fresh hfresh hverify hroom)
  exact hwelcome.connected (hrun.keeps (fun _ _ _ h hs => h.step hs) hr) hd hover

/-- Any number of clients that are started with the token of `exampleClient`. -/
def exampleArgs (_ : SessionId) : Option Args := some { id := "cli_home", token := "mmk_home" }

def exampleStart : State where
  host := .init exampleStore
  parts := starts exampleArgs (.init exampleStore)

theorem init_start : Init exampleArgs exampleStart := ⟨init_example, rfl⟩

theorem start_reachable :
    Reachable (Step exampleEnv exampleArgs) (Init exampleArgs) exampleStart := .init init_start

theorem example_verifies : exampleStore.verifyToken exampleEnv.sha256HexWithPepper "mmk_home"
    exampleEnv.tokenPepper = some ("cli_home", true) := by
  decide

theorem open_init (id token : String) : (Conn.init id token).Open := ⟨nofun, nofun⟩

/-- The first client of the example server connects. -/
theorem handshake_completes_first :
    ∃ tr t d, Run (Step exampleEnv exampleArgs) exampleStart tr t ∧ t.parts 0 = some d ∧
      d.client = .connected ∧ ∃ info, t.host.sessions.lookup "cli_home" = some info ∧
        info.sessionId = 0 := by
  obtain ⟨tr, t, d, hrun, -, hd, -, hconnected⟩ := handshake_completes start_reachable
    (k := 0) rfl (by decide) rfl (open_init "cli_home" "mmk_home")
  exact ⟨tr, t, d, hrun, hd, hconnected "cli_home" true rfl example_verifies (by decide)⟩

/-! ## Agreement -/

/-- The check of its token has found whose client is behind session `k`. -/
structure Vouched (env : Env) (a : Args) (k : SessionId)
    (tr : List (Server × Tunnel.Event × Server)) (peer : Peer) : Prop where
  announced : peer.announced = a.id
  token : peer.token = a.token
  checked : ∃ x ∈ tr, Checked env peer.clientId k a.token x

/-- What the client of a connection believes, and what it has received, is so. -/
structure Agreement (env : Env) (a : Args) (k : SessionId)
    (tr : List (Server × Tunnel.Event × Server)) (task : TunnelTask) (c : Conn) : Prop where
  connected : c.client = .connected → ∃ peer, task.admittedPeer = some peer ∧
    Vouched env a k tr peer ∧ ∃ x ∈ tr, Entered env k peer x
  refused : ∀ msg, c.client = .refused msg →
    (msg = "invalid token" ∧ task = .returned .invalidToken ∧
      ∃ x ∈ tr, TokenRefused env k a.token x) ∨
    (msg = "max clients reached" ∧ ∃ peer, task = .returned (.rejected peer) ∧
      Vouched env a k tr peer ∧ ∃ x ∈ tr, TableFull env k x)
  delivered : c.upGot <+: c.upSent ∧ c.downGot <+: c.downSent

section Runs

variable {env : Env} {args : SessionId → Option Args} {s₀ s : State}
  {tr : List (State × Event × State)} {k : SessionId} {a : Args} {c : Conn} {peer : Peer}

theorem tunnels_init (h₀ : Init args s₀) : s₀.host.tunnels k = .fresh := by
  obtain ⟨_, _, heq⟩ := h₀.1
  rw [heq]
  rfl

theorem run_host (hrun : Run (Step env args) s₀ tr s) :
    Run (Tunnel.Step env) s₀.host (hostTrace tr) s.host := host_run hrun.of_guarded.1

/-- In a run, an invocation reads what its client was started with. -/
theorem handshake_of_run (h₀ : Init args s₀) (hrun : Run (Step env args) s₀ tr s)
    (hargs : args k = some a) {y : Server × Tunnel.Event × Server} (hy : y ∈ hostTrace tr)
    {id token addr : String} (he : y.2.1 = .tunnel k (.handshake id token addr)) :
    id = a.id ∧ token = a.token := by
  have hkeep : ∀ u e v, Reachable (Step env args) (Init args) u → Step env args u e v →
      Reachable (Step env args) (Init args) v ∧
        ∀ id token addr, e = .host (.tunnel k (.handshake id token addr)) →
          id = a.id ∧ token = a.token := fun u e v hr hs =>
    ⟨hr.step hs, fun id token addr heq => handshake_eq hr hargs (heq ▸ hs)⟩
  obtain ⟨x, hx, -, hevent⟩ := mem_hostTrace hy
  exact hrun.forall_steps hkeep (.init h₀) x hx id token addr (hevent.trans (congrArg _ he))

theorem vouched_of_run (h₀ : Init args s₀) (hrun : Run (Step env args) s₀ tr s)
    (hargs : args k = some a) (h : (s.host.tunnels k).peer = some peer) :
    Vouched env a k (hostTrace tr) peer := by
  have hsince := (run_host hrun).since (fun u => (u.tunnels k).peer = some peer)
    (fun x => x.2.1 = .tunnel k (.handshake peer.announced peer.token peer.remoteAddr) ∧
      Checked env peer.clientId k peer.token x)
    (fun _ _ _ hs h => peer_of_step hs h) h
  rcases hsince with hinit | ⟨y, hy, he, hchecked⟩
  · rw [tunnels_init h₀] at hinit
    cases hinit
  · obtain ⟨hannounced, htoken⟩ := handshake_of_run h₀ hrun hargs hy he
    exact ⟨hannounced, htoken, y, hy, htoken ▸ hchecked⟩

theorem entered_of_run (h₀ : Init args s₀) (hrun : Run (Step env args) s₀ tr s)
    (h : (s.host.tunnels k).admittedPeer = some peer) :
    ∃ x ∈ hostTrace tr, Entered env k peer x := by
  refine ((run_host hrun).since (fun u => (u.tunnels k).admittedPeer = some peer)
    (Entered env k peer) (fun _ _ _ hs h => entered_of_step hs h) h).resolve_left ?_
  rw [tunnels_init h₀]
  exact nofun

theorem refused_of_run (h₀ : Init args s₀) (hrun : Run (Step env args) s₀ tr s)
    (hargs : args k = some a) (h : s.host.tunnels k = .returned .invalidToken) :
    ∃ x ∈ hostTrace tr, TokenRefused env k a.token x := by
  have hsince := (run_host hrun).since (fun u => u.tunnels k = .returned .invalidToken)
    (fun x => ∃ token, TokenRefused env k token x) (fun _ _ _ hs h => refused_of_step hs h) h
  rcases hsince with hinit | ⟨y, hy, token, ⟨announced, addr, he⟩, hnone⟩
  · rw [tunnels_init h₀] at hinit
    cases hinit
  · obtain ⟨-, rfl⟩ := handshake_of_run h₀ hrun hargs hy he
    exact ⟨y, hy, ⟨announced, addr, he⟩, hnone⟩

theorem rejected_of_run (h₀ : Init args s₀) (hrun : Run (Step env args) s₀ tr s)
    (h : s.host.tunnels k = .returned (.rejected peer)) :
    ∃ x ∈ hostTrace tr, TableFull env k x := by
  refine ((run_host hrun).since (fun u => u.tunnels k = .returned (.rejected peer))
    (TableFull env k) (fun _ _ _ hs h => rejected_of_step hs h) h).resolve_left ?_
  rw [tunnels_init h₀]
  exact nofun

end Runs

/-- What the client of each connection believes is so, whatever the others do. -/
theorem handshake_agreement {env : Env} {args : SessionId → Option Args} {s₀ s : State}
    {tr : List (State × Event × State)} {k : SessionId} {a : Args} (h₀ : Init args s₀)
    (hrun : Run (Step env args) s₀ tr s) (hargs : args k = some a) :
    ∃ c, s.parts k = some c ∧ Agreement env a k (hostTrace tr) (s.host.tunnels k) c := by
  have hr := hrun.reachable h₀
  obtain ⟨c, hc⟩ := conn_there hr hargs
  obtain ⟨a', hargs', hclient⟩ := clientOf_reachable hr hc
  cases hargs.symm.trans hargs'
  refine ⟨c, hc, fun hconnected => ?_, fun msg hrefused => ?_, hclient.sound.delivered⟩
  · obtain ⟨peer, hpeer⟩ := admitted_of_connected hr hc hconnected
    exact ⟨peer, hpeer, vouched_of_run h₀ hrun hargs (peer_of_admittedPeer hpeer),
      entered_of_run h₀ hrun hpeer⟩
  · rcases returned_of_refused hr hc hrefused with ⟨hmsg, htask⟩ | ⟨hmsg, peer, htask⟩
    · exact .inl ⟨hmsg, htask, refused_of_run h₀ hrun hargs htask⟩
    · exact .inr ⟨hmsg, peer, htask, vouched_of_run h₀ hrun hargs (by rw [htask]; rfl),
        rejected_of_run h₀ hrun htask⟩

/-- A client of the example server that is connected. -/
theorem handshake_agreement_connected :
    ∃ tr s c, Run (Step exampleEnv exampleArgs) exampleStart tr s ∧ s.parts 0 = some c ∧
      c.client = .connected ∧ Agreement exampleEnv { id := "cli_home", token := "mmk_home" } 0
        (hostTrace tr) (s.host.tunnels 0) c := by
  obtain ⟨tr, s, c, hrun, hall, hc, hover⟩ := completes start_reachable (k := 0) rfl (by decide)
    rfl (open_init "cli_home" "mmk_home")
  have hwelcome := welcome_run start_reachable (k := 0) rfl hrun hall
    (.fresh rfl example_verifies (by decide))
  have hconnected := (hwelcome.connected (hrun.reachable init_start) hc hover).1
  obtain ⟨c', hc', hagreed⟩ := handshake_agreement init_start hrun (k := 0) rfl
  cases hc.symm.trans hc'
  exact ⟨tr, s, c, hrun, hc, hconnected, hagreed⟩

end Transport

end MiniMask.Tunnel
