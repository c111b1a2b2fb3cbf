import MiniMask.Lib.Hosting
import MiniMask.Tunnel.ActiveConns
import MiniMask.Tunnel.EndToEnd
import MiniMask.Tunnel.Visitors

/-!
# The server and its connections

The server with all its tasks, and for every stream that a driver has opened the connection
from the visitor over the client to the local service. The steps of the server and of the
connections interleave; a connection begins when its stream is opened, and the proxy task of
a stream is what works on its server side.

* `network_isolation`: a local service that is dialed for a visitor is the one of the mapping
  on whose port the visitor came in, on the side of a session that is authenticated as that
  mapping's client, and either of the two receives only what the other one sent.
-/

namespace MiniMask.Tunnel

open Lts Hosting
open Protocol (Fits lpStr writeTarget asBytes)

/-! ## Definitions -/

namespace Network

abbrev State := Hosted Server EndToEnd.State ConnId

abbrev Event := Hosting.Event Tunnel.Event EndToEnd.Event ConnId

/-- The connection of a visitor to whom a stream was given. -/
def starts (s : Server) (i : ConnId) : Option EndToEnd.State :=
  (s.streams.find? fun x => x.2.conn == i).map fun x => EndToEnd.init x.2.target

/-- A step of `proxy_connection`. -/
def byProxy : EndToEnd.Event → Bool
  | .sendTarget _ | .targetSent | .copyOut _ | .copyInc _ | .proxyEnds => true
  | _ => false

/-- The proxy task of a connection is in `proxy_connection`. -/
def Running (s : Server) (i : ConnId) : Prop :=
  ∃ n k req, s.streams[n]? = some (k, req) ∧ req.conn = i ∧ s.taskPhase n = .counted

/-- A proxy task is over after `proxy_connection`, and works only before. -/
def Bound (s : State) : Event → Prop
  | .host (.task n .ends) => ∀ k req c, s.host.streams[n]? = some (k, req) →
      s.parts req.conn = some c → c.proxy = .ended
  | .host _ => True
  | .part i e => byProxy e = true → Running s.host i

def Step (env : Env) : State → Event → State → Prop :=
  Guarded (Hosting.Step (Tunnel.Step env) EndToEnd.Step starts) Bound

def Init : State → Prop := Hosting.Init Tunnel.Init starts

end Network

/-! ## One connection -/

namespace Network

open EndToEnd (Relaying ClientStage)

section Connection

variable {target : String} {c d : EndToEnd.State} {e : EndToEnd.Event}

/-- `write_target` fails on a target that is too long before it sends anything, and the
connection never gets anywhere. -/
structure Stuck (c : EndToEnd.State) : Prop where
  proxy : (∃ res, res ≠ .ok () ∧ c.proxy = .sendingTarget [] res) ∨ c.proxy = .ended
  unsent : c.streamOut.sent = []
  client : c.client = .readingTarget [] ∨ c.client = .ended
  undialed : c.dialed = none
  silent : c.serviceOut.sent = [] ∧ c.visitorInc.sent = []

theorem stuck_init (h : ¬ Fits target) : Stuck (EndToEnd.init target) := by
  have hemitted : (writeTarget target).emitted =
      (.error (.stringTooLong (asBytes target).length), []) :=
    (Protocol.lpStr_tooLong h).here.emitted_eq
  refine ⟨.inl ⟨.error (.stringTooLong (asBytes target).length), nofun, ?_⟩, rfl, .inl rfl, rfl,
    rfl, rfl⟩
  show EndToEnd.ProxyStage.sendingTarget _ _ = _
  rw [hemitted]

theorem stuck_step (h : Stuck c) (hs : EndToEnd.Step c e d) : Stuck d := by
  obtain ⟨hproxy, hunsent, hclient, hundialed, hsilent⟩ := h
  -- Neither program is past its first stage.
  have hnocopy : ∀ out inc, c.proxy ≠ .copying out inc := fun out inc heq => by
    rcases hproxy with ⟨_, _, hstage⟩ | hstage <;> cases hstage.symm.trans heq
  have hnotarget : ∀ t, c.client ≠ .dialing t := fun t heq => by
    rcases hclient with hstage | hstage <;> cases hstage.symm.trans heq
  have hnobridge : ∀ b, c.client ≠ .bridging b := fun b heq => by
    rcases hclient with hstage | hstage <;> cases hstage.symm.trans heq
  have hempty : ∀ got, c.client = .readingTarget got → got = [] := fun got heq => by
    rcases hclient with hstage | hstage <;> cases hstage.symm.trans heq
    rfl
  cases hs with
  | visitorSends | visitorReceives | serviceSends | serviceReceives =>
    exact ⟨hproxy, hunsent, hclient, hundialed, hsilent⟩
  | @sendTarget n rest res hstage =>
    rcases hproxy with ⟨res', hres, hstage'⟩ | hstage'
    · cases hstage.symm.trans hstage'
      refine ⟨.inl ⟨res, hres, by rw [List.drop_nil]⟩, ?_, hclient, hundialed, hsilent⟩
      show c.streamOut.sent ++ [].take n = []
      rw [hunsent, List.take_nil, List.append_nil]
    · cases hstage.symm.trans hstage'
  | targetSent hstage =>
    rcases hproxy with ⟨res, hres, hstage'⟩ | hstage'
    · cases hstage.symm.trans hstage'
      exact absurd rfl hres
    · cases hstage.symm.trans hstage'
  | copyOut hstage _ _ | copyInc hstage _ _ => exact absurd hstage (hnocopy _ _)
  | proxyEnds => exact ⟨.inr rfl, hunsent, hclient, hundialed, hsilent⟩
  | @readTarget bytes got hstage _ htaken =>
    have hnothing : c.streamOut.inFlight = [] := by
      unfold Pipe.inFlight
      rw [hunsent, List.drop_nil]
    have hbytes : bytes = [] := List.prefix_nil.mp (hnothing ▸ htaken)
    exact ⟨hproxy, hunsent, .inl (by rw [hempty got hstage, hbytes]; rfl), hundialed, hsilent⟩
  | @targetRead got t rest hstage hlength _ =>
    rw [hempty got hstage] at hlength
    cases hlength
  | connected now hstage => exact absurd hstage (hnotarget _)
  | bridge now hstage _ _ _ => exact absurd hstage (hnobridge _)
  | clientEnds => exact ⟨hproxy, hunsent, .inr rfl, hundialed, hsilent⟩

/-- What the two ends of a connection know of each other, however long its target is. -/
structure Exact (target : String) (c : EndToEnd.State) : Prop where
  dialed : ∀ t, c.dialed = some t → t = target
  undialed : c.dialed = none → c.serviceOut.sent = []
  out : c.serviceOut.received <+: c.visitorOut.sent
  inc : c.visitorInc.received <+: c.serviceInc.sent

theorem exact_of_stuck (h : Stuck c) : Exact target c := by
  have hout : c.serviceOut.received = [] :=
    List.prefix_nil.mp (h.silent.1 ▸ c.serviceOut.ordered)
  have hinc : c.visitorInc.received = [] :=
    List.prefix_nil.mp (h.silent.2 ▸ c.visitorInc.ordered)
  refine ⟨fun t ht => ?_, fun _ => h.silent.1, ?_, ?_⟩
  · cases h.undialed.symm.trans ht
  · rw [hout]
    exact List.nil_prefix
  · rw [hinc]
    exact List.nil_prefix

/-- What was dialed, and what was sent there. -/
theorem dialed_of_relaying (fits : Fits target) (h : Relaying target c) {t : String}
    (ht : c.dialed = some t) : t = target ∧ c.serviceOut.sent <+: c.visitorOut.received := by
  have hframe : c.frame = lpStr t := by rw [EndToEnd.State.frame, ht]
  obtain ⟨rest, hrest⟩ := EndToEnd.frame_prefix h
  rw [hframe, List.append_assoc] at hrest
  -- What the client decoded and what the server sent are frames of the same bytes.
  obtain ⟨htarget, hsent⟩ := Protocol.lpStr_unique (h.fits t ht) fits hrest
  exact ⟨htarget, rest, hsent⟩

theorem exact_of_relaying (fits : Fits target) (h : Relaying target c) : Exact target c := by
  have hinc : c.visitorInc.sent <+: c.serviceInc.received :=
    (h.proxyInc.isPrefix.trans c.streamInc.ordered).trans h.clientInc.isPrefix
  have hout : c.serviceOut.sent <+: c.visitorOut.received := by
    cases hdialed : c.dialed with
    | none => exact (h.undialed hdialed).1 ▸ List.nil_prefix
    | some t => exact (dialed_of_relaying fits h hdialed).2
  exact ⟨fun t ht => (dialed_of_relaying fits h ht).1, fun hnone => (h.undialed hnone).1,
    (c.serviceOut.ordered.trans hout).trans c.visitorOut.ordered,
    (c.visitorInc.ordered.trans hinc).trans c.serviceInc.ordered⟩

theorem exact_reachable (h : Lts.Reachable EndToEnd.Step (fun s => s = EndToEnd.init target) c) :
    Exact target c := by
  -- A target that does not fit the frame is never sent, so nothing is ever dialed.
  by_cases fits : Fits target
  · refine exact_of_relaying fits (h.invariant (fun _ heq => heq ▸ EndToEnd.relaying_init fits) ?_)
    exact fun _ _ _ hk hs => EndToEnd.relaying_step hk hs
  · refine exact_of_stuck (h.invariant (fun _ heq => heq ▸ stuck_init fits) ?_)
    exact fun _ _ _ hk hs => stuck_step hk hs

end Connection

/-! ## All of them -/

section Network

variable {env : Env} {s : State} {i : ConnId} {c : EndToEnd.State}

/-- Streams stay, and only come behind those that are there. -/
theorem streams_step {s t : Server} {e : Tunnel.Event} (hs : Tunnel.Step env s e t) :
    s.streams <+: t.streams := by
  cases hs with
  | task hs => rw [hs.frame]
  | loop hs => rw [hs.frame]
  | admin hs => rw [hs.frame]
  | tunnel hs =>
    cases hs with
    | openOk _ _ => exact List.prefix_append _ _
    | add _ hadd =>
      rw [hadd.frame]
      exact List.prefix_rfl
    | _ => exact List.prefix_rfl

theorem starts_step {s t : Server} {e : Tunnel.Event} {c : EndToEnd.State}
    (hs : Tunnel.Step env s e t) (h : starts s i = some c) : starts t i = some c := by
  obtain ⟨x, hx, hc⟩ := Option.map_eq_some_iff.mp h
  obtain ⟨rest, hrest⟩ := streams_step hs
  unfold starts
  rw [← hrest, List.find?_append, hx, Option.some_or, Option.map_some, hc]

/-- The stream of a connection. -/
theorem stream_of_part (h : Reachable (Step env) Init s) (hc : s.parts i = some c) :
    ∃ k req, (k, req) ∈ s.host.streams ∧ req.conn = i ∧ Exact req.target c := by
  have hkeep : ∀ s e t i c, Tunnel.Step env s e t → starts s i = some c → starts t i = some c :=
    fun _ _ _ _ _ => starts_step
  obtain ⟨c₀, hc₀, hreach⟩ := part_reachable hkeep h.of_guarded i c hc
  obtain ⟨⟨k, req⟩, hx, rfl⟩ := Option.map_eq_some_iff.mp hc₀
  exact ⟨k, req, List.mem_of_find?_eq_some hx, by simpa using List.find?_some hx,
    exact_reachable hreach⟩

theorem server_reachable (h : Reachable (Step env) Init s) :
    Reachable (Tunnel.Step env) Tunnel.Init s.host :=
  host_reachable h.of_guarded

/-- Whatever the visitors, the clients and the administrators do: each connection has a
visitor that a listener of some mapping accepted, and its stream belongs to a session that
is authenticated as the client of that mapping, a mapping which was made for that client and
whose id nobody else has; nothing but the address of the mapping is dialed for it, nothing
is sent to a service before, and the service and the visitor receive from each other what
was sent, and nothing else. -/
theorem network_isolation (h : Reachable (Step env) Init s) (hc : s.parts i = some c) :
    ∃ k a, s.host.accepted[i]? = some a ∧ s.host.AuthenticatedAs k a.clientId ∧
      (∃ req, (k, req) ∈ s.host.streams ∧ req.conn = i) ∧
      a.mapping.route a.clientId ∈ s.host.issued ∧
      (∀ route ∈ routes s.host.clients.list, route.mappingId = a.mapping.id →
        route = a.mapping.route a.clientId) ∧
      Exact a.mapping.localAddr c := by
  have hserver := server_reachable h
  have hrouted := routed_reachable hserver
  have hledger := ledger_reachable hserver
  obtain ⟨k, req, hmem, rfl, hexact⟩ := stream_of_part h hc
  obtain ⟨a, haccepted, htarget, hauth⟩ := hrouted.given k req (List.mem_append_right _ hmem)
  have hissued := hrouted.accepted_route a (List.mem_of_getElem? haccepted)
  refine ⟨k, a, haccepted, hauth, ⟨req, hmem, rfl⟩, hissued, fun route hroute hid => ?_,
    htarget ▸ hexact⟩
  exact hledger.route_eq (hledger.routes_issued route hroute) hissued hid

/-- A step of the server alone, by which no proxy task ends. -/
theorem reachable_host {s t : Server} {e : Tunnel.Event}
    (h : Reachable (Step env) Init ⟨s, starts s⟩) (hs : Tunnel.Step env s e t)
    (hends : ∀ n, e ≠ .task n .ends) : Reachable (Step env) Init ⟨t, starts t⟩ := by
  have hfollow : Hosted.follow starts ⟨s, starts s⟩ t = ⟨t, starts t⟩ := by
    unfold Hosted.follow
    refine congrArg (Hosted.mk t) (funext fun i => ?_)
    dsimp only
    cases hi : starts s i with
    | none => exact Option.none_or
    | some c => exact (starts_step hs hi).symm
  have hbound : Bound ⟨s, starts s⟩ (.host e) := by
    cases e with
    | task n e =>
      cases e with
      | starts => trivial
      | ends => exact absurd rfl (hends n)
    | tunnel _ _ | loop _ _ | admin _ _ => trivial
  rw [← hfollow]
  exact h.step ⟨.host hs, hbound⟩

/-- A connection whose proxy task runs can do all that it can do alone. -/
theorem reachable_part {d : EndToEnd.State} (h : Reachable (Step env) Init s)
    (hc : s.parts i = some c) (hrunning : Running s.host i)
    (hd : Reachable EndToEnd.Step (fun c' => c' = c) d) :
    Reachable (Step env) Init { s with parts := Function.update s.parts i (some d) } := by
  -- The run of the part alone, with the server standing still.
  induction hd with
  | init heq => rwa [heq, ← hc, Function.update_eq_self]
  | @step d d' e _ hs ih =>
    have hpart : Function.update s.parts i (some d) i = some d := Function.update_self ..
    have hbound : Bound { s with parts := Function.update s.parts i (some d) } (.part i e) :=
      fun _ => hrunning
    have hstep := ih.step ⟨.part hpart hs, hbound⟩
    have hsame : Function.update (Function.update s.parts i (some d)) i (some d') =
        Function.update s.parts i (some d') := Function.update_idem ..
    rwa [hsame] at hstep

/-- The client has read the target of the example and dials it. -/
theorem reachable_dialing : ∃ d, Reachable EndToEnd.Step
    (fun c => c = EndToEnd.init "127.0.0.1:80") d ∧ d.dialed = some "127.0.0.1:80" := by
  have fits : Fits "127.0.0.1:80" := by decide
  have hemitted : (writeTarget "127.0.0.1:80").emitted = (.ok (), lpStr "127.0.0.1:80") :=
    (Protocol.writes_target fits).emitted_eq
  obtain ⟨rest, hread, -⟩ :=
    Protocol.reads_lpStr (R := Framing.Chunks) fits ⟨[lpStr "127.0.0.1:80"]⟩ [] rfl
  have new : Reachable EndToEnd.Step (fun c => c = EndToEnd.init "127.0.0.1:80")
      (EndToEnd.init "127.0.0.1:80") := .init rfl
  have sent := (new.step (.sendTarget 14 rfl)).step (.targetSent (by rw [hemitted]; rfl))
  have measured := sent.step (.readTarget [0, 12] rfl (by decide) ⟨_, rfl⟩)
  have asked := measured.step
    (.readTarget [49, 50, 55, 46, 48, 46, 48, 46, 49, 58, 56, 48] rfl (by decide) ⟨_, rfl⟩)
  exact ⟨_, asked.step (.targetRead (t := "127.0.0.1:80") rfl rfl hread), rfl⟩

/-- The proxy task of a visitor of the example is running. -/
theorem reachable_proxying : ∃ s, Reachable (Step exampleEnv) Init ⟨s, starts s⟩ ∧
    starts s 0 = some (EndToEnd.init "127.0.0.1:80") ∧ Running s 0 := by
  have new : Reachable (Step exampleEnv) Init
      ⟨Server.init exampleStore, starts (Server.init exampleStore)⟩ :=
    .init ⟨init_example, rfl⟩
  have serving : Reachable (Step exampleEnv) Init ⟨exampleServing, starts exampleServing⟩ :=
    example_serving (p := fun s => Reachable (Step exampleEnv) Init ⟨s, starts s⟩) new
      fun h hs _ _ => reachable_host h hs nofun
  have accepted := reachable_host serving
    (.loop (.accept (l := 0) rfl nofun fun hlimit => absurd rfl hlimit.1)) nofun
  have queued := reachable_host accepted
    (.loop (@LoopStep.sendOk _ 0 _ _ _ [] [] rfl rfl rfl (by decide))) nofun
  have received := reachable_host queued
    (.tunnel (@TunnelStep.recv _ 0 _ _ _ [] [] rfl rfl nofun)) nofun
  have opened := reachable_host received
    (.tunnel (@TunnelStep.openOk _ 0 _ _ _ [] [] rfl rfl)) nofun
  exact ⟨_, reachable_host opened (.task (.starts (i := 0) rfl rfl)) nofun, rfl,
    0, 0, _, rfl, rfl, rfl⟩

/-- A visitor of the example, up to the connection to the local service. -/
theorem network_isolation_dialed : ∃ (s : State) (c : EndToEnd.State) (k : SessionId)
    (a : Accepted), Reachable (Step exampleEnv) Init s ∧ s.parts 0 = some c ∧
    c.dialed = some "127.0.0.1:80" ∧
    s.host.AuthenticatedAs k a.clientId ∧ a.mapping.localAddr = "127.0.0.1:80" := by
  obtain ⟨s, proxying, hc, hrunning⟩ := reachable_proxying
  obtain ⟨d, dialing, hdialed⟩ := reachable_dialing
  have dialed := reachable_part (i := 0) proxying hc hrunning dialing
  have hd : Function.update (starts s) 0 (some d) 0 = some d := Function.update_self ..
  obtain ⟨k, a, haccepted, hauth, -, -, -, hexact⟩ :=
    network_isolation (i := 0) dialed hd
  exact ⟨_, d, k, a, dialed, hd, hdialed, hauth, (hexact.dialed _ hdialed).symm⟩

end Network

end Network

end MiniMask.Tunnel
