import MiniMask.Tunnel.ConnLimit

/-!
# The stream cap of a session (`tunnel/mod.rs`, `yamux_config`)

A yamux connection has at most `max_num_streams` streams, and opening one more fails and
closes the connection. The accept loops refuse visitors by `max_conns_per_client`, which
is any number, and never look at the cap.

* `Capped` is the server with what becomes of the yamux connections.
* `stream_cap_exact`: no visitor takes the others down exactly in the runs whose drivers
  open a stream only while the session has fewer streams than the cap, and so it is in
  those in which never more visitors than the cap are under way.
* `visitor_takes_all_down`: without a connection limit, the visitor number 1025 ends the
  session and the 1024 connections before it.
-/

namespace MiniMask.Tunnel

open Lts

/-! ## Sessions and their yamux connections -/

/-- `max_num_streams`. -/
def maxNumStreams : Nat := 1024

/-- A yamux connection: up, lost by the peer or the network, or closed because a stream
was opened beyond the cap. -/
inductive Conn
  | up
  | lost
  | full
deriving DecidableEq, Repr

/-- The visitors of session `k` whose streams are open: their proxy tasks are not over. -/
def Server.openStreams (s : Server) (k : SessionId) : List ConnId :=
  (s.streams.zipIdx.filter fun x => x.1.1 == k && s.taskPhase x.2 != .over).map (·.1.2.conn)

/-- The server and its yamux connections. `ended` and `cut` are histories: the sessions
that a visitor has ended, and the visitors that lost their streams by that. -/
structure Capped where
  server : Server
  conn : SessionId → Conn
  ended : List SessionId
  cut : List ConnId

namespace Capped

def init (s : Server) : Capped := { server := s, conn := fun _ => .up, ended := [], cut := [] }

inductive Event
  | server (e : Tunnel.Event)
  | connLost (k : SessionId)
deriving DecidableEq, Repr

/-- The driver of `k` has opened a stream, or has failed to. -/
def Opens (k : SessionId) (e : Tunnel.Event) : Prop :=
  e = .tunnel k .openOk ∨ e = .tunnel k .openFails

/-- The events in which the server hears from a yamux connection. -/
def Heard (e : Tunnel.Event) : Prop := ∃ k, Opens k e ∨ e = .tunnel k .sessionEnds

/-- The connection of `k` is closed by the visitor that the driver was opening a stream
for, and with it all streams of the session. -/
def takeDown (s : Capped) (k : SessionId) (t : Server) : Capped where
  server := t
  conn := Function.update s.conn k .full
  ended := s.ended ++ [k]
  cut := s.cut ++ s.server.openStreams k

/-- A step of the server. What a driver hears is what yamux answers. -/
inductive Step (env : Env) (s : Capped) : Event → Capped → Prop
  | other {e : Tunnel.Event} {t : Server} :
      Tunnel.Step env s.server e t → ¬ Heard e → Step env s (.server e) { s with server := t }
  | opened {k : SessionId} {t : Server} :
      Tunnel.Step env s.server (.tunnel k .openOk) t → s.conn k = .up →
      (s.server.openStreams k).length < maxNumStreams →
      Step env s (.server (.tunnel k .openOk)) { s with server := t }
  | full {k : SessionId} {t : Server} :
      Tunnel.Step env s.server (.tunnel k .openFails) t → s.conn k = .up →
      maxNumStreams ≤ (s.server.openStreams k).length →
      Step env s (.server (.tunnel k .openFails)) (s.takeDown k t)
  | openLost {k : SessionId} {t : Server} :
      Tunnel.Step env s.server (.tunnel k .openFails) t → s.conn k = .lost →
      Step env s (.server (.tunnel k .openFails)) { s with server := t }
  | sessionEnds {k : SessionId} {t : Server} :
      Tunnel.Step env s.server (.tunnel k .sessionEnds) t → s.conn k = .lost →
      Step env s (.server (.tunnel k .sessionEnds)) { s with server := t }
  | connLost {k : SessionId} :
      s.conn k = .up →
      Step env s (.connLost k) { s with conn := Function.update s.conn k .lost }

/-- No visitor has ended a session or closed the stream of another visitor. -/
def NoneDown (s : Capped) : Prop := s.ended = [] ∧ s.cut = []

/-- A driver opens a stream on a connection that is up only while the session has fewer
streams than the cap. -/
def BelowCap (s : Capped) (e : Event) : Prop :=
  ∀ k e', e = .server e' → Opens k e' → s.conn k = .up →
    (s.server.openStreams k).length < maxNumStreams

/-! ## When a visitor takes the others down -/

section Steps

variable {env : Env} {s t : Capped} {e : Event}

theorem noneDown_step (h : NoneDown s) (hs : Step env s e t) : NoneDown t ↔ BelowCap s e := by
  cases hs with
  | other _ hquiet =>
    refine iff_of_true h fun k e' heq hopens _ => absurd ?_ hquiet
    cases heq
    exact ⟨k, .inl hopens⟩
  | opened _ _ hroom =>
    refine iff_of_true h fun k' e' heq hopens _ => ?_
    cases heq
    rcases hopens with heq | heq <;> cases heq
    exact hroom
  | @full k _ _ hup hfull =>
    refine iff_of_false (fun hnone => ?_) fun hbelow => ?_
    · have hsome : s.ended ++ [k] = [] := hnone.1
      simp at hsome
    · exact absurd (hbelow k _ rfl (.inr rfl) hup) (Nat.not_lt.mpr hfull)
  | openLost _ hlost =>
    refine iff_of_true h fun k' e' heq hopens hup => ?_
    cases heq
    rcases hopens with heq | heq <;> cases heq
    cases hlost.symm.trans hup
  | sessionEnds _ _ =>
    refine iff_of_true h fun k' e' heq hopens _ => ?_
    cases heq
    rcases hopens with heq | heq <;> cases heq
  | connLost _ => exact iff_of_true h fun _ _ heq => nomatch heq

/-- A session has no more streams than there are visitors in proxy tasks. -/
theorem openStreams_le (s : Server) (k : SessionId) :
    (s.openStreams k).length ≤ s.inTask.length := by
  unfold Server.openStreams Server.inTask
  rw [List.length_map, List.length_map, ← List.countP_eq_length_filter,
    ← List.countP_eq_length_filter]
  exact List.countP_mono_left fun x _ hx => (Bool.and_eq_true_iff.mp hx).2

/-- The visitor that a stream is opened for is under way itself. -/
theorem opening_ne_nil {k : SessionId} {e' : Tunnel.Event} {t : Server} {s : Server}
    (hs : Tunnel.Step env s e' t) (hopens : Opens k e') : s.opening ≠ [] := by
  rcases hopens with rfl | rfl
  · cases hs with
    | tunnel hs =>
      cases hs with
      | openOk _ hopening => rw [hopening]; simp
  · cases hs with
    | tunnel hs =>
      cases hs with
      | openFails _ hopening => rw [hopening]; simp

/-- The step of the server in a step of the capped server. -/
theorem Step.server {e' : Tunnel.Event} (hs : Step env s (.server e') t) :
    Tunnel.Step env s.server e' t.server := by
  cases hs <;> assumption

theorem belowCap_of_underWay (hs : Step env s e t)
    (hfew : s.server.passed.length ≤ maxNumStreams) : BelowCap s e := by
  rintro k e' rfl hopens _
  have hpos := List.length_pos_iff.mpr (opening_ne_nil hs.server hopens)
  have hle := openStreams_le s.server k
  simp only [Server.passed, conns, List.length_append, List.length_map] at hfew
  omega

end Steps

/-- In every run no visitor ends a session or closes the connection of another visitor if
and only if every driver opens streams below the cap. It is enough that never more
visitors than the cap are under way. -/
theorem stream_cap_exact {env : Env} {s₀ : Server} {s : Capped}
    {tr : List (Capped × Event × Capped)} (run : Run (Step env) (init s₀) tr s) :
    ((∀ x ∈ tr, NoneDown x.2.2) ↔ ∀ x ∈ tr, BelowCap x.1 x.2.1) ∧
    ((∀ x ∈ tr, x.1.server.passed.length ≤ maxNumStreams) → ∀ x ∈ tr, NoneDown x.2.2) := by
  have hstep : ∀ s e t, True → NoneDown s → Step env s e t → (NoneDown t ↔ BelowCap s e) :=
    fun _ _ _ _ h hs => noneDown_step h hs
  have hexact := run.forall_states_iff (fun _ _ _ _ _ => trivial) hstep trivial ⟨rfl, rfl⟩
  refine ⟨hexact, fun hfew => hexact.mpr ?_⟩
  have hbelow : ∀ s e t, True →
      Guarded (Step env) (fun s _ => s.server.passed.length ≤ maxNumStreams) s e t →
      True ∧ BelowCap s e := fun _ _ _ _ hs => ⟨trivial, belowCap_of_underWay hs.1 hs.2⟩
  exact (run.guarded hfew).forall_steps hbelow trivial

/-! ## Visitors of the example -/

/-- The example is served by its first session, and `n` of its visitors are proxied. -/
structure Proxying (n : Nat) (s : Capped) : Prop where
  tunnel : s.server.tunnels 0 = .live (examplePeer "198.51.100.7:5000") .driving
  loop : s.server.loops 0 = some exampleLoop
  offered : s.server.offered = []
  channel : s.server.channel = []
  opening : s.server.opening = []
  tasks : ∀ i, s.server.taskPhase i = .spawned
  streams : (s.server.openStreams 0).length = n
  conn : s.conn 0 = .up
  none : NoneDown s

theorem not_heard_loop (l : LoopId) (e : LoopEvent) : ¬ Heard (.loop l e) := by
  rintro ⟨k, (h | h) | h⟩ <;> cases h

theorem not_heard_recv (k : SessionId) : ¬ Heard (.tunnel k .recv) := by
  rintro ⟨k, (h | h) | h⟩ <;> cases h

theorem belowCap_of_not_heard {s : Capped} {e : Tunnel.Event} (h : ¬ Heard e) :
    BelowCap s (.server e) := by
  intro k e' heq hopens _
  cases heq
  exact absurd ⟨k, .inl hopens⟩ h

theorem tunnels_setTunnel (s : Server) (k : SessionId) (x : TunnelTask) :
    (s.setTunnel k x).tunnels k = x := Function.update_self ..

/-- One more visitor comes, and the driver is about to open its stream. -/
theorem Proxying.visitor {n : Nat} {s : Capped} {good : Capped → Prop} (h : Proxying n s)
    (hgood : good s) (keep : ∀ {s t e}, good s → Step exampleEnv s e t → BelowCap s e → good t) :
    ∃ s' req, good s' ∧ s'.server.tunnels 0 = .live (examplePeer "198.51.100.7:5000") .opening ∧
      s'.server.opening = [(0, req)] ∧ s'.server.loops 0 = some exampleLoop ∧
      s'.server.offered = [] ∧ s'.server.channel = [] ∧ s'.server.streams = s.server.streams ∧
      s'.server.taskPhase = s.server.taskPhase ∧ s'.conn = s.conn ∧ s'.ended = s.ended ∧
      s'.cut = s.cut := by
  have hidle : ∀ x ∈ s.server.offered, x.1 ≠ 0 := by rw [h.offered]; nofun
  have hnone : ∀ x ∈ s.server.channel, x.1 ≠ 0 := by rw [h.channel]; nofun
  have hopen : s.server.channelOpen 0 = true := by rw [Server.channelOpen, h.tunnel]; rfl
  have hroom : s.server.pending 0 < Driver.proxyChannelCapacity := by
    rw [Server.pending, h.channel]
    decide
  have accepted := keep hgood (.other
    (.loop (.accept (l := 0) h.loop hidle fun hlimit => hlimit.1 rfl)) (not_heard_loop _ _))
    (belowCap_of_not_heard (not_heard_loop _ _))
  have queued := keep accepted (.other
    (.loop (@LoopStep.sendOk _ 0 _ _ _ [] s.server.offered h.loop rfl hopen hroom))
    (not_heard_loop _ _)) (belowCap_of_not_heard (not_heard_loop _ _))
  have received := keep queued (.other
    (.tunnel (@TunnelStep.recv _ 0 _ _ _ s.server.channel [] h.tunnel rfl hnone))
    (not_heard_recv _)) (belowCap_of_not_heard (not_heard_recv _))
  refine ⟨_, { target := exampleLoop.localAddr, conn := s.server.accepted.length }, received,
    tunnels_setTunnel _ _ _, ?_, h.loop, h.offered, ?_, rfl, rfl, rfl, rfl, rfl⟩
  · show (0, _) :: s.server.opening = _
    rw [h.opening]
  · show s.server.channel ++ [] = []
    rw [h.channel]
    rfl

/-- A stream more is open once it is opened. -/
theorem length_openStreams_snoc {s t : Server} {k : SessionId} (req : ProxyRequest)
    (hstreams : t.streams = s.streams ++ [(k, req)]) (htasks : t.taskPhase = s.taskPhase)
    (hnew : s.taskPhase s.streams.length ≠ .over) :
    (t.openStreams k).length = (s.openStreams k).length + 1 := by
  unfold Server.openStreams
  rw [hstreams, htasks, List.zipIdx_append, List.filter_append, List.map_append, List.length_append]
  simp [hnew]

/-- Below the cap the visitor is proxied with the others. -/
theorem Proxying.next {n : Nat} {s : Capped} {good : Capped → Prop} (h : Proxying n s)
    (hgood : good s) (keep : ∀ {s t e}, good s → Step exampleEnv s e t → BelowCap s e → good t)
    (hlt : n < maxNumStreams) : ∃ t, Proxying (n + 1) t ∧ good t := by
  obtain ⟨s', req, hgood', htunnel, hopening, hloop, hoffered, hchannel, hstreams, htasks, hconn,
    hended, hcut⟩ := h.visitor hgood keep
  have hsame : s'.server.openStreams 0 = s.server.openStreams 0 := by
    unfold Server.openStreams
    rw [hstreams, htasks]
  have hup : s'.conn 0 = .up := hconn ▸ h.conn
  have hroom : (s'.server.openStreams 0).length < maxNumStreams := by
    rw [hsame, h.streams]
    exact hlt
  have hbelow : BelowCap s' (.server (.tunnel 0 .openOk)) := by
    intro k e heq hopens _
    cases heq
    rcases hopens with heq | heq <;> cases heq
    exact hroom
  have opened := keep hgood' (.opened
    (.tunnel (@TunnelStep.openOk _ 0 _ _ _ [] [] htunnel hopening)) hup hroom) hbelow
  refine ⟨_, ?_, opened⟩
  refine ⟨tunnels_setTunnel _ _ _, hloop, hoffered, hchannel, rfl, fun i => ?_, ?_, hup,
    hended.trans h.none.1, hcut.trans h.none.2⟩
  · show s'.server.taskPhase i = _
    rw [htasks, h.tasks]
  · have hnew : s'.server.taskPhase s'.server.streams.length ≠ .over := by
      rw [htasks, h.tasks]
      nofun
    refine (length_openStreams_snoc req ?_ ?_ hnew).trans ?_
    · rfl
    · rfl
    · rw [hsame, h.streams]

theorem proxying_serving : Proxying 0 (init exampleServing) :=
  ⟨rfl, rfl, rfl, rfl, rfl, fun _ => rfl, rfl, rfl, rfl, rfl⟩

/-- Any number of visitors up to the cap can be proxied. -/
theorem proxying_upTo {good : Capped → Prop} (hgood : good (init exampleServing))
    (keep : ∀ {s t e}, good s → Step exampleEnv s e t → BelowCap s e → good t) (n : Nat)
    (hle : n ≤ maxNumStreams) : ∃ s, Proxying n s ∧ good s := by
  induction n with
  | zero => exact ⟨_, proxying_serving, hgood⟩
  | succ n ih =>
    obtain ⟨s, h, hs⟩ := ih (Nat.le_of_succ_le hle)
    exact h.next hs keep hle

/-- Two visitors are proxied side by side. -/
theorem stream_cap_exact_two :
    ∃ tr s, Run (Step exampleEnv) (init exampleServing) tr s ∧ Proxying 2 s ∧
      ∀ x ∈ tr, NoneDown x.2.2 := by
  obtain ⟨s, hproxying, tr, run, hbelow⟩ := @proxying_upTo
    (fun s => ∃ tr, Run (Step exampleEnv) (init exampleServing) tr s ∧
      ∀ x ∈ tr, BelowCap x.1 x.2.1) ⟨[], .nil, fun _ hx => nomatch hx⟩
    (fun ⟨tr, run, hbelow⟩ hs hlast => ⟨_, run.snoc hs, List.forall_mem_append.mpr
      ⟨hbelow, List.forall_mem_singleton.mpr hlast⟩⟩) 2 (by decide)
  exact ⟨tr, s, run, hproxying, (stream_cap_exact run).1.mpr hbelow⟩

/-- There is no connection limit and 1024 visitors are proxied. The next one ends the
session, and with it all their connections. -/
theorem visitor_takes_all_down :
    exampleEnv.security.maxConnsPerClient = 0 ∧
      Reachable (Tunnel.Step exampleEnv) Tunnel.Init exampleServing ∧
      ∃ s, Reachable (Step exampleEnv) (fun s₀ => s₀ = init exampleServing) s ∧ s.ended = [0] ∧
        s.cut.length = 1024 ∧ ¬ NoneDown s := by
  have keep : ∀ {s t e}, Reachable (Step exampleEnv) (fun s₀ => s₀ = init exampleServing) s →
      Step exampleEnv s e t → BelowCap s e →
      Reachable (Step exampleEnv) (fun s₀ => s₀ = init exampleServing) t :=
    fun hr hs _ => hr.step hs
  obtain ⟨s, h, hr⟩ := proxying_upTo (.init rfl) keep maxNumStreams (Nat.le_refl _)
  obtain ⟨s', req, hr', htunnel, hopening, _, _, _, hstreams, htasks, hconn, hended, hcut⟩ :=
    h.visitor hr keep
  have hfull : (s'.server.openStreams 0).length = maxNumStreams := by
    rw [← h.streams]
    unfold Server.openStreams
    rw [hstreams, htasks]
  have down := hr'.step (.full (.tunnel (@TunnelStep.openFails _ 0 _ _ _ [] [] htunnel hopening))
    (hconn ▸ h.conn) (Nat.le_of_eq hfull.symm))
  have hlost : (s'.cut ++ s'.server.openStreams 0).length = 1024 := by
    rw [hcut, h.none.2, List.nil_append, hfull]
    rfl
  refine ⟨rfl, reachable_serving, _, down, ?_, hlost, fun hnone => ?_⟩
  · show s'.ended ++ [0] = [0]
    rw [hended, h.none.1]
    rfl
  · have hempty : s'.cut ++ s'.server.openStreams 0 = [] := hnone.2
    rw [hempty] at hlost
    cases hlost

end Capped

end MiniMask.Tunnel
