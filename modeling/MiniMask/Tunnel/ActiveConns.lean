import MiniMask.Lib.Tally
import MiniMask.Tunnel.Proxy
import MiniMask.Tunnel.Sessions

/-!
# The counters of the proxy tasks (`tunnel/session.rs`, `state.rs` `Stats`)

A proxy task raises three counters, the `active_conns` of its session and `total_conns` and
`active_conns` of `Stats`, then runs `proxy_connection` and lowers the two active ones
again. The server's own steps have one counter and two of these updates. `Accounts` is the
server with all five, each a step of its own, so that the updates of different tasks
interleave in any order.

Whatever `proxy_connection` returns for, the task goes on to the two `fetch_sub`: the
updates stand behind the call, not in it. `counted_reachable` is the invariant: each
counter is the number of tasks that are past its `fetch_add` and not past its `fetch_sub`.
-/

namespace MiniMask.Tunnel

open Lts Tally

/-- The counters of `Stats` that the proxy tasks update. -/
structure Stats where
  totalConns : Nat
  activeConns : Nat
deriving DecidableEq, Repr

/-- What a proxy task has done: nothing; one, two or all three of its `fetch_add`, after
which it is in `proxy_connection`; one or both of its `fetch_sub`. -/
inductive Place
  | spawned
  | entered
  | totalled
  | proxying
  | left
  | finished
deriving DecidableEq, Repr

namespace Place

/-- Counted in the `active_conns` of its session. -/
def inSession : Place → Bool
  | .entered | .totalled | .proxying => true
  | _ => false

/-- Counted in `stats.total_conns`. -/
def inTotal : Place → Bool
  | .spawned | .entered => false
  | _ => true

/-- Counted in `stats.active_conns`. -/
def inStats : Place → Bool
  | .proxying | .left => true
  | _ => false

/-- Not between two updates: the task has yet to start, is in `proxy_connection`, or is over. -/
def quiet : Place → Bool
  | .spawned | .proxying | .finished => true
  | _ => false

/-- The task as the server's own steps see it. -/
def phase : Place → TaskPhase
  | .spawned => .spawned
  | .entered | .totalled | .proxying => .counted
  | .left | .finished => .over

end Place

/-- The server with the counters of `Stats` and the place of every proxy task. -/
structure Accounts where
  server : Server
  stats : Stats
  place : Nat → Place

namespace Accounts

/-- `total` and `active` are the updates of `Stats`; `enter` and `leave` are those of the
session's counter, the second one when `proxy_connection` has returned. -/
inductive Event
  | server (e : Tunnel.Event)
  | enter (i : Nat)
  | total (i : Nat)
  | active (i : Nat)
  | leave (i : Nat) (why : Proxy.End)
  | finish (i : Nat)
deriving DecidableEq, Repr

def setPlace (s : Accounts) (i : Nat) (x : Place) : Accounts :=
  { s with place := Function.update s.place i x }

def Init (s : Accounts) : Prop :=
  Tunnel.Init s.server ∧ s.stats = { totalConns := 0, activeConns := 0 } ∧
    s.place = fun _ => .spawned

/-- One step of any task. -/
inductive Step (env : Env) (s : Accounts) : Event → Accounts → Prop
  | server {e : Tunnel.Event} {t : Server} :
      Tunnel.Step env s.server e t → (∀ i e', e ≠ .task i e') →
      Step env s (.server e) { s with server := t }
  /- `ac.fetch_add(1)`. -/
  | enter {i : Nat} {t : Server} :
      s.place i = .spawned → TaskStep i s.server .starts t →
      Step env s (.enter i) { s.setPlace i .entered with server := t }
  | total {i : Nat} :
      s.place i = .entered →
      Step env s (.total i)
        { s.setPlace i .totalled with
          stats := { s.stats with totalConns := s.stats.totalConns + 1 } }
  | active {i : Nat} :
      s.place i = .totalled →
      Step env s (.active i)
        { s.setPlace i .proxying with
          stats := { s.stats with activeConns := s.stats.activeConns + 1 } }
  /- `ac.fetch_sub(1)`, whatever `proxy_connection` ended with. -/
  | leave {i : Nat} {why : Proxy.End} {t : Server} :
      s.place i = .proxying → TaskStep i s.server .ends t →
      Step env s (.leave i why) { s.setPlace i .left with server := t }
  | finish {i : Nat} :
      s.place i = .left →
      Step env s (.finish i)
        { s.setPlace i .finished with
          stats := { s.stats with activeConns := s.stats.activeConns - 1 } }

/-- The session whose stream task `i` has. -/
def session (s : Accounts) (i : Nat) : Option SessionId := s.server.streams[i]?.map Prod.fst

/-- How many tasks there have been. -/
def tasks (s : Accounts) : Nat := s.server.streams.length

/-- How many connections are being proxied. -/
def proxied (s : Accounts) : Nat := tally (fun _ x => x == .proxying) s.place s.tasks

/-- The sum of `active_conns` over all sessions ever created. -/
def sessionConns (s : Accounts) : Nat :=
  (s.server.admitted.map fun info => s.server.activeConns info.sessionId).sum

/-- No task is between two of its updates. -/
def Quiet (s : Accounts) : Prop := ∀ i < s.tasks, (s.place i).quiet = true

/-- What the counters owe the connections. The bounds keep every `fetch_add` below
`u64::MAX` as long as there were fewer than 2^64 connections. -/
structure Balanced (s : Accounts) : Prop where
  leaves_above_zero : ∀ i k, s.place i = .proxying → s.session i = some k →
    0 < s.server.activeConns k
  finishes_above_zero : ∀ i, s.place i = .left → 0 < s.stats.activeConns
  quiet : s.Quiet → s.stats.activeConns = s.sessionConns ∧ s.stats.activeConns = s.proxied
  active_le_total : s.stats.activeConns ≤ s.stats.totalConns
  all_finished : (∀ i < s.tasks, s.place i = .finished) →
    s.stats.activeConns = 0 ∧ ∀ k, s.server.activeConns k = 0
  total_le : s.stats.totalConns ≤ s.tasks
  session_le : ∀ k, s.server.activeConns k ≤ s.tasks

end Accounts

/-! ## What the other tasks do to the proxy tasks -/

/-- What a step of the server outside the proxy tasks may do to them: spawn one more, for
the session whose stream was opened. -/
structure SpawnsTask (s t : Server) : Prop where
  phases : t.taskPhase = s.taskPhase
  counters : t.activeConns = s.activeConns
  admitted : ∀ info ∈ s.admitted, info ∈ t.admitted
  streams : t.streams = s.streams ∨
    ∃ k peer req, s.tunnels k = .live peer .opening ∧ t.streams = s.streams ++ [(k, req)]

theorem spawnsTask_of_step {env : Env} {s t : Server} {e : Tunnel.Event}
    (hs : Tunnel.Step env s e t) (htask : ∀ i e', e ≠ .task i e') : SpawnsTask s t := by
  cases hs with
  | task _ => exact absurd rfl (htask _ _)
  | loop hs => rw [hs.frame]; exact ⟨rfl, rfl, fun _ h => h, .inl rfl⟩
  | admin hs => rw [hs.frame]; exact ⟨rfl, rfl, fun _ h => h, .inl rfl⟩
  | tunnel hs =>
    cases hs with
    | openOk hlive _ => exact ⟨rfl, rfl, fun _ h => h, .inr ⟨_, _, _, hlive, rfl⟩⟩
    | admitted _ _ => exact ⟨rfl, rfl, fun _ h => List.mem_cons_of_mem _ h, .inl rfl⟩
    | add _ hadd => rw [hadd.frame]; exact ⟨rfl, rfl, fun _ h => h, .inl rfl⟩
    | _ => exact ⟨rfl, rfl, fun _ h => h, .inl rfl⟩

theorem SpawnsTask.mem_admitted {s t : Server} (hs : SpawnsTask s t) {k : SessionId}
    (hk : k ∈ s.admitted.map (·.sessionId)) : k ∈ t.admitted.map (·.sessionId) := by
  obtain ⟨info, hinfo, rfl⟩ := List.mem_map.mp hk
  exact List.mem_map_of_mem (hs.admitted info hinfo)

namespace Accounts

variable {env : Env} {s t : Accounts}

/-- Each counter is the number of tasks at the places where it counts them. -/
structure Counted (s : Accounts) : Prop where
  session : ∀ k, s.server.activeConns k =
    tally (fun i x => s.session i == some k && x.inSession) s.place s.tasks
  total : s.stats.totalConns = tally (fun _ x => x.inTotal) s.place s.tasks
  active : s.stats.activeConns = tally (fun _ x => x.inStats) s.place s.tasks
  phase : ∀ i, s.server.taskPhase i = (s.place i).phase
  unborn : ∀ i, s.tasks ≤ i → s.place i = .spawned
  created : ∀ i k, s.session i = some k → k ∈ s.server.admitted.map (·.sessionId)

theorem lt_tasks {i : Nat} {k : SessionId} (h : s.session i = some k) : i < s.tasks := by
  obtain ⟨x, hx, _⟩ := Option.map_eq_some_iff.mp h
  exact (List.getElem?_eq_some_iff.mp hx).1

theorem exists_session {i : Nat} (h : i < s.tasks) : ∃ k, s.session i = some k := by
  refine ⟨(s.server.streams.get ⟨i, h⟩).1, ?_⟩
  unfold session
  rw [List.getElem?_eq_getElem h]
  rfl

/-- A task that has done an update is one of the tasks. -/
theorem Counted.born (h : Counted s) {i : Nat} (hi : s.place i ≠ .spawned) : i < s.tasks :=
  Nat.lt_of_not_le fun hle => hi (h.unborn i hle)

theorem counted_init (h : Init s) : Counted s := by
  obtain ⟨⟨clients, _, hserver⟩, hstats, hplace⟩ := h
  have htasks : s.tasks = 0 := by rw [tasks, hserver]; rfl
  refine ⟨fun k => ?_, ?_, ?_, fun i => ?_, fun i _ => ?_, fun i k hk => ?_⟩
  · rw [htasks, hserver]; rfl
  · rw [htasks, hstats]; rfl
  · rw [htasks, hstats]; rfl
  · rw [hserver, hplace]; rfl
  · rw [hplace]
  · exact absurd (lt_tasks hk) (by rw [htasks]; exact Nat.not_lt_zero i)

section Server

variable {server : Server}

theorem phase_server (h : Counted s) (hs : SpawnsTask s.server server) :
    ∀ i, server.taskPhase i = (s.place i).phase := by
  intro i
  rw [hs.phases, h.phase]

/-- Without a new task, the other tasks leave all that is counted alone. -/
theorem counted_same (h : Counted s) (hs : SpawnsTask s.server server)
    (hsame : server.streams = s.server.streams) : Counted { s with server } := by
  have hsession : ∀ i, ({ s with server } : Accounts).session i = s.session i := fun i => by
    unfold session
    rw [hsame]
  have htasks : ({ s with server } : Accounts).tasks = s.tasks := by
    unfold tasks
    rw [hsame]
  have hphase := phase_server h hs
  refine ⟨fun k => ?_, ?_, ?_, hphase, fun i hi => h.unborn i (htasks ▸ hi),
    fun i k hk => hs.mem_admitted (h.created i k (hsession i ▸ hk))⟩
  · simp only [hsession, htasks, hs.counters]
    exact h.session k
  · rw [htasks]
    exact h.total
  · rw [htasks]
    exact h.active

/-- A task that is spawned counts nowhere yet. -/
theorem counted_spawn (h : Counted s) (hs : SpawnsTask s.server server) {k₀ : SessionId}
    {req : ProxyRequest} (hk₀ : k₀ ∈ server.admitted.map (·.sessionId))
    (hnew : server.streams = s.server.streams ++ [(k₀, req)]) : Counted { s with server } := by
  have htasks : ({ s with server } : Accounts).tasks = s.tasks + 1 := by
    unfold tasks
    rw [hnew, List.length_append, List.length_singleton]
  have hsession : ∀ i < s.tasks, ({ s with server } : Accounts).session i = s.session i := by
    intro i hi
    unfold session
    rw [hnew, List.getElem?_append_left hi]
  have hlast : s.place s.tasks = .spawned := h.unborn _ (Nat.le_refl _)
  have hphase := phase_server h hs
  refine ⟨fun k => ?_, ?_, ?_, hphase, fun i hi => h.unborn i (by omega), fun i k hk => ?_⟩
  · rw [htasks, tally_succ_of_not (by rw [hlast]; exact Bool.and_false _)]
    show server.activeConns k = _
    rw [hs.counters, h.session k]
    exact tally_congr fun i hi => by rw [hsession i hi]
  · rw [htasks, tally_succ_of_not (by rw [hlast]; rfl)]
    exact h.total
  · rw [htasks, tally_succ_of_not (by rw [hlast]; rfl)]
    exact h.active
  · rcases Nat.lt_succ_iff_lt_or_eq.mp (htasks ▸ lt_tasks hk) with hlt | rfl
    · exact hs.mem_admitted (h.created i k (hsession i hlt ▸ hk))
    · have hsome : ({ s with server } : Accounts).session s.tasks = some k₀ := by
        unfold session
        rw [hnew, tasks, List.getElem?_concat_length]
        rfl
      cases hsome.symm.trans hk
      exact hk₀

theorem counted_server (h : Counted s) (hhist : Histories s.server)
    (hs : SpawnsTask s.server server) : Counted { s with server } := by
  rcases hs.streams with hsame | ⟨k₀, peer, req, hlive, hnew⟩
  · exact counted_same h hs hsame
  · -- The session that opened the stream was admitted before.
    obtain ⟨info, hinfo, hid, _⟩ := (hhist.admitted_iff k₀ peer.clientId).mpr (by rw [hlive]; rfl)
    exact counted_spawn h hs (hs.mem_admitted (List.mem_map.mpr ⟨info, hinfo, hid⟩)) hnew

end Server

/-- A task moves to `x`, and each counter that it enters or leaves goes with it. -/
theorem counted_move (h : Counted s) {i : Nat} {x : Place} {server : Server} {stats : Stats}
    (hi : i < s.tasks) (hstreams : server.streams = s.server.streams)
    (hadmitted : server.admitted = s.server.admitted)
    (hphase : ∀ j, server.taskPhase j = (Function.update s.place i x j).phase)
    (hsession : ∀ k, server.activeConns k + (s.session i == some k && (s.place i).inSession).toNat =
      s.server.activeConns k + (s.session i == some k && x.inSession).toNat)
    (htotal : stats.totalConns + (s.place i).inTotal.toNat =
      s.stats.totalConns + x.inTotal.toNat)
    (hactive : stats.activeConns + (s.place i).inStats.toNat =
      s.stats.activeConns + x.inStats.toNat) :
    Counted { server, stats, place := Function.update s.place i x } := by
  have hsessions : ∀ j, session { server, stats, place := Function.update s.place i x } j =
      s.session j := fun j => by rw [session, session, hstreams]
  have htasks : tasks { server, stats, place := Function.update s.place i x } = s.tasks := by
    unfold tasks
    rw [hstreams]
  refine ⟨fun k => ?_, ?_, ?_, hphase, fun j hj => ?_, fun j k hk => ?_⟩
  · have hmove := tally_update (fun i x => s.session i == some k && x.inSession) s.place hi x
    have hbefore := h.session k
    have hmoved := hsession k
    simp only [hsessions, htasks]
    omega
  · have hmove := tally_update (fun _ x => x.inTotal) s.place hi x
    have hbefore := h.total
    rw [htasks]
    show stats.totalConns = tally _ (Function.update s.place i x) s.tasks
    omega
  · have hmove := tally_update (fun _ x => x.inStats) s.place hi x
    have hbefore := h.active
    rw [htasks]
    show stats.activeConns = tally _ (Function.update s.place i x) s.tasks
    omega
  · rw [htasks] at hj
    exact (Function.update_of_ne (Nat.ne_of_gt (Nat.lt_of_lt_of_le hi hj)) _ _).trans
      (h.unborn j hj)
  · rw [hadmitted]
    exact h.created j k (hsessions j ▸ hk)

/-- The server's view of a task that moves to `x`. -/
theorem phase_update (h : Counted s) (i : Nat) (x : Place) (j : Nat) :
    Function.update s.server.taskPhase i x.phase j = (Function.update s.place i x j).phase := by
  rcases eq_or_ne j i with rfl | hne
  · rw [Function.update_self, Function.update_self]
  · rw [Function.update_of_ne hne, Function.update_of_ne hne]
    exact h.phase j

/-- A task moves with an update of `Stats`, which is none of the server's own steps. -/
theorem counted_stats (h : Counted s) {i : Nat} {x : Place} {stats : Stats}
    (hi : s.place i ≠ .spawned) (hphase : x.phase = (s.place i).phase)
    (hsession : x.inSession = (s.place i).inSession)
    (htotal : stats.totalConns + (s.place i).inTotal.toNat =
      s.stats.totalConns + x.inTotal.toNat)
    (hactive : stats.activeConns + (s.place i).inStats.toNat =
      s.stats.activeConns + x.inStats.toNat) :
    Counted { s.setPlace i x with stats } := by
  refine counted_move h (h.born hi) rfl rfl (fun j => ?_) (fun k => ?_) htotal hactive
  · rw [← phase_update h, hphase, ← h.phase i, Function.update_eq_self]
    rfl
  · rw [hsession]
    rfl

/-- The counter of one session changes where the task belongs to it. -/
theorem session_update {i n : Nat} {k : SessionId} {a b : Bool} (hk : s.session i = some k)
    (h : n + a.toNat = s.server.activeConns k + b.toNat) (k' : SessionId) :
    Function.update s.server.activeConns k n k' + (s.session i == some k' && a).toNat =
      s.server.activeConns k' + (s.session i == some k' && b).toNat := by
  rw [hk]
  rcases eq_or_ne k' k with rfl | hne
  · rw [Function.update_self, beq_self_eq_true, Bool.true_and, Bool.true_and]
    exact h
  · have hsome : some k ≠ some k' := fun heq => hne (Option.some.inj heq).symm
    rw [Function.update_of_ne hne, beq_eq_false_iff_ne.mpr hsome]
    rfl

/-- A task that leaves its session is counted there. -/
theorem session_pos (h : Counted s) {i : Nat} {k : SessionId} (hi : (s.place i).inSession = true)
    (hk : s.session i = some k) : 0 < s.server.activeConns k := by
  rw [h.session k]
  exact tally_pos (lt_tasks hk) (by rw [hk, hi, beq_self_eq_true]; rfl)

theorem stats_pos (h : Counted s) {i : Nat} (hi : s.place i = .left) :
    0 < s.stats.activeConns := by
  rw [h.active]
  exact tally_pos (h.born (by rw [hi]; nofun)) (by rw [hi]; rfl)

theorem counted_step {e : Event} (h : Counted s) (hhist : Histories s.server)
    (hs : Step env s e t) : Counted t := by
  cases hs with
  | server hs htask => exact counted_server h hhist (spawnsTask_of_step hs htask)
  | @enter i _ hplace hs =>
    cases hs with
    | @starts k req hstream _ =>
      have hk : s.session i = some k := by rw [session, hstream]; rfl
      refine counted_move h (lt_tasks hk) rfl rfl (phase_update h i .entered) ?_ ?_ ?_
      · rw [hplace]
        exact session_update hk (by rfl)
      · rw [hplace]; rfl
      · rw [hplace]; rfl
  | @total i hplace =>
    refine counted_stats h (by rw [hplace]; nofun) (by rw [hplace]; rfl) (by rw [hplace]; rfl) ?_ ?_
    · rw [hplace]; rfl
    · rw [hplace]; rfl
  | @active i hplace =>
    refine counted_stats h (by rw [hplace]; nofun) (by rw [hplace]; rfl) (by rw [hplace]; rfl) ?_ ?_
    · rw [hplace]; rfl
    · rw [hplace]; rfl
  | @leave i why _ hplace hs =>
    cases hs with
    | @ends k req hstream _ =>
      have hk : s.session i = some k := by rw [session, hstream]; rfl
      have hpos : 0 < s.server.activeConns k := session_pos h (by rw [hplace]; rfl) hk
      refine counted_move h (lt_tasks hk) rfl rfl (phase_update h i .left) ?_ ?_ ?_
      · rw [hplace]
        exact session_update hk (Nat.sub_add_cancel hpos)
      · rw [hplace]; rfl
      · rw [hplace]; rfl
  | @finish i hplace =>
    have hpos : 0 < s.stats.activeConns := stats_pos h hplace
    refine counted_stats h (by rw [hplace]; nofun) (by rw [hplace]; rfl) (by rw [hplace]; rfl) ?_ ?_
    · rw [hplace]; rfl
    · rw [hplace]
      exact Nat.sub_add_cancel hpos

/-- The updates of `Stats` are invisible to the server's own steps. -/
theorem server_simulation (env : Env) :
    Simulation (Step env) (fun _ => True) (Tunnel.Step env) Accounts.server where
  keep := fun _ _ _ _ _ => trivial
  follow := by
    intro s e t _ hs
    cases hs with
    | server hs _ => exact .inr ⟨_, hs⟩
    | enter _ hs => exact .inr ⟨_, .task hs⟩
    | leave _ hs => exact .inr ⟨_, .task hs⟩
    | total _ => exact .inl rfl
    | active _ => exact .inl rfl
    | finish _ => exact .inl rfl

theorem server_reachable (h : Reachable (Step env) Init s) :
    Reachable (Tunnel.Step env) Tunnel.Init s.server :=
  ((server_simulation env).reachable (fun _ h₀ => ⟨trivial, h₀.1⟩) h).2

theorem counted_reachable (h : Reachable (Step env) Init s) : Counted s :=
  h.invariant_of (fun _ hr => histories_reachable (server_reachable hr)) (fun _ => counted_init)
    fun _ _ _ hhist h hs => counted_step h hhist hs

/-- Every task that is not over has a next step, so that nothing but time keeps it from its
last update. -/
theorem task_progress (h : Reachable (Step env) Init s) {i : Nat} (hi : i < s.tasks)
    (hfinished : s.place i ≠ .finished) : ∃ e t, Step env s e t ∧ t.place i ≠ s.place i := by
  have hphase := (counted_reachable h).phase i
  have hstream : s.server.streams[i]? = some (s.server.streams.get ⟨i, hi⟩) :=
    List.getElem?_eq_getElem hi
  have hmoves : ∀ x, x ≠ s.place i → Function.update s.place i x i ≠ s.place i := fun x hx => by
    rwa [Function.update_self]
  cases hplace : s.place i with
  | spawned =>
    rw [hplace] at hphase
    exact ⟨_, _, .enter hplace (.starts hstream hphase), hplace ▸ hmoves _ (by rw [hplace]; nofun)⟩
  | entered => exact ⟨_, _, .total hplace, hplace ▸ hmoves _ (by rw [hplace]; nofun)⟩
  | totalled => exact ⟨_, _, .active hplace, hplace ▸ hmoves _ (by rw [hplace]; nofun)⟩
  | proxying =>
    rw [hplace] at hphase
    exact ⟨.leave i .targetFailed, _, .leave hplace (.ends hstream hphase),
      hplace ▸ hmoves _ (by rw [hplace]; nofun)⟩
  | left => exact ⟨_, _, .finish hplace, hplace ▸ hmoves _ (by rw [hplace]; nofun)⟩
  | finished => exact absurd hplace hfinished

/-! ## The counters -/

/-- The sessions' counters together count each task once. -/
theorem sessionConns_eq (h : Counted s) (hnodup : (s.server.admitted.map (·.sessionId)).Nodup) :
    s.sessionConns = tally (fun _ x => x.inSession) s.place s.tasks := by
  have hsum := sum_tally (fun _ x => x.inSession) s.place hnodup
    fun i (hi : i < s.tasks) _ => by
      obtain ⟨k, hk⟩ : ∃ k, s.session i = some k := exists_session hi
      exact ⟨k, h.created i k hk, hk⟩
  rw [← hsum, List.map_map, sessionConns]
  exact congrArg List.sum (List.map_congr_left fun info _ => h.session info.sessionId)

theorem balanced_of_counted (h : Counted s)
    (hnodup : (s.server.admitted.map (·.sessionId)).Nodup) : Balanced s := by
  refine ⟨fun i k hi hk => session_pos h (by rw [hi]; rfl) hk, fun i hi => stats_pos h hi,
    fun hquiet => ?_, ?_, fun hfinished => ⟨?_, fun k => ?_⟩, ?_, fun k => ?_⟩
  · rw [sessionConns_eq h hnodup, h.active]
    -- A quiet task counts in both counters, when it is in `proxy_connection`, or in neither.
    have hwhere : ∀ i < s.tasks, (s.place i).inStats = (s.place i).inSession ∧
        (s.place i).inStats = (s.place i == .proxying) := by
      intro i hi
      have hq := hquiet i hi
      revert hq
      cases s.place i <;> decide
    exact ⟨tally_congr fun i hi => (hwhere i hi).1, tally_congr fun i hi => (hwhere i hi).2⟩
  · rw [h.active, h.total]
    refine tally_mono fun i _ => ?_
    cases s.place i <;> decide
  · rw [h.active]
    exact tally_eq_zero fun i hi => by rw [hfinished i hi]; rfl
  · rw [h.session k]
    exact tally_eq_zero fun i hi => by rw [hfinished i hi]; exact Bool.and_false _
  · rw [h.total]
    exact tally_le
  · rw [h.session k]
    exact tally_le

/-- In every interleaving of the updates no `fetch_sub` finds a counter at zero; whenever no
task is between two updates, `stats.active_conns` is the sum over all sessions and the number
of connections being proxied; it never exceeds `total_conns`; and all active counters are
zero when all tasks are over. -/
theorem active_conns_balanced (h : Reachable (Step env) Init s) : Balanced s :=
  balanced_of_counted (counted_reachable h) (registry_good (server_reachable h)).ident_nodup

/-- Two visitors of the example are proxied, and the first one leaves. -/
theorem active_conns_balanced_two :
    ∃ s, Reachable (Step exampleEnv) Init s ∧ Balanced s ∧ s.Quiet ∧ s.stats.totalConns = 2 ∧
      s.stats.activeConns = 1 ∧ s.sessionConns = 1 := by
  have hstart : Init ⟨Server.init exampleStore, ⟨0, 0⟩, fun _ => .spawned⟩ :=
    ⟨init_example, rfl, rfl⟩
  have serving : Reachable (Step exampleEnv) Init ⟨exampleServing, ⟨0, 0⟩, fun _ => .spawned⟩ :=
    example_serving (p := fun s => Reachable (Step exampleEnv) Init ⟨s, ⟨0, 0⟩, fun _ => .spawned⟩)
      (.init hstart) fun hr hs _ _ => hr.step (.server hs nofun)
  have queued := (serving.step (.server (.loop (.accept (l := 0) rfl nofun fun hlimit =>
    hlimit.1 rfl)) nofun)).step
    (.server (.loop (@LoopStep.sendOk _ 0 _ _ _ [] [] rfl rfl rfl (by decide))) nofun)
  have opened := (queued.step
    (.server (.tunnel (@TunnelStep.recv _ 0 _ _ _ [] [] rfl rfl nofun)) nofun)).step
    (.server (.tunnel (@TunnelStep.openOk _ 0 _ _ _ [] [] rfl rfl)) nofun)
  have proxying := ((opened.step (.enter (i := 0) rfl (.starts rfl rfl))).step
    (.total (i := 0) rfl)).step (.active (i := 0) rfl)
  have queued' := (proxying.step (.server (.loop (.accept (l := 0) rfl nofun fun hlimit =>
    hlimit.1 rfl)) nofun)).step
    (.server (.loop (@LoopStep.sendOk _ 0 _ _ _ [] [] rfl rfl rfl (by decide))) nofun)
  have opened' := (queued'.step
    (.server (.tunnel (@TunnelStep.recv _ 0 _ _ _ [] [] rfl rfl nofun)) nofun)).step
    (.server (.tunnel (@TunnelStep.openOk _ 0 _ _ _ [] [] rfl rfl)) nofun)
  have both := ((opened'.step (.enter (i := 1) rfl (.starts rfl rfl))).step
    (.total (i := 1) rfl)).step (.active (i := 1) rfl)
  have left := (both.step (@Step.leave _ _ 0 (.eof .inc) _ rfl (.ends rfl rfl))).step
    (.finish (i := 0) rfl)
  have hbalanced := active_conns_balanced left
  have hquiet : ∀ u : Accounts, u.tasks = 2 → u.place 0 = .finished → u.place 1 = .proxying →
      u.Quiet := by
    intro u htasks hover hplace i hi
    rw [htasks] at hi
    obtain rfl | rfl : i = 0 ∨ i = 1 := by omega
    · rw [hover]
      rfl
    · rw [hplace]
      rfl
  exact ⟨_, left, hbalanced, hquiet _ rfl rfl rfl, rfl, rfl,
    (hbalanced.quiet (hquiet _ rfl rfl rfl)).1.symm⟩

end Accounts

end MiniMask.Tunnel
