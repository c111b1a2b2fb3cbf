import Mathlib.Data.List.Perm.Subperm
import MiniMask.Tunnel.Visitors

/-!
# The connection limit of a client

`public_accept_loop` compares `active_conns` with `max_conns_per_client`, but the
count is raised later, by the proxy task, and each session of a client has its own.
A visitor that passed the check and is not counted yet is invisible to the next check.

* `Server.proxied`: how many visitors of a client are being proxied.
* `Server.underWay`: how many of its visitors passed the check and are not done with.
* `conn_limit`: the limit holds in every run whose accept loops let a visitor pass
  only while fewer visitors of the client than the limit are under way.
* `two_proxied_at_limit_one`: it fails in a run where two visitors pass the check
  before the proxy task of the first one has started.
-/

namespace MiniMask.Tunnel

open Lts

/-! ## What is counted -/

/-- Whose listener a visitor came from. -/
def Server.visitorOf (s : Server) (c : String) (x : ConnId) : Bool :=
  s.accepted[x]?.map (·.clientId) == some c

/-- The visitors in streams whose proxy task is not over. -/
def Server.inTask (s : Server) : List ConnId :=
  (s.streams.zipIdx.filter fun x => s.taskPhase x.2 != .over).map (·.1.2.conn)

/-- The visitors that passed the limit check and are not done with. -/
def Server.passed (s : Server) : List ConnId :=
  conns s.offered ++ conns s.channel ++ conns s.opening ++ s.inTask

def Server.underWay (s : Server) (c : String) : Nat := s.passed.countP (s.visitorOf c)

instance (s : Server) (k : SessionId) (c : String) : Decidable (s.AuthenticatedAs k c) :=
  inferInstanceAs (Decidable (_ = _))

/-- The visitors of a client that are being proxied: between `fetch_add` and
`fetch_sub` in the proxy task of a stream of one of its sessions. -/
def Server.proxied (s : Server) (c : String) : Nat :=
  s.streams.zipIdx.countP fun x => s.taskPhase x.2 == .counted && s.AuthenticatedAs x.1.1 c

/-- A visitor of `c` passes the limit check only while fewer visitors of `c` than the
limit are under way. -/
def PassesBelowLimit (env : Env) (c : String) (s : Server) (e : Event) : Prop :=
  ∀ l L, e = .loop l .accept → s.loops l = some L → L.clientId = c →
    ¬ s.AtConnLimit env L.session → s.underWay c < env.security.maxConnsPerClient

/-! ## What a step does to the visitors under way -/

section UnderWay

variable {env : Env} {s t : Server}

/-- The requests of the streams are those of the streams with their indices. -/
theorem conns_zipIdx (streams : List (SessionId × ProxyRequest)) :
    streams.zipIdx.map (·.1.2.conn) = conns streams := by
  conv_rhs => rw [← List.zipIdx_map_fst 0 streams]
  rw [conns, List.map_map]
  rfl

theorem passed_subperm (s : Server) : s.passed.Subperm s.visitors := by
  have htask : s.inTask.Sublist (conns s.streams) := by
    rw [← conns_zipIdx]
    exact List.filter_sublist.map _
  exact ((htask.append_left _).trans (List.sublist_append_left _ _)).subperm

/-- A proxy task that starts or ends leaves no more tasks than there were. -/
theorem inTask_taskStep {i : Nat} {e : TaskEvent} (hs : TaskStep i s e t) :
    t.inTask.Sublist s.inTask := by
  have key : t.streams = s.streams ∧ ∀ j, t.taskPhase j ≠ .over → s.taskPhase j ≠ .over := by
    cases hs with
    | starts _ hphase =>
      refine ⟨rfl, fun j hj => ?_⟩
      rcases eq_or_ne j i with rfl | hne
      · rw [hphase]
        nofun
      · exact fun heq => hj ((Function.update_of_ne hne _ _).trans heq)
    | ends _ hphase =>
      refine ⟨rfl, fun j hj => ?_⟩
      rcases eq_or_ne j i with rfl | hne
      · rw [hphase]
        nofun
      · exact fun heq => hj ((Function.update_of_ne hne _ _).trans heq)
  unfold Server.inTask
  rw [key.1]
  refine (List.monotone_filter_right _ fun x hx => ?_).map _
  simp only [bne_iff_ne] at hx ⊢
  exact key.2 _ hx

/-- A new stream has at most one task more. -/
theorem inTask_append (phase : Nat → TaskPhase) (streams : List (SessionId × ProxyRequest))
    (x : SessionId × ProxyRequest) :
    (((streams ++ [x]).zipIdx.filter fun y => phase y.2 != .over).map (·.1.2.conn)).Sublist
      ((streams.zipIdx.filter fun y => phase y.2 != .over).map (·.1.2.conn) ++ [x.2.conn]) := by
  rw [List.zipIdx_append, List.filter_append, List.map_append]
  refine List.Sublist.append_left ?_ _
  exact List.filter_sublist.map _

/-- A step lets one more visitor pass, or leaves no more than there were. -/
theorem passed_of_step {e : Event} (hs : Step env s e t) :
    t.passed.Subperm s.passed ∨
      ∃ l L, e = .loop l .accept ∧ s.loops l = some L ∧ ¬ s.AtConnLimit env L.session ∧
        t.accepted = s.accepted ++ [{ clientId := L.clientId, mapping := L.mapping }] ∧
        t.passed = s.accepted.length :: s.passed := by
  have hexit : ∀ k e, (s.exit k e).passed.Subperm s.passed := fun k e =>
    List.Sublist.subperm <| ((((List.Sublist.refl _).append (List.filter_sublist.map _)).append
      (List.Sublist.refl _)).append (List.Sublist.refl _))
  have hdrop : ∀ l, (s.dropLoop l).passed.Subperm s.passed := fun l =>
    List.Sublist.subperm <| ((((List.filter_sublist.map _).append (List.Sublist.refl _)).append
      (List.Sublist.refl _)).append (List.Sublist.refl _))
  cases hs with
  | admin hs => rw [hs.frame]; exact .inl (.refl _)
  | task hs =>
    have htask := inTask_taskStep hs
    rw [hs.frame] at htask ⊢
    exact .inl (htask.append_left _).subperm
  | loop hs =>
    cases hs with
    | refused _ _ _ => exact .inl (.refl _)
    | accept hL _ hroom => exact .inr ⟨_, _, rfl, hL, hroom, rfl, rfl⟩
    | sendOk _ hoffered _ _ =>
      refine .inl (List.Perm.subperm (List.perm_iff_count.mpr fun x => ?_))
      simp only [Server.passed, Server.inTask, conns, hoffered, List.map_append, List.map_cons,
        List.map_nil, List.count_append, List.count_cons, List.count_nil]
      omega
    | sendTimeout _ hoffered _ =>
      refine .inl (List.subperm_ext_iff.mpr fun x _ => ?_)
      simp only [Server.passed, Server.inTask, conns, hoffered, List.map_append, List.map_cons,
        List.count_append, List.count_cons]
      omega
    | sendClosed _ _ _ => exact .inl (hdrop _)
    | acceptFails _ _ => exact .inl (hdrop _)
    | reap _ _ => exact .inl (hdrop _)
  | @tunnel _ k _ hs =>
    cases hs with
    | handshakeFails _ => exact .inl (hexit ..)
    | invalidToken _ _ => exact .inl (hexit ..)
    | rejected _ _ => exact .inl (hexit ..)
    | statusFails _ => exact .inl (hexit ..)
    | returns _ => exact .inl (hexit ..)
    | recv _ hchannel _ =>
      refine .inl (List.Perm.subperm (List.perm_iff_count.mpr fun x => ?_))
      simp only [Server.passed, Server.inTask, Server.setTunnel, conns, hchannel, List.map_append,
        List.map_cons, List.count_append, List.count_cons]
      omega
    | @openOk peer req pre post _ hopening =>
      have htask := inTask_append s.taskPhase s.streams (k, req)
      refine .inl (List.subperm_ext_iff.mpr fun x _ => ?_)
      have hcount := htask.count_le x
      simp only [Server.passed, Server.inTask, Server.setTunnel, conns, hopening, List.map_append,
        List.map_cons, List.count_append, List.count_cons, List.count_nil] at hcount ⊢
      omega
    | openFails _ hopening =>
      refine .inl (List.subperm_ext_iff.mpr fun x _ => ?_)
      simp only [Server.passed, Server.inTask, Server.setTunnel, conns, hopening, List.map_append,
        List.map_cons, List.count_append, List.count_cons]
      omega
    | add _ hadd => rw [hadd.frame]; exact .inl (.refl _)
    | _ => exact .inl (.refl _)

/-- Visitors keep their listeners, so the count of a client goes up only by a visitor of
the client that passes. -/
theorem underWay_step {e : Event} {c : String} (hr : Reachable (Step env) Init s)
    (hs : Step env s e t) (hle : s.underWay c ≤ env.security.maxConnsPerClient)
    (hok : PassesBelowLimit env c s e) : t.underWay c ≤ env.security.maxConnsPerClient := by
  have hlt : ∀ x ∈ s.passed, x < s.accepted.length := fun x hx =>
    List.mem_range.mp ((visitors_reachable hr).subset ((passed_subperm s).subset hx))
  have hsame : ∀ x ∈ s.passed, t.visitorOf c x → s.visitorOf c x := by
    intro x hx hof
    unfold Server.visitorOf at hof ⊢
    rwa [accepted_step hs (List.getElem?_eq_getElem (hlt x hx)),
      ← List.getElem?_eq_getElem (hlt x hx)] at hof
  have hpassed : s.passed.countP (t.visitorOf c) ≤ s.underWay c := List.countP_mono_left hsame
  rcases passed_of_step hs with hsub | ⟨l, L, rfl, hL, hroom, haccepted, hcons⟩
  · exact Nat.le_trans (hsub.countP_le _) (Nat.le_trans hpassed hle)
  · unfold Server.underWay
    rw [hcons, List.countP_cons]
    split
    · next hof =>
      have hclient : L.clientId = c := by
        simpa [Server.visitorOf, haccepted] using hof
      exact Nat.succ_le_of_lt (Nat.lt_of_le_of_lt hpassed (hok l L rfl hL hclient hroom))
    · exact Nat.le_trans hpassed hle

/-- A visitor that is being proxied is under way: the session that serves it is one of
its listener's client. -/
theorem proxied_le (hr : Reachable (Step env) Init s) (c : String) :
    s.proxied c ≤ s.underWay c := by
  have htask : s.proxied c ≤ s.inTask.countP (s.visitorOf c) := by
    unfold Server.inTask Server.proxied
    rw [List.countP_map, List.countP_filter]
    refine List.countP_mono_left fun x hx hcounted => ?_
    obtain ⟨hphase, hauth⟩ := Bool.and_eq_true_iff.mp hcounted
    obtain ⟨⟨k, req⟩, i⟩ := x
    have hmem : (k, req) ∈ s.streams := List.mem_of_getElem? (List.mem_zipIdx_iff_getElem?.mp hx)
    obtain ⟨a, haccepted, _, hclient⟩ :=
      (routed_reachable hr).given k req (List.mem_append_right _ hmem)
    have hc := AuthenticatedAs.unique hclient (of_decide_eq_true hauth)
    simp only [Function.comp, Server.visitorOf, haccepted, Option.map_some, hc, beq_self_eq_true,
      Bool.true_and, bne_iff_ne, ne_eq, eq_of_beq hphase]
    nofun
  refine Nat.le_trans htask ?_
  unfold Server.underWay Server.passed
  rw [List.countP_append]
  exact Nat.le_add_left _ _

end UnderWay

/-! ## The limit -/

/-- In every run whose accept loops let a visitor of `c` pass the limit check only while
fewer visitors of `c` than the limit are under way, no more visitors of `c` than the
limit are being proxied at any time. -/
theorem conn_limit {env : Env} {c : String} {s₀ s : Server} {tr : List (Server × Event × Server)}
    (h₀ : Init s₀) (hrun : Run (Step env) s₀ tr s)
    (hok : ∀ x ∈ tr, PassesBelowLimit env c x.1 x.2.1) :
    ∀ x ∈ tr, x.2.2.proxied c ≤ env.security.maxConnsPerClient := by
  have hkeep : ∀ s e t,
      Reachable (Step env) Init s ∧ s.underWay c ≤ env.security.maxConnsPerClient →
      Guarded (Step env) (PassesBelowLimit env c) s e t →
        Reachable (Step env) Init t ∧ t.underWay c ≤ env.security.maxConnsPerClient :=
    fun s e t h hs => ⟨h.1.step hs.1, underWay_step h.1 hs.1 h.2 hs.2⟩
  have hkept := (hrun.guarded hok).forall_states hkeep
    ⟨.init h₀, by obtain ⟨clients, _, rfl⟩ := h₀; exact Nat.zero_le _⟩
  exact fun x hx => Nat.le_trans (proxied_le (hkept x hx).1 c) (hkept x hx).2

/-- The example server with a limit of one connection per client. -/
def oneConnEnv : Env :=
  { exampleEnv with security := { exampleEnv.security with maxConnsPerClient := 1 } }

/-- The connection limit is no concern of the invocations. -/
theorem oneConn_tunnel {s t : Server} {k : SessionId} {e : TunnelEvent}
    (h : Step exampleEnv s (.tunnel k e) t) : Step oneConnEnv s (.tunnel k e) t := by
  cases h with
  | tunnel h => cases h <;> exact .tunnel (by constructor <;> assumption)

/-- One visitor passes the check and is proxied. -/
theorem conn_limit_one :
    ∃ tr s, Run (Step oneConnEnv) (Server.init exampleStore) tr s ∧ s.proxied "cli_home" = 1 ∧
      ∀ x ∈ tr, x.2.2.proxied "cli_home" ≤ 1 := by
  have hquiet : ∀ {s e}, (∀ l, e ≠ .loop l .accept) → PassesBelowLimit oneConnEnv "cli_home" s e :=
    fun h l _ heq => absurd heq (h l)
  obtain ⟨tr, serving, hok⟩ : ∃ tr, Run (Step oneConnEnv) (Server.init exampleStore) tr
      exampleServing ∧ ∀ x ∈ tr, PassesBelowLimit oneConnEnv "cli_home" x.1 x.2.1 := by
    refine example_serving (p := fun s => ∃ tr, Run (Step oneConnEnv) (Server.init exampleStore)
      tr s ∧ ∀ x ∈ tr, PassesBelowLimit oneConnEnv "cli_home" x.1 x.2.1)
      ⟨[], .nil, fun _ hx => nomatch hx⟩ fun ⟨tr, run, hok⟩ hs _ _ => ?_
    refine ⟨_, run.snoc (oneConn_tunnel hs), List.forall_mem_append.mpr ⟨hok, ?_⟩⟩
    exact List.forall_mem_singleton.mpr (hquiet nofun)
  have accepted := serving.snoc
    (.loop (.accept (l := 0) rfl nofun fun hlimit => absurd hlimit.2 (by decide)))
  have queued := accepted.snoc
    (.loop (@LoopStep.sendOk _ 0 _ _ _ [] [] rfl rfl rfl (by decide)))
  have opening := queued.snoc
    (.tunnel (@TunnelStep.recv _ 0 _ _ _ [] [] rfl rfl nofun))
  have opened := opening.snoc
    (.tunnel (@TunnelStep.openOk _ 0 _ _ _ [] [] rfl rfl))
  have counted := opened.snoc (.task (.starts (i := 0) rfl rfl))
  refine ⟨_, _, counted, by decide, conn_limit init_example counted ?_⟩
  simp only [List.forall_mem_append, List.forall_mem_singleton]
  exact ⟨⟨⟨⟨⟨hok, fun _ _ _ _ _ _ => by decide⟩, hquiet nofun⟩, hquiet nofun⟩, hquiet nofun⟩,
    hquiet nofun⟩

/-- Two visitors pass the check before the proxy task of the first is counted: both are
proxied, with a limit of one. -/
theorem two_proxied_at_limit_one :
    oneConnEnv.security.maxConnsPerClient = 1 ∧
      ∃ s, Reachable (Step oneConnEnv) Init s ∧ s.proxied "cli_home" = 2 := by
  have serving : Reachable (Step oneConnEnv) Init exampleServing :=
    example_serving (.init init_example) fun hr hs _ _ => hr.step (oneConn_tunnel hs)
  have first := (serving.step
    (.loop (.accept (l := 0) rfl nofun fun hlimit => absurd hlimit.2 (by decide)))).step
    (.loop (@LoopStep.sendOk _ 0 _ _ _ [] [] rfl rfl rfl (by decide)))
  have second := (first.step
    (.loop (.accept (l := 0) rfl nofun fun hlimit => absurd hlimit.2 (by decide)))).step
    (.loop (@LoopStep.sendOk _ 0 _ _ _ [] [] rfl rfl rfl (by decide)))
  have firstOpen := (second.step (.tunnel (@TunnelStep.recv _ 0 _ _ _ [] _ rfl rfl nofun))).step
    (.tunnel (@TunnelStep.openOk _ 0 _ _ _ [] [] rfl rfl))
  have secondOpen := (firstOpen.step (.tunnel (@TunnelStep.recv _ 0 _ _ _ [] [] rfl rfl nofun))).step
    (.tunnel (@TunnelStep.openOk _ 0 _ _ _ [] [] rfl rfl))
  have counted := (secondOpen.step (.task (.starts (i := 0) rfl rfl))).step
    (.task (.starts (i := 1) rfl rfl))
  exact ⟨rfl, _, counted, by decide⟩

end MiniMask.Tunnel
