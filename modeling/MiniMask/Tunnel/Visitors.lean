import Mathlib.Tactic.Tauto
import MiniMask.Tunnel.Listeners

/-!
# Where the visitors go

* `visitors_step`: a step moves visitors from one place to another; only `accept`
  brings a new one.
* `Routed`: a visitor's request carries the target of the mapping whose listener
  accepted it, in the channel of a session of that mapping's owner.
* `visitor_isolation`: every accepted visitor is in exactly one place, and no
  stream has a visitor of another client or with another mapping's target.
-/

namespace MiniMask.Tunnel

open Lts

/-! ## Every visitor is somewhere -/

/-- The connections of some requests. -/
def conns {α : Type} (l : List (α × ProxyRequest)) : List ConnId := l.map (·.2.conn)

/-- All visitors, wherever they are. -/
def Server.visitors (s : Server) : List ConnId :=
  conns s.offered ++ conns s.channel ++ conns s.opening ++ conns s.streams ++ s.closed

section Places

variable {env : Env} {s s' t : Server}

/-- Splitting the requests of one holder from the others loses none. -/
theorem count_conns_split {α : Type} [DecidableEq α] (a : α) (l : List (α × ProxyRequest))
    (x : ConnId) :
    (conns (l.filter fun y => y.1 != a)).count x +
      ((l.filter fun y => y.1 == a).map (·.2.conn)).count x = (conns l).count x := by
  have hperm := ((l.filter_append_perm fun y => y.1 == a).map (·.2.conn)).count_eq x
  rw [List.map_append, List.count_append] at hperm
  rw [Nat.add_comm]
  exact hperm

theorem visitors_exit (k : SessionId) (e : Exit) : ((s.exit k e).visitors).Perm s.visitors := by
  refine List.perm_iff_count.mpr fun x => ?_
  have hsplit := count_conns_split k s.channel x
  simp only [Server.visitors, Server.exit, List.count_append]
  omega

theorem visitors_dropLoop (l : LoopId) : ((s.dropLoop l).visitors).Perm s.visitors := by
  refine List.perm_iff_count.mpr fun x => ?_
  have hsplit := count_conns_split l s.offered x
  simp only [Server.visitors, Server.dropLoop, List.count_append]
  omega

/-- What a step does with the visitors: it accepts one more, or it only moves those
there are. -/
theorem visitors_step {e : Event} (hs : Step env s e t) :
    (t.accepted = s.accepted ∧ t.visitors.Perm s.visitors) ∨
      ∃ l L, s.loops l = some L ∧
        t.accepted = s.accepted ++ [{ clientId := L.clientId, mapping := L.mapping }] ∧
        t.visitors.Perm (s.accepted.length :: s.visitors) := by
  cases hs with
  | task hs => rw [hs.frame]; exact .inl ⟨rfl, .refl _⟩
  | admin hs => rw [hs.frame]; exact .inl ⟨rfl, .refl _⟩
  | loop hs =>
    cases hs with
    | refused hL _ _ =>
      refine .inr ⟨_, _, hL, rfl, List.perm_iff_count.mpr fun x => ?_⟩
      simp only [Server.visitors, List.count_append, List.count_cons, List.count_nil]
      omega
    | accept hL _ _ =>
      refine .inr ⟨_, _, hL, rfl, List.perm_iff_count.mpr fun x => ?_⟩
      simp only [Server.visitors, conns, List.map_cons, List.count_append, List.count_cons]
      omega
    | sendOk _ hoffered _ _ =>
      refine .inl ⟨rfl, List.perm_iff_count.mpr fun x => ?_⟩
      simp only [Server.visitors, conns, hoffered, List.map_append, List.map_cons, List.map_nil,
        List.count_append, List.count_cons, List.count_nil]
      omega
    | sendTimeout _ hoffered _ =>
      refine .inl ⟨rfl, List.perm_iff_count.mpr fun x => ?_⟩
      simp only [Server.visitors, conns, hoffered, List.map_append, List.map_cons,
        List.count_append, List.count_cons, List.count_nil]
      omega
    | sendClosed _ _ _ => exact .inl ⟨rfl, visitors_dropLoop _⟩
    | acceptFails _ _ => exact .inl ⟨rfl, visitors_dropLoop _⟩
    | reap _ _ => exact .inl ⟨rfl, visitors_dropLoop _⟩
  | tunnel hs =>
    cases hs with
    | handshakeFails _ => exact .inl ⟨rfl, visitors_exit ..⟩
    | invalidToken _ _ => exact .inl ⟨rfl, visitors_exit ..⟩
    | rejected _ _ => exact .inl ⟨rfl, visitors_exit ..⟩
    | statusFails _ => exact .inl ⟨rfl, visitors_exit ..⟩
    | returns _ => exact .inl ⟨rfl, visitors_exit ..⟩
    | recv _ hchannel _ =>
      refine .inl ⟨rfl, List.perm_iff_count.mpr fun x => ?_⟩
      simp only [Server.visitors, Server.setTunnel, conns, hchannel, List.map_append,
        List.map_cons, List.count_append, List.count_cons]
      omega
    | openOk _ hopening =>
      refine .inl ⟨rfl, List.perm_iff_count.mpr fun x => ?_⟩
      simp only [Server.visitors, Server.setTunnel, conns, hopening, List.map_append,
        List.map_cons, List.map_nil, List.count_append, List.count_cons, List.count_nil]
      omega
    | openFails _ hopening =>
      refine .inl ⟨rfl, List.perm_iff_count.mpr fun x => ?_⟩
      simp only [Server.visitors, Server.setTunnel, conns, hopening, List.map_append,
        List.map_cons, List.count_append, List.count_cons, List.count_nil]
      omega
    | add _ hadd => rw [hadd.frame]; exact .inl ⟨rfl, .refl _⟩
    | _ => exact .inl ⟨rfl, .refl _⟩

/-- Every accepted visitor is in exactly one place. -/
theorem visitors_reachable (h : Reachable (Step env) Init s) :
    s.visitors.Perm (List.range s.accepted.length) := by
  induction h with
  | init h =>
    obtain ⟨clients, _, rfl⟩ := h
    exact .nil
  | step _ hs ih =>
    rcases visitors_step hs with ⟨haccepted, hperm⟩ | ⟨_, _, _, haccepted, hperm⟩
    · rw [haccepted]
      exact hperm.trans ih
    · rw [haccepted, List.length_append, List.length_singleton, List.range_succ]
      exact (hperm.trans (ih.cons _)).trans (List.perm_append_singleton _ _).symm

end Places

/-! ## Every visitor is with its own client and target -/

/-- The requests that a session has been given. -/
def Server.given (s : Server) : List (SessionId × ProxyRequest) :=
  s.channel ++ s.opening ++ s.streams

/-- The request is from a listener of the session's client and has the target of
the listener's mapping. -/
def Destined (s : Server) (k : SessionId) (req : ProxyRequest) : Prop :=
  ∃ a, s.accepted[req.conn]? = some a ∧ req.target = a.mapping.localAddr ∧
    s.AuthenticatedAs k a.clientId

structure Routed (s : Server) : Prop where
  offered : ∀ l req, (l, req) ∈ s.offered → ∃ L, s.loops l = some L ∧
    req.target = L.localAddr ∧
    s.accepted[req.conn]? = some { clientId := L.clientId, mapping := L.mapping }
  given : ∀ k req, (k, req) ∈ s.given → Destined s k req
  accepted_route : ∀ a ∈ s.accepted, a.mapping.route a.clientId ∈ s.issued

section Routed

variable {env : Env} {s t : Server}

/-- Where the visitor of a loop comes from. -/
theorem offered_of_step {e : Event} (hs : Step env s e t) {l : LoopId} {req : ProxyRequest}
    (h : (l, req) ∈ t.offered) :
    (l, req) ∈ s.offered ∨ ∃ L, s.loops l = some L ∧ t.loops = s.loops ∧
      req = { target := L.localAddr, conn := s.accepted.length } ∧
      t.accepted = s.accepted ++ [{ clientId := L.clientId, mapping := L.mapping }] := by
  cases hs with
  | task hs => rw [hs.frame] at h; exact .inl h
  | admin hs => rw [hs.frame] at h; exact .inl h
  | tunnel hs =>
    cases hs with
    | add _ hadd => rw [hadd.frame] at h; exact .inl h
    | _ => exact .inl h
  | loop hs =>
    cases hs with
    | refused _ _ _ => exact .inl h
    | @accept L hL _ _ =>
      rcases List.mem_cons.mp h with heq | h
      · cases heq
        exact .inr ⟨L, hL, rfl, rfl, rfl⟩
      · exact .inl h
    | sendOk _ hoffered _ _ =>
      rw [hoffered]
      exact .inl (List.mem_append.mpr ((List.mem_append.mp h).imp_right (List.mem_cons_of_mem _)))
    | sendTimeout _ hoffered _ =>
      rw [hoffered]
      exact .inl (List.mem_append.mpr ((List.mem_append.mp h).imp_right (List.mem_cons_of_mem _)))
    | sendClosed _ _ _ => exact .inl (List.mem_filter.mp h).1
    | acceptFails _ _ => exact .inl (List.mem_filter.mp h).1
    | reap _ _ => exact .inl (List.mem_filter.mp h).1

/-- Where the request of a session comes from. -/
theorem given_of_step {e : Event} (hs : Step env s e t) {k : SessionId} {req : ProxyRequest}
    (h : (k, req) ∈ t.given) :
    (k, req) ∈ s.given ∨ ∃ l L, s.loops l = some L ∧ (l, req) ∈ s.offered ∧ L.session = k := by
  cases hs with
  | task hs => rw [hs.frame] at h; exact .inl h
  | admin hs => rw [hs.frame] at h; exact .inl h
  | @loop _ l _ hs =>
    cases hs with
    | @sendOk L req' pre post hL hoffered _ _ =>
      simp only [Server.given, List.mem_append, List.mem_singleton] at h ⊢
      rcases h with ((h | h) | h) | h
      · exact .inl (.inl (.inl h))
      · cases h
        exact .inr ⟨l, L, hL, by rw [hoffered]; simp, rfl⟩
      · exact .inl (.inl (.inr h))
      · exact .inl (.inr h)
    | _ => exact .inl h
  | @tunnel _ k' _ hs =>
    have hexit : ∀ e, (k, req) ∈ (s.exit k' e).given → (k, req) ∈ s.given := by
      intro e h
      simp only [Server.given, Server.exit, List.mem_append, List.mem_filter] at h ⊢
      exact h.imp_left (Or.imp_left And.left)
    cases hs with
    | handshakeFails _ => exact .inl (hexit _ h)
    | invalidToken _ _ => exact .inl (hexit _ h)
    | rejected _ _ => exact .inl (hexit _ h)
    | statusFails _ => exact .inl (hexit _ h)
    | returns _ => exact .inl (hexit _ h)
    | recv _ hchannel _ =>
      simp only [Server.given, Server.setTunnel, hchannel, List.mem_append, List.mem_cons] at h ⊢
      exact .inl (by tauto)
    | openOk _ hopening =>
      simp only [Server.given, Server.setTunnel, hopening, List.mem_append, List.mem_cons,
        List.not_mem_nil, or_false] at h ⊢
      exact .inl (by tauto)
    | openFails _ hopening =>
      simp only [Server.given, Server.setTunnel, hopening, List.mem_append, List.mem_cons] at h ⊢
      exact .inl (by tauto)
    | add _ hadd => rw [hadd.frame] at h; exact .inl h
    | _ => exact .inl h

/-- Visitors keep their numbers. -/
theorem accepted_step {e : Event} (hs : Step env s e t) {i : Nat} {a : Accepted}
    (h : s.accepted[i]? = some a) : t.accepted[i]? = some a := by
  rcases visitors_step hs with ⟨haccepted, _⟩ | ⟨_, _, _, haccepted, _⟩
  · rw [haccepted]
    exact h
  · rw [haccepted, List.getElem?_append_left (List.getElem?_eq_some_iff.mp h).1]
    exact h

theorem routed_step {e : Event} (hr : Reachable (Step env) Init s) (h : Routed s)
    (hs : Step env s e t) : Routed t := by
  have hlisten := listening_reachable hr
  constructor
  · intro l req hmem
    rcases offered_of_step hs hmem with hold | ⟨L, hL, hloops, rfl, haccepted⟩
    · obtain ⟨L, hL, htarget, hconn⟩ := h.offered l req hold
      rcases loop_survives hs (hlisten.loop_lt l L hL) hL with ⟨L', hL', hsame, _⟩ | rfl
      · refine ⟨L', hL', ?_, ?_⟩
        · rw [hsame]
          exact htarget
        · rw [hsame]
          exact accepted_step hs hconn
      · exact absurd (List.mem_filter.mp hmem).2 (by simp)
    · refine ⟨L, by rw [hloops]; exact hL, rfl, ?_⟩
      rw [haccepted]
      exact List.getElem?_concat_length
  · intro k req hmem
    rcases given_of_step hs hmem with hold | ⟨l, L, hL, hoffered, rfl⟩
    · obtain ⟨a, hconn, htarget, hclient⟩ := h.given k req hold
      exact ⟨a, accepted_step hs hconn, htarget, authenticatedAs_step hs hclient⟩
    · obtain ⟨L', hL', htarget, hconn⟩ := h.offered l req hoffered
      cases hL.symm.trans hL'
      refine ⟨_, accepted_step hs hconn, ?_, authenticatedAs_step hs (hlisten.loop_session l L hL)⟩
      rw [htarget]
      exact (hlisten.loop_mapping l L hL).2
  · intro a hmem
    rcases visitors_step hs with ⟨haccepted, _⟩ | ⟨l, L, hL, haccepted, _⟩
    · rw [haccepted] at hmem
      exact issued_step hs (h.accepted_route a hmem)
    · rw [haccepted] at hmem
      rcases List.mem_append.mp hmem with hmem | hmem
      · exact issued_step hs (h.accepted_route a hmem)
      · cases List.mem_singleton.mp hmem
        exact issued_step hs (hlisten.loop_route l L hL)

theorem routed_init (h : Init s) : Routed s := by
  obtain ⟨clients, _, rfl⟩ := h
  exact ⟨nofun, nofun, nofun⟩

theorem routed_reachable (h : Reachable (Step env) Init s) : Routed s :=
  h.invariant_of (fun _ h => h) (fun _ h => routed_init h) fun _ _ _ hr h hs =>
    routed_step hr h hs

end Routed

/-! ## No visitor is left behind -/

/-- A visitor that is not in a stream and not closed is held by a running task. -/
structure Held (s : Server) : Prop where
  channel : ∀ k req, (k, req) ∈ s.channel → (s.tunnels k).isReturned = false
  opening_nodup : (s.opening.map (·.1)).Nodup
  opening_stage : ∀ k ∈ s.opening.map (·.1), ∃ peer, s.tunnels k = .live peer .opening

section Held

variable {env : Env} {s t : Server}

theorem held_init (h : Init s) : Held s := by
  obtain ⟨clients, _, rfl⟩ := h
  exact ⟨nofun, List.nodup_nil, nofun⟩

/-- A task that goes on is none that has returned. -/
theorem not_isReturned_update {tunnels : SessionId → TunnelTask} {k k' : SessionId}
    {task : TunnelTask} (hlive : task.isReturned = false)
    (h : k' ≠ k → (tunnels k').isReturned = false) :
    (Function.update tunnels k task k').isReturned = false := by
  rcases eq_or_ne k' k with rfl | hne
  · rwa [Function.update_self]
  · rw [Function.update_of_ne hne]
    exact h hne

/-- A session that is not waiting for a stream may change its stage. -/
theorem held_setTunnel (h : Held s) {k : SessionId} {task : TunnelTask}
    (hnot : ∀ peer, s.tunnels k ≠ .live peer .opening) (hlive : task.isReturned = false) :
    Held (s.setTunnel k task) := by
  refine ⟨fun k' req hmem => ?_, h.opening_nodup, fun k' hmem => ?_⟩
  · exact not_isReturned_update hlive fun _ => h.channel k' req hmem
  · obtain ⟨peer, hstage⟩ := h.opening_stage k' hmem
    have hne : k' ≠ k := fun heq => hnot peer (heq ▸ hstage)
    exact ⟨peer, (Function.update_of_ne hne _ _).trans hstage⟩

theorem held_exit (h : Held s) {k : SessionId} {e : Exit}
    (hnot : ∀ peer, s.tunnels k ≠ .live peer .opening) : Held (s.exit k e) := by
  refine ⟨fun k' req hmem => ?_, h.opening_nodup, fun k' hmem => ?_⟩
  · obtain ⟨hmem, hne⟩ := List.mem_filter.mp hmem
    have hne : k' ≠ k := by simpa using hne
    show (Function.update s.tunnels k _ k').isReturned = false
    rw [Function.update_of_ne hne]
    exact h.channel k' req hmem
  · obtain ⟨peer, hstage⟩ := h.opening_stage k' hmem
    have hne : k' ≠ k := fun heq => hnot peer (heq ▸ hstage)
    exact ⟨peer, (Function.update_of_ne hne _ _).trans hstage⟩

/-- The driver takes a request from its channel. -/
theorem held_recv (h : Held s) {k : SessionId} {peer : Peer} {req : ProxyRequest}
    {pre post : List (SessionId × ProxyRequest)} (hlive : s.tunnels k = .live peer .driving)
    (hchannel : s.channel = pre ++ (k, req) :: post) :
    Held ({ s with channel := pre ++ post, opening := (k, req) :: s.opening }.setTunnel k
      (.live peer .opening)) := by
  have hnot : k ∉ s.opening.map (·.1) := by
    intro hmem
    obtain ⟨peer', hstage⟩ := h.opening_stage k hmem
    rw [hlive] at hstage
    cases hstage
  refine ⟨fun k' req' hmem => ?_, List.nodup_cons.mpr ⟨hnot, h.opening_nodup⟩, fun k' hmem => ?_⟩
  · refine not_isReturned_update rfl fun _ => h.channel k' req' ?_
    rw [hchannel]
    exact List.mem_append.mpr ((List.mem_append.mp hmem).imp_right (List.mem_cons_of_mem _))
  · rcases List.mem_cons.mp hmem with rfl | hmem
    · exact ⟨peer, Function.update_self ..⟩
    · obtain ⟨peer', hstage⟩ := h.opening_stage k' hmem
      have hne : k' ≠ k := fun heq => hnot (heq ▸ hmem)
      exact ⟨peer', (Function.update_of_ne hne _ _).trans hstage⟩

/-- The driver is done with the request it was opening a stream for. -/
theorem held_opened (h : Held s) {k : SessionId} {peer : Peer} {stage : Stage} {req : ProxyRequest}
    {pre post : List (SessionId × ProxyRequest)} {streams : List (SessionId × ProxyRequest)}
    {closed : List ConnId} (hopening : s.opening = pre ++ (k, req) :: post) :
    Held ({ s with opening := pre ++ post, streams, closed }.setTunnel k (.live peer stage)) := by
  have hnodup := h.opening_nodup
  rw [hopening, List.map_append, List.map_cons, List.nodup_middle, List.nodup_cons,
    ← List.map_append] at hnodup
  refine ⟨fun k' req' hmem => ?_, hnodup.2, fun k' hmem => ?_⟩
  · exact not_isReturned_update rfl fun _ => h.channel k' req' hmem
  · have hmem' : k' ∈ s.opening.map (·.1) := by
      have hmem : k' ∈ (pre ++ post).map (·.1) := hmem
      rw [List.map_append] at hmem
      rw [hopening, List.map_append, List.map_cons]
      exact List.mem_append.mpr ((List.mem_append.mp hmem).imp_right (List.mem_cons_of_mem _))
    obtain ⟨peer', hstage⟩ := h.opening_stage k' hmem'
    have hne : k' ≠ k := fun heq => hnodup.1 (heq ▸ hmem)
    exact ⟨peer', (Function.update_of_ne hne _ _).trans hstage⟩

theorem held_step {e : Event} (h : Held s) (hs : Step env s e t) : Held t := by
  cases hs with
  | task hs => rw [hs.frame]; exact ⟨h.1, h.2, h.3⟩
  | admin hs => rw [hs.frame]; exact ⟨h.1, h.2, h.3⟩
  | loop hs =>
    cases hs with
    | @sendOk L req pre post _ _ hopen _ =>
      refine ⟨fun k' req' hmem => ?_, h.opening_nodup, h.opening_stage⟩
      rcases List.mem_append.mp hmem with hmem | hmem
      · exact h.channel k' req' hmem
      · cases List.mem_singleton.mp hmem
        simpa [Server.channelOpen] using hopen
    | _ => exact ⟨h.1, h.2, h.3⟩
  | @tunnel _ k _ hs =>
    cases hs with
    | handshakeFails hfresh => exact held_exit h (by rw [hfresh]; nofun)
    | invalidToken hfresh _ => exact held_exit h (by rw [hfresh]; nofun)
    | verified hfresh _ => exact held_setTunnel h (by rw [hfresh]; nofun) rfl
    | rejected hlive _ => exact held_exit h (by rw [hlive]; nofun)
    | @admitted peer hlive _ =>
      have hinsert : Held (s.insertSession k peer) := ⟨h.1, h.2, h.3⟩
      exact held_setTunnel hinsert (fun _ heq => nomatch hlive.symm.trans heq) rfl
    | statusOk hlive => exact held_setTunnel h (by rw [hlive]; nofun) rfl
    | statusFails hlive => exact held_exit h (by rw [hlive]; nofun)
    | startListeners hlive => exact held_setTunnel h (by rw [hlive]; nofun) rfl
    | @add peer st st' a s' hlive hadd =>
      have hkept : Held s' := by rw [hadd.frame]; exact ⟨h.1, h.2, h.3⟩
      have hlive' : s'.tunnels k = .live peer (.starting st) := by rw [hadd.frame]; exact hlive
      exact held_setTunnel hkept (by rw [hlive']; nofun) rfl
    | drive hlive _ _ => exact held_setTunnel h (by rw [hlive]; nofun) rfl
    | recv hlive hchannel _ => exact held_recv h hlive hchannel
    | openOk _ hopening => exact held_opened h hopening
    | openFails _ hopening => exact held_opened h hopening
    | sessionEnds hlive => exact held_setTunnel h (by rw [hlive]; nofun) rfl
    | @cleanup peer hlive =>
      have hclean : Held (s.cleanup k peer) := ⟨h.1, h.2, h.3⟩
      exact held_setTunnel hclean (fun _ heq => nomatch hlive.symm.trans heq) rfl
    | returns hlive => exact held_exit h (by rw [hlive]; nofun)

theorem held_reachable (h : Reachable (Step env) Init s) : Held s :=
  h.invariant (fun _ h => held_init h) fun _ _ _ h hs => held_step h hs

end Held

/-! ## Isolation -/

/-- In every reachable state:

* each visitor that was accepted is in exactly one place: held by an accept loop,
  in a proxy channel, held by a driver, in one stream, or closed;
* a visitor in a stream has the target of the mapping whose listener accepted it,
  and the stream belongs to a session authenticated as the owner of that listener;
* that mapping is one that was created for that client, and the store has no
  other mapping under its id;
* visitors that are neither in a stream nor closed are held by a task that is
  still running. -/
theorem visitor_isolation {env : Env} {s : Server} (h : Reachable (Step env) Init s) :
    s.visitors.Perm (List.range s.accepted.length) ∧
    (∀ k req, (k, req) ∈ s.streams → ∃ a, s.accepted[req.conn]? = some a ∧
      req.target = a.mapping.localAddr ∧ s.AuthenticatedAs k a.clientId) ∧
    (∀ a ∈ s.accepted, a.mapping.route a.clientId ∈ s.issued ∧
      ∀ route ∈ routes s.clients.list, route.mappingId = a.mapping.id →
        route = a.mapping.route a.clientId) ∧
    (∀ l req, (l, req) ∈ s.offered → ∃ L, s.loops l = some L) ∧
    (∀ k req, (k, req) ∈ s.channel ++ s.opening → (s.tunnels k).isReturned = false) := by
  have hrouted := routed_reachable h
  have hheld := held_reachable h
  have hledger := ledger_reachable h
  refine ⟨visitors_reachable h, fun k req hmem => ?_, fun a hmem => ?_, fun l req hmem => ?_,
    fun k req hmem => ?_⟩
  · exact hrouted.given k req (List.mem_append_right _ hmem)
  · have hissued := hrouted.accepted_route a hmem
    exact ⟨hissued, fun route hroute hid =>
      hledger.route_eq (hledger.routes_issued route hroute) hissued hid⟩
  · obtain ⟨L, hL, _⟩ := hrouted.offered l req hmem
    exact ⟨L, hL⟩
  · rcases List.mem_append.mp hmem with hmem | hmem
    · exact hheld.channel k req hmem
    · obtain ⟨peer, hstage⟩ := hheld.opening_stage k (List.mem_map_of_mem hmem)
      rw [hstage]
      rfl

/-- A client connects and its mapping is started. One visitor is given a stream, and the
request of a second one waits in the channel. -/
theorem visitor_isolation_two :
    ∃ s, Reachable (Step exampleEnv) Init s ∧
      s.streams = [(0, { target := "127.0.0.1:80", conn := 0 })] ∧
      s.channel = [(0, { target := "127.0.0.1:80", conn := 1 })] ∧
      s.visitors.Perm (List.range 2) := by
  have accepted := reachable_serving.step
    (.loop (.accept (l := 0) rfl nofun fun hlimit => absurd rfl hlimit.1))
  have queued := accepted.step
    (.loop (@LoopStep.sendOk _ 0 _ _ _ [] [] rfl rfl rfl (by decide)))
  have proxied := (queued.step (.tunnel (@TunnelStep.recv _ 0 _ _ _ [] [] rfl rfl nofun))).step
    (.tunnel (@TunnelStep.openOk _ 0 _ _ _ [] [] rfl rfl))
  have second := (proxied.step
    (.loop (.accept (l := 0) rfl nofun fun hlimit => absurd rfl hlimit.1))).step
    (.loop (@LoopStep.sendOk _ 0 _ _ _ [] [] rfl rfl rfl (by decide)))
  exact ⟨_, second, rfl, rfl, (visitor_isolation second).1⟩

end MiniMask.Tunnel
