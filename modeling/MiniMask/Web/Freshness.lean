import MiniMask.Web.Dashboard

/-!
# Fresh statistics (`server.rs`, `stats_sampler`; `web/ws.rs`)

The sampler looks for subscribers at every tick as long as it found one the last time, and
else at every sixth tick, so that the mutex is left alone while nobody watches.

* `few_ticks_missed`: of the ticks since a dashboard subscribed at most five brought it no
  statistics.
* `mutex_spared`: at most every sixth tick takes the mutex without finding anybody before.
* `never_back`: what is broadcast of a counter never goes down, as long as the counter has
  not wrapped around.
-/

namespace MiniMask.Dashboard

open Lts
open Proxy (Dir)
open Broadcast (WsBroadcaster Pass Op feed)

variable {s t : State} {e : Event} {i ch start : Nat} {c : Conn}

/-! ## Which ticks a dashboard misses -/

def Message.isStats : Message → Bool
  | .stats _ => true
  | .sessionChange => false

/-- The statistics that were broadcast from some place in the log on. -/
def State.statsFrom (s : State) (start : Nat) : Nat :=
  (s.hub.log.drop start).countP Message.isStats

/-- What the mutex is held for. -/
def State.call (s : State) : Option (Op Message) := s.hub.guard.map Pass.op

/-- The sampler has the mutex for its message. -/
def State.announcing (s : State) : Bool := s.call.any fun op => op.sends.any Message.isStats

/-- The message of the current tick is still to come. -/
def State.due (s : State) : Nat :=
  if s.traffic.loop.stage = .refreshed ∧ s.announcing = false then 1 else 0

/-- How many ticks a dashboard may have been there that joined the log at `start`. -/
def State.allowance (s : State) (start : Nat) : Nat :=
  if s.traffic.loop.hasSubs then 5 + s.statsFrom start + s.due else s.traffic.loop.idleTicks

/-- The calls of the sampler come where they should, and nobody has been there for longer
than it is allowed. -/
structure Paced (s : State) : Prop where
  counting : s.call = some .subscriberCount → s.traffic.loop.stage = .recorded ∧
    (s.traffic.loop.hasSubs = true ∨ 5 ≤ s.traffic.loop.idleTicks)
  announcing : s.announcing = true →
    s.traffic.loop.stage = .refreshed ∧ s.traffic.loop.hasSubs = true
  pace : ∀ ch r, (feed s.hub).readers ch = some r → r.live = true →
    s.rounds ≤ s.joined ch + s.allowance r.start
  blind : 6 * s.blind + s.traffic.loop.idleTicks ≤ s.rounds

theorem paced_init (h : Init s) : Paced s := by
  subst h
  exact ⟨nofun, nofun, fun _ _ _ _ => Nat.zero_le _, le_refl _⟩

/-- Away from the broadcaster the sampler changes nothing that matters here. -/
theorem apart_step {s t : Sampler.State} {e : Sampler.Event} (hapart : apart e = true)
    (hs : Sampler.Step s e t) :
    t.loop = s.loop ∨ t.loop.hasSubs = s.loop.hasSubs ∧ t.loop.idleTicks = s.loop.idleTicks ∧
      s.loop.stage ≠ .recorded ∧ (s.loop.stage = .refreshed → s.loop.hasSubs = false) := by
  cases hs with
  | add _ _ | conns _ => exact .inl rfl
  | loop hs =>
    cases hs with
    | prevIn h | prevOut h | tick h | curIn h | curOut h | sample _ h | push h =>
      exact .inr ⟨rfl, rfl, by rw [h]; exact Sampler.Stage.noConfusion,
        by rw [h]; exact Sampler.Stage.noConfusion⟩
    | pass h hno =>
      exact .inr ⟨rfl, rfl, by rw [h]; exact Sampler.Stage.noConfusion, fun _ => hno⟩
    | count _ _ _ | idle _ _ | broadcast _ _ => cases hapart

/-- Whoever is there after a step was there before it. -/
def Remain (s t : State) : Prop :=
  ∀ ch r, (feed t.hub).readers ch = some r → r.live = true →
    ∃ r₀, (feed s.hub).readers ch = some r₀ ∧ r₀.live = true ∧ r₀.start = r.start

theorem remain_same (h : t.hub = s.hub) : Remain s t :=
  fun _ r hr hlive => ⟨r, h ▸ hr, hlive, rfl⟩

theorem remain_step {e' : Broadcast.Event Message} (hs : Broadcast.Step s.hub e' t.hub)
    (hnew : e' ≠ .subscribe) : Remain s t :=
  fun _ _ hr hlive => (Broadcast.survivor hs hr hlive).resolve_right fun h => hnew h.1

/-- A step that is a round gives everybody one tick more. -/
theorem pace_of (h : Paced s) (hremain : Remain s t) (hjoined : t.joined = s.joined)
    (hallow : ∀ ch r, (feed s.hub).readers ch = some r → r.live = true →
      s.allowance r.start + t.rounds ≤ t.allowance r.start + s.rounds) :
    ∀ ch r, (feed t.hub).readers ch = some r → r.live = true →
      t.rounds ≤ t.joined ch + t.allowance r.start := by
  intro ch r hr hlive
  obtain ⟨r₀, hr₀, hlive₀, hstart⟩ := hremain ch r hr hlive
  have hpace := h.pace ch r₀ hr₀ hlive₀
  have hmore := hallow ch r₀ hr₀ hlive₀
  rw [hstart] at hpace hmore
  rw [hjoined]
  omega

theorem announcing_congr (hcall : t.call = s.call) : t.announcing = s.announcing := by
  unfold State.announcing
  rw [hcall]

/-- Nothing happened that the sampler has to do with. -/
theorem paced_calm (h : Paced s) (hloop : t.traffic.loop = s.traffic.loop)
    (hcount : t.call = some .subscriberCount → s.call = some .subscriberCount)
    (hann : t.announcing = s.announcing) (hlog : t.hub.log = s.hub.log) (hremain : Remain s t)
    (hrounds : t.rounds = s.rounds) (hblind : t.blind = s.blind) (hjoined : t.joined = s.joined) :
    Paced t := by
  refine ⟨fun hcall => ?_, fun hyes => ?_, pace_of h hremain hjoined fun ch r _ _ => ?_, ?_⟩
  · rw [hloop]
    exact h.counting (hcount hcall)
  · rw [hloop]
    exact h.announcing (hann ▸ hyes)
  · unfold State.allowance State.due State.statsFrom
    rw [hloop, hann, hlog, hrounds]
  · rw [hblind, hloop, hrounds]
    exact h.blind

theorem call_lock {b b' : WsBroadcaster Message} {op : Op Message}
    (hs : Broadcast.Step b (.lock op) b') :
    b.guard = none ∧ b'.guard.map Pass.op = some op ∧ b'.log = b.log ++ op.sends := by
  cases hs with
  | lock _ hfree => exact ⟨hfree, rfl, rfl⟩

theorem call_unlock {b b' : WsBroadcaster Message} (hs : Broadcast.Step b .unlock b') :
    b'.guard.map Pass.op = none ∧ b'.log = b.log := by
  cases hs with
  | unlock _ _ => exact ⟨rfl, rfl⟩

/-- Only `lock` and `unlock` change what the mutex is held for. -/
theorem call_same {b b' : WsBroadcaster Message} {e' : Broadcast.Event Message}
    (hs : Broadcast.Step b e' b') (hlock : ∀ op, e' ≠ .lock op) (hunlock : e' ≠ .unlock) :
    b'.guard.map Pass.op = b.guard.map Pass.op ∧ b'.log = b.log := by
  cases hs with
  | subscribe _ | recv _ _ _ | drop _ => exact ⟨rfl, rfl⟩
  | lock op _ => exact absurd rfl (hlock op)
  | unlock _ _ => exact absurd rfl hunlock
  | @visit p i rest hp hrest =>
    rw [hp]
    cases hc : (b.channels i).closed with
    | true => exact Broadcast.visit_closed hc ▸ ⟨rfl, rfl⟩
    | false => exact Broadcast.visit_open (p := p) hc ▸ ⟨rfl, rfl⟩

/-- A dashboard goes on, or `retain` does. -/
theorem paced_hub {e' : Broadcast.Event Message} (h : Paced s)
    (hs : Broadcast.Step s.hub e' t.hub) (hlock : ∀ op, e' ≠ .lock op) (hunlock : e' ≠ .unlock)
    (hnew : e' ≠ .subscribe) (htraffic : t.traffic = s.traffic) (hrounds : t.rounds = s.rounds)
    (hblind : t.blind = s.blind) (hjoined : t.joined = s.joined) : Paced t := by
  obtain ⟨hcall, hlog⟩ := call_same hs hlock hunlock
  have hcall' : t.call = s.call := hcall
  exact paced_calm h (congrArg Sampler.State.loop htraffic) (fun hcount => hcall' ▸ hcount)
    (announcing_congr hcall) hlog (remain_step hs hnew) hrounds hblind hjoined

theorem allowance_known (h : s.traffic.loop.hasSubs = true) (start : Nat) :
    s.allowance start = 5 + s.statsFrom start + s.due := by
  unfold State.allowance
  rw [h, if_pos rfl]

theorem allowance_unknown (h : s.traffic.loop.hasSubs = false) (start : Nat) :
    s.allowance start = s.traffic.loop.idleTicks := by
  unfold State.allowance
  rw [h, if_neg Bool.false_ne_true]

theorem due_of_stage (h : s.traffic.loop.stage ≠ .refreshed) : s.due = 0 :=
  if_neg fun hboth => h hboth.1

theorem due_of_announcing (h : s.announcing = true) : s.due = 0 :=
  if_neg fun hboth => Bool.noConfusion (h.symm.trans hboth.2)

theorem due_of_call (h : s.traffic.loop.stage = .refreshed) (hcall : s.call = none) : s.due = 1 :=
  if_pos ⟨h, by unfold State.announcing; rw [hcall]; rfl⟩

theorem announcing_of_call {op : Op Message} (h : s.call = some op)
    (hsends : op.sends.any Message.isStats = false) : s.announcing = false := by
  unfold State.announcing
  rw [h]
  exact hsends

theorem announcing_of_free (h : s.call = none) : s.announcing = false := by
  unfold State.announcing
  rw [h]
  rfl

/-- Who is subscribed is found. -/
theorem live_counted {p : Pass Message} {r : Feed.Reader Message}
    (h : Reachable Broadcast.Step Broadcast.Init s.hub) (hp : s.hub.guard = some p)
    (hrest : p.rest = []) (hr : (feed s.hub).readers ch = some r) (hlive : r.live = true) :
    0 < p.kept.length := by
  have hmem : ch ∈ s.hub.opened := by
    rcases Nat.lt_or_ge ch s.hub.next with hlt | hge
    · cases (Broadcast.feed_readers hlt).symm.trans hr
      exact Broadcast.mem_opened.mpr ⟨hlt, by simpa using hlive⟩
    · cases (Broadcast.feed_readers_of_le hge).symm.trans hr
  exact List.length_pos_of_mem (Broadcast.opened_kept h hp hrest hmem)

theorem paced_traffic {e : Sampler.Event} {u : Sampler.State} (h : Paced s)
    (hapart : apart e = true) (hs : Sampler.Step s.traffic e u) :
    Paced { s with traffic := u } := by
  rcases apart_step hapart hs with hloop | ⟨hsubs, hidle, hnot, hpass⟩
  · exact paced_calm h hloop id rfl rfl (remain_same rfl) rfl rfl rfl
  · refine ⟨fun hcount => absurd (h.counting hcount).1 hnot, fun hann => ?_,
      pace_of h (remain_same rfl) rfl fun ch r _ _ => ?_, ?_⟩
    · obtain ⟨hstage, hyes⟩ := h.announcing hann
      cases hyes.symm.trans (hpass hstage)
    · refine Nat.add_le_add_right ?_ s.rounds
      cases hyes : s.traffic.loop.hasSubs with
      | false =>
        rw [allowance_unknown hyes, allowance_unknown (hsubs.trans hyes)]
        exact hidle.ge
      | true =>
        -- with somebody there the sampler does not pass over its message
        have hdue : s.due = 0 := due_of_stage fun hstage => by
          cases hyes.symm.trans (hpass hstage)
        rw [allowance_known hyes, allowance_known (hsubs.trans hyes), hdue]
        exact Nat.le_add_right _ _
    · show 6 * s.blind + u.loop.idleTicks ≤ s.rounds
      rw [hidle]
      exact h.blind

theorem idle_cases {s u : Sampler.State} (hs : Sampler.Step s (.loop .idle) u) :
    s.loop.stage = .recorded ∧ s.loop.hasSubs = false ∧ s.loop.idleTicks < 5 ∧
      u.loop.hasSubs = false ∧ u.loop.idleTicks = s.loop.idleTicks + 1 := by
  cases hs with
  | loop hs =>
    cases hs with
    | idle hstage hfew =>
      have hno : s.loop.hasSubs = false := Bool.eq_false_iff.mpr fun hyes => hfew (.inl hyes)
      exact ⟨hstage, hno, Nat.lt_of_not_le fun hle => hfew (.inr hle), hno, rfl⟩

theorem count_cases {s u : Sampler.State} {n : Nat} (hs : Sampler.Step s (.loop (.count n)) u) :
    s.loop.stage = .recorded ∧ (s.loop.hasSubs = true ∨ 5 ≤ s.loop.idleTicks) ∧
      u.loop.stage = .refreshed ∧ u.loop.hasSubs = decide (0 < n) ∧ u.loop.idleTicks = 0 := by
  cases hs with
  | loop hs =>
    cases hs with
    | count _ hstage hcond => exact ⟨hstage, hcond, rfl, rfl, rfl⟩

theorem broadcast_cases {s u : Sampler.State} (hs : Sampler.Step s (.loop .broadcast) u) :
    s.loop.stage = .refreshed ∧ s.loop.hasSubs = true ∧ u.loop.stage = .waiting ∧
      u.loop.hasSubs = true ∧ u.loop.idleTicks = s.loop.idleTicks := by
  cases hs with
  | loop hs =>
    cases hs with
    | broadcast hstage hyes => exact ⟨hstage, hyes, rfl, hyes, rfl⟩

theorem paced_idle {u : Sampler.State} (h : Paced s)
    (hs : Sampler.Step s.traffic (.loop .idle) u) :
    Paced { s with traffic := u, rounds := s.rounds + 1 } := by
  obtain ⟨hstage, hno, hfew, hno', hidle⟩ := idle_cases hs
  refine ⟨fun hcount => ?_, fun hann => ?_, pace_of h (remain_same rfl) rfl fun ch r _ _ => ?_, ?_⟩
  · rcases (h.counting hcount).2 with hyes | hle
    · cases hno.symm.trans hyes
    · exact absurd hle (Nat.not_le_of_lt hfew)
  · cases hstage.symm.trans (h.announcing hann).1
  · rw [allowance_unknown hno, allowance_unknown hno', hidle]
    exact (Nat.succ_add_eq_add_succ _ _).ge
  · show 6 * s.blind + u.loop.idleTicks ≤ s.rounds + 1
    rw [hidle]
    exact Nat.succ_le_succ h.blind

/-- More was broadcast. -/
theorem statsFrom_append {more : List Message} (hlog : t.hub.log = s.hub.log ++ more)
    (hstart : start ≤ s.hub.log.length) :
    t.statsFrom start = s.statsFrom start + more.countP Message.isStats := by
  unfold State.statsFrom
  rw [hlog, List.drop_append_of_le_length hstart, List.countP_append]

/-- Where a subscriber joined. -/
theorem start_le {r : Feed.Reader Message} (h : Reachable Broadcast.Step Broadcast.Init s.hub)
    (hr : (feed s.hub).readers ch = some r) : r.start ≤ s.hub.log.length :=
  (Feed.segment (Broadcast.refines_feed h) hr).1

/-- The mutex was taken for something other than the message of the sampler. -/
theorem paced_lock {b : WsBroadcaster Message} {op : Op Message} (h : Paced s)
    (hhub : Reachable Broadcast.Step Broadcast.Init s.hub)
    (hs : Broadcast.Step s.hub (.lock op) b) (hsends : op.sends.any Message.isStats = false)
    (hcount : op = .subscriberCount → s.traffic.loop.stage = .recorded ∧
      (s.traffic.loop.hasSubs = true ∨ 5 ≤ s.traffic.loop.idleTicks)) :
    Paced { s with hub := b } := by
  obtain ⟨hfree, hcall, hlog⟩ := call_lock hs
  have hann : s.announcing = false := announcing_of_free (congrArg (Option.map Pass.op) hfree)
  have hann' : State.announcing { s with hub := b } = false := announcing_of_call hcall hsends
  refine ⟨fun hcount' => hcount (Option.some.inj (hcall.symm.trans hcount')), fun hyes => ?_,
    pace_of h (remain_step hs nofun) rfl fun ch r hr _ => ?_, h.blind⟩
  · cases hann'.symm.trans hyes
  -- no statistics come into the log, so everybody is allowed what they were
  · have hmore := statsFrom_append (t := { s with hub := b }) hlog (start_le hhub hr)
    refine Nat.add_le_add_right ?_ s.rounds
    unfold State.allowance State.due
    rw [hann, hann', hmore]
    split
    · exact Nat.add_le_add_right (Nat.add_le_add_left (Nat.le_add_right _ _) 5) _
    · exact le_refl _

theorem rest_of_unlock {b b' : WsBroadcaster Message} {p : Pass Message}
    (hs : Broadcast.Step b .unlock b') (hp : b.guard = some p) : p.rest = [] := by
  cases hs with
  | unlock hp' hrest =>
    cases hp.symm.trans hp'
    exact hrest

theorem paced_counted {p : Pass Message} (h : Paced s)
    (hhub : Reachable Broadcast.Step Broadcast.Init s.hub)
    (hfew : s.traffic.loop.idleTicks ≤ 5) (hp : s.hub.guard = some p)
    (hs : Broadcast.Step s.hub .unlock t.hub)
    (hs' : Sampler.Step s.traffic (.loop (.count p.kept.length)) t.traffic)
    (hrounds : t.rounds = s.rounds + 1)
    (hblind : t.blind = if s.traffic.loop.hasSubs then s.blind else s.blind + 1)
    (hjoined : t.joined = s.joined) : Paced t := by
  obtain ⟨hcall, hlog⟩ := call_unlock hs
  obtain ⟨hstage, hcond, hstage', hsubs, hidle⟩ := count_cases hs'
  refine ⟨fun hcount => ?_, fun hann => ?_,
    pace_of h (remain_step hs nofun) hjoined fun ch r hr hlive => ?_, ?_⟩
  · cases hcall.symm.trans hcount
  · cases (announcing_of_free hcall).symm.trans hann
  · -- Somebody is there, so the answer is not zero.
    have hyes : t.traffic.loop.hasSubs = true := by
      rw [hsubs]
      exact decide_eq_true (live_counted hhub hp (rest_of_unlock hs hp) hr hlive)
    have hsame : t.statsFrom r.start = s.statsFrom r.start := by
      unfold State.statsFrom
      rw [hlog]
    have hnow : s.allowance r.start ≤ 5 + s.statsFrom r.start := by
      cases hsubs' : s.traffic.loop.hasSubs with
      | false => exact allowance_unknown hsubs' r.start ▸ hfew.trans (Nat.le_add_right _ _)
      | true =>
        have hnone : s.due = 0 := due_of_stage (by rw [hstage]; exact Sampler.Stage.noConfusion)
        rw [allowance_known hsubs', hnone, Nat.add_zero]
    rw [allowance_known hyes, hsame, due_of_call hstage' hcall, hrounds]
    omega
  · have hold := h.blind
    rw [hblind, hidle, hrounds]
    cases hsubs' : s.traffic.loop.hasSubs with
    | true =>
      rw [if_pos rfl]
      omega
    | false =>
      -- only after five idle ticks does it look for subscribers without knowing of any
      have hfive : 5 ≤ s.traffic.loop.idleTicks :=
        hcond.resolve_left fun hyes => Bool.noConfusion (hsubs'.symm.trans hyes)
      rw [if_neg Bool.false_ne_true]
      omega

theorem paced_announce {m : StatsMessage} (h : Paced s)
    (hhub : Reachable Broadcast.Step Broadcast.Init s.hub)
    (hs : Broadcast.Step s.hub (.lock (.broadcast (.stats m))) t.hub)
    (hstage : s.traffic.loop.stage = .refreshed) (hsubs : s.traffic.loop.hasSubs = true)
    (htraffic : t.traffic = s.traffic) (hrounds : t.rounds = s.rounds)
    (hblind : t.blind = s.blind) (hjoined : t.joined = s.joined) : Paced t := by
  obtain ⟨hfree, hcall, hlog⟩ := call_lock hs
  have hbefore : s.call = none := congrArg (Option.map Pass.op) hfree
  have hann : t.announcing = true := by
    unfold State.announcing State.call
    rw [hcall]
    rfl
  refine ⟨fun hcount => ?_, fun _ => htraffic ▸ ⟨hstage, hsubs⟩,
    pace_of h (remain_step hs nofun) hjoined fun ch r hr hlive => ?_, ?_⟩
  · cases hcall.symm.trans hcount
  · -- What was due is in the log now.
    have hmore : t.statsFrom r.start = s.statsFrom r.start + 1 :=
      statsFrom_append hlog (start_le hhub hr)
    rw [allowance_known hsubs, allowance_known (htraffic ▸ hsubs), due_of_call hstage hbefore,
      due_of_announcing hann, hmore, hrounds]
    exact le_refl _
  · rw [hblind, htraffic, hrounds]
    exact h.blind

theorem paced_announced {p : Pass Message} {m : StatsMessage} (h : Paced s)
    (hp : s.hub.guard = some p) (hop : p.op = .broadcast (.stats m))
    (hs : Broadcast.Step s.hub .unlock t.hub)
    (hs' : Sampler.Step s.traffic (.loop .broadcast) t.traffic) (hrounds : t.rounds = s.rounds)
    (hblind : t.blind = s.blind) (hjoined : t.joined = s.joined) : Paced t := by
  obtain ⟨hcall, hlog⟩ := call_unlock hs
  obtain ⟨hstage, hsubs, hstage', hsubs', hidle⟩ := broadcast_cases hs'
  have hann : s.announcing = true := by
    unfold State.announcing State.call
    rw [hp, Option.map_some, hop]
    rfl
  refine ⟨fun hcount => ?_, fun hyes => ?_,
    pace_of h (remain_step hs nofun) hjoined fun ch r hr hlive => ?_, ?_⟩
  · cases hcall.symm.trans hcount
  · cases (announcing_of_free hcall).symm.trans hyes
  · have hsame : t.statsFrom r.start = s.statsFrom r.start := by
      unfold State.statsFrom
      rw [hlog]
    rw [allowance_known hsubs, allowance_known hsubs', due_of_announcing hann, hsame, hrounds]
    exact Nat.add_le_add_right (Nat.add_le_add_left (Nat.zero_le _) _) _
  · rw [hblind, hidle, hrounds]
    exact h.blind

/-- Who joins while the message of a tick is still to come is allowed that tick. -/
theorem rounds_le_over (s : State) (start : Nat) :
    s.rounds ≤ s.roundsOver + s.allowance start := by
  unfold State.roundsOver
  split
  case isTrue hdue =>
    rw [allowance_known hdue.2]
    omega
  case isFalse => exact Nat.le_add_right _ _

theorem paced_subscribe (h : Paced s) (hs : Broadcast.Step s.hub .subscribe t.hub)
    (htraffic : t.traffic = s.traffic) (hrounds : t.rounds = s.rounds)
    (hblind : t.blind = s.blind)
    (hjoined : t.joined = Function.update s.joined s.hub.next s.roundsOver) : Paced t := by
  obtain ⟨hcall, hlog⟩ := call_same hs nofun nofun
  have hcall' : t.call = s.call := hcall
  have hann : t.announcing = s.announcing := announcing_congr hcall
  have hallow : ∀ start, t.allowance start = s.allowance start := fun start => by
    unfold State.allowance State.due State.statsFrom
    rw [htraffic, hann, hlog]
  refine ⟨fun hcount => ?_, fun hyes => ?_, fun ch r hr hlive => ?_, ?_⟩
  · rw [htraffic]
    exact h.counting (hcall' ▸ hcount)
  · rw [htraffic]
    exact h.announcing (hann ▸ hyes)
  · rw [hrounds, hjoined]
    -- the new dashboard joins at this tick; all others keep theirs
    by_cases hch : ch = s.hub.next
    · rw [hch, Function.update_self, hallow]
      exact rounds_le_over s r.start
    · obtain ⟨r₀, hr₀, hlive₀, hstart⟩ :=
        (Broadcast.survivor hs hr hlive).resolve_right fun hnew => hch hnew.2
      rw [Function.update_of_ne hch, hallow, ← hstart]
      exact h.pace ch r₀ hr₀ hlive₀
  · rw [hblind, htraffic, hrounds]
    exact h.blind

/-- The mutex is given up after a message that is none of the sampler's. -/
theorem paced_sessionChanged {p : Pass Message} (h : Paced s) (hp : s.hub.guard = some p)
    (hop : p.op = .broadcast .sessionChange) (hs : Broadcast.Step s.hub .unlock t.hub)
    (htraffic : t.traffic = s.traffic) (hrounds : t.rounds = s.rounds)
    (hblind : t.blind = s.blind) (hjoined : t.joined = s.joined) : Paced t := by
  obtain ⟨hcall, hlog⟩ := call_unlock hs
  have hbefore : s.call = some (.broadcast .sessionChange) := by
    unfold State.call
    rw [hp, Option.map_some, hop]
  have hann : t.announcing = s.announcing :=
    (announcing_of_free hcall).trans (announcing_of_call hbefore rfl).symm
  refine paced_calm h (congrArg Sampler.State.loop htraffic) (fun hcount => ?_) hann hlog
    (remain_step hs nofun) hrounds hblind hjoined
  cases hcall.symm.trans hcount

theorem paced_step (hr : Reachable Step Init s) (h : Paced s) (hs : Step s e t) : Paced t := by
  have hhub := hub_reachable hr
  cases hs with
  | traffic hapart hs => exact paced_traffic h hapart hs
  | idle hs => exact paced_idle h hs
  | count hstage hcond hs => exact paced_lock h hhub hs rfl fun _ => ⟨hstage, hcond⟩
  | counted hp hop hs hs' =>
    have hfew := (Sampler.kept_reachable (traffic_reachable hr)).idleTicks
    exact paced_counted h hhub hfew hp hs hs' rfl rfl rfl
  | announce hstage hsubs _ hs => exact paced_announce h hhub hs hstage hsubs rfl rfl rfl rfl
  | announced hp hop hs hs' => exact paced_announced h hp hop hs hs' rfl rfl rfl
  | sessionChange hs => exact paced_lock h hhub hs rfl nofun
  | sessionChanged hp hop hs => exact paced_sessionChanged h hp hop hs rfl rfl rfl rfl
  | subscribe hc hphase hs => exact paced_subscribe h hs rfl rfl rfl rfl
  | visit hs | recv _ _ hs | fail _ _ hs | hangUp _ _ hs =>
    exact paced_hub h hs nofun nofun nofun rfl rfl rfl rfl
  | opened | draft _ _ _ | upgrade _ | load _ _ _ | greet _ _ | forward _ _ =>
    exact paced_calm h rfl id rfl rfl (remain_same rfl) rfl rfl rfl

theorem paced (h : Reachable Step Init s) : Paced s :=
  h.invariant_of (fun _ h => h) (fun _ h => paced_init h) fun _ _ _ hr h hs => paced_step hr h hs

/-- Whenever the sampler waits for its next tick, all but five of the ticks since a dashboard
subscribed have brought it the statistics. A tick that was under way then counts if it was
still to broadcast. -/
theorem few_ticks_missed (h : Reachable Step Init s) (hc : s.conns i = some c)
    (hsub : c.phase.subscribed = true) (hlive : c.phase.live = true)
    (hwaiting : s.traffic.loop.stage = .waiting) :
    s.rounds ≤ s.joined c.rx + 5 + (s.since c).countP Message.isStats := by
  obtain ⟨r, hr, hrlive, -⟩ := (served h).served i c hc hsub
  have hpace := (paced h).pace c.rx r hr (hrlive.trans hlive)
  have hstart : r.start = (s.hub.channels c.rx).since := by
    cases (Broadcast.feed_readers ((served h).channel hc hsub).1).symm.trans hr
    rfl
  rw [hstart] at hpace
  cases hsubs : s.traffic.loop.hasSubs with
  | false =>
    have hfew := (Sampler.kept_reachable (traffic_reachable h)).idleTicks
    rw [allowance_unknown hsubs] at hpace
    exact hpace.trans ((Nat.add_le_add_left hfew _).trans (Nat.le_add_right _ _))
  | true =>
    have hnone : s.due = 0 := due_of_stage (by rw [hwaiting]; exact Sampler.Stage.noConfusion)
    rw [allowance_known hsubs, hnone, Nat.add_zero, ← Nat.add_assoc] at hpace
    exact hpace

/-- A tick, up to the check for subscribers. -/
theorem tick_recorded (h : Reachable Step Init s) (hstage : s.traffic.loop.stage = .waiting) :
    ∃ u : Sampler.State, u.loop.stage = .recorded ∧ u.loop.hasSubs = s.traffic.loop.hasSubs ∧
      u.loop.idleTicks = s.traffic.loop.idleTicks ∧ u.counters = s.traffic.counters ∧
      u.given = s.traffic.given ∧ Reachable Step Init { s with traffic := u } := by
  have loaded := ((h.step (.traffic rfl (.loop (.tick hstage)))).step
    (.traffic rfl (.loop (.curIn rfl)))).step (.traffic rfl (.loop (.curOut rfl)))
  have recorded := (loaded.step (.traffic rfl (.loop (.sample 0 rfl)))).step
    (.traffic rfl (.loop (.push rfl)))
  refine ⟨_, ?_, ?_, ?_, ?_, ?_, recorded⟩ <;> rfl

/-- A tick of a sampler that knows of nobody. -/
theorem quiet_tick (h : Reachable Step Init s) (hstage : s.traffic.loop.stage = .waiting)
    (hno : s.traffic.loop.hasSubs = false) (hfew : s.traffic.loop.idleTicks < 5) :
    ∃ u : Sampler.State, u.loop.stage = .waiting ∧ u.loop.hasSubs = false ∧
      u.loop.idleTicks = s.traffic.loop.idleTicks + 1 ∧ u.counters = s.traffic.counters ∧
      u.given = s.traffic.given ∧
      Reachable Step Init { s with traffic := u, rounds := s.rounds + 1 } := by
  obtain ⟨u, hrecorded, hsubs, hidle, hcounters, hgiven, recorded⟩ := tick_recorded h hstage
  have hcond : ¬ (u.loop.hasSubs = true ∨ 5 ≤ u.loop.idleTicks) := by
    rw [hsubs, hidle, hno]
    exact fun h => h.elim Bool.noConfusion (Nat.not_le_of_lt hfew)
  have passed := (recorded.step (.idle (.loop (.idle hrecorded hcond)))).step
    (.traffic rfl (.loop (.pass rfl (hsubs.trans hno))))
  refine ⟨_, ?_, ?_, ?_, ?_, ?_, passed⟩
  · rfl
  · exact hsubs.trans hno
  · exact congrArg (· + 1) hidle
  · exact hcounters
  · exact hgiven

/-- As many of them as there can be. -/
theorem quiet_ticks (h : Reachable Step Init s) (hstage : s.traffic.loop.stage = .waiting)
    (hno : s.traffic.loop.hasSubs = false) (hidle : s.traffic.loop.idleTicks = 0) (n : Nat)
    (hn : n ≤ 5) :
    ∃ u : Sampler.State, u.loop.stage = .waiting ∧ u.loop.hasSubs = false ∧
      u.loop.idleTicks = n ∧ u.counters = s.traffic.counters ∧ u.given = s.traffic.given ∧
      Reachable Step Init { s with traffic := u, rounds := s.rounds + n } := by
  induction n with
  | zero => exact ⟨s.traffic, hstage, hno, hidle, rfl, rfl, h⟩
  | succ n ih =>
    obtain ⟨u, hstage', hno', hidle', hcounters, hgiven, hu⟩ := ih (Nat.le_of_succ_le hn)
    obtain ⟨v, hstage'', hno'', hidle'', hcounters', hgiven', hv⟩ :=
      quiet_tick hu hstage' hno' (hidle'.trans_lt hn)
    exact ⟨v, hstage'', hno'', hidle''.trans (congrArg (· + 1) hidle'),
      hcounters'.trans hcounters, hgiven'.trans hgiven, hv⟩

/-- A dashboard that came right at the start has missed five ticks. -/
theorem few_ticks_missed_five : ∃ s c, Reachable Step Init s ∧ s.conns 0 = some c ∧
    s.rounds = s.joined c.rx + 5 ∧ s.since c = [] ∧
    s.rounds ≤ s.joined c.rx + 5 + (s.since c).countP Message.isStats := by
  have new : Reachable Step Init .new := .init rfl
  have started := (new.step (.traffic rfl (.loop (.prevIn rfl)))).step
    (.traffic rfl (.loop (.prevOut rfl)))
  have subscribed := (started.step (.upgrade (i := 0) rfl)).step
    (.subscribe (i := 0) rfl rfl (.subscribe rfl))
  obtain ⟨u, hstage, -, -, -, -, missed⟩ := quiet_ticks subscribed rfl rfl rfl 5 (le_refl 5)
  exact ⟨_, _, missed, rfl, rfl, rfl, few_ticks_missed (i := 0) missed rfl rfl rfl hstage⟩

/-- At most every sixth tick takes the mutex without anybody known to be there. -/
theorem mutex_spared (h : Reachable Step Init s) : 6 * s.blind ≤ s.rounds :=
  (Nat.le_add_right _ _).trans (paced h).blind

/-- The sixth tick after the start. -/
theorem mutex_spared_six :
    ∃ s, Reachable Step Init s ∧ s.blind = 1 ∧ s.rounds = 6 ∧ 6 * s.blind ≤ s.rounds := by
  have new : Reachable Step Init .new := .init rfl
  have started := (new.step (.traffic rfl (.loop (.prevIn rfl)))).step
    (.traffic rfl (.loop (.prevOut rfl)))
  obtain ⟨u, hstage, hno, hidle, -, -, quiet⟩ := quiet_ticks started rfl rfl rfl 5 (le_refl 5)
  obtain ⟨v, hrecorded, hsubs, hidle', -, -, recorded⟩ := tick_recorded quiet hstage
  have hfive : 5 ≤ v.loop.idleTicks := (hidle'.trans hidle).ge
  have counted := (recorded.step (.count hrecorded (.inr hfive) (.lock _ rfl))).step
    (.counted (p := ⟨.subscriberCount, [], [], []⟩) rfl rfl (.unlock rfl rfl)
      (.loop (.count 0 hrecorded (.inr hfive))))
  refine ⟨_, counted, ?_, rfl, mutex_spared counted⟩
  show (if v.loop.hasSubs then 0 else 1) = 1
  rw [hsubs, hno]
  rfl

/-! ## No step back -/

/-- The counters that only grow. -/
inductive Gauge
  | bytes (d : Dir)
  | totalConns
deriving DecidableEq, Repr

def StatsSnapshot.gauge (m : StatsSnapshot) : Gauge → Nat
  | .bytes .inc => m.bytesIn
  | .bytes .out => m.bytesOut
  | .totalConns => m.totalConns

/-- What was loaded of a counter. -/
def Build.loaded : Build → Gauge → Option Nat
  | .loadIn, _ => none
  | .loadOut bytesIn, .bytes .inc => some bytesIn
  | .loadOut _, _ => none
  | .loadTotal bytesIn _, .bytes .inc => some bytesIn
  | .loadTotal _ bytesOut, .bytes .out => some bytesOut
  | .loadTotal _ _, .totalConns => none
  | .loadActive bytesIn _ _, .bytes .inc => some bytesIn
  | .loadActive _ bytesOut _, .bytes .out => some bytesOut
  | .loadActive _ _ totalConns, .totalConns => some totalConns
  | .readHistory s, g | .readSessions s _, g => some (s.gauge g)
  | .built m, g => some (m.snapshot.gauge g)

def State.gauge (s : State) : Gauge → Nat
  | .bytes d => s.traffic.counters.bytes d
  | .totalConns => s.totalConns

/-- All that was added to a counter. -/
def State.given (s : State) : Gauge → Nat
  | .bytes d => s.traffic.given d
  | .totalConns => s.opened

/-- What messages say about a counter. -/
def readings (g : Gauge) (log : List Message) : List Nat :=
  log.filterMap fun
    | .stats m => some (m.snapshot.gauge g)
    | .sessionChange => none

/-- A load finds the counter, or it is a load of something else. -/
theorem loaded_next (s : State) (sessions : List SessionStats) (b : Build) (g : Gauge) :
    (s.load sessions b).loaded g = b.loaded g ∨
      b.loaded g = none ∧ (s.load sessions b).loaded g = some (s.gauge g) := by
  cases b with
  | loadIn => rcases g with (_ | _) | _ <;> first | exact .inl rfl | exact .inr ⟨rfl, rfl⟩
  | loadOut _ => rcases g with (_ | _) | _ <;> first | exact .inl rfl | exact .inr ⟨rfl, rfl⟩
  | loadTotal _ _ => rcases g with (_ | _) | _ <;> first | exact .inl rfl | exact .inr ⟨rfl, rfl⟩
  | loadActive _ _ _ => rcases g with (_ | _) | _ <;> exact .inl rfl
  | readHistory _ | readSessions _ _ | built _ => exact .inl rfl

/-- What was broadcast of a counter rises up to what the sampler has loaded, and that up to
where the counter is. -/
structure Rising (s : State) (g : Gauge) : Prop where
  sorted : (readings g s.hub.log).Pairwise (· ≤ ·)
  drafted : ∀ n ∈ readings g s.hub.log, ∀ x, s.draft.loaded g = some x → n ≤ x
  loaded : ∀ x, s.draft.loaded g = some x → x ≤ s.gauge g
  reached : ∀ n ∈ readings g s.hub.log, n ≤ s.gauge g

/-- A counter that has not wrapped around is the sum of what was added to it. -/
theorem gauge_eq (h : Reachable Step Init s) {g : Gauge} (hlt : s.given g < 2 ^ 64) :
    s.gauge g = s.given g := by
  cases g with
  | bytes d =>
    exact ((Sampler.kept_reachable (traffic_reachable h)).counter d).trans (Nat.mod_eq_of_lt hlt)
  | totalConns => exact Nat.mod_eq_of_lt hlt

theorem given_step (hs : Step s e t) (g : Gauge) : s.given g ≤ t.given g := by
  cases g with
  | bytes d =>
    rcases traffic_step hs with heq | ⟨e', hs'⟩
    · show s.traffic.given d ≤ t.traffic.given d
      rw [heq]
    · exact Sampler.given_mono hs' d
  | totalConns =>
    cases hs with
    | opened => exact Nat.le_succ _
    | _ => exact le_refl _

theorem rising_init (h : Init s) (g : Gauge) : Rising s g := by
  subst h
  exact ⟨.nil, nofun, nofun, nofun⟩

/-- Nothing else was broadcast, and the draft is what it was or started again. -/
theorem rising_same {g : Gauge} (h : Rising s g)
    (hlog : readings g t.hub.log = readings g s.hub.log)
    (hgauge : s.gauge g ≤ t.gauge g) (hdraft : t.draft = s.draft ∨ t.draft = .loadIn) :
    Rising t g := by
  have hloaded : ∀ x, t.draft.loaded g = some x → s.draft.loaded g = some x := fun x hx => by
    rcases hdraft with heq | heq
    · exact heq ▸ hx
    · rw [heq] at hx
      cases hx
  refine ⟨hlog ▸ h.sorted, fun n hn x hx => ?_, fun x hx => ?_, fun n hn => ?_⟩
  · exact h.drafted n (hlog ▸ hn) x (hloaded x hx)
  · exact (h.loaded x (hloaded x hx)).trans hgauge
  · exact (h.reached n (hlog ▸ hn)).trans hgauge

theorem rising_draft {g : Gauge} (h : Rising s g) (sessions : List SessionStats) :
    Rising { s with draft := s.load sessions s.draft } g := by
  rcases loaded_next s sessions s.draft g with heq | ⟨-, heq⟩
  · exact ⟨h.sorted, fun n hn x hx => h.drafted n hn x (heq ▸ hx),
      fun x hx => h.loaded x (heq ▸ hx), h.reached⟩
  · refine ⟨h.sorted, fun n hn x hx => ?_, fun x hx => ?_, h.reached⟩
    · cases heq.symm.trans hx
      exact h.reached n hn
    · cases heq.symm.trans hx
      exact le_refl _

theorem rising_announce {g : Gauge} {m : StatsMessage} (h : Rising s g)
    (hdraft : s.draft = .built m) (hlog : t.hub.log = s.hub.log ++ [.stats m])
    (hsame : t.draft = s.draft) (hgauge : t.gauge g = s.gauge g) : Rising t g := by
  have hloaded : s.draft.loaded g = some (m.snapshot.gauge g) := by rw [hdraft]; rfl
  have hreadings : readings g t.hub.log = readings g s.hub.log ++ [m.snapshot.gauge g] := by
    unfold readings
    rw [hlog, List.filterMap_append]
    rfl
  have hlast : ∀ n ∈ readings g s.hub.log, n ≤ m.snapshot.gauge g := fun n hn =>
    h.drafted n hn _ hloaded
  refine ⟨?_, fun n hn x hx => ?_, fun x hx => ?_, fun n hn => ?_⟩
  · rw [hreadings, List.pairwise_append]
    exact ⟨h.sorted, List.pairwise_singleton _ _, fun n hn x hx =>
      List.mem_singleton.mp hx ▸ hlast n hn⟩
  · rw [hsame, hloaded] at hx
    cases hx
    rw [hreadings] at hn
    rcases List.mem_append.mp hn with hn | hn
    · exact hlast n hn
    · exact (List.mem_singleton.mp hn).le
  · rw [hgauge]
    exact h.loaded x (hsame ▸ hx)
  · rw [hgauge]
    rw [hreadings] at hn
    rcases List.mem_append.mp hn with hn | hn
    · exact h.reached n hn
    · exact List.mem_singleton.mp hn ▸ h.loaded _ hloaded

/-- A message that is no statistics says nothing about a counter. -/
theorem readings_lock {b b' : WsBroadcaster Message} {op : Op Message} {g : Gauge}
    (hs : Broadcast.Step b (.lock op) b') (hsends : readings g op.sends = []) :
    readings g b'.log = readings g b.log := by
  rw [(call_lock hs).2.2]
  unfold readings at hsends ⊢
  rw [List.filterMap_append, hsends, List.append_nil]

theorem rising_step {g : Gauge} (hgauge : s.gauge g ≤ t.gauge g) (h : Rising s g)
    (hs : Step s e t) : Rising t g := by
  cases hs with
  | traffic _ _ | opened | idle _ | upgrade _ | load _ _ _ | greet _ _ | forward _ _ =>
    exact rising_same h rfl hgauge (.inl rfl)
  | count _ _ hs | sessionChange hs =>
    exact rising_same h (readings_lock hs rfl) hgauge (.inl rfl)
  | counted _ _ hs _ | sessionChanged _ _ hs =>
    exact rising_same h (congrArg (readings g) (call_unlock hs).2) hgauge (.inl rfl)
  | announced _ _ hs _ =>
    exact rising_same h (congrArg (readings g) (call_unlock hs).2) hgauge (.inr rfl)
  | draft sessions _ _ => exact rising_draft h sessions
  | @announce m b _ _ hdraft hs =>
    have hgauge' : State.gauge { s with hub := b } g = s.gauge g := by cases g <;> rfl
    exact rising_announce h hdraft (call_lock hs).2.2 rfl hgauge'
  | subscribe _ _ hs | visit hs | recv _ _ hs | fail _ _ hs | hangUp _ _ hs =>
    exact rising_same h (congrArg (readings g) (call_same hs nofun nofun).2) hgauge (.inl rfl)

theorem rising (h : Reachable Step Init s) (g : Gauge) (hlt : s.given g < 2 ^ 64) :
    Rising s g := by
  induction h with
  | init h => exact rising_init h g
  | @step s t e hr hs ih =>
    -- a counter that has not wrapped around by now had not before
    have hbefore : s.given g < 2 ^ 64 := (given_step hs g).trans_lt hlt
    refine rising_step ?_ (ih hbefore) hs
    rw [gauge_eq hr hbefore, gauge_eq (hr.step hs) hlt]
    exact given_step hs g

/-- What a dashboard is sent of a counter after its snapshot never goes down, and is never
ahead of the counter. -/
theorem never_back (h : Reachable Step Init s) (g : Gauge) (hlt : s.given g < 2 ^ 64)
    (hc : s.conns i = some c) (hsub : c.phase.subscribed = true) :
    (readings g c.sent.tail).Pairwise (· ≤ ·) ∧ ∀ n ∈ readings g c.sent.tail, n ≤ s.given g := by
  have hrising := rising h g hlt
  have hsublist : (readings g c.sent.tail).Sublist (readings g s.hub.log) := by
    -- what comes after the snapshot is a stretch of the log
    rcases sent_since h hc hsub with hnone | ⟨m, rest, heq, hpre⟩
    · rw [hnone]
      exact List.nil_sublist _
    · rw [heq]
      exact (hpre.sublist.trans (List.drop_sublist _ _)).filterMap _
  refine ⟨hrising.sorted.sublist hsublist, fun n hn => ?_⟩
  rw [← gauge_eq h hlt]
  exact hrising.reached n (hsublist.mem hn)

/-- A call of the broadcaster while there is one dashboard. -/
theorem single_pass {b : WsBroadcaster Message} (op : Op Message) (hfree : b.guard = none)
    (hclients : b.clients = [0]) (hopen : (b.channels 0).closed = false) :
    ∃ b₁ b₂ b₃ found, Broadcast.Step b (.lock op) b₁ ∧ Broadcast.Step b₁ .visit b₂ ∧
      Broadcast.Step b₂ .unlock b₃ ∧ b₂.guard = some ⟨op, [0], [], found⟩ ∧ b₃.guard = none ∧
      b₃.clients = [0] ∧ b₃.next = b.next ∧ b₃.channels 0 =
        { b.channels 0 with queue := (b.channels 0).queue ++ op.sends } := by
  have visit : Broadcast.Step (b.lock op) .visit _ := @Broadcast.Step.visit _ _ _ 0 [] rfl hclients
  rw [Broadcast.visit_open (b := b.lock op) hopen] at visit
  refine ⟨_, _, _, _, .lock op hfree, visit, .unlock rfl rfl, rfl, rfl, rfl, rfl, ?_⟩
  exact Broadcast.setChannel_self (b.lock op) 0 { b.channels 0 with
    queue := (b.channels 0).queue ++ op.sends }

/-- Dashboard 0 is the only one, was sent `sent` and has yet to be sent `queue`. -/
structure Watched (s : State) (sent queue : List Message) : Prop where
  reachable : Reachable Step Init s
  conn : s.conns 0 = some { phase := .selecting, rx := 0, sent }
  free : s.hub.guard = none
  clients : s.hub.clients = [0]
  made : 0 < s.hub.next
  opened : (s.hub.channels 0).closed = false
  queue : (s.hub.channels 0).queue = queue
  draft : s.draft = .loadIn

/-- The rest of a tick that finds the dashboard. -/
theorem tick_announced {sent : List Message} (h : Watched s sent [])
    (hstage : s.traffic.loop.stage = .recorded)
    (hcond : s.traffic.loop.hasSubs = true ∨ 5 ≤ s.traffic.loop.idleTicks) :
    ∃ t m, Watched t sent [.stats m] ∧ m.snapshot.bytesIn = s.traffic.counters.bytes .inc ∧
      t.traffic.loop.stage = .waiting ∧ t.traffic.loop.hasSubs = true ∧
      t.traffic.counters = s.traffic.counters ∧ t.traffic.given = s.traffic.given := by
  obtain ⟨traffic, opened, draft, hub, conns, rounds, blind, joined⟩ := s
  cases (h.draft : draft = .loadIn)
  obtain ⟨_, _, b, found, lock, visit, unlock, hp, hfree, hclients, hnext, hchannel⟩ :=
    single_pass .subscriberCount h.free h.clients h.opened
  have counted := ((h.reachable.step (.count hstage hcond lock)).step (.visit visit)).step
    (.counted hp rfl unlock (.loop (.count 1 hstage hcond)))
  have drafted := (((((counted.step (.draft [] rfl rfl)).step (.draft [] rfl rfl)).step
    (.draft [] rfl rfl)).step (.draft [] rfl rfl)).step (.draft [] rfl rfl)).step
    (.draft [] rfl rfl)
  let m : StatsMessage :=
    { snapshot :=
        { bytesIn := traffic.counters.bytes .inc
          bytesOut := traffic.counters.bytes .out
          totalConns := opened % 2 ^ 64
          activeConns := traffic.counters.activeConns }
      history := traffic.loop.history
      sessions := [] }
  have hopen : (b.channels 0).closed = false :=
    (congrArg Broadcast.Channel.closed hchannel).trans h.opened
  obtain ⟨_, _, b', found', lock', visit', unlock', hp', hfree', hclients', hnext', hchannel'⟩ :=
    single_pass (.broadcast (.stats m)) hfree hclients hopen
  have announced := ((drafted.step (.announce (m := m) rfl rfl rfl lock')).step
    (.visit visit')).step (.announced hp' rfl unlock' (.loop (.broadcast rfl rfl)))
  have hqueue : (b'.channels 0).queue = [.stats m] := by
    rw [hchannel', hchannel]
    show ((hub.channels 0).queue ++ []) ++ [.stats m] = [.stats m]
    rw [h.queue]
    rfl
  have hmade : 0 < b'.next := (hnext'.trans hnext) ▸ h.made
  have hopen' : (b'.channels 0).closed = false :=
    (congrArg Broadcast.Channel.closed hchannel').trans hopen
  exact ⟨_, m, ⟨announced, h.conn, hfree', hclients', hmade, hopen', hqueue, rfl⟩, rfl, rfl, rfl,
    rfl, rfl⟩

/-- The dashboard is sent the message. -/
theorem watched_forwarded {sent : List Message} {m : Message} (h : Watched s sent [m]) :
    ∃ t, Watched t (sent ++ [m]) [] ∧ t.traffic = s.traffic := by
  have received := h.reachable.step (.recv h.conn rfl (.recv h.made h.opened h.queue))
  have hconn : ∀ (conns : Nat → Option Conn) (c : Conn),
      Function.update conns 0 (some c) 0 = some c := fun _ _ => Function.update_self ..
  have forwarded := received.step (.forward (i := 0) (hconn s.conns _) rfl)
  refine ⟨_, ⟨forwarded, ?_, h.free, h.clients, h.made, ?_, ?_, h.draft⟩, rfl⟩
  · exact hconn (Function.update s.conns 0 (some ⟨.forwarding m, 0, sent⟩)) ⟨.selecting, 0, _⟩
  · exact (congrArg Broadcast.Channel.closed (Broadcast.setChannel_self ..)).trans h.opened
  · exact congrArg Broadcast.Channel.queue (Broadcast.setChannel_self ..)

/-- A dashboard that is sent the statistics of two ticks. -/
theorem never_back_twice : ∃ s c, Reachable Step Init s ∧ s.conns 0 = some c ∧
    readings (.bytes .inc) c.sent.tail = [3, 7] ∧
    (readings (.bytes .inc) c.sent.tail).Pairwise (· ≤ ·) := by
  have new : Reachable Step Init .new := .init rfl
  have started := (new.step (.traffic rfl (.loop (.prevIn rfl)))).step
    (.traffic rfl (.loop (.prevOut rfl)))
  have subscribed := (started.step (.upgrade (i := 0) rfl)).step
    (.subscribe (i := 0) rfl rfl (.subscribe rfl))
  have built := (((((subscribed.step (.load (i := 0) [] rfl rfl)).step
    (.load (i := 0) [] rfl rfl)).step (.load (i := 0) [] rfl rfl)).step
    (.load (i := 0) [] rfl rfl)).step (.load (i := 0) [] rfl rfl)).step
    (.load (i := 0) [] rfl rfl)
  have greeted := (built.step (.greet (i := 0) rfl rfl)).step (.traffic rfl (.add .inc 3))
  obtain ⟨u, hstage, -, hidle, hcounters, hgiven, quiet⟩ :=
    quiet_ticks greeted rfl rfl rfl 5 (le_refl 5)
  obtain ⟨v, hrecorded, -, hidle', hcounters', hgiven', recorded⟩ := tick_recorded quiet hstage
  -- the sixth tick finds the dashboard
  obtain ⟨s₁, m₁, watched₁, hbytes₁, hstage₁, hsubs₁, hcounters₁, hgiven₁⟩ := tick_announced
    ⟨recorded, rfl, rfl, rfl, Nat.zero_lt_one, rfl, rfl, rfl⟩ hrecorded
    (.inr (hidle'.trans hidle).ge)
  obtain ⟨s₂, watched₂, htraffic₂⟩ := watched_forwarded watched₁
  have grown := watched₂.reachable.step (.traffic rfl (.add .inc 4))
  obtain ⟨w, hrecorded', hsubs, -, hcounters'', hgiven'', recorded'⟩ := tick_recorded grown
    ((congrArg (fun u => u.loop.stage) htraffic₂).trans hstage₁)
  have hyes : w.loop.hasSubs = true :=
    hsubs.trans ((congrArg (fun u => u.loop.hasSubs) htraffic₂).trans hsubs₁)
  obtain ⟨s₃, m₂, watched₃, hbytes₂, -, -, -, hgiven₃⟩ := tick_announced
    ⟨recorded', watched₂.conn, watched₂.free, watched₂.clients, watched₂.made, watched₂.opened,
      watched₂.queue, watched₂.draft⟩ hrecorded' (.inl hyes)
  obtain ⟨s₄, watched₄, htraffic₄⟩ := watched_forwarded watched₃
  have hfirst : m₁.snapshot.bytesIn = 3 := by
    rw [hbytes₁]
    show v.counters.bytes .inc = 3
    rw [hcounters', hcounters]
    rfl
  have hsecond : m₂.snapshot.bytesIn = 7 := by
    rw [hbytes₂]
    show w.counters.bytes .inc = 7
    rw [hcounters'']
    show (s₂.traffic.counters.add .inc 4).bytes .inc = 7
    rw [htraffic₂, hcounters₁]
    show (v.counters.add .inc 4).bytes .inc = 7
    rw [hcounters', hcounters]
    rfl
  have hlt : s₄.given (.bytes .inc) < 2 ^ 64 := by
    show s₄.traffic.given .inc < 2 ^ 64
    rw [htraffic₄, hgiven₃]
    show w.given .inc < 2 ^ 64
    rw [hgiven'']
    show Function.update s₂.traffic.given .inc (s₂.traffic.given .inc + 4) .inc < 2 ^ 64
    rw [Function.update_self, htraffic₂, hgiven₁]
    show v.given .inc + 4 < 2 ^ 64
    rw [hgiven', hgiven]
    decide
  refine ⟨_, _, watched₄.reachable, watched₄.conn, ?_,
    (never_back watched₄.reachable (.bytes .inc) hlt watched₄.conn rfl).1⟩
  show [m₁.snapshot.bytesIn, m₂.snapshot.bytesIn] = [3, 7]
  rw [hfirst, hsecond]

end MiniMask.Dashboard
