import MiniMask.Sampler
import MiniMask.Web.Broadcast

/-!
# Live statistics (`web/ws.rs`; `server.rs`, `stats_sampler`; `useStats.js`)

A dashboard subscribes, is sent the statistics as they are, and then everything that is
broadcast. The sampler broadcasts the statistics once a tick while it knows of a subscriber,
and looks for subscribers at every sixth tick while it knows of none. Other tasks broadcast
that a session began or ended. The steps of all of these interleave as they like, and the
counters change under them.

* `socket_in_order`: a dashboard is sent its snapshot and then, in order and once, what was
  broadcast since it subscribed; two dashboards see what they share in one order.
* `few_ticks_missed`: of the ticks since a dashboard subscribed at most five brought it
  nothing.
* `mutex_spared`: while nobody is known to be there, the mutex is taken once in six ticks.
* `never_back`: what is broadcast of a counter never goes down.
-/

namespace MiniMask.Dashboard

open Lts
open Proxy (Dir)
open Broadcast (WsBroadcaster Pass Op)
open Sampler (Sample Counters)

/-! ## Messages -/

structure StatsSnapshot where
  bytesIn : Nat
  bytesOut : Nat
  totalConns : Nat
  activeConns : Nat
deriving DecidableEq, Repr

structure SessionStats where
  clientId : String
  remoteAddr : String
  connectedAt : Timestamp
  activeConns : Nat
deriving DecidableEq, Repr

/-- A message of type `stats`. -/
structure StatsMessage where
  snapshot : StatsSnapshot
  history : List Sample
  sessions : List SessionStats
deriving DecidableEq, Repr

inductive Message
  | stats (m : StatsMessage)
  | sessionChange
deriving DecidableEq, Repr

/-- `build_stats_value`, in front of each of its loads: the four of `snapshot`, the history and
the sessions. -/
inductive Build
  | loadIn
  | loadOut (bytesIn : Nat)
  | loadTotal (bytesIn bytesOut : Nat)
  | loadActive (bytesIn bytesOut totalConns : Nat)
  | readHistory (s : StatsSnapshot)
  | readSessions (s : StatsSnapshot) (history : List Sample)
  | built (m : StatsMessage)
deriving DecidableEq, Repr

/-- The next load. `sessions` is what it finds if it is the last one. -/
def Build.next (c : Counters) (totalConns : Nat) (history : List Sample)
    (sessions : List SessionStats) : Build → Build
  | .loadIn => .loadOut (c.bytes .inc)
  | .loadOut bytesIn => .loadTotal bytesIn (c.bytes .out)
  | .loadTotal bytesIn bytesOut => .loadActive bytesIn bytesOut totalConns
  | .loadActive bytesIn bytesOut totalConns =>
    .readHistory { bytesIn, bytesOut, totalConns, activeConns := c.activeConns }
  | .readHistory s => .readSessions s history
  | .readSessions s history => .built { snapshot := s, history, sessions }
  | .built m => .built m

/-- `ws.onmessage` of `useStats`. -/
def onmessage (shown : StatsMessage) : Message → StatsMessage
  | .stats m => m
  | .sessionChange => shown

/-- What `useStats` shows before the first message. -/
def blank : StatsMessage where
  snapshot := { bytesIn := 0, bytesOut := 0, totalConns := 0, activeConns := 0 }
  history := []
  sessions := []

/-! ## Connections -/

/-- Where `handle_ws` is: in front of `subscribe`, building or sending the snapshot, in the
`select!`, sending a message that it received, or through. -/
inductive Phase
  | subscribing
  | building (b : Build)
  | selecting
  | forwarding (msg : Message)
  | ended
deriving DecidableEq, Repr

/-- `rx` is the channel, once there is one, and `sent` what went over the socket. -/
structure Conn where
  phase : Phase
  rx : Nat
  sent : List Message
deriving DecidableEq, Repr

/-- In `socket.send`. -/
def Phase.sending : Phase → Bool
  | .building (.built _) | .forwarding _ => true
  | _ => false

/-! ## The sampler, the broadcaster and the dashboards -/

/-- `opened` counts the additions to `total_conns`. `rounds` counts the ticks in which the
sampler was past its check for subscribers, `blind` the checks that it made while it knew of
nobody, and `joined` has the rounds that were over when a channel was made; nobody keeps
these. -/
structure State where
  traffic : Sampler.State
  opened : Nat
  draft : Build
  hub : WsBroadcaster Message
  conns : Nat → Option Conn
  rounds : Nat
  blind : Nat
  joined : Nat → Nat

namespace State

/-- `fetch_add` wraps around. -/
def totalConns (s : State) : Nat := s.opened % 2 ^ 64

def setConn (s : State) (i : Nat) (c : Conn) : State :=
  { s with conns := Function.update s.conns i (some c) }

def load (s : State) (sessions : List SessionStats) (b : Build) : Build :=
  b.next s.traffic.counters s.totalConns s.traffic.loop.history sessions

/-- The rounds without the one that is still to broadcast. -/
def roundsOver (s : State) : Nat :=
  if s.traffic.loop.stage = .refreshed ∧ s.traffic.loop.hasSubs = true then s.rounds - 1
  else s.rounds

end State

inductive Event
  | traffic (e : Sampler.Event)
  | opened
  | idle
  | count
  | counted
  | draft (sessions : List SessionStats)
  | announce
  | announced
  | sessionChange
  | sessionChanged
  | visit
  | upgrade (i : Nat)
  | subscribe (i : Nat)
  | load (i : Nat) (sessions : List SessionStats)
  | greet (i : Nat)
  | recv (i : Nat)
  | forward (i : Nat)
  | fail (i : Nat)
  | hangUp (i : Nat)
deriving DecidableEq, Repr

/-- What of the sampler and the counters does not involve the broadcaster. -/
def apart : Sampler.Event → Bool
  | .loop (.count _) | .loop .idle | .loop .broadcast => false
  | _ => true

/-- When the server starts. -/
def State.new : State where
  traffic :=
    { counters := { bytes := fun _ => 0, activeConns := 0 }
      given := fun _ => 0
      loop := .init }
  opened := 0
  draft := .loadIn
  hub := .new
  conns := fun _ => none
  rounds := 0
  blind := 0
  joined := fun _ => 0

def Init (s : State) : Prop := s = .new

inductive Step (s : State) : Event → State → Prop
  | traffic {e : Sampler.Event} {t : Sampler.State} :
      apart e = true → Sampler.Step s.traffic e t → Step s (.traffic e) { s with traffic := t }
  | opened : Step s .opened { s with opened := s.opened + 1 }
  -- The sampler's check for subscribers, which it leaves out or for which it needs the mutex.
  | idle {t : Sampler.State} :
      Sampler.Step s.traffic (.loop .idle) t →
      Step s .idle { s with traffic := t, rounds := s.rounds + 1 }
  | count {b : WsBroadcaster Message} :
      s.traffic.loop.stage = .recorded →
      s.traffic.loop.hasSubs = true ∨ 5 ≤ s.traffic.loop.idleTicks →
      Broadcast.Step s.hub (.lock .subscriberCount) b →
      Step s .count { s with hub := b }
  | counted {p : Pass Message} {b : WsBroadcaster Message} {t : Sampler.State} :
      s.hub.guard = some p → p.op = .subscriberCount → Broadcast.Step s.hub .unlock b →
      Sampler.Step s.traffic (.loop (.count p.kept.length)) t →
      Step s .counted
        { s with
          traffic := t
          hub := b
          rounds := s.rounds + 1
          blind := if s.traffic.loop.hasSubs then s.blind else s.blind + 1 }
  -- The sampler's message.
  | draft (sessions : List SessionStats) :
      s.traffic.loop.stage = .refreshed → s.traffic.loop.hasSubs = true →
      Step s (.draft sessions) { s with draft := s.load sessions s.draft }
  | announce {m : StatsMessage} {b : WsBroadcaster Message} :
      s.traffic.loop.stage = .refreshed → s.traffic.loop.hasSubs = true → s.draft = .built m →
      Broadcast.Step s.hub (.lock (.broadcast (.stats m))) b →
      Step s .announce { s with hub := b }
  | announced {p : Pass Message} {m : StatsMessage} {b : WsBroadcaster Message}
      {t : Sampler.State} :
      s.hub.guard = some p → p.op = .broadcast (.stats m) → Broadcast.Step s.hub .unlock b →
      Sampler.Step s.traffic (.loop .broadcast) t →
      Step s .announced { s with traffic := t, hub := b, draft := .loadIn }
  -- The message of a tunnel task.
  | sessionChange {b : WsBroadcaster Message} :
      Broadcast.Step s.hub (.lock (.broadcast .sessionChange)) b →
      Step s .sessionChange { s with hub := b }
  | sessionChanged {p : Pass Message} {b : WsBroadcaster Message} :
      s.hub.guard = some p → p.op = .broadcast .sessionChange →
      Broadcast.Step s.hub .unlock b → Step s .sessionChanged { s with hub := b }
  | visit {b : WsBroadcaster Message} :
      Broadcast.Step s.hub .visit b → Step s .visit { s with hub := b }
  -- `handle_ws`.
  | upgrade {i : Nat} :
      s.conns i = none →
      Step s (.upgrade i) (s.setConn i { phase := .subscribing, rx := 0, sent := [] })
  | subscribe {i : Nat} {c : Conn} {b : WsBroadcaster Message} :
      s.conns i = some c → c.phase = .subscribing → Broadcast.Step s.hub .subscribe b →
      Step s (.subscribe i)
        { s.setConn i { phase := .building .loadIn, rx := s.hub.next, sent := [] } with
          hub := b
          joined := Function.update s.joined s.hub.next s.roundsOver }
  | load {i : Nat} {c : Conn} {build : Build} (sessions : List SessionStats) :
      s.conns i = some c → c.phase = .building build →
      Step s (.load i sessions) (s.setConn i { c with phase := .building (s.load sessions build) })
  | greet {i : Nat} {c : Conn} {m : StatsMessage} :
      s.conns i = some c → c.phase = .building (.built m) →
      Step s (.greet i) (s.setConn i { c with phase := .selecting, sent := [.stats m] })
  | recv {i : Nat} {c : Conn} {msg : Message} {b : WsBroadcaster Message} :
      s.conns i = some c → c.phase = .selecting → Broadcast.Step s.hub (.recv c.rx msg) b →
      Step s (.recv i) { s.setConn i { c with phase := .forwarding msg } with hub := b }
  | forward {i : Nat} {c : Conn} {msg : Message} :
      s.conns i = some c → c.phase = .forwarding msg →
      Step s (.forward i) (s.setConn i { c with phase := .selecting, sent := c.sent ++ [msg] })
  | fail {i : Nat} {c : Conn} {b : WsBroadcaster Message} :
      s.conns i = some c → c.phase.sending = true → Broadcast.Step s.hub (.drop c.rx) b →
      Step s (.fail i) { s.setConn i { c with phase := .ended } with hub := b }
  | hangUp {i : Nat} {c : Conn} {b : WsBroadcaster Message} :
      s.conns i = some c → c.phase = .selecting → Broadcast.Step s.hub (.drop c.rx) b →
      Step s (.hangUp i) { s.setConn i { c with phase := .ended } with hub := b }

/-! ## The parts -/

variable {s t : State} {e : Event} {i j : Nat} {c : Conn}

/-- A step is at most one of the broadcaster. -/
theorem hub_step (hs : Step s e t) : t.hub = s.hub ∨ ∃ e', Broadcast.Step s.hub e' t.hub := by
  cases hs with
  | traffic _ _ | opened | idle _ | draft _ _ _ | upgrade _ | load _ _ _ | greet _ _
  | forward _ _ => exact .inl rfl
  | count _ _ hs | counted _ _ hs _ | announce _ _ _ hs | announced _ _ hs _ | sessionChange hs
  | sessionChanged _ _ hs | visit hs | subscribe _ _ hs | recv _ _ hs | fail _ _ hs
  | hangUp _ _ hs => exact .inr ⟨_, hs⟩

/-- A step is at most one of the sampler and the counters. -/
theorem traffic_step (hs : Step s e t) :
    t.traffic = s.traffic ∨ ∃ e', Sampler.Step s.traffic e' t.traffic := by
  cases hs with
  | traffic _ hs | idle hs | counted _ _ _ hs | announced _ _ _ hs => exact .inr ⟨_, hs⟩
  | opened | draft _ _ _ | upgrade _ | load _ _ _ | greet _ _ | forward _ _ | count _ _ _
  | announce _ _ _ _ | sessionChange _ | sessionChanged _ _ _ | visit _ | subscribe _ _ _
  | recv _ _ _ | fail _ _ _ | hangUp _ _ _ => exact .inl rfl

theorem hub_init (h : Init s) : Broadcast.Init s.hub := by
  subst h
  rfl

theorem traffic_init (h : Init s) : Sampler.Init s.traffic := by
  subst h
  rfl

theorem hub_reachable (h : Reachable Step Init s) :
    Reachable Broadcast.Step Broadcast.Init s.hub := by
  have sim : Simulation Step (fun _ => True) Broadcast.Step State.hub :=
    ⟨fun _ _ _ _ _ => trivial, fun _ _ _ _ hs => hub_step hs⟩
  exact (sim.reachable (fun _ h => ⟨trivial, hub_init h⟩) h).2

theorem traffic_reachable (h : Reachable Step Init s) :
    Reachable Sampler.Step Sampler.Init s.traffic := by
  have sim : Simulation Step (fun _ => True) Sampler.Step State.traffic :=
    ⟨fun _ _ _ _ _ => trivial, fun _ _ _ _ hs => traffic_step hs⟩
  exact (sim.reachable (fun _ h => ⟨trivial, traffic_init h⟩) h).2

/-! ## What a dashboard was sent -/

/-- A dashboard has a channel. -/
def Phase.subscribed : Phase → Bool
  | .subscribing => false
  | _ => true

def Phase.live : Phase → Bool
  | .ended => false
  | _ => true

/-- What was sent, beside what was received of the channel. -/
def Phase.Sent (sent got : List Message) : Phase → Prop
  | .subscribing | .building _ => sent = [] ∧ got = []
  | .selecting => ∃ m, sent = .stats m :: got
  | .forwarding msg => ∃ m got', got = got' ++ [msg] ∧ sent = .stats m :: got'
  | .ended => sent = [] ∨ ∃ m got', sent = .stats m :: got' ∧ got' <+: got

/-- The channel of a dashboard is open until the dashboard is gone, and what was received of
it was sent on. -/
def Conn.Served (f : Feed Message) (c : Conn) : Prop :=
  ∃ r, f.readers c.rx = some r ∧ r.live = c.phase.live ∧ c.phase.Sent c.sent r.got

/-- Every dashboard has a channel of its own. -/
structure Served (s : State) : Prop where
  served : ∀ i c, s.conns i = some c → c.phase.subscribed = true →
    c.Served (Broadcast.feed s.hub)
  own : ∀ i j c d, s.conns i = some c → s.conns j = some d → c.phase.subscribed = true →
    d.phase.subscribed = true → c.rx = d.rx → i = j

theorem served_init (h : Init s) : Served s := by
  subst h
  exact ⟨nofun, nofun⟩

/-- The dashboards are as they were and so is what they can tell of their channels. -/
theorem served_same (h : Served s) (hconns : t.conns = s.conns)
    (hreaders : (Broadcast.feed t.hub).readers = (Broadcast.feed s.hub).readers) : Served t := by
  refine ⟨fun i c hc hsub => ?_, hconns ▸ h.own⟩
  obtain ⟨r, hr, hrest⟩ := h.served i c (hconns ▸ hc) hsub
  exact ⟨r, hreaders ▸ hr, hrest⟩

/-- One dashboard did something, and what the others can tell of their channels is as it was. -/
theorem served_conn {c' : Conn} (h : Served s)
    (hconns : t.conns = Function.update s.conns i (some c'))
    (hreaders : ∀ j d, j ≠ i → s.conns j = some d → d.phase.subscribed = true →
      (Broadcast.feed t.hub).readers d.rx = (Broadcast.feed s.hub).readers d.rx)
    (hself : c'.phase.subscribed = true → c'.Served (Broadcast.feed t.hub) ∧
      ∀ j d, j ≠ i → s.conns j = some d → d.phase.subscribed = true → d.rx ≠ c'.rx) :
    Served t := by
  have hi : t.conns i = some c' := hconns ▸ Function.update_self ..
  have hother : ∀ j, j ≠ i → t.conns j = s.conns j := fun j hj =>
    hconns ▸ Function.update_of_ne hj ..
  refine ⟨fun j d hd hsub => ?_, fun j k d d' hd hd' hsub hsub' hrx => ?_⟩
  · by_cases hj : j = i
    · subst hj
      cases hi.symm.trans hd
      exact (hself hsub).1
    · rw [hother j hj] at hd
      obtain ⟨r, hr, hrest⟩ := h.served j d hd hsub
      exact ⟨r, (hreaders j d hj hd hsub).trans hr, hrest⟩
  -- Two dashboards with one channel: this one twice, this one and another, or two others.
  · by_cases hj : j = i <;> by_cases hk : k = i
    · exact hj.trans hk.symm
    · subst hj
      cases hi.symm.trans hd
      rw [hother k hk] at hd'
      exact absurd hrx.symm ((hself hsub).2 k d' hk hd' hsub')
    · subst hk
      cases hi.symm.trans hd'
      rw [hother j hj] at hd
      exact absurd hrx ((hself hsub').2 j d hj hd hsub)
    · rw [hother j hj] at hd
      rw [hother k hk] at hd'
      exact h.own j k d d' hd hd' hsub hsub' hrx

/-- A dashboard that keeps its channel keeps it to itself. -/
theorem Served.others (h : Served s) (hc : s.conns i = some c)
    (hsub : c.phase.subscribed = true) (j : Nat) (d : Conn) (hj : j ≠ i)
    (hd : s.conns j = some d) (hsub' : d.phase.subscribed = true) : d.rx ≠ c.rx :=
  fun hrx => hj (h.own j i d c hd hc hsub' hsub hrx)

/-- Nothing goes on with the channel of a dashboard that only sends. -/
theorem served_send {c' : Conn} (h : Served s) (hc : s.conns i = some c)
    (hsub : c.phase.subscribed = true) (hrx : c'.rx = c.rx)
    (hlive : c'.phase.live = c.phase.live)
    (hsent : ∀ got, c.phase.Sent c.sent got → c'.phase.Sent c'.sent got) :
    Served (s.setConn i c') := by
  obtain ⟨r, hr, hrlive, hrsent⟩ := h.served i c hc hsub
  exact served_conn h rfl (fun _ _ _ _ _ => rfl) fun _ =>
    ⟨⟨r, hrx ▸ hr, hrlive.trans hlive.symm, hsent _ hrsent⟩, hrx ▸ h.others hc hsub⟩

/-- A dashboard does something with the channel that it has. -/
theorem served_reader {c' : Conn} {b : WsBroadcaster Message} {r r' : Feed.Reader Message}
    (h : Served s) (hc : s.conns i = some c) (hsub : c.phase.subscribed = true)
    (hrx : c'.rx = c.rx) (hr : (Broadcast.feed s.hub).readers c.rx = some r)
    (hfeed : Broadcast.feed b = (Broadcast.feed s.hub).setReader c.rx r')
    (hlive : r'.live = c'.phase.live)
    (hsent : c.phase.Sent c.sent r.got → c'.phase.Sent c'.sent r'.got) :
    Served { s.setConn i c' with hub := b } := by
  obtain ⟨r₀, hr₀, -, hrsent⟩ := h.served i c hc hsub
  cases hr.symm.trans hr₀
  refine served_conn h rfl (fun j d hj hd hsub' => ?_) fun _ =>
    ⟨⟨r', ?_, hlive, hsent hrsent⟩, hrx ▸ h.others hc hsub⟩
  · exact hfeed ▸ Feed.readers_setReader_of_ne _ _ (h.others hc hsub j d hj hd hsub')
  · exact hrx ▸ hfeed ▸ Feed.readers_setReader_self ..

/-- A dashboard that is gone drops its channel. -/
theorem served_drop {b : WsBroadcaster Message} (h : Served s) (hc : s.conns i = some c)
    (hsub : c.phase.subscribed = true)
    (hsent : ∀ got, c.phase.Sent c.sent got → Phase.ended.Sent c.sent got)
    (hs : Broadcast.Step s.hub (.drop c.rx) b) :
    Served { s.setConn i { c with phase := .ended } with hub := b } := by
  obtain ⟨r, hr, hfeed⟩ : ∃ r, (Broadcast.feed s.hub).readers c.rx = some r ∧
      Broadcast.feed b = (Broadcast.feed s.hub).setReader c.rx { r with live := false } :=
    Broadcast.moves_step hs
  exact served_reader h hc hsub rfl hr hfeed rfl (hsent r.got)

/-- Whatever a dashboard was sent in the middle of sending is what it was sent when it gives up. -/
theorem Phase.Sent.fail {p : Phase} {sent got : List Message} (hsending : p.sending = true)
    (h : p.Sent sent got) : Phase.ended.Sent sent got := by
  cases p with
  | building b => exact .inl h.1
  | forwarding msg =>
    obtain ⟨m, got', rfl, hsent⟩ := h
    exact .inr ⟨m, got', hsent, List.prefix_append got' [msg]⟩
  | subscribing | selecting | ended => cases hsending

theorem subscribed_of_sending {p : Phase} (h : p.sending = true) : p.subscribed = true := by
  cases p with
  | subscribing => cases h
  | building _ | selecting | forwarding _ | ended => rfl

theorem served_step (h : Served s) (hs : Step s e t) : Served t := by
  cases hs with
  | traffic _ _ | opened | idle _ | draft _ _ _ => exact served_same h rfl rfl
  | count _ _ hs | announce _ _ _ hs | sessionChange hs =>
    exact served_same h rfl (Broadcast.readers_lock hs)
  | counted _ _ hs _ | announced _ _ hs _ | sessionChanged _ _ hs | visit hs =>
    exact served_same h rfl (congrArg Feed.readers (Broadcast.moves_step hs))
  | upgrade hnone => exact served_conn h rfl (fun _ _ _ _ _ => rfl) Bool.noConfusion
  | @subscribe i c b hc hphase hs =>
    have hfeed : Broadcast.feed b =
        (Broadcast.feed s.hub).setReader s.hub.next ⟨s.hub.log.length, [], true⟩ :=
      Broadcast.moves_step hs
    -- The channel is new, and a dashboard with a channel has one that is there.
    have hnew : ∀ j d, j ≠ i → s.conns j = some d → d.phase.subscribed = true →
        d.rx ≠ s.hub.next := fun j d _ hd hsub hrx => by
      obtain ⟨r, hr, -⟩ := h.served j d hd hsub
      cases (Broadcast.feed_readers_of_le hrx.ge).symm.trans hr
    refine served_conn h rfl (fun j d hj hd hsub => ?_) fun _ =>
      ⟨⟨⟨s.hub.log.length, [], true⟩, ?_, rfl, ⟨rfl, rfl⟩⟩, hnew⟩
    · exact hfeed ▸ Feed.readers_setReader_of_ne _ _ (hnew j d hj hd hsub)
    · exact hfeed ▸ Feed.readers_setReader_self ..
  | @load i c build _ hc hphase =>
    refine served_send h hc (hphase ▸ rfl) rfl (hphase ▸ rfl) fun got hsent => ?_
    rw [hphase] at hsent
    exact hsent
  | @greet i c m hc hphase =>
    refine served_send h hc (hphase ▸ rfl) rfl (hphase ▸ rfl) fun got hsent => ?_
    rw [hphase] at hsent
    obtain ⟨-, rfl⟩ := hsent
    exact ⟨m, rfl⟩
  | @recv i c msg b hc hphase hs =>
    obtain ⟨r, hr, hlive, hfeed⟩ : ∃ r, (Broadcast.feed s.hub).readers c.rx = some r ∧
        r.live = true ∧ Broadcast.feed b =
          (Broadcast.feed s.hub).setReader c.rx { r with got := r.got ++ [msg] } :=
      Broadcast.moves_step hs
    refine served_reader h hc (hphase ▸ rfl) rfl hr hfeed hlive fun hsent => ?_
    rw [hphase] at hsent
    obtain ⟨m, hsent⟩ := hsent
    exact ⟨m, r.got, rfl, hsent⟩
  | @forward i c msg hc hphase =>
    refine served_send h hc (hphase ▸ rfl) rfl (hphase ▸ rfl) fun got hsent => ?_
    rw [hphase] at hsent
    obtain ⟨m, got', rfl, hsent⟩ := hsent
    exact ⟨m, congrArg (· ++ [msg]) hsent⟩
  | fail hc hsending hs =>
    exact served_drop h hc (subscribed_of_sending hsending) (fun _ hsent => hsent.fail hsending) hs
  | hangUp hc hphase hs =>
    refine served_drop h hc (hphase ▸ rfl) (fun got hsent => ?_) hs
    rw [hphase] at hsent
    obtain ⟨m, hsent⟩ := hsent
    exact .inr ⟨m, got, hsent, List.prefix_rfl⟩

theorem served (h : Reachable Step Init s) : Served s :=
  h.invariant (fun _ h => served_init h) fun _ _ _ h hs => served_step h hs

/-- What was broadcast since the dashboard subscribed. -/
def State.since (s : State) (c : Conn) : List Message :=
  s.hub.log.drop (s.hub.channels c.rx).since

/-- All that is in the channel was received, and nothing is about to be put into it. -/
def State.CaughtUp (s : State) (c : Conn) : Prop :=
  (s.hub.channels c.rx).queue = [] ∧ s.hub.pending c.rx = []

/-- The channel of a dashboard. -/
theorem Served.channel (h : Served s) (hc : s.conns i = some c)
    (hsub : c.phase.subscribed = true) :
    c.rx < s.hub.next ∧ (s.hub.channels c.rx).closed = !c.phase.live ∧
      c.phase.Sent c.sent (s.hub.channels c.rx).taken := by
  obtain ⟨r, hr, hlive, hsent⟩ := h.served i c hc hsub
  rcases Nat.lt_or_ge c.rx s.hub.next with hlt | hge
  · cases (Broadcast.feed_readers hlt).symm.trans hr
    exact ⟨hlt, by rw [← hlive, Bool.not_not], hsent⟩
  · cases (Broadcast.feed_readers_of_le hge).symm.trans hr

/-- What a dashboard was sent after its snapshot was received of its channel. -/
theorem Phase.Sent.forwarded {p : Phase} {sent got : List Message} (h : p.Sent sent got) :
    sent = [] ∨ ∃ m got', sent = .stats m :: got' ∧ got' <+: got := by
  cases p with
  | subscribing | building b => exact .inl h.1
  | selecting =>
    obtain ⟨m, hsent⟩ := h
    exact .inr ⟨m, got, hsent, List.prefix_rfl⟩
  | forwarding msg =>
    obtain ⟨m, got', rfl, hsent⟩ := h
    exact .inr ⟨m, got', hsent, List.prefix_append got' [msg]⟩
  | ended => exact h

/-- What a dashboard was sent: nothing, or a snapshot and a part of the broadcasts since. -/
theorem sent_since (h : Reachable Step Init s) (hc : s.conns i = some c)
    (hsub : c.phase.subscribed = true) :
    c.sent = [] ∨ ∃ m rest, c.sent = .stats m :: rest ∧ rest <+: s.since c := by
  obtain ⟨hlt, -, hsent⟩ := (served h).channel hc hsub
  rcases hsent.forwarded with hnone | ⟨m, rest, heq, hpre⟩
  · exact .inl hnone
  · exact .inr ⟨m, rest, heq, hpre.trans (Broadcast.taken_prefix (hub_reachable h) hlt)⟩

/-- However subscriptions, broadcasts and connections interleave, a dashboard is sent a
snapshot and then what was broadcast since it subscribed, in order, without a gap and without
repetition; as soon as it has caught up, all of it, and it shows the last statistics of it. -/
theorem socket_in_order (h : Reachable Step Init s) (hc : s.conns i = some c)
    (hsub : c.phase.subscribed = true) :
    (c.sent = [] ∨ ∃ m rest, c.sent = .stats m :: rest ∧ rest <+: s.since c) ∧
      (c.phase = .selecting → s.CaughtUp c → ∃ m, c.sent = .stats m :: s.since c ∧
        c.sent.foldl onmessage blank = (s.since c).foldl onmessage m) := by
  obtain ⟨hlt, hclosed, hsent⟩ := (served h).channel hc hsub
  refine ⟨sent_since h hc hsub, fun hphase hcaught => ?_⟩
  rw [hphase] at hclosed hsent
  obtain ⟨m, heq⟩ := hsent
  -- An open channel from which all was taken has had all the broadcasts.
  have hall : (s.hub.channels c.rx).taken = s.since c :=
    Broadcast.taken_all (hub_reachable h) hlt hclosed hcaught.1 hcaught.2
  rw [hall] at heq
  exact ⟨m, heq, by rw [heq]; rfl⟩

/-- A dashboard, and a session that begins while it is there. -/
theorem socket_in_order_session : ∃ s c m, Reachable Step Init s ∧ s.conns 0 = some c ∧
    c.sent = [.stats m, .sessionChange] ∧ c.sent = .stats m :: s.since c := by
  have new : Reachable Step Init .new := .init rfl
  have subscribed := (new.step (.upgrade (i := 0) rfl)).step
    (.subscribe (i := 0) rfl rfl (.subscribe rfl))
  have built := (((((subscribed.step (.load (i := 0) [] rfl rfl)).step
    (.load (i := 0) [] rfl rfl)).step (.load (i := 0) [] rfl rfl)).step
    (.load (i := 0) [] rfl rfl)).step (.load (i := 0) [] rfl rfl)).step
    (.load (i := 0) [] rfl rfl)
  have announced := (((built.step (.greet (i := 0) rfl rfl)).step
    (.sessionChange (.lock (.broadcast Message.sessionChange) rfl))).step
    (.visit (.visit (i := 0) rfl rfl))).step
    (.sessionChanged (p := ⟨.broadcast .sessionChange, [0], [], [0]⟩) rfl rfl (.unlock rfl rfl))
  have received := announced.step (.recv (i := 0) rfl rfl (.recv Nat.zero_lt_one rfl rfl))
  have forwarded := received.step (.forward (i := 0) rfl rfl)
  obtain ⟨-, hall⟩ := socket_in_order (i := 0) forwarded rfl rfl
  obtain ⟨m, heq, -⟩ := hall rfl ⟨rfl, rfl⟩
  exact ⟨_, _, m, forwarded, rfl, heq, heq⟩

end MiniMask.Dashboard
