import MiniMask.Tunnel.Visitors

/-!
# A public listener over its whole life (`tunnel/listener.rs`, `public_accept_loop`)

`LoopStep` is one step of `public_accept_loop` among the steps of the other tasks.
`publicAcceptLoop` is the loop from its first `accept` to its end: a function of what
`accept` returned and of what became of each `send`.

The loop stops at the first error of `accept`, although the other two accept loops of the
program, `run_tunnel_listener` and `serve_https`, log such an error and go on.
`accept_loop_exact`: the loop serves its listener as long as the channel is open if and only
if no `accept` fails before. `LoopStep` and `publicAcceptLoop` agree (`loopStep_served`).
-/

namespace MiniMask.Tunnel

open Lts

/-! ## The loop -/

/-- What first happens to the loop while it waits for a slot in the proxy channel. -/
inductive SendResult
  | slot
  | closed
  | aborted
deriving DecidableEq, Repr

/-- What `accept` returns: a visitor, with the value of `active_conns` at that moment and
with what happens to `tx.send` and after how many milliseconds, if anything ever does; an
error; or nothing, because the task is aborted. -/
inductive Accept
  | visitor (conn : ConnId) (activeConns : Nat) (send : Option (Nat × SendResult))
  | error
  | aborted
deriving DecidableEq, Repr

inductive Fate
  | atLimit
  | enqueued
  | timedOut
deriving DecidableEq, Repr

inductive LoopEnd
  | acceptError
  | channelClosed
  | aborted
deriving DecidableEq, Repr

/-- What a loop has done with its visitors, first to last, and why it ended, if it has. -/
structure Served where
  log : List (ProxyRequest × Fate)
  ended : Option LoopEnd
deriving DecidableEq

def Served.push (x : ProxyRequest × Fate) (r : Served) : Served := { r with log := x :: r.log }

/-- `Duration::from_millis(200)`. -/
def sendTimeout : Nat := 200

/-- `tokio::time::timeout`: the future is polled before the timer. -/
def timeout {α : Type} (limit : Nat) : Option (Nat × α) → Option α
  | some (after, a) => if after ≤ limit then some a else none
  | none => none

/-- `max_conns != 0 && active_conns.load() >= max_conns`. -/
def atConnLimit (maxConns activeConns : Nat) : Bool := maxConns != 0 && maxConns ≤ activeConns

def publicAcceptLoop (localAddr : String) (maxConns : Nat) : List Accept → Served
  | [] => { log := [], ended := none }
  | .error :: _ => { log := [], ended := some .acceptError }
  | .aborted :: _ => { log := [], ended := some .aborted }
  | .visitor conn activeConns send :: rest =>
    let req : ProxyRequest := { target := localAddr, conn }
    if atConnLimit maxConns activeConns then
      (publicAcceptLoop localAddr maxConns rest).push (req, .atLimit)
    else
      match timeout sendTimeout send with
      | some .slot => (publicAcceptLoop localAddr maxConns rest).push (req, .enqueued)
      | some .closed => { log := [], ended := some .channelClosed }
      | some .aborted => { log := [], ended := some .aborted }
      | none => (publicAcceptLoop localAddr maxConns rest).push (req, .timedOut)

/-! ## A listener that stays up -/

namespace Accept

/-- The task is aborted, or finds the channel closed. -/
def stops (maxConns : Nat) : Accept → Bool
  | .visitor _ activeConns send =>
    !atConnLimit maxConns activeConns &&
      (timeout sendTimeout send == some .closed || timeout sendTimeout send == some .aborted)
  | .error => false
  | .aborted => true

/-- What is to become of a visitor whose loop goes on. -/
def fate (localAddr : String) (maxConns : Nat) : Accept → Option (ProxyRequest × Fate)
  | .visitor conn activeConns send =>
    let req : ProxyRequest := { target := localAddr, conn }
    if atConnLimit maxConns activeConns then some (req, .atLimit)
    else if timeout sendTimeout send = some .slot then some (req, .enqueued)
    else some (req, .timedOut)
  | .error => none
  | .aborted => none

end Accept

/-- What comes before the channel is closed or the task is aborted. -/
def untilStop (maxConns : Nat) (inputs : List Accept) : List Accept :=
  inputs.takeWhile fun a => !a.stops maxConns

/-- The loop ends for a closed channel or an abort only, and until then it treats every
visitor, in the order of `accept`, by the limit and the channel. -/
structure StaysUp (localAddr : String) (maxConns : Nat) (inputs : List Accept) : Prop where
  ends_only : ∀ why, (publicAcceptLoop localAddr maxConns inputs).ended = some why →
    why = .channelClosed ∨ why = .aborted
  log : (publicAcceptLoop localAddr maxConns inputs).log =
    (untilStop maxConns inputs).filterMap (Accept.fate localAddr maxConns)

section AcceptLoop

variable {localAddr : String} {maxConns : Nat} {a : Accept} {rest inputs : List Accept}

/-- One iteration: the loop stops, fails, or has dealt with a visitor and goes on. -/
theorem loop_cons (localAddr : String) (maxConns : Nat) (a : Accept) (rest : List Accept) :
    (a.stops maxConns = true ∧ ∃ why, (why = .channelClosed ∨ why = .aborted) ∧
      publicAcceptLoop localAddr maxConns (a :: rest) = { log := [], ended := some why }) ∨
    (a.stops maxConns = false ∧ a = .error ∧
      publicAcceptLoop localAddr maxConns (a :: rest) =
        { log := [], ended := some .acceptError }) ∨
    (a.stops maxConns = false ∧ a ≠ .error ∧ ∃ x, a.fate localAddr maxConns = some x ∧
      publicAcceptLoop localAddr maxConns (a :: rest) =
        (publicAcceptLoop localAddr maxConns rest).push x) := by
  cases a with
  | error => exact .inr (.inl ⟨rfl, rfl, rfl⟩)
  | aborted => exact .inl ⟨rfl, _, .inr rfl, rfl⟩
  | visitor conn activeConns send =>
    by_cases hlimit : atConnLimit maxConns activeConns = true
    · refine .inr (.inr ⟨?_, nofun, ({ target := localAddr, conn }, .atLimit), ?_, ?_⟩)
      · simp [Accept.stops, hlimit]
      · simp [Accept.fate, hlimit]
      · simp [publicAcceptLoop, hlimit]
    cases hsend : timeout sendTimeout send with
    | none =>
      refine .inr (.inr ⟨?_, nofun, ({ target := localAddr, conn }, .timedOut), ?_, ?_⟩)
      · simp [Accept.stops, hsend]
      · simp [Accept.fate, hlimit, hsend]
      · simp [publicAcceptLoop, hlimit, hsend]
    | some result =>
      cases result with
      | slot =>
        refine .inr (.inr ⟨?_, nofun, ({ target := localAddr, conn }, .enqueued), ?_, ?_⟩)
        · simp [Accept.stops, hsend]
        · simp [Accept.fate, hlimit, hsend]
        · simp [publicAcceptLoop, hlimit, hsend]
      | closed =>
        refine .inl ⟨?_, .channelClosed, .inl rfl, ?_⟩
        · simp [Accept.stops, hlimit, hsend]
        · simp [publicAcceptLoop, hlimit, hsend]
      | aborted =>
        refine .inl ⟨?_, .aborted, .inr rfl, ?_⟩
        · simp [Accept.stops, hlimit, hsend]
        · simp [publicAcceptLoop, hlimit, hsend]

theorem untilStop_of_stops (h : a.stops maxConns = true) : untilStop maxConns (a :: rest) = [] := by
  unfold untilStop
  rw [List.takeWhile_cons, h]
  rfl

theorem untilStop_of_not (h : a.stops maxConns = false) :
    untilStop maxConns (a :: rest) = a :: untilStop maxConns rest := by
  unfold untilStop
  rw [List.takeWhile_cons, h]
  rfl

/-- A visitor whose loop goes on does not decide whether the loop stays up. -/
theorem staysUp_cons {x : ProxyRequest × Fate} (hstop : a.stops maxConns = false)
    (hfate : a.fate localAddr maxConns = some x)
    (hloop : publicAcceptLoop localAddr maxConns (a :: rest) =
      (publicAcceptLoop localAddr maxConns rest).push x) :
    StaysUp localAddr maxConns (a :: rest) ↔ StaysUp localAddr maxConns rest := by
  have hlog : (untilStop maxConns (a :: rest)).filterMap (Accept.fate localAddr maxConns) =
      x :: (untilStop maxConns rest).filterMap (Accept.fate localAddr maxConns) := by
    rw [untilStop_of_not hstop, List.filterMap_cons_some hfate]
  constructor
  · intro ⟨hends, hall⟩
    rw [hloop] at hends
    rw [hloop, hlog] at hall
    exact ⟨hends, (List.cons.inj hall).2⟩
  · intro ⟨hends, hall⟩
    constructor
    · rw [hloop]
      exact hends
    · rw [hloop, hlog, ← hall]
      rfl

/-- The loop serves its listener until its channel is closed or its task is aborted if and
only if no `accept` fails before. -/
theorem accept_loop_exact (localAddr : String) (maxConns : Nat) (inputs : List Accept) :
    StaysUp localAddr maxConns inputs ↔ .error ∉ untilStop maxConns inputs := by
  induction inputs with
  | nil =>
    exact ⟨fun _ => List.not_mem_nil, fun _ => ⟨nofun, rfl⟩⟩
  | cons a rest ih =>
    rcases loop_cons localAddr maxConns a rest with ⟨hstop, why, hwhy, hloop⟩ |
      ⟨hstop, rfl, hloop⟩ | ⟨hstop, hne, x, hfate, hloop⟩
    · rw [untilStop_of_stops hstop]
      refine ⟨fun _ => List.not_mem_nil, fun _ => ⟨fun why' hended => ?_, ?_⟩⟩
      · rw [hloop] at hended
        cases hended
        exact hwhy
      · rw [hloop, untilStop_of_stops hstop]
        rfl
    · rw [untilStop_of_not hstop]
      refine ⟨fun h => ?_, fun h => absurd List.mem_cons_self h⟩
      rcases h.ends_only .acceptError (by rw [hloop]) with hwhy | hwhy
      · cases hwhy
      · cases hwhy
    · rw [staysUp_cons hstop hfate hloop, ih, untilStop_of_not hstop, List.mem_cons, not_or]
      exact ⟨fun h => ⟨hne.symm, h⟩, fun h => h.2⟩

end AcceptLoop

/-! ## The loop among the other tasks -/

theorem not_atConnLimit_zero (maxConns : Nat) : atConnLimit maxConns 0 = false := by
  cases maxConns <;> rfl

theorem atConnLimit_of_atConnLimit {env : Env} {s : Server} {k : SessionId}
    (h : s.AtConnLimit env k) :
    atConnLimit env.security.maxConnsPerClient (s.activeConns k) = true := by
  unfold atConnLimit
  rw [Bool.and_eq_true, bne_iff_ne, decide_eq_true_iff]
  exact h

theorem dropLoop_self (s : Server) (l : LoopId) : (s.dropLoop l).loops l = none :=
  Function.update_self ..

/-- A step with which a loop of the server ends an iteration does what `publicAcceptLoop`
does with some result of `accept`: the loop is there afterwards if and only if it goes on,
and the same requests enter the channel. Its `accept` fails exactly in the step
`acceptFails`. -/
theorem loopStep_served {env : Env} {s t : Server} {l : LoopId} {e : LoopEvent} {L : AcceptLoop}
    (h : Routed s) (hs : LoopStep env l s e t) (hL : s.loops l = some L)
    (hends : e = .accept → s.AtConnLimit env L.session) :
    ∃ a r, r = publicAcceptLoop L.localAddr env.security.maxConnsPerClient [a] ∧
      (a = .error ↔ e = .acceptFails) ∧ (r.ended = none ↔ t.loops l = some L) ∧
      t.channel = s.channel ++
        (r.log.filter fun x => x.2 == .enqueued).map fun x => (L.session, x.1) := by
  have hzero := not_atConnLimit_zero env.security.maxConnsPerClient
  have hdropped : ∀ (why : LoopEnd) {r : Served}, r.ended = some why →
      (r.ended = none ↔ (s.dropLoop l).loops l = some L) := fun why r hended => by
    rw [hended, dropLoop_self]
    exact ⟨by rintro ⟨⟩, by rintro ⟨⟩⟩
  cases hs with
  | @refused L' _ _ _ =>
    have hlimit := atConnLimit_of_atConnLimit (hends rfl)
    refine ⟨.visitor s.accepted.length (s.activeConns L.session) none, _, rfl,
      ⟨by rintro ⟨⟩, by rintro ⟨⟩⟩, ?_, ?_⟩
    · simp [publicAcceptLoop, hlimit, Served.push, hL]
    · simp [publicAcceptLoop, hlimit, Served.push]
  | @accept L' hL' _ hroom =>
    cases hL'.symm.trans hL
    exact absurd (hends rfl) hroom
  | @sendOk L' req pre post hL' hoffered _ _ =>
    cases hL'.symm.trans hL
    obtain ⟨L'', hL'', htarget, _⟩ := h.offered l req (by rw [hoffered]; simp)
    cases hL''.symm.trans hL
    refine ⟨.visitor req.conn 0 (some (0, .slot)), _, rfl, ⟨by rintro ⟨⟩, by rintro ⟨⟩⟩, ?_, ?_⟩
    · simp [publicAcceptLoop, hzero, timeout, Served.push, hL]
    · simp [publicAcceptLoop, hzero, timeout, Served.push, ← htarget]
  | @sendTimeout L' req pre post _ _ _ =>
    refine ⟨.visitor req.conn 0 none, _, rfl, ⟨by rintro ⟨⟩, by rintro ⟨⟩⟩, ?_, ?_⟩
    · simp [publicAcceptLoop, hzero, timeout, Served.push, hL]
    · simp [publicAcceptLoop, hzero, timeout, Served.push]
  | @sendClosed L' req _ _ _ =>
    refine ⟨.visitor req.conn 0 (some (0, .closed)), _, rfl, ⟨by rintro ⟨⟩, by rintro ⟨⟩⟩,
      hdropped .channelClosed ?_, ?_⟩
    · simp [publicAcceptLoop, hzero, timeout]
    · simp [publicAcceptLoop, hzero, timeout, Server.dropLoop]
  | acceptFails _ _ =>
    refine ⟨.error, _, rfl, ⟨fun _ => rfl, fun _ => rfl⟩, hdropped .acceptError rfl, ?_⟩
    simp [publicAcceptLoop, Server.dropLoop]
  | reap _ _ =>
    refine ⟨.aborted, _, rfl, ⟨by rintro ⟨⟩, by rintro ⟨⟩⟩, hdropped .aborted rfl, ?_⟩
    simp [publicAcceptLoop, Server.dropLoop]

/-- After one error of `accept` the loop is gone, with a visitor waiting whom it could have
enqueued at once. On the server the mapping is still enabled, its handle is still
registered and its session is still driven. -/
theorem listener_gone :
    ¬ StaysUp "127.0.0.1:80" 0 [.error, .visitor 0 0 (some (0, .slot))] ∧
      ∃ s peer, Reachable (Step exampleEnv) Init s ∧ s.clients.list = [exampleClient] ∧
        s.tunnels 0 = .live peer .driving ∧ (s.listeners 0).lookup exampleMapping.id = some 0 ∧
        s.loops 0 = none := by
  constructor
  · intro h
    rcases h.ends_only .acceptError rfl with hwhy | hwhy
    · cases hwhy
    · cases hwhy
  · have gone := reachable_serving.step (.loop (.acceptFails (l := 0) rfl nofun))
    exact ⟨_, _, gone, rfl, rfl, rfl, dropLoop_self _ _⟩

end MiniMask.Tunnel
