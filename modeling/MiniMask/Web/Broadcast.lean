import Mathlib.Data.List.Nodup
import Mathlib.Data.List.Perm.Subperm
import MiniMask.Lib.Feed

/-!
# The broadcaster (`state.rs`, `WsBroadcaster`)

Every dashboard has an unbounded channel, and a vector under a mutex has their senders.
`broadcast` and `subscriber_count` hold the mutex while `retain` goes from one sender to the
next; the other end of a channel is read and dropped at any time, also in the middle of it.

* `refines_feed`: the broadcaster is a feed. A message is in the log as soon as the call that
  broadcasts it has the mutex.
* `Sound`: whoever is subscribed has got, has in the queue or is about to be sent all that was
  broadcast since, in order and once.
* `count_between`: `subscriber_count` and `broadcast` forget nobody who is subscribed, and what
  the former returns lies between how many are subscribed then and how many were when it got
  the mutex.
-/

namespace MiniMask.Broadcast

open Lts

variable {α : Type}

/-! ## Definitions -/

/-- An unbounded channel, `closed` as soon as its receiver is dropped. `taken` is what was
received and `since` how much had been broadcast when it was made; nobody keeps these. -/
structure Channel (α : Type) where
  queue : List α
  closed : Bool
  taken : List α
  since : Nat

namespace Channel

/-- `UnboundedSender::send`, which fails once the receiver is gone. -/
def send (c : Channel α) (msg : α) : Option (Channel α) :=
  if c.closed then none else some { c with queue := c.queue ++ [msg] }

/-- The receiver is dropped, with what was not received. -/
def drop (c : Channel α) : Channel α := { c with closed := true, queue := [] }

/-- `msg` was received in front of `queue`. -/
def recv (c : Channel α) (msg : α) (queue : List α) : Channel α :=
  { c with queue, taken := c.taken ++ [msg] }

end Channel

inductive Op (α : Type)
  | subscriberCount
  | broadcast (msg : α)
deriving DecidableEq, Repr

namespace Op

/-- The closure that `retain` calls: the channel after it if the sender is kept. -/
def keep : Op α → Channel α → Option (Channel α)
  | .subscriberCount, c => if c.closed then none else some c
  | .broadcast msg, c => c.send msg

def sends : Op α → List α
  | .subscriberCount => []
  | .broadcast msg => [msg]

end Op

/-- A call of `retain`: the senders that it has kept and those it has not come to. `found` are
the channels that were open when it began, which nobody keeps. -/
structure Pass (α : Type) where
  op : Op α
  kept : List Nat
  rest : List Nat
  found : List Nat

/-- A sender is the number of its channel. `guard` is the call that holds the mutex, `next` the
number of the next channel, and `log` has all that was broadcast, which nobody keeps. -/
structure WsBroadcaster (α : Type) where
  clients : List Nat
  guard : Option (Pass α)
  channels : Nat → Channel α
  next : Nat
  log : List α

namespace WsBroadcaster

def new : WsBroadcaster α where
  clients := []
  guard := none
  channels := fun _ => { queue := [], closed := false, taken := [], since := 0 }
  next := 0
  log := []

def setChannel (b : WsBroadcaster α) (i : Nat) (c : Channel α) : WsBroadcaster α :=
  { b with channels := Function.update b.channels i c }

/-- The channels whose receiver is there. -/
def opened (b : WsBroadcaster α) : List Nat :=
  (List.range b.next).filter fun i => !(b.channels i).closed

def subscribe (b : WsBroadcaster α) : WsBroadcaster α :=
  { b.setChannel b.next { queue := [], closed := false, taken := [], since := b.log.length } with
    clients := b.clients ++ [b.next]
    next := b.next + 1 }

/-- `broadcast` or `subscriber_count` gets the mutex. -/
def lock (b : WsBroadcaster α) (op : Op α) : WsBroadcaster α :=
  { b with
    guard := some { op, kept := [], rest := b.clients, found := b.opened }
    log := b.log ++ op.sends }

/-- `retain` comes to the sender `i` in front of `rest`. -/
def visit (b : WsBroadcaster α) (p : Pass α) (i : Nat) (rest : List Nat) : WsBroadcaster α :=
  match p.op.keep (b.channels i) with
  | some c => { b.setChannel i c with guard := some { p with kept := p.kept ++ [i], rest } }
  | none => { b with guard := some { p with rest } }

/-- `retain` is through. -/
def unlock (b : WsBroadcaster α) (p : Pass α) : WsBroadcaster α :=
  { b with clients := p.kept, guard := none }

end WsBroadcaster

/-- `subscribe`, a call that holds the mutex, and the two things a receiver does. -/
inductive Event (α : Type)
  | subscribe
  | lock (op : Op α)
  | visit
  | unlock
  | recv (i : Nat) (msg : α)
  | drop (i : Nat)
deriving DecidableEq, Repr

inductive Step (b : WsBroadcaster α) : Event α → WsBroadcaster α → Prop
  | subscribe : b.guard = none → Step b .subscribe b.subscribe
  | lock (op : Op α) : b.guard = none → Step b (.lock op) (b.lock op)
  | visit {p : Pass α} {i : Nat} {rest : List Nat} :
      b.guard = some p → p.rest = i :: rest → Step b .visit (b.visit p i rest)
  | unlock {p : Pass α} : b.guard = some p → p.rest = [] → Step b .unlock (b.unlock p)
  | recv {i : Nat} {msg : α} {queue : List α} :
      i < b.next → (b.channels i).closed = false → (b.channels i).queue = msg :: queue →
      Step b (.recv i msg) (b.setChannel i ((b.channels i).recv msg queue))
  | drop {i : Nat} : i < b.next → Step b (.drop i) (b.setChannel i (b.channels i).drop)

def Init (b : WsBroadcaster α) : Prop := b = .new

/-! ## What is on its way to a subscriber -/

namespace WsBroadcaster

/-- The vector, in the middle of `retain` as well. -/
def senders (b : WsBroadcaster α) : List Nat :=
  match b.guard with
  | none => b.clients
  | some p => p.kept ++ p.rest

/-- What the call that holds the mutex will still send to `i`. -/
def pending (b : WsBroadcaster α) (i : Nat) : List α :=
  match b.guard with
  | none => []
  | some p => if i ∈ p.rest then p.op.sends else []

end WsBroadcaster

/-- The channel has had all of `log` since it was made, except for what is `pending`. -/
structure Channel.Flows (c : Channel α) (log pending : List α) : Prop where
  since : c.since ≤ log.length
  got : c.closed = false → c.taken ++ c.queue ++ pending = log.drop c.since

structure Sound (b : WsBroadcaster α) : Prop where
  nodup : b.senders.Nodup
  made : ∀ i ∈ b.senders, i < b.next
  /-- No subscriber is forgotten. -/
  held : ∀ i < b.next, (b.channels i).closed = false → i ∈ b.senders
  flows : ∀ i < b.next, (b.channels i).Flows b.log (b.pending i)
  /-- A call keeps only subscribers that it found. -/
  found : ∀ p, b.guard = some p →
    (∀ i ∈ p.kept, i ∈ p.found) ∧ ∀ i < b.next, (b.channels i).closed = false → i ∈ p.found

/-! ## Channels -/

theorem keep_open {op : Op α} {c : Channel α} (h : c.closed = false) :
    op.keep c = some { c with queue := c.queue ++ op.sends } := by
  have hopen : ¬ c.closed = true := Bool.not_eq_true _ ▸ h
  cases op with
  | subscriberCount =>
    unfold Op.keep Op.sends
    rw [List.append_nil]
    exact if_neg hopen
  | broadcast msg => exact if_neg hopen

theorem keep_closed {op : Op α} {c : Channel α} (h : c.closed = true) : op.keep c = none := by
  cases op with
  | subscriberCount => simp [Op.keep, h]
  | broadcast msg => simp [Op.keep, Channel.send, h]

namespace Channel.Flows

variable {c : Channel α} {log pending : List α}

theorem new (log : List α) :
    Flows { queue := [], closed := false, taken := [], since := log.length } log [] :=
  ⟨le_refl _, fun _ => (List.drop_length).symm⟩

/-- More is broadcast, which the channel is about to be sent if it is open. -/
theorem publish {pending' : List α} (h : c.Flows log []) (more : List α)
    (hpending : c.closed = false → pending' = more) : c.Flows (log ++ more) pending' := by
  refine ⟨h.since.trans (List.length_append ▸ Nat.le_add_right _ _), fun hopen => ?_⟩
  rw [hpending hopen, List.drop_append_of_le_length h.since, ← h.got hopen, List.append_nil]

theorem deliver (h : c.Flows log pending) :
    Flows { c with queue := c.queue ++ pending } log [] := by
  refine ⟨h.since, fun hopen => ?_⟩
  rw [← h.got hopen, List.append_nil, List.append_assoc c.taken c.queue pending]

theorem recv {msg : α} {queue : List α} (h : c.Flows log pending) (hq : c.queue = msg :: queue) :
    (c.recv msg queue).Flows log pending := by
  refine ⟨h.since, fun hopen => ?_⟩
  have hgot := h.got hopen
  rw [hq] at hgot
  simpa [Channel.recv] using hgot

theorem drop (h : c.Flows log pending) : c.drop.Flows log pending :=
  ⟨h.since, fun hopen => Bool.noConfusion hopen⟩

/-- Nothing matters to a channel that is closed. -/
theorem of_closed {pending' : List α} (h : c.Flows log pending) (hclosed : c.closed = true) :
    c.Flows log pending' :=
  ⟨h.since, fun hopen => absurd (hclosed.symm.trans hopen) Bool.noConfusion⟩

end Channel.Flows

/-! ## Every step keeps it -/

section Steps

variable {b b' : WsBroadcaster α} {i j : Nat} {c : Channel α}

theorem setChannel_self (b : WsBroadcaster α) (i : Nat) (c : Channel α) :
    (b.setChannel i c).channels i = c := by
  unfold WsBroadcaster.setChannel
  exact Function.update_self ..

theorem setChannel_of_ne (b : WsBroadcaster α) (c : Channel α) (h : j ≠ i) :
    (b.setChannel i c).channels j = b.channels j := by
  unfold WsBroadcaster.setChannel
  exact Function.update_of_ne h ..

theorem senders_of_free (h : b.guard = none) : b.senders = b.clients := by
  unfold WsBroadcaster.senders
  rw [h]

theorem senders_of_guard {p : Pass α} (h : b.guard = some p) : b.senders = p.kept ++ p.rest := by
  unfold WsBroadcaster.senders
  rw [h]

theorem pending_of_free (h : b.guard = none) (i : Nat) : b.pending i = [] := by
  unfold WsBroadcaster.pending
  rw [h]

theorem pending_of_guard {p : Pass α} (h : b.guard = some p) (i : Nat) :
    b.pending i = if i ∈ p.rest then p.op.sends else [] := by
  unfold WsBroadcaster.pending
  rw [h]

theorem mem_opened : i ∈ b.opened ↔ i < b.next ∧ (b.channels i).closed = false := by
  simp [WsBroadcaster.opened]

theorem sound_init (h : Init b) : Sound b := by
  subst h
  exact ⟨List.nodup_nil, nofun, nofun, nofun, nofun⟩

theorem sound_subscribe (h : Sound b) (hfree : b.guard = none) : Sound b.subscribe := by
  have hfree' : b.subscribe.guard = none := hfree
  have hsenders : b.subscribe.senders = b.senders ++ [b.next] := by
    rw [senders_of_free hfree, senders_of_free hfree']
    rfl
  have hold : ∀ i < b.next, b.subscribe.channels i = b.channels i := fun i hi =>
    setChannel_of_ne b _ (Nat.ne_of_lt hi)
  refine ⟨?_, fun i hi => ?_, fun i hi hopen => ?_, fun i hi => ?_, fun p hp => ?_⟩
  · rw [hsenders, ← List.concat_eq_append]
    exact h.nodup.concat fun hmem => (h.made _ hmem).false
  · rw [hsenders] at hi
    rcases List.mem_append.mp hi with hi | hi
    · exact (h.made i hi).trans (Nat.lt_succ_self _)
    · exact List.mem_singleton.mp hi ▸ Nat.lt_succ_self _
  · rw [hsenders]
    rcases Nat.lt_succ_iff_lt_or_eq.mp hi with hi | rfl
    · exact List.mem_append_left _ (h.held i hi (hold i hi ▸ hopen))
    · exact List.mem_append_right _ (List.mem_singleton.mpr rfl)
  · rw [pending_of_free hfree']
    rcases Nat.lt_succ_iff_lt_or_eq.mp hi with hi | rfl
    · rw [hold i hi, ← pending_of_free hfree i]
      exact h.flows i hi
    -- nothing has been broadcast since the channel was made
    · show Channel.Flows ((b.setChannel b.next _).channels b.next) b.log []
      rw [setChannel_self]
      exact .new b.log
  · cases hfree'.symm.trans hp

theorem sound_lock (h : Sound b) (hfree : b.guard = none) (op : Op α) : Sound (b.lock op) := by
  have hguard : (b.lock op).guard =
      some { op, kept := [], rest := b.clients, found := b.opened } := rfl
  have hsenders : (b.lock op).senders = b.senders := by
    rw [senders_of_guard hguard, senders_of_free hfree]
    rfl
  refine ⟨hsenders ▸ h.nodup, hsenders ▸ h.made, hsenders ▸ h.held, fun i hi => ?_, ?_⟩
  · have hflows := h.flows i hi
    rw [pending_of_free hfree] at hflows
    refine hflows.publish op.sends fun hopen => ?_
    rw [pending_of_guard hguard]
    -- whoever is subscribed has a sender in the vector, which the call will come to
    exact if_pos (senders_of_free hfree ▸ h.held i hi hopen)
  · rintro p ⟨⟩
    exact ⟨nofun, fun i hi hopen => mem_opened.mpr ⟨hi, hopen⟩⟩

/-- What the holder of the mutex does to a sender that it keeps. -/
theorem visit_open {p : Pass α} {rest : List Nat} (hopen : (b.channels i).closed = false) :
    b.visit p i rest =
      { b.setChannel i { b.channels i with queue := (b.channels i).queue ++ p.op.sends } with
        guard := some { p with kept := p.kept ++ [i], rest } } := by
  unfold WsBroadcaster.visit
  rw [keep_open hopen]

theorem visit_closed {p : Pass α} {rest : List Nat} (hclosed : (b.channels i).closed = true) :
    b.visit p i rest = { b with guard := some { p with rest } } := by
  unfold WsBroadcaster.visit
  rw [keep_closed hclosed]

theorem sound_visit {p : Pass α} {rest : List Nat} (h : Sound b) (hp : b.guard = some p)
    (hrest : p.rest = i :: rest) : Sound (b.visit p i rest) := by
  have hsenders := senders_of_guard hp
  rw [hrest] at hsenders
  have hnodup := h.nodup
  rw [hsenders] at hnodup
  have hi : i ∉ rest := (List.nodup_cons.mp hnodup.of_append_right).1
  have hnext : b.pending i = p.op.sends := by
    rw [pending_of_guard hp, hrest, if_pos List.mem_cons_self]
  have hother : ∀ j, j ≠ i → b.pending j = if j ∈ rest then p.op.sends else [] := fun j hj => by
    rw [pending_of_guard hp, hrest]
    simp [hj]
  obtain ⟨hkept, hfound⟩ := h.found p hp
  -- a sender whose receiver is gone goes out of the vector; to any other the message is sent
  cases hc : (b.channels i).closed with
  | true =>
    rw [visit_closed hc]
    have hsub : List.Sublist (p.kept ++ rest) b.senders :=
      hsenders ▸ (List.Sublist.refl p.kept).append (List.sublist_cons_self i rest)
    refine ⟨h.nodup.sublist hsub, fun j hj => h.made j (hsub.mem hj), fun j hj hopen => ?_,
      fun j hj => ?_, ?_⟩
    · have hmem := h.held j hj hopen
      rw [hsenders] at hmem
      rcases List.mem_append.mp hmem with hmem | hmem
      · exact List.mem_append_left _ hmem
      · rcases List.mem_cons.mp hmem with rfl | hmem
        · exact absurd (hc.symm.trans hopen) Bool.noConfusion
        · exact List.mem_append_right _ hmem
    · rw [pending_of_guard rfl]
      by_cases hj' : j = i
      · exact hj' ▸ (h.flows i (hj' ▸ hj)).of_closed hc
      · rw [← hother j hj']
        exact h.flows j hj
    · rintro q ⟨⟩
      exact ⟨hkept, hfound⟩
  | false =>
    rw [visit_open hc]
    have hclosed : ∀ j, ((b.setChannel i
        { b.channels i with queue := (b.channels i).queue ++ p.op.sends }).channels j).closed =
          (b.channels j).closed := fun j => by
      by_cases hj : j = i
      · rw [hj, setChannel_self]
      · rw [setChannel_of_ne b _ hj]
    have hsame : p.kept ++ [i] ++ rest = b.senders := by
      rw [hsenders, List.append_assoc]
      rfl
    have hilt : i < b.next := h.made i (hsenders ▸ List.mem_append_right _ List.mem_cons_self)
    refine ⟨?_, ?_, fun j hj hopen => ?_, fun j hj => ?_, ?_⟩
    · rw [senders_of_guard rfl, hsame]
      exact h.nodup
    · rw [senders_of_guard rfl, hsame]
      exact h.made
    · rw [senders_of_guard rfl, hsame]
      exact h.held j hj ((hclosed j).symm.trans hopen)
    · rw [pending_of_guard rfl]
      by_cases hj' : j = i
      · subst hj'
        have hflows := h.flows j hj
        rw [hnext] at hflows
        show Channel.Flows ((b.setChannel j _).channels j) b.log _
        rw [setChannel_self, if_neg hi]
        -- what was on its way to `i` is in its queue now
        exact hflows.deliver
      · show Channel.Flows ((b.setChannel i _).channels j) b.log _
        rw [setChannel_of_ne b _ hj', ← hother j hj']
        exact h.flows j hj
    · rintro q ⟨⟩
      refine ⟨fun j hj => ?_, fun j hj hopen => hfound j hj ((hclosed j).symm.trans hopen)⟩
      rcases List.mem_append.mp hj with hj | hj
      · exact hkept j hj
      · exact List.mem_singleton.mp hj ▸ hfound i hilt hc

theorem sound_unlock {p : Pass α} (h : Sound b) (hp : b.guard = some p) (hrest : p.rest = []) :
    Sound (b.unlock p) := by
  have hsenders : (b.unlock p).senders = b.senders := by
    rw [senders_of_guard hp, senders_of_free rfl, hrest, List.append_nil]
    rfl
  refine ⟨hsenders ▸ h.nodup, hsenders ▸ h.made, hsenders ▸ h.held, fun i hi => ?_, nofun⟩
  have hflows := h.flows i hi
  rw [pending_of_guard hp, hrest, if_neg List.not_mem_nil] at hflows
  rw [pending_of_free rfl]
  exact hflows

/-- A receiver does something to its own channel, which stays closed if it is. -/
theorem sound_setChannel (h : Sound b)
    (hclosed : c.closed = false → (b.channels i).closed = false)
    (hflows : i < b.next → c.Flows b.log (b.pending i)) : Sound (b.setChannel i c) := by
  have hopen : ∀ j, ((b.setChannel i c).channels j).closed = false →
      (b.channels j).closed = false := fun j hj => by
    by_cases hji : j = i
    · rw [hji, setChannel_self] at hj
      exact hji ▸ hclosed hj
    · rwa [setChannel_of_ne b c hji] at hj
  refine ⟨h.nodup, h.made, fun j hj hj' => h.held j hj (hopen j hj'), fun j hj => ?_,
    fun p hp => ⟨(h.found p hp).1, fun j hj hj' => (h.found p hp).2 j hj (hopen j hj')⟩⟩
  by_cases hji : j = i
  · subst hji
    rw [setChannel_self]
    exact hflows hj
  · rw [setChannel_of_ne b c hji]
    exact h.flows j hj

theorem sound_step {e : Event α} (h : Sound b) (hs : Step b e b') : Sound b' := by
  cases hs with
  | subscribe hfree => exact sound_subscribe h hfree
  | lock op hfree => exact sound_lock h hfree op
  | visit hp hrest => exact sound_visit h hp hrest
  | unlock hp hrest => exact sound_unlock h hp hrest
  | @recv i msg queue hi hopen hq =>
    exact sound_setChannel h (fun _ => hopen) fun hi => (h.flows i hi).recv hq
  | @drop i hi => exact sound_setChannel h Bool.noConfusion fun hi => (h.flows i hi).drop

theorem sound (h : Reachable Step Init b) : Sound b :=
  h.invariant (fun _ hb => sound_init hb) (fun _ _ _ hb hs => sound_step hb hs)

/-! ## The broadcaster is a feed -/

/-- The number of a channel is that of a reader. -/
def feed (b : WsBroadcaster α) : Feed α where
  log := b.log
  readers := fun i =>
    if i < b.next then
      some ⟨(b.channels i).since, (b.channels i).taken, !(b.channels i).closed⟩
    else none

theorem feed_readers (hi : i < b.next) : (feed b).readers i =
    some ⟨(b.channels i).since, (b.channels i).taken, !(b.channels i).closed⟩ :=
  if_pos hi

theorem feed_readers_of_le (hi : b.next ≤ i) : (feed b).readers i = none :=
  if_neg (Nat.not_lt_of_le hi)

/-- Only what a reader can tell of a channel matters. -/
theorem feed_readers_congr (hnext : b'.next = b.next) (hsame : b'.channels i = b.channels i) :
    (feed b').readers i = (feed b).readers i := by
  unfold feed
  dsimp only
  rw [hnext, hsame]

theorem feed_setChannel (hi : i < b.next) (c : Channel α) :
    feed (b.setChannel i c) = (feed b).setReader i ⟨c.since, c.taken, !c.closed⟩ := by
  refine Feed.eq_setReader rfl ?_ fun j hj => feed_readers_congr rfl (setChannel_of_ne b c hj)
  rw [feed_readers (b := b.setChannel i c) hi, setChannel_self]

/-- What is sent to a channel is not read yet. -/
theorem feed_send (b : WsBroadcaster α) (i : Nat) (queue : List α) :
    feed (b.setChannel i { b.channels i with queue }) = feed b := by
  refine Feed.ext rfl (funext fun j => ?_)
  by_cases hj : j = i
  · subst hj
    unfold feed
    dsimp only
    rw [setChannel_self]
    rfl
  · exact feed_readers_congr rfl (setChannel_of_ne b _ hj)

theorem feed_subscribe (b : WsBroadcaster α) :
    feed b.subscribe = (feed b).setReader b.next ⟨b.log.length, [], true⟩ := by
  have hnew : b.subscribe.channels b.next =
      { queue := [], closed := false, taken := [], since := b.log.length } :=
    setChannel_self b _ _
  have hnext : b.next < b.subscribe.next := Nat.lt_succ_self _
  refine Feed.eq_setReader rfl ?_ fun j hj => ?_
  · rw [feed_readers hnext, hnew]
    rfl
  · have hold : b.subscribe.channels j = b.channels j := setChannel_of_ne b _ hj
    rcases Nat.lt_or_ge j b.next with hlt | hge
    · rw [feed_readers hlt, feed_readers (hlt.trans hnext), hold]
    · have hge' : b.subscribe.next ≤ j := Nat.lt_of_le_of_ne hge (Ne.symm hj)
      rw [feed_readers_of_le hge, feed_readers_of_le hge']

/-- What a step does to the log and the readers. -/
def Event.Moves (b b' : WsBroadcaster α) : Event α → Prop
  | .subscribe => feed b' = (feed b).setReader b.next ⟨b.log.length, [], true⟩
  | .lock op => feed b' = { feed b with log := b.log ++ op.sends }
  | .visit | .unlock => feed b' = feed b
  | .recv i msg => ∃ r, (feed b).readers i = some r ∧ r.live = true ∧
      feed b' = (feed b).setReader i { r with got := r.got ++ [msg] }
  | .drop i => ∃ r, (feed b).readers i = some r ∧
      feed b' = (feed b).setReader i { r with live := false }

theorem moves_step {e : Event α} (hs : Step b e b') : e.Moves b b' := by
  cases hs with
  | subscribe hfree => exact feed_subscribe b
  | lock op hfree => exact rfl
  | @visit p i rest hp hrest =>
    cases hc : (b.channels i).closed with
    | true => exact visit_closed hc ▸ rfl
    | false =>
      rw [visit_open hc]
      exact feed_send b i _
  | unlock hp hrest => exact rfl
  | @recv i msg queue hi hopen hq =>
    exact ⟨_, feed_readers hi, congrArg not hopen, feed_setChannel hi _⟩
  | @drop i hi => exact ⟨_, feed_readers hi, feed_setChannel hi _⟩

theorem readers_lock {op : Op α} (hs : Step b (.lock op) b') :
    (feed b').readers = (feed b).readers := by
  have hfeed : feed b' = { feed b with log := b.log ++ op.sends } := moves_step hs
  rw [hfeed]

/-- Who is there after a step was there before it, or has just subscribed. -/
theorem survivor {e : Event α} {r : Feed.Reader α} (hs : Step b e b')
    (hr : (feed b').readers i = some r) (hlive : r.live = true) :
    (∃ r₀, (feed b).readers i = some r₀ ∧ r₀.live = true ∧ r₀.start = r.start) ∨
      e = .subscribe ∧ i = b.next := by
  have hmoves := moves_step hs
  cases hs with
  | subscribe hfree =>
    have hfeed : feed b.subscribe = _ := hmoves
    rw [hfeed] at hr
    by_cases hi : i = b.next
    · exact .inr ⟨rfl, hi⟩
    · exact .inl ⟨r, (Feed.readers_setReader_of_ne _ _ hi).symm.trans hr, hlive, rfl⟩
  | lock op hfree => exact .inl ⟨r, hr, hlive, rfl⟩
  | visit _ _ | unlock _ _ =>
    rw [hmoves] at hr
    exact .inl ⟨r, hr, hlive, rfl⟩
  | @recv j msg queue hj hopen hq =>
    obtain ⟨r₀, hr₀, hlive₀, hfeed⟩ := hmoves
    rw [hfeed] at hr
    by_cases hi : i = j
    · subst hi
      cases (Feed.readers_setReader_self ..).symm.trans hr
      exact .inl ⟨r₀, hr₀, hlive₀, rfl⟩
    · exact .inl ⟨r, (Feed.readers_setReader_of_ne _ _ hi).symm.trans hr, hlive, rfl⟩
  | @drop j hj =>
    obtain ⟨r₀, hr₀, hfeed⟩ := hmoves
    rw [hfeed] at hr
    by_cases hi : i = j
    · subst hi
      cases (Feed.readers_setReader_self ..).symm.trans hr
      cases hlive
    · exact .inl ⟨r, (Feed.readers_setReader_of_ne _ _ hi).symm.trans hr, hlive, rfl⟩

/-- What is next in the queue is next in the log. -/
theorem next_in_log {msg : α} {queue : List α} (h : Sound b) (hi : i < b.next)
    (hopen : (b.channels i).closed = false) (hq : (b.channels i).queue = msg :: queue) :
    b.log[(b.channels i).since + (b.channels i).taken.length]? = some msg := by
  have hgot := (h.flows i hi).got hopen
  rw [← List.getElem?_drop, ← hgot, hq, List.append_assoc,
    List.getElem?_append_right (le_refl _), Nat.sub_self]
  rfl

theorem feed_step {e : Event α} (h : Sound b) (hs : Step b e b') :
    feed b' = feed b ∨ ∃ e', Feed.Step (feed b) e' (feed b') := by
  have hmoves := moves_step hs
  cases hs with
  | subscribe hfree =>
    refine .inr ⟨.join b.next, ?_⟩
    rw [feed_subscribe]
    exact .join (feed_readers_of_le (le_refl _))
  | lock op hfree =>
    cases op with
    | subscriberCount => exact .inl (Feed.ext (List.append_nil b.log) rfl)
    | broadcast msg => exact .inr ⟨.publish msg, .publish msg⟩
  | visit _ _ | unlock _ _ => exact .inl hmoves
  | @recv i msg queue hi hopen hq =>
    refine .inr ⟨.read i, ?_⟩
    rw [feed_setChannel hi]
    exact .read (feed_readers hi) (congrArg not hopen) (next_in_log h hi hopen hq)
  | @drop i hi =>
    refine .inr ⟨.leave i, ?_⟩
    rw [feed_setChannel hi]
    exact .leave (feed_readers hi)

theorem simulation : Simulation (Step (α := α)) Sound Feed.Step feed :=
  ⟨fun _ _ _ => sound_step, fun _ _ _ => feed_step⟩

theorem feed_init (h : Init b) : Feed.Init (feed b) := by
  subst h
  exact Feed.ext rfl (funext fun i => feed_readers_of_le (Nat.zero_le i))

theorem refines_feed (h : Reachable Step Init b) : Reachable Feed.Step Feed.Init (feed b) :=
  (simulation.reachable (fun _ h => ⟨sound_init h, feed_init h⟩) h).2

/-! ## What follows for subscribers -/

/-- What was received of a channel, in the log. -/
theorem taken_prefix (h : Reachable Step Init b) (hi : i < b.next) :
    (b.channels i).taken <+: b.log.drop (b.channels i).since :=
  Feed.got_segment (refines_feed h) (feed_readers hi)

/-- Who has come to the end of the queue while no message is on its way has got them all. -/
theorem taken_all (h : Reachable Step Init b) (hi : i < b.next)
    (hopen : (b.channels i).closed = false) (hqueue : (b.channels i).queue = [])
    (hpending : b.pending i = []) : (b.channels i).taken = b.log.drop (b.channels i).since := by
  have hgot := ((sound h).flows i hi).got hopen
  rwa [hqueue, hpending, List.append_nil, List.append_nil] at hgot

theorem opened_nodup (b : WsBroadcaster α) : b.opened.Nodup := List.nodup_range.filter _

/-- A call of `retain` that is through has kept everybody who is subscribed. -/
theorem opened_kept {p : Pass α} (h : Reachable Step Init b) (hp : b.guard = some p)
    (hrest : p.rest = []) (hi : i ∈ b.opened) : i ∈ p.kept := by
  have hsenders : b.senders = p.kept := by
    rw [senders_of_guard hp, hrest, List.append_nil]
  obtain ⟨hlt, hopen⟩ := mem_opened.mp hi
  exact hsenders ▸ (sound h).held i hlt hopen

/-- Whom a call found is in the vector, which stays as it is until the call is through. -/
theorem found_listed {p : Pass α} (h : Reachable Step Init b) (hp : b.guard = some p) :
    p.found.Subperm b.clients := by
  let Listed (b : WsBroadcaster α) : Prop := ∀ p, b.guard = some p → p.found.Subperm b.clients
  suffices hlisted : Listed b from hlisted p hp
  refine h.invariant_of (fun _ => sound) (fun b hb p hp => ?_) ?_
  · subst hb
    cases hp
  intro b e b' hsound hlisted hs p' hp'
  cases hs with
  | subscribe hfree => cases hfree.symm.trans hp'
  | lock op hfree =>
    cases hp'
    refine (opened_nodup b).subperm fun i hi => ?_
    obtain ⟨hlt, hopen⟩ := mem_opened.mp hi
    exact senders_of_free hfree ▸ hsound.held i hlt hopen
  | @visit p i rest hp hrest =>
    cases hc : (b.channels i).closed with
    | true =>
      rw [visit_closed hc] at hp' ⊢
      cases hp'
      exact hlisted p hp
    | false =>
      rw [visit_open hc] at hp' ⊢
      cases hp'
      exact hlisted p hp
  | unlock _ _ => cases hp'
  | recv _ _ _ | drop _ => exact hlisted p' hp'

/-- A call of `retain` that is through has kept everybody who is subscribed, and no one who
was not when it began. Those who were are in the vector of that time. -/
theorem count_between {p : Pass α} (h : Reachable Step Init b) (hp : b.guard = some p)
    (hrest : p.rest = []) :
    (∀ i ∈ b.opened, i ∈ p.kept) ∧ (∀ i ∈ p.kept, i ∈ p.found) ∧
      b.opened.length ≤ p.kept.length ∧ p.kept.length ≤ p.found.length ∧
      p.found.Subperm b.clients := by
  have hkept : ∀ i ∈ b.opened, i ∈ p.kept := fun _ => opened_kept h hp hrest
  have hfound := ((sound h).found p hp).1
  have hnodup : p.kept.Nodup := by
    have hsenders := (sound h).nodup
    rw [senders_of_guard hp, hrest, List.append_nil] at hsenders
    exact hsenders
  exact ⟨hkept, hfound, ((opened_nodup b).subperm hkept).length_le,
    (hnodup.subperm hfound).length_le, found_listed h hp⟩

end Steps

/-- One subscriber leaves after it was counted. -/
theorem count_between_leaving : ∃ (b : WsBroadcaster Nat) (p : Pass Nat), Reachable Step Init b ∧
    b.guard = some p ∧ p.kept.length = 2 ∧ b.opened.length = 1 ∧ ∀ i ∈ p.kept, i ∈ p.found := by
  have new : Reachable Step Init (.new : WsBroadcaster Nat) := .init rfl
  have subscribed := (new.step (.subscribe rfl)).step (.subscribe rfl)
  have visited := ((subscribed.step (.lock .subscriberCount rfl)).step
    (.visit (i := 0) rfl rfl)).step (.drop (i := 0) Nat.zero_lt_two)
  have counted := visited.step (.visit (i := 1) rfl rfl)
  have hboth := count_between (p := ⟨.subscriberCount, [0, 1], [], [0, 1]⟩) counted rfl rfl
  exact ⟨_, _, counted, rfl, rfl, rfl, hboth.2.1⟩

end MiniMask.Broadcast
