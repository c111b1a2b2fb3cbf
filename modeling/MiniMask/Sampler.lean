import Mathlib.Logic.Function.Basic
import MiniMask.Lib.Series
import MiniMask.Lib.Transition
import MiniMask.Store.Clients
import MiniMask.Tunnel.ByteCount

/-!
# The traffic history (`server.rs`, `stats_sampler`; `state.rs`, `Stats`)

At every tick the sampler loads the two byte counters of `Stats`, records by how much each
of them has grown since the tick before, and keeps the last 120 of these samples. Nothing
holds the tasks back that add to the counters, so these may grow between any two steps of
the sampler.

* `traffic_conserved`: the samples between two ticks account for all that a counter gained
  between its readings at these ticks.
* `copied_sampled`: the same for the bytes that the copy loops delivered.
-/

namespace MiniMask.Sampler

open Lts Series
open Proxy (Dir)

/-! ## Definitions -/

structure Sample where
  ts : Timestamp
  rateIn : Nat
  rateOut : Nat
  activeConns : Nat
deriving DecidableEq, Repr

/-- `rate_in` is about `bytes_in`, `rate_out` about `bytes_out`. -/
def Sample.rate (s : Sample) : Dir → Nat
  | .inc => s.rateIn
  | .out => s.rateOut

/-- What the sampler loads: `bytes_in` and `bytes_out`, and `active_conns`. -/
structure Counters where
  bytes : Dir → Nat
  activeConns : Nat

def Counters.add (c : Counters) (d : Dir) (n : Nat) : Counters :=
  { c with bytes := Function.update c.bytes d (CopyCount.Shared.fetchAdd (c.bytes d) n) }

def historyCap : Nat := 120

/-- The history after `record_sample`, which pushes and drains under one write lock. -/
def recordSample (history : List Sample) (s : Sample) : List Sample :=
  let h := history ++ [s]
  if historyCap < h.length then h.drop (h.length - historyCap) else h

/-- Before the load of `prev_in` and before that of `prev_out`; in `interval.tick()`; before
`cur_in` and before `cur_out`; with the rates; with the sample, in front of the lock of
`history`; before and after the check for subscribers. -/
inductive Stage
  | starting
  | startingOut
  | waiting
  | ticked
  | loadedIn (curIn : Nat)
  | recording (rateIn rateOut : Nat)
  | pushing (s : Sample)
  | recorded
  | refreshed
deriving DecidableEq, Repr

/-- The sampler, and the history that only it writes. `ticks`, `reads` and `samples` are the
ticks so far, all that it loaded of either counter and all samples, which nobody keeps. -/
structure Loop where
  stage : Stage
  prev : Dir → Nat
  history : List Sample
  idleTicks : Nat
  hasSubs : Bool
  ticks : Nat
  reads : Dir → List Nat
  samples : List Sample

/-- `count n` is the answer of `subscriber_count`. -/
inductive Act
  | load (d : Dir)
  | tick
  | sample (ts : Timestamp)
  | push
  | count (n : Nat)
  | idle
  | broadcast
  | pass
deriving DecidableEq, Repr

namespace Loop

def init : Loop where
  stage := .starting
  prev := fun _ => 0
  history := []
  idleTicks := 0
  hasSubs := false
  ticks := 0
  reads := fun _ => []
  samples := []

def setPrev (l : Loop) (d : Dir) (n : Nat) : Loop :=
  { l with prev := Function.update l.prev d n }

/-- `n` was loaded of the counter of `d`. -/
def noteRead (l : Loop) (d : Dir) (n : Nat) : Loop :=
  { l with reads := Function.update l.reads d (l.reads d ++ [n]) }

/-- One step of `stats_sampler`, which finds the counters at `c`. A difference of `Nat` is a
`saturating_sub`. -/
inductive Step (c : Counters) (l : Loop) : Act → Loop → Prop
  | prevIn :
      l.stage = .starting →
      Step c l (.load .inc)
        { (l.noteRead .inc (c.bytes .inc)).setPrev .inc (c.bytes .inc) with
          stage := .startingOut }
  | prevOut :
      l.stage = .startingOut →
      Step c l (.load .out)
        { (l.noteRead .out (c.bytes .out)).setPrev .out (c.bytes .out) with stage := .waiting }
  | tick : l.stage = .waiting → Step c l .tick { l with stage := .ticked, ticks := l.ticks + 1 }
  | curIn :
      l.stage = .ticked →
      Step c l (.load .inc)
        { l.noteRead .inc (c.bytes .inc) with stage := .loadedIn (c.bytes .inc) }
  | curOut {curIn : Nat} :
      l.stage = .loadedIn curIn →
      Step c l (.load .out)
        { ((l.noteRead .out (c.bytes .out)).setPrev .inc curIn).setPrev .out (c.bytes .out) with
          stage := .recording (curIn - l.prev .inc) (c.bytes .out - l.prev .out) }
  | sample {rateIn rateOut : Nat} (ts : Timestamp) :
      l.stage = .recording rateIn rateOut →
      Step c l (.sample ts)
        { l with stage := .pushing { ts, rateIn, rateOut, activeConns := c.activeConns } }
  | push {s : Sample} :
      l.stage = .pushing s →
      Step c l .push
        { l with
          stage := .recorded
          history := recordSample l.history s
          samples := l.samples ++ [s] }
  | count (n : Nat) :
      l.stage = .recorded → l.hasSubs = true ∨ 5 ≤ l.idleTicks →
      Step c l (.count n) { l with stage := .refreshed, hasSubs := decide (0 < n), idleTicks := 0 }
  | idle :
      l.stage = .recorded → ¬ (l.hasSubs = true ∨ 5 ≤ l.idleTicks) →
      Step c l .idle { l with stage := .refreshed, idleTicks := l.idleTicks + 1 }
  | broadcast :
      l.stage = .refreshed → l.hasSubs = true →
      Step c l .broadcast { l with stage := .waiting }
  | pass :
      l.stage = .refreshed → l.hasSubs = false →
      Step c l .pass { l with stage := .waiting }

end Loop

/-! ## The sampler and its surroundings -/

/-- `given` is the sum of all that was added to the counters. -/
structure State where
  counters : Counters
  given : Dir → Nat
  loop : Loop

inductive Event
  | add (d : Dir) (n : Nat)
  | conns (n : Nat)
  | loop (a : Act)
deriving DecidableEq, Repr

def Init (s : State) : Prop :=
  s = { counters := { bytes := fun _ => 0, activeConns := 0 }
        given := fun _ => 0
        loop := .init }

/-- Some task adds to a counter or changes `active_conns`, or the sampler takes a step. -/
inductive Step (s : State) : Event → State → Prop
  | add (d : Dir) (n : Nat) :
      Step s (.add d n)
        { s with
          counters := s.counters.add d n
          given := Function.update s.given d (s.given d + n) }
  | conns (n : Nat) : Step s (.conns n) { s with counters := { s.counters with activeConns := n } }
  | loop {a : Act} {l : Loop} :
      Loop.Step s.counters s.loop a l → Step s (.loop a) { s with loop := l }

/-! ## What the history says -/

/-- In a tick whose sample is not in the history yet. -/
def Stage.unrecorded : Stage → Bool
  | .ticked | .loadedIn _ | .recording _ _ | .pushing _ => true
  | _ => false

namespace Loop

/-- How many samples are not kept any more. -/
def dropped (l : Loop) : Nat := l.samples.length - l.history.length

/-- The samples in the history after that of tick `i`, up to that of tick `j`. -/
def between (l : Loop) (i j : Nat) : List Sample :=
  (l.history.drop (i - l.dropped)).take (j - i)

/-- Every tick leaves a sample, and the last 120 of them are there, oldest first. -/
structure Windowed (l : Loop) : Prop where
  ticks : l.ticks = l.samples.length + l.stage.unrecorded.toNat
  history : l.history = l.samples.rtake historyCap
  length : l.history.length = min l.samples.length historyCap

/-- What the samples say about a counter. `reads d` starts with the load of `prev_in` or
`prev_out` and has that of tick `i` at `i`; the sample of tick `i` is the `i - 1`-st. -/
structure Conserved (l : Loop) (d : Dir) : Prop where
  /-- The samples between two ticks that are still there make up the growth between them. -/
  retained : ∀ i j, l.dropped < i → i < j → j ≤ l.samples.length →
    ∃ a b, (l.reads d)[i]? = some a ∧ (l.reads d)[j]? = some b ∧
      a + ((l.between i j).map (·.rate d)).sum = b
  /-- No subtraction was cut off at zero. -/
  unclipped : ∀ k s, l.samples[k]? = some s →
    ∃ a, (l.reads d)[k]? = some a ∧ (l.reads d)[k + 1]? = some (a + s.rate d)
  /-- Every byte between the first reading and the last one is in exactly one sample. -/
  attributed : ∀ first last x, (l.reads d)[0]? = some first →
    (l.reads d)[l.samples.length]? = some last → first ≤ x → x < last →
    ∃! k, Holds (l.samples.map (·.rate d)) (l.reads d) x k

end Loop

/-! ## The window -/

theorem recordSample_eq (history : List Sample) (s : Sample) :
    recordSample history s = (history ++ [s]).rtake historyCap := by
  unfold recordSample List.rtake
  dsimp only
  split
  · rfl
  · rename_i hfits
    rw [Nat.sub_eq_zero_of_le (Nat.le_of_not_lt hfits), List.drop_zero]

namespace Loop

variable {c : Counters} {l l' : Loop} {a : Act}

theorem windowed_of (hticks : l.ticks = l.samples.length + l.stage.unrecorded.toNat)
    (hhistory : l.history = l.samples.rtake historyCap) : Windowed l :=
  ⟨hticks, hhistory, by rw [hhistory, length_rtake]⟩

theorem windowed_init : Windowed init := windowed_of rfl rfl

theorem windowed_step (h : Windowed l) (hs : Step c l a l') : Windowed l' := by
  have hticks := h.ticks
  cases hs with
  | push hstage =>
    refine windowed_of ?_ ?_
    · rw [hstage] at hticks
      simpa [Stage.unrecorded] using hticks
    · show recordSample l.history _ = _
      rw [recordSample_eq, h.history, rtake_rtake_concat]
  | prevIn hstage | prevOut hstage | tick hstage | curIn hstage | curOut hstage
  | sample _ hstage | count _ hstage _ | idle hstage _ | broadcast hstage _ | pass hstage _ =>
    rw [hstage] at hticks
    exact windowed_of (by simpa [Stage.unrecorded, noteRead, setPrev] using hticks) h.history

/-- The drained samples are those before the last 120. -/
theorem Windowed.dropped_eq (h : Windowed l) : l.dropped = l.samples.length - historyCap := by
  unfold dropped
  rw [h.length]
  omega

theorem Windowed.between_eq (h : Windowed l) {i : Nat} (hi : l.dropped ≤ i) (j : Nat) :
    l.between i j = (l.samples.drop i).take (j - i) := by
  rw [h.dropped_eq] at hi
  unfold between
  rw [h.dropped_eq, h.history, drop_rtake hi]

/-- `idle_ticks` stays far from the end of its `u32`. -/
theorem idleTicks_step (h : l.idleTicks ≤ 5) (hs : Step c l a l') : l'.idleTicks ≤ 5 := by
  cases hs with
  | count _ _ _ => exact Nat.zero_le 5
  | idle _ hfew => exact Nat.lt_of_not_le fun hle => hfew (.inr hle)
  | _ => exact h

/-! ## What a step does to the readings -/

/-- The counter of `d` was loaded once. -/
def started (l : Loop) (d : Dir) : Bool :=
  match l.stage, d with
  | .starting, _ => false
  | .startingOut, .out => false
  | _, _ => true

/-- The rate of the current tick, as soon as it is settled, until its sample is recorded. -/
def pending (l : Loop) (d : Dir) : List Nat :=
  match l.stage, d with
  | .loadedIn curIn, .inc => [curIn - l.prev .inc]
  | .recording rateIn _, .inc => [rateIn]
  | .recording _ rateOut, .out => [rateOut]
  | .pushing s, d => [s.rate d]
  | _, _ => []

/-- The rates so far. -/
def rates (l : Loop) (d : Dir) : List Nat := l.samples.map (·.rate d) ++ l.pending d

/-- What was loaded last. -/
def last (l : Loop) (d : Dir) : Nat :=
  match l.stage, d with
  | .loadedIn curIn, .inc => curIn
  | _, _ => l.prev d

/-- What a step of the sampler does to the readings of a counter that is at `now`: nothing,
or it is the first load, or the load of a tick. -/
inductive Reads (now : Nat) (l l' : Loop) (d : Dir) : Prop
  | none :
      l'.started d = l.started d → l'.rates d = l.rates d → l'.reads d = l.reads d →
      l'.last d = l.last d → Reads now l l' d
  | first :
      l.started d = false → l'.started d = true → l'.rates d = l.rates d →
      l'.reads d = l.reads d ++ [now] → l'.last d = now → Reads now l l' d
  | next :
      l.started d = true → l'.started d = true →
      l'.rates d = l.rates d ++ [now - l.last d] → l'.reads d = l.reads d ++ [now] →
      l'.last d = now → Reads now l l' d

theorem reads_step (hs : Step c l a l') (d : Dir) : Reads (c.bytes d) l l' d := by
  cases hs with
  | prevIn hstage =>
    cases d with
    | inc => apply Reads.first <;> simp [started, rates, pending, last, noteRead, setPrev, hstage]
    | out => apply Reads.none <;> simp [started, rates, pending, last, noteRead, setPrev, hstage]
  | prevOut hstage =>
    cases d with
    | inc => apply Reads.none <;> simp [started, rates, pending, last, noteRead, setPrev, hstage]
    | out => apply Reads.first <;> simp [started, rates, pending, last, noteRead, setPrev, hstage]
  | curIn hstage =>
    cases d with
    | inc => apply Reads.next <;> simp [started, rates, pending, last, noteRead, hstage]
    | out => apply Reads.none <;> simp [started, rates, pending, last, noteRead, hstage]
  | curOut hstage =>
    cases d with
    | inc => apply Reads.none <;> simp [started, rates, pending, last, noteRead, setPrev, hstage]
    | out => apply Reads.next <;> simp [started, rates, pending, last, noteRead, setPrev, hstage]
  | sample _ hstage =>
    cases d <;>
      apply Reads.none <;> simp [started, rates, pending, last, Sample.rate, hstage]
  | tick hstage | push hstage | count _ hstage _ | idle hstage _ | broadcast hstage _
  | pass hstage _ =>
    apply Reads.none <;> simp [started, rates, pending, last, hstage]

/-! ## The readings are a series -/

/-- The readings of a counter that is at `now`. -/
structure Tracks (l : Loop) (d : Dir) (now : Nat) : Prop where
  before : l.started d = false → l.rates d = [] ∧ l.reads d = []
  series : l.started d = true → Grows (l.rates d) (l.reads d) (l.last d) ∧ l.last d ≤ now

theorem tracks_init (d : Dir) (now : Nat) : Tracks init d now :=
  ⟨fun _ => ⟨rfl, rfl⟩, fun h => by cases h⟩

/-- The counter grows. -/
theorem Tracks.mono {d : Dir} {now now' : Nat} (h : Tracks l d now) (hle : now ≤ now') :
    Tracks l d now' :=
  ⟨h.before, fun hs => ⟨(h.series hs).1, (h.series hs).2.trans hle⟩⟩

theorem tracks_step {d : Dir} {now : Nat} (h : Tracks l d now) (hs : Reads now l l' d) :
    Tracks l' d now := by
  cases hs with
  | none hstarted hrates hreads hlast =>
    refine ⟨fun hno => ?_, fun hyes => ?_⟩
    · rw [hrates, hreads]
      exact h.before (hstarted ▸ hno)
    · rw [hrates, hreads, hlast]
      exact h.series (hstarted ▸ hyes)
  | first hbefore hstarted hrates hreads hlast =>
    obtain ⟨hrates', hreads'⟩ := h.before hbefore
    refine ⟨fun hno => absurd (hno.symm.trans hstarted) Bool.false_ne_true,
      fun _ => ⟨?_, hlast.le⟩⟩
    rw [hrates, hreads, hlast, hrates', hreads']
    exact .start now
  | next hbefore hstarted hrates hreads hlast =>
    obtain ⟨hseries, hle⟩ := h.series hbefore
    refine ⟨fun hno => absurd (hno.symm.trans hstarted) Bool.false_ne_true,
      fun _ => ⟨?_, hlast.le⟩⟩
    -- The counter has not fallen since the load before, so the difference is its growth.
    have hnow : l.last d + (now - l.last d) = now := Nat.add_sub_cancel' hle
    have hsnoc := hseries.snoc (now - l.last d)
    rw [hnow] at hsnoc
    rwa [hrates, hreads, hlast]

/-- The samples alone are a series, with the readings up to the last of them. -/
theorem Tracks.recorded {d : Dir} {now : Nat} (h : Tracks l d now) (hs : l.started d = true) :
    ∃ reads last, Grows (l.samples.map (·.rate d)) reads last ∧
      ∀ i ≤ l.samples.length, (l.reads d)[i]? = reads[i]? := by
  obtain ⟨earlier, later, last, hreads, hseries⟩ := (h.series hs).1.of_append
  refine ⟨earlier, last, hseries, fun i hi => ?_⟩
  have hlen := hseries.length_reads
  rw [List.length_map] at hlen
  rw [hreads, List.getElem?_append_left (hlen ▸ Nat.lt_succ_of_le hi)]

section Recorded

variable {d : Dir} {reads : List Nat} {last : Nat}

theorem retained_of_series (hw : Windowed l) (h : Grows (l.samples.map (·.rate d)) reads last)
    (hsame : ∀ i ≤ l.samples.length, (l.reads d)[i]? = reads[i]?) {i j : Nat}
    (hi : l.dropped < i) (hij : i < j) (hj : j ≤ l.samples.length) :
    ∃ a b, (l.reads d)[i]? = some a ∧ (l.reads d)[j]? = some b ∧
      a + ((l.between i j).map (·.rate d)).sum = b := by
  obtain ⟨a, b, ha, hb, hsum⟩ := h.sum_between hij.le (hj.trans (List.length_map _).ge)
  refine ⟨a, b, (hsame i (hij.le.trans hj)).trans ha, (hsame j hj).trans hb, ?_⟩
  rw [hw.between_eq hi.le, List.map_take, List.map_drop]
  exact hsum

theorem unclipped_of_series (h : Grows (l.samples.map (·.rate d)) reads last)
    (hsame : ∀ i ≤ l.samples.length, (l.reads d)[i]? = reads[i]?) {k : Nat} {s : Sample}
    (hk : l.samples[k]? = some s) :
    ∃ a, (l.reads d)[k]? = some a ∧ (l.reads d)[k + 1]? = some (a + s.rate d) := by
  have hlt : k < l.samples.length := (List.getElem?_eq_some_iff.mp hk).1
  have hrate : (l.samples.map (·.rate d))[k]? = some (s.rate d) := by
    rw [List.getElem?_map, hk]
    rfl
  have hread : k < reads.length := by
    rw [h.length_reads, List.length_map]
    exact Nat.lt_succ_of_lt hlt
  have ha := List.getElem?_eq_getElem hread
  exact ⟨_, (hsame k hlt.le).trans ha, (hsame (k + 1) hlt).trans (h.getElem?_succ ha hrate)⟩

theorem attributed_of_series (h : Grows (l.samples.map (·.rate d)) reads last)
    (hsame : ∀ i ≤ l.samples.length, (l.reads d)[i]? = reads[i]?) {first top x : Nat}
    (hfirst : (l.reads d)[0]? = some first) (htop : (l.reads d)[l.samples.length]? = some top)
    (hge : first ≤ x) (hlt : x < top) :
    ∃! k, Holds (l.samples.map (·.rate d)) (l.reads d) x k := by
  have hlen : (l.samples.map (·.rate d)).length = l.samples.length := List.length_map _
  have hlast := h.getElem?_last
  rw [hlen] at hlast
  rw [hsame 0 (Nat.zero_le _)] at hfirst
  rw [hsame _ le_rfl, hlast] at htop
  cases htop
  have hunique := h.existsUnique_between hfirst hge hlt
  refine (existsUnique_congr fun k => holds_congr fun i hi => ?_).mpr hunique
  exact hsame i (hlen ▸ hi.le)

end Recorded

/-- Before the first load there is nothing to conserve. -/
theorem conserved_of_not_started {d : Dir} (hrates : l.rates d = []) (hreads : l.reads d = []) :
    Conserved l d := by
  have hsamples : l.samples = [] := List.map_eq_nil_iff.mp (List.append_eq_nil_iff.mp hrates).1
  refine ⟨fun i j _ hij hj => ?_, fun k s hk => ?_, fun first last x hfirst => ?_⟩
  · rw [hsamples] at hj
    exact absurd (hij.trans_le hj) (Nat.not_lt_zero i)
  · rw [hsamples] at hk
    cases hk
  · rw [hreads] at hfirst
    cases hfirst

theorem Tracks.conserved {d : Dir} {now : Nat} (h : Tracks l d now) (hw : Windowed l) :
    Conserved l d := by
  cases hstarted : l.started d with
  | false =>
    obtain ⟨hrates, hreads⟩ := h.before hstarted
    exact conserved_of_not_started hrates hreads
  | true =>
    obtain ⟨reads, last, hseries, hsame⟩ := h.recorded hstarted
    exact {
      retained := fun _ _ => retained_of_series hw hseries hsame
      unclipped := fun _ _ => unclipped_of_series hseries hsame
      attributed := fun _ _ _ => attributed_of_series hseries hsame }

/-- The samples have no more than the counter. -/
theorem Tracks.sum_le {d : Dir} {now : Nat} (h : Tracks l d now) :
    (l.samples.map (·.rate d)).sum ≤ now := by
  cases hstarted : l.started d with
  | false =>
    have hnone := (List.append_eq_nil_iff.mp (h.before hstarted).1).1
    rw [hnone]
    exact Nat.zero_le _
  | true =>
    obtain ⟨hseries, hle⟩ := h.series hstarted
    have hall := hseries.sum_le
    unfold rates at hall
    rw [List.sum_append] at hall
    exact (Nat.le_add_right _ _).trans (hall.trans hle)

end Loop

/-! ## The counters -/

variable {s t : State} {e : Event}

/-- What every step keeps. A counter is the sum of what was added, as a `u64`. -/
structure Kept (s : State) : Prop where
  windowed : s.loop.Windowed
  idleTicks : s.loop.idleTicks ≤ 5
  counter : ∀ d, s.counters.bytes d = s.given d % 2 ^ 64
  tracks : ∀ d, s.given d < 2 ^ 64 → s.loop.Tracks d (s.given d)

theorem kept_init (h : Init s) : Kept s := by
  cases h
  exact ⟨Loop.windowed_init, Nat.zero_le 5, fun _ => rfl, fun d _ => Loop.tracks_init d 0⟩

/-- Nothing is taken away from a counter. -/
theorem given_mono (hs : Step s e t) (d : Dir) : s.given d ≤ t.given d := by
  cases hs with
  | add d' n =>
    show s.given d ≤ Function.update s.given d' (s.given d' + n) d
    by_cases hd : d = d'
    · cases hd
      rw [Function.update_self]
      exact Nat.le_add_right _ _
    · rw [Function.update_of_ne hd]
  | conns _ => exact le_rfl
  | loop _ => exact le_rfl

theorem counter_add (h : ∀ d, s.counters.bytes d = s.given d % 2 ^ 64) (d' : Dir) (n : Nat)
    (d : Dir) :
    (s.counters.add d' n).bytes d = Function.update s.given d' (s.given d' + n) d % 2 ^ 64 := by
  unfold Counters.add CopyCount.Shared.fetchAdd
  by_cases hd : d = d'
  · cases hd
    simp only [Function.update_self]
    rw [h, Nat.mod_add_mod]
  · simp only [Function.update_of_ne hd]
    exact h d

theorem kept_step (h : Kept s) (hs : Step s e t) : Kept t := by
  have hmono := given_mono hs
  cases hs with
  | add d n =>
    exact ⟨h.windowed, h.idleTicks, counter_add h.counter d n,
      fun d hlt => (h.tracks d ((hmono d).trans_lt hlt)).mono (hmono d)⟩
  | conns _ => exact ⟨h.windowed, h.idleTicks, h.counter, h.tracks⟩
  | loop hs =>
    refine ⟨Loop.windowed_step h.windowed hs, Loop.idleTicks_step h.idleTicks hs, h.counter,
      fun d hlt => ?_⟩
    have hnow : s.counters.bytes d = s.given d := by rw [h.counter, Nat.mod_eq_of_lt hlt]
    have hreads := Loop.reads_step hs d
    rw [hnow] at hreads
    exact Loop.tracks_step (h.tracks d hlt) hreads

theorem kept_reachable (h : Reachable Step Init s) : Kept s := by
  have hstart : ∀ s, Init s → Kept s := fun _ => kept_init
  exact h.invariant hstart fun _ _ _ => kept_step

/-- Whatever is added to the counters and when: the history has the last 120 samples, and as
long as a counter has not wrapped around, its growth between two ticks is the sum of the
samples between them. -/
theorem traffic_conserved (h : Reachable Step Init s) :
    s.loop.Windowed ∧
      ∀ d, s.given d < 2 ^ 64 → s.counters.bytes d = s.given d ∧ s.loop.Conserved d := by
  have hkept := kept_reachable h
  refine ⟨hkept.windowed, fun d hlt => ⟨?_, (hkept.tracks d hlt).conserved hkept.windowed⟩⟩
  rw [hkept.counter, Nat.mod_eq_of_lt hlt]

/-- Two ticks, with bytes before the first load, between the two loads of a tick and after
the last one. -/
theorem traffic_conserved_two_ticks :
    ∃ s, Reachable Step Init s ∧ s.loop.Windowed ∧ (∀ d, s.loop.Conserved d) ∧ s.loop.ticks = 2 ∧
      s.loop.history.map (·.rate .inc) = [7, 1] ∧ s.loop.history.map (·.rate .out) = [3, 0] ∧
      s.loop.reads .inc = [5, 12, 13] := by
  have new : Reachable Step Init _ := .init rfl
  have started := ((new.step (.add .inc 5)).step (.loop (.prevIn rfl))).step (.loop (.prevOut rfl))
  have loaded := (((((started.step (.loop (.tick rfl))).step (.add .inc 7)).step
    (.loop (.curIn rfl))).step (.add .inc 1)).step (.add .out 3)).step (.loop (.curOut rfl))
  have first := (((loaded.step (.loop (.sample 1 rfl))).step (.loop (.push rfl))).step
    (.loop (.idle rfl (by decide)))).step (.loop (.pass rfl rfl))
  have again := ((first.step (.loop (.tick rfl))).step (.loop (.curIn rfl))).step
    (.loop (.curOut rfl))
  have second := (((again.step (.loop (.sample 2 rfl))).step (.conns 1)).step
    (.loop (.push rfl))).step (.add .out 4)
  obtain ⟨hwindow, hconserved⟩ := traffic_conserved second
  refine ⟨_, second, hwindow, fun d => (hconserved d ?_).2, rfl, rfl, rfl, rfl⟩
  cases d <;> decide

/-! ## The copy loops under it

In the server it is the copy loops that add to the counters.
-/

/-- The copy loops of either direction, and the sampler. -/
structure Traffic where
  copies : Dir → CopyCount.Shared
  activeConns : Nat
  loop : Loop

namespace Traffic

inductive Event
  | copy (d : Dir) (e : CopyCount.Event)
  | conns (n : Nat)
  | loop (a : Act)
deriving DecidableEq, Repr

def counters (s : Traffic) : Counters :=
  { bytes := fun d => (s.copies d).counter, activeConns := s.activeConns }

def Init (s : Traffic) : Prop :=
  (∀ d, CopyCount.Shared.Init (s.copies d)) ∧ s.activeConns = 0 ∧ s.loop = .init

inductive Step (s : Traffic) : Event → Traffic → Prop
  | copy {d : Dir} {e : CopyCount.Event} {shared : CopyCount.Shared} :
      CopyCount.Shared.Step (s.copies d) e shared →
      Step s (.copy d e) { s with copies := Function.update s.copies d shared }
  | conns (n : Nat) : Step s (.conns n) { s with activeConns := n }
  | loop {a : Act} {l : Loop} :
      Loop.Step s.counters s.loop a l → Step s (.loop a) { s with loop := l }

/-- The sampler sees only the counters. -/
def toState (s : Traffic) : State :=
  { counters := s.counters, given := fun d => (s.copies d).counted, loop := s.loop }

/-- The bytes of all chunks that went through in one direction. -/
def delivered (s : Traffic) (d : Dir) : Nat :=
  ((s.copies d).runs.map fun r => CountedRun.deliveredBytes r.chunks).sum

def Sound (s : Traffic) : Prop := ∀ d, (s.copies d).Kept

variable {s t : Traffic} {e : Event}

theorem sound_step (h : Sound s) (hs : Step s e t) : Sound t := by
  cases hs with
  | @copy d _ shared hs =>
    intro d'
    show (Function.update s.copies d shared d').Kept
    by_cases hd : d' = d
    · cases hd
      rw [Function.update_self]
      exact CopyCount.Shared.kept_step (h d) hs
    · rw [Function.update_of_ne hd]
      exact h d'
  | conns _ => exact h
  | loop _ => exact h

/-- A step of a copy loop changes what its counter is at, and no more. -/
theorem toState_copy (s : Traffic) (d : Dir) (shared : CopyCount.Shared) :
    toState { s with copies := Function.update s.copies d shared } =
      { s.toState with
        counters :=
          { s.counters with bytes := Function.update s.counters.bytes d shared.counter }
        given := Function.update s.toState.given d shared.counted } := by
  have hbytes : (fun d' => (Function.update s.copies d shared d').counter) =
      Function.update s.counters.bytes d shared.counter :=
    funext fun d' => Function.apply_update (fun _ => CopyCount.Shared.counter) s.copies d shared d'
  have hgiven : (fun d' => (Function.update s.copies d shared d').counted) =
      Function.update s.toState.given d shared.counted :=
    funext fun d' => Function.apply_update (fun _ => CopyCount.Shared.counted) s.copies d shared d'
  unfold toState counters
  rw [hbytes, hgiven]
  rfl

/-- A step of a copy loop is an addition to its counter, or nothing. -/
theorem follows (hs : Step s e t) :
    t.toState = s.toState ∨ ∃ e', Sampler.Step s.toState e' t.toState := by
  cases hs with
  | @copy d _ shared hs =>
    rw [toState_copy]
    rcases CopyCount.Shared.added_of_step hs with ⟨hcounter, hcounted⟩ | ⟨n, hcounter, hcounted⟩
    · left
      rw [hcounter, hcounted]
      simp [toState, counters]
    · right
      rw [hcounter, hcounted]
      exact ⟨_, .add d n⟩
  | conns n => exact .inr ⟨_, .conns n⟩
  | loop hs => exact .inr ⟨_, .loop hs⟩

/-- To the sampler the copy loops are tasks that add to the counters. -/
theorem simulates : Simulation Step Sound Sampler.Step toState where
  keep _ _ _ := sound_step
  follow _ _ _ _ := follows

theorem kept_toState (h : Reachable Step Init s) : Sound s ∧ Kept s.toState := by
  have hstart : ∀ s, Init s → Sound s ∧ Sampler.Init s.toState := by
    rintro ⟨copies, _, _⟩ ⟨hcopies, rfl, rfl⟩
    have hcopies' : copies = fun _ => { counter := 0, runs := [] } := funext hcopies
    cases hcopies'
    exact ⟨fun d => CopyCount.Shared.kept_init (hcopies d), rfl⟩
  obtain ⟨hsound, hreach⟩ := simulates.reachable hstart h
  exact ⟨hsound, kept_reachable hreach⟩

theorem Sound.counted_eq (h : Sound s) (d : Dir) : (s.copies d).counted = s.delivered d := by
  unfold CopyCount.Shared.counted delivered
  exact congrArg List.sum (List.map_congr_left fun r hr => ((h d).sound r hr).counted)

end Traffic

/-- The samples of the traffic of the copy loops account for it, and never for more than was
delivered. -/
theorem copied_sampled {s : Traffic} (h : Reachable Traffic.Step Traffic.Init s) {d : Dir}
    (hlt : s.delivered d < 2 ^ 64) :
    s.loop.Windowed ∧ s.loop.Conserved d ∧
      (s.loop.samples.map (·.rate d)).sum ≤ s.delivered d := by
  obtain ⟨hsound, hkept⟩ := Traffic.kept_toState h
  have hcounted := hsound.counted_eq d
  rw [← hcounted] at hlt
  have htracks : s.loop.Tracks d (s.copies d).counted := hkept.tracks d hlt
  rw [hcounted] at htracks
  exact ⟨hkept.windowed, htracks.conserved hkept.windowed, htracks.sum_le⟩

end MiniMask.Sampler
