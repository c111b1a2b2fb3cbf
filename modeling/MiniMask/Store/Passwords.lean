import MiniMask.Lib.SharedTemp
import MiniMask.Store.Auth

/-!
# Concurrent password changes

`change_password` hashes the password and sets the field under the write lock, and
drops the lock before it saves; `ClientStore` saves under its lock. All calls write
to the one temporary file `auth.json.tmp`. The steps are the critical section, the
opening of the temporary file (which truncates it), the writes and the rename.

`concurrent_changes` says when that goes well: when a call opens the temporary file
only while no other call has it open, and the last call to rename is the one that
set the hash in memory. `two_changes_at_once` is a run of two calls in which
`auth.json` is empty for a while and the second call fails.

The JSON text of a document is the parameter `toJson`; `fromJson` parses it.
-/

namespace MiniMask

open AtomicFile

/-- The first start hashes the configured password and writes the file. -/
def AuthStore.loadOrSeed (hashPassword : String → String → Option String)
    (file : Files AuthFile) (username password salt : String) (io : LoadOutcome) :
    Except LoadError AuthStore × Files AuthFile :=
  let seed := (hashPassword salt password).map fun passwordHash => { username, passwordHash }
  let loaded := loadOr seed file io
  (loaded.1.map fun inner => { inner, file := loaded.2 }, loaded.2)

namespace Passwords

open SharedTemp (Disk Exclusive Settling)

/-! ## The calls -/

abbrev CallId := Nat

/-- The credentials in memory, the files, the calls of `change_password`, and all
credentials there have been in memory. -/
abbrev State := SharedTemp.State CallId AuthFile

inductive Event
  | hash (i : CallId) (newPassword salt : String)
  | open (i : CallId)
  | write (i : CallId) (n : Nat)
  | rename (i : CallId)
deriving DecidableEq, Repr

/-- What the event does to the shared state. Under the write lock a call sets the
hash, unless hashing fails; the rest is `persist_inner`. -/
def Event.lower (hashPassword : String → String → Option String) (s : State) :
    Event → SharedTemp.Event CallId AuthFile
  | .hash i newPassword salt =>
    match hashPassword salt newPassword with
    | none => .giveUp i
    | some passwordHash => .set i { s.mem with passwordHash }
  | .open i => .open i
  | .write i n => .write i n
  | .rename i => .rename i

def Step (hashPassword : String → String → Option String) (toJson : AuthFile → List UInt8)
    (s : State) (e : Event) (t : State) : Prop :=
  SharedTemp.Step toJson s (e.lower hashPassword s) t

/-- The file is opened only while no other call has it open, and a call that renames
while no other one is in progress saves what is in memory. -/
def InOrder (s : State) : Event → Prop
  | .open i => ∀ j, j ≠ i → ¬ (s.calls j).InFlight
  | .rename i => (∀ j, j ≠ i → ¬ (s.calls j).InProgress) → (s.calls i).doc = some s.mem
  | _ => True

/-- What a start makes of the two files. -/
def files (fromJson : List UInt8 → Option AuthFile) (disk : Disk) : Files AuthFile :=
  let text := fun fd => match fromJson (disk.content fd) with
    | some f => Text.doc f
    | none => Text.torn
  { main := some (text disk.main), tmp := disk.tmp.map text }

/-- `auth.json` is the complete text of credentials that were seeded or set; no call
has failed because the temporary file was gone; and with no call in progress the file
has the hash in memory, and a restart comes back with it. -/
structure Kept (hashPassword : String → String → Option String)
    (toJson : AuthFile → List UInt8) (fromJson : List UInt8 → Option AuthFile) (s : State) :
    Prop where
  complete : ∃ f ∈ s.history, s.disk.content s.disk.main = toJson f
  succeeded : ∀ i, s.calls i ≠ .failed
  settled : s.Quiet → s.disk.content s.disk.main = toJson s.mem
  restart : s.Quiet → ∀ username password salt,
    (AuthStore.loadOrSeed hashPassword (files fromJson s.disk) username password salt .done).1 =
      .ok { inner := s.mem, file := files fromJson s.disk }

/-- After `load_or_seed` of the credentials `f`; there may be a temporary file from
before. -/
structure Seeded (toJson : AuthFile → List UInt8) (f : AuthFile) (s : State) : Prop where
  mem : s.mem = f
  main : s.disk.content s.disk.main = toJson f
  calls : ∀ i, s.calls i = .idle
  history : s.history = [f]
  apart : ∀ fd, s.disk.tmp = some fd → fd ≠ s.disk.main
  bound : s.disk.main < s.disk.next ∧ ∀ fd, s.disk.tmp = some fd → fd < s.disk.next

section Changes

variable {hashPassword : String → String → Option String} {toJson : AuthFile → List UInt8}
  {fromJson : List UInt8 → Option AuthFile} {s s₀ t : State} {f : AuthFile}

/-- The critical section leaves in memory what `change_password` does. -/
theorem mem_hash {i : CallId} {newPassword salt : String} {file : Files AuthFile} {io : Outcome}
    (hs : Step hashPassword toJson s (.hash i newPassword salt) t) :
    t.mem =
      (AuthStore.changePassword hashPassword { inner := s.mem, file } newPassword salt io).2.inner := by
  unfold Step Event.lower at hs
  unfold AuthStore.changePassword
  cases hhash : hashPassword salt newPassword with
  | none =>
    simp only [hhash] at hs
    cases hs
    rfl
  | some passwordHash =>
    simp only [hhash] at hs
    cases hs
    rfl

theorem ordered_lower (s : State) (e : Event) :
    SharedTemp.Ordered s (e.lower hashPassword s) ↔ InOrder s e := by
  cases e with
  | hash i newPassword salt =>
    cases hhash : hashPassword salt newPassword <;>
      simp [SharedTemp.Ordered, Event.lower, Exclusive, Settling, InOrder, hhash]
  | «open» i => simp [SharedTemp.Ordered, Event.lower, Exclusive, Settling, InOrder]
  | write i n => simp [SharedTemp.Ordered, Event.lower, Exclusive, Settling, InOrder]
  | rename i => simp [SharedTemp.Ordered, Event.lower, Exclusive, Settling, InOrder]

theorem Seeded.orderly (h : Seeded toJson f s) : SharedTemp.Orderly toJson s := by
  have hmem : f ∈ s.history := by simp [h.history]
  refine ⟨⟨h.mem ▸ hmem, ⟨f, hmem, h.main⟩, fun i => ?_, fun i j hi _ => ?_, h.apart, h.bound⟩,
    fun _ => h.mem ▸ h.main⟩
  · rw [h.calls i]
    trivial
  · rw [h.calls i] at hi
    exact hi.elim

/-- A restart parses what the file has. -/
theorem restart_of_main (hmain : s.disk.content s.disk.main = toJson f)
    (hparse : fromJson (toJson f) = some f) (username password salt : String) :
    (AuthStore.loadOrSeed hashPassword (files fromJson s.disk) username password salt .done).1 =
      .ok { inner := f, file := files fromJson s.disk } := by
  have hdoc : (files fromJson s.disk).main = some (.doc f) := by
    simp [files, hmain, hparse]
  unfold AuthStore.loadOrSeed
  simp only [loadOr_doc _ hdoc]
  rfl

end Changes

/-- **Concurrent password changes.** In every run of any number of calls whose steps
are in order, `auth.json` is complete at every moment, no call fails for want of the
temporary file, and with no call in progress a restart keeps the password in memory.
Conversely a run in which all of this holds and all calls return is in order. -/
theorem concurrent_changes (hashPassword : String → String → Option String)
    (toJson : AuthFile → List UInt8) (fromJson : List UInt8 → Option AuthFile) {f : AuthFile}
    {s₀ s : State} {tr : List (State × Event × State)} (start : Seeded toJson f s₀)
    (run : Lts.Run (Step hashPassword toJson) s₀ tr s)
    (roundTrip : ∀ f ∈ s.history, fromJson (toJson f) = some f) :
    ((∀ x ∈ tr, InOrder x.1 x.2.1) →
      ∀ x ∈ tr, Kept hashPassword toJson fromJson x.2.2) ∧
    (s.Quiet → (∀ x ∈ tr, Kept hashPassword toJson fromJson x.2.2) →
      ∀ x ∈ tr, InOrder x.1 x.2.1) := by
  have hlower : ∀ s e t, Step hashPassword toJson s e t →
      SharedTemp.Step toJson s (e.lower hashPassword s) t := fun _ _ _ hs => hs
  constructor
  · intro ordered x hx
    have horderly := SharedTemp.orderly_run hlower run start.orderly
      (fun x hx => (ordered_lower x.1 x.2.1).mpr (ordered x hx)) x hx
    have hsound := horderly.sound
    have hmem : x.2.2.mem ∈ s.history :=
      (SharedTemp.history_run hlower run x hx).2 horderly.1.current
    exact ⟨hsound.complete, hsound.succeeded, hsound.settled, fun hquiet =>
      restart_of_main (hsound.settled hquiet) (roundTrip _ hmem)⟩
  · intro quiet kept x hx
    have hsound : ∀ x ∈ tr, SharedTemp.Sound toJson x.2.2 := fun x hx =>
      ⟨(kept x hx).complete, (kept x hx).succeeded, (kept x hx).settled⟩
    have hinj : ∀ a ∈ s.history, ∀ b ∈ s.history, toJson a = toJson b → a = b := by
      intro a ha b hb heq
      have hparse := roundTrip a ha
      rw [heq, roundTrip b hb] at hparse
      exact (Option.some.inj hparse).symm
    exact (ordered_lower x.1 x.2.1).mp
      (SharedTemp.ordered_run hlower run start.orderly.1 quiet hinj hsound x hx)

/-! ## Two calls, in turn and at once -/

/-- The text of `serde_json::to_string_pretty`, for strings without escapes. -/
def prettyJson (f : AuthFile) : List UInt8 :=
  0x7b :: ("\n  \"username\": \"" ++ f.username ++ "\",\n  \"password_hash\": \"" ++
    f.passwordHash ++ "\"\n\x7d").toUTF8.data.toList

/-- A stand-in for Argon2. -/
def exampleHash (salt password : String) : Option String :=
  some ("$argon2id$v=19$m=19456,t=2,p=1$" ++ salt ++ "$" ++ password)

def admin (passwordHash : String) : AuthFile := { username := "admin", passwordHash }

def seeded : AuthFile := admin "$argon2id$v=19$m=19456,t=2,p=1$c2VlZA$admin"

def changed : AuthFile := admin "$argon2id$v=19$m=19456,t=2,p=1$c2FsdDE$secret-1"

/-- After the first start. -/
def started : State where
  mem := seeded
  disk := { main := 0, tmp := none, content := fun _ => prettyJson seeded, next := 1 }
  calls := fun _ => .idle
  history := [seeded]

def changedAgain : AuthFile := admin "$argon2id$v=19$m=19456,t=2,p=1$c2FsdDI$secret-2"

def exampleParse (text : List UInt8) : Option AuthFile :=
  [seeded, changed, changedAgain].find? fun f => prettyJson f = text

theorem started_seeded : Seeded prettyJson seeded started where
  mem := rfl
  main := rfl
  calls _ := rfl
  history := rfl
  apart := nofun
  bound := ⟨Nat.zero_lt_one, nofun⟩

section InTurn

variable {tr : List (State × Event × State)} {s : State} {i : CallId} {a : AuthFile}

/-- A call sets its hash. -/
theorem run_hash (newPassword salt : String)
    (run : Lts.Run (Step exampleHash prettyJson) started tr s)
    (ordered : ∀ x ∈ tr, InOrder x.1 x.2.1) (hcall : s.calls i = .idle)
    (hhash : exampleHash salt newPassword = some a.passwordHash)
    (huser : s.mem.username = a.username) :
    ∃ tr', ∃ t : State, Lts.Run (Step exampleHash prettyJson) started tr' t ∧
      (∀ x ∈ tr', InOrder x.1 x.2.1) ∧ t.calls = Function.update s.calls i (.opening a) ∧
      t.mem = a ∧ t.history = a :: s.history ∧ t.disk = s.disk := by
  have hlower : Event.lower exampleHash s (.hash i newPassword salt) = .set i a := by
    unfold Event.lower
    simp only [hhash, huser]
  have hset : Step exampleHash prettyJson s (.hash i newPassword salt)
      { s.setCall i (.opening a) with mem := a, history := a :: s.history } := by
    unfold Step
    rw [hlower]
    exact .set hcall
  refine ⟨_, _, run.snoc hset, ?_, rfl, rfl, rfl, rfl⟩
  simp only [List.forall_mem_append, List.forall_mem_singleton]
  exact ⟨ordered, trivial⟩

/-- A call that has set its hash saves it, while no other call has the file open. -/
theorem run_saves (run : Lts.Run (Step exampleHash prettyJson) started tr s)
    (ordered : ∀ x ∈ tr, InOrder x.1 x.2.1) (hcall : s.calls i = .opening a)
    (htmp : s.disk.tmp = none) (hfree : ∀ j, j ≠ i → ¬ (s.calls j).InFlight)
    (hlast : (∀ j, j ≠ i → ¬ (s.calls j).InProgress) → a = s.mem) :
    ∃ tr', ∃ t : State, Lts.Run (Step exampleHash prettyJson) started tr' t ∧
      (∀ x ∈ tr', InOrder x.1 x.2.1) ∧ t.calls = Function.update s.calls i .saved ∧
      t.mem = s.mem ∧ t.history = s.history ∧ t.disk.tmp = none := by
  have opened := run.snoc (e := Event.open i) (.createTemp hcall htmp)
  have written := opened.snoc (e := Event.write i (prettyJson a).length)
    (.write (a := a) (Function.update_self ..) (Nat.succ_pos _) (Nat.le_of_eq (Nat.zero_add _)))
  have renamed := written.snoc (e := Event.rename i) (.rename (a := a)
    ((Function.update_self ..).trans (congrArg (SharedTemp.Call.writing a _) (Nat.zero_add _))) rfl)
  refine ⟨_, _, renamed, ?_, ?_, rfl, rfl, rfl⟩
  · simp only [List.forall_mem_append, List.forall_mem_singleton]
    refine ⟨⟨⟨ordered, hfree⟩, trivial⟩, fun hothers => ?_⟩
    have halone : a = s.mem := hlast fun j hne hj => hothers j hne <| by
      simpa [SharedTemp.calls_setCall, hne] using hj
    have hdoc : ∀ (calls : CallId → SharedTemp.Call AuthFile) fd off,
        (Function.update calls i (.writing a fd off) i).doc = some a := fun calls fd off => by
      rw [Function.update_self]
      rfl
    exact (hdoc _ _ _).trans (congrArg some halone)
  · simp only [SharedTemp.State.setCall, Function.update_idem]

end InTurn

/-- Both calls set their hash before either saves; then they save one after the other. -/
theorem concurrent_changes_in_turn :
    ∃ tr s, Lts.Run (Step exampleHash prettyJson) started tr s ∧ s.mem = changedAgain ∧
      s.calls 0 = .saved ∧ s.calls 1 = .saved ∧
      ∀ x ∈ tr, Kept exampleHash prettyJson exampleParse x.2.2 := by
  obtain ⟨_, s₁, run₁, ordered₁, hcalls₁, hmem₁, hhistory₁, hdisk₁⟩ :=
    run_hash (i := 0) (a := changed) "secret-1" "c2FsdDE" .nil (fun _ hx => nomatch hx) rfl rfl rfl
  obtain ⟨_, s₂, run₂, ordered₂, hcalls₂, hmem₂, hhistory₂, hdisk₂⟩ :=
    run_hash (i := 1) (a := changedAgain) "secret-2" "c2FsdDI" run₁ ordered₁
      (by rw [hcalls₁]; rfl) rfl (by rw [hmem₁]; rfl)
  rw [hcalls₁] at hcalls₂
  have hset : ∀ j, ¬ (s₂.calls j).InFlight := fun j => by
    rw [hcalls₂, Function.update_apply, Function.update_apply]
    split
    · exact id
    · split
      · exact id
      · exact id
  have hwaits : (s₂.calls 1).InProgress := by rw [hcalls₂]; trivial
  obtain ⟨_, s₃, run₃, ordered₃, hcalls₃, hmem₃, hhistory₃, htmp₃⟩ :=
    run_saves (i := 0) (a := changed) run₂ ordered₂ (by rw [hcalls₂]; rfl)
      (by rw [hdisk₂, hdisk₁]; rfl) (fun j _ => hset j)
      fun hothers => absurd hwaits (hothers 1 Nat.one_ne_zero)
  have hsaved : ∀ j, ¬ (s₃.calls j).InFlight := fun j => by
    rw [hcalls₃, Function.update_apply]
    split
    · exact id
    · exact hset j
  obtain ⟨_, s₄, run₄, ordered₄, hcalls₄, hmem₄, hhistory₄, -⟩ :=
    run_saves (i := 1) (a := changedAgain) run₃ ordered₃ (by rw [hcalls₃, hcalls₂]; rfl) htmp₃
      (fun j _ => hsaved j) fun _ => by rw [hmem₃, hmem₂]
  have hhistory : s₄.history = [changedAgain, changed, seeded] := by
    rw [hhistory₄, hhistory₃, hhistory₂, hhistory₁]
    rfl
  have roundTrip : ∀ f ∈ [changedAgain, changed, seeded],
      exampleParse (prettyJson f) = some f := by decide
  have hkept := (concurrent_changes exampleHash prettyJson exampleParse started_seeded run₄
    (hhistory ▸ roundTrip)).1 ordered₄
  refine ⟨_, s₄, run₄, by rw [hmem₄, hmem₃, hmem₂], ?_, ?_, hkept⟩
  · rw [hcalls₄, hcalls₃]
    rfl
  · rw [hcalls₄]
    rfl

/-- The second call opens the temporary file after the first one has written it and
before it renames it: `auth.json` is empty for a while, and the second rename finds no
file. -/
theorem two_changes_at_once :
    ∃ tr s, Lts.Run (Step exampleHash prettyJson) started tr s ∧
      (∃ x ∈ tr, ∀ f, x.2.2.disk.content x.2.2.disk.main ≠ prettyJson f) ∧
      s.calls 1 = .failed := by
  have r₀ : Lts.Run (Step exampleHash prettyJson) started [] started := .nil
  have r₁ := r₀.snoc (e := Event.hash 0 "secret-1" "c2FsdDE") (.set (i := (0 : CallId)) rfl)
  have r₂ := r₁.snoc (e := Event.open 0) (.createTemp (i := (0 : CallId)) (a := changed) rfl rfl)
  have r₃ := r₂.snoc (e := Event.write 0 (prettyJson changed).length)
    (.write (i := (0 : CallId)) (a := changed) rfl (Nat.succ_pos _) (Nat.le_of_eq (Nat.zero_add _)))
  have r₄ := r₃.snoc (e := Event.hash 1 "secret-2" "c2FsdDI") (.set (i := (1 : CallId)) rfl)
  have r₅ := r₄.snoc (e := Event.open 1) (.openTemp (i := (1 : CallId)) (a := changedAgain) rfl rfl)
  have r₆ := r₅.snoc (e := Event.rename 0) (.rename (i := (0 : CallId)) (a := changed)
    (congrArg (SharedTemp.Call.writing changed 1) (Nat.zero_add _)) rfl)
  have r₇ := r₆.snoc (e := Event.write 1 (prettyJson changedAgain).length)
    (.write (i := (1 : CallId)) (a := changedAgain) rfl (Nat.succ_pos _)
      (Nat.le_of_eq (Nat.zero_add _)))
  have r₈ := r₇.snoc (e := Event.rename 1) (.renameFails (i := (1 : CallId)) (a := changedAgain)
    (congrArg (SharedTemp.Call.writing changedAgain 1) (Nat.zero_add _)) rfl)
  refine ⟨_, _, r₈, ⟨_, List.mem_append_left _ (List.mem_append_left _
    (List.mem_append_right _ (List.mem_singleton.mpr rfl))), fun f => ?_⟩, rfl⟩
  exact List.cons_ne_nil _ _ ∘ Eq.symm

end Passwords

end MiniMask
