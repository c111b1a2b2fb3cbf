import MiniMask.Lib.DetachedSaves
import MiniMask.Store.Crashes

/-!
# Handlers that are dropped while they save (`state.rs`, `ClientStore::persist`)

An operation changes the list under the write lock and saves it before it lets go of the
lock. The server drops the future of a handler whose connection is gone, at any of its
awaits, and the lock with it; but `tokio::fs` hands its work to another thread, and what that
thread has begun, or was told to begin, it finishes.

`saved_prefix`: where a job opens `clients.json.tmp` only while no other job is at work on
it, a start at any moment loads the list that the first of the operations have made, and
none that has answered is missing. `torn_by_a_dropped_handler` is a run in which the job of a
dropped handler opens the file late, and the next start fails.

The JSON text of a list is the parameter `toJson`; `fromJson` parses it. Operations that
change nothing do not appear.
-/

namespace MiniMask

open AtomicFile
open DetachedSaves (Apart Named Tidy)
open FailedSaves (Reply)
open SharedTemp (Disk)

namespace Dropped

abbrev CallId := Nat

/-! ## The list and how it was made -/

/-- A list that was in memory, with the operations that made it. -/
structure Version (sha256HexWithPepper : String → String → String) (pepper : String)
    (list₀ : List Client) where
  list : List Client
  ops : List ClientOp
  made : list = ops.foldl (Crash.applied sha256HexWithPepper pepper) list₀

section Model

variable {hash : String → String → String} {pepper : String} {list₀ : List Client}

/-- The one with fewer operations is earlier. -/
instance : Preorder (Version hash pepper list₀) where
  le v w := v.ops <+: w.ops
  le_refl v := List.prefix_refl v.ops
  le_trans _ _ _ := List.IsPrefix.trans

def Version.next (v : Version hash pepper list₀) (op : ClientOp) : Version hash pepper list₀ where
  list := Crash.applied hash pepper v.list op
  ops := v.ops ++ [op]
  made := by rw [List.foldl_append, ← v.made, List.foldl_cons, List.foldl_nil]

theorem Version.le_next (v : Version hash pepper list₀) (op : ClientOp) : v ≤ v.next op :=
  List.prefix_append v.ops [op]

/-- The operation puts a list in memory and saves it. -/
def Changes (hash : String → String → String) (pepper : String) (list : List Client)
    (op : ClientOp) : Prop :=
  ∃ file reply, ∀ io, ClientStore.exec hash pepper { list, file } op io =
    ({ list := Crash.applied hash pepper list op, file } : ClientStore).persistThen io reply

/-- An operation that does not is over at once. -/
theorem changes_or_refuses (list : List Client) (file : Files (List Client)) (op : ClientOp) :
    Changes hash pepper list op ∨ ∃ reply, ∀ io,
      ClientStore.exec hash pepper { list, file } op io = (.ok reply, { list, file }) := by
  rcases ClientStore.exec_saves hash pepper { list, file } op with
    ⟨reply, hexec⟩ | ⟨list', reply, hexec⟩
  · exact .inr ⟨reply, hexec⟩
  · have hlist : Crash.applied hash pepper list op = list' := by
      rw [← Crash.list_exec_eq file .done, hexec, ClientStore.persistThen_list]
    exact .inl ⟨file, reply, fun io => by rw [hexec, hlist]⟩

/-! ## Runs -/

abbrev State (hash : String → String → String) (pepper : String) (list₀ : List Client) :=
  DetachedSaves.State CallId (Version hash pepper list₀)

inductive Event
  | begin (i : CallId) (op : ClientOp)
  | queue (i : CallId)
  | open (i : CallId)
  | write (i : CallId) (n : Nat)
  | move (i : CallId)
  | rename (i : CallId)
  | fail (i : CallId)
  | answer (i : CallId)
  | drop (i : CallId)
deriving DecidableEq, Repr

/-- What the event does to the shared state. -/
def Event.lower (s : State hash pepper list₀) :
    Event → DetachedSaves.Event CallId (Version hash pepper list₀)
  | .begin i op => .begin i (s.mem.next op)
  | .queue i => .queue i
  | .open i => .open i
  | .write i n => .write i n
  | .move i => .move i
  | .rename i => .rename i
  | .fail i => .fail i
  | .answer i => .answer i
  | .drop i => .drop i

def text (toJson : List Client → List UInt8) (v : Version hash pepper list₀) : List UInt8 :=
  toJson v.list

structure Step (toJson : List Client → List UInt8) (s : State hash pepper list₀) (e : Event)
    (t : State hash pepper list₀) : Prop where
  changes : ∀ i op, e = .begin i op → Changes hash pepper s.mem.list op
  shared : DetachedSaves.Step (text toJson) s (e.lower s) t

/-- A load has just completed; there may be a temporary file from before. -/
structure Loaded (toJson : List Client → List UInt8) (s : State hash pepper list₀) : Prop where
  ops : s.mem.ops = []
  main : s.disk.content s.disk.main = toJson list₀
  calls : ∀ i, s.calls i = .idle
  lock : s.lock = none
  acked : s.acked = []
  named : Named s.disk

/-- A job opens the temporary file only while no other one is at work on it. -/
def InTurn (toJson : List Client → List UInt8) (s : State hash pepper list₀) (e : Event) : Prop :=
  Apart (text toJson) s (e.lower s)

/-- What a start makes of the two files. -/
def files (fromJson : List UInt8 → Option (List Client)) (disk : Disk) : Files (List Client) :=
  let parsed := fun fd => match fromJson (disk.content fd) with
    | some list => Text.doc list
    | none => Text.torn
  { main := some (parsed disk.main), tmp := disk.tmp.map parsed }

variable {toJson : List Client → List UInt8} {fromJson : List UInt8 → Option (List Client)}
  {s₀ s t : State hash pepper list₀} {e : Event}
  {tr : List (State hash pepper list₀ × Event × State hash pepper list₀)}

theorem Loaded.tidy (h : Loaded toJson s) : Tidy (text toJson) s := by
  have hidle : ∀ i, ¬ (s.calls i).Busy (text toJson) := fun i hbusy => by
    rw [h.calls i] at hbusy
    exact hbusy
  have hlist : s.mem.list = list₀ := by
    rw [s.mem.made, h.ops]
    rfl
  refine ⟨⟨s.mem, le_rfl, ?_, ?_⟩, fun i => ?_, fun i j hi _ => absurd hi (hidle i), h.named⟩
  · rw [h.main, text, hlist]
  · rw [h.acked]
    nofun
  · rw [h.calls i]
    trivial

/-- A start loads what the text in the file parses to. -/
theorem load_files {list : List Client} {disk : Disk}
    (hmain : fromJson (disk.content disk.main) = some list) :
    ClientStore.load (files fromJson disk) .done =
      (.ok { list, file := files fromJson disk }, files fromJson disk) := by
  have hdoc : (files fromJson disk).main = some (.doc list) := by
    simp only [files, hmain]
  exact ClientStore.load_doc hdoc

/-- **Dropped handlers.** In every run of any number of operations, any of which may fail or
be dropped anywhere, and in which the jobs open the temporary file in turn, a start at any
moment loads the list that the first operations made in order, with all up to the last that
has answered among them. -/
theorem saved_prefix (loaded : Loaded toJson s₀) (run : Lts.Run (Step toJson) s₀ tr s)
    (inTurn : ∀ x ∈ tr, InTurn toJson x.1 x.2.1)
    (roundTrip : ∀ v : Version hash pepper list₀, v ≤ s.mem →
      fromJson (toJson v.list) = some v.list) :
    ∃ done, done <+: s.mem.ops ∧
      (∀ x ∈ tr, ∀ i, x.2.1 = .answer i → x.1.mem.ops <+: done) ∧
      ClientStore.load (files fromJson s.disk) .done =
        (.ok { list := done.foldl (Crash.applied hash pepper) list₀
               file := files fromJson s.disk }, files fromJson s.disk) := by
  have hlower : ∀ (s : State hash pepper list₀) e t, Step toJson s e t →
      DetachedSaves.Step (text toJson) s (e.lower s) t := fun _ _ _ hs => hs.shared
  have htidy := DetachedSaves.tidy_run hlower run loaded.tidy inTurn
  obtain ⟨v, hle, hcontent, hacked⟩ := htidy.complete
  refine ⟨v.ops, hle, fun x hx i hi => ?_, ?_⟩
  · refine hacked x.1.mem (DetachedSaves.acked_run hlower run x hx i ?_)
    rw [hi]
    rfl
  · rw [← v.made]
    exact load_files (by rw [hcontent]; exact roundTrip v hle)

end Model

/-! ## One dropped handler, and two operations -/

/-- A stand-in for the text: the ids of the clients between brackets. -/
def exampleJson (list : List Client) : List UInt8 :=
  0x5b :: (list.flatMap fun c => c.id.toUTF8.data.toList) ++ [0x5d]

def exampleHash (t p : String) : String := t ++ p

def exampleClient (id : String) : Client := newClient exampleHash "p" "a" "mmk_a" id 0

def exampleAdd (id : String) : ClientOp := .addClient "a" "mmk_a" id 0

def exampleParse (text : List UInt8) : Option (List Client) :=
  if text = exampleJson [] then some []
  else if text = exampleJson [exampleClient "a"] then some [exampleClient "a"]
  else none

/-- After the first start. -/
def started : State exampleHash "p" [] where
  mem := { list := [], ops := [], made := rfl }
  lock := none
  disk := { main := 0, tmp := none, content := fun _ => exampleJson [], next := 1 }
  calls := fun _ => .idle
  acked := []

theorem started_loaded : Loaded exampleJson started where
  ops := rfl
  main := rfl
  calls _ := rfl
  lock := rfl
  acked := rfl
  named := ⟨nofun, Nat.zero_lt_one, nofun⟩

theorem exampleAdd_changes (list : List Client) (id : String) :
    Changes exampleHash "p" list (exampleAdd id) :=
  ⟨{ main := none, tmp := none }, .created (exampleClient id) "mmk_a", fun io => by
    cases io <;> rfl⟩

/-- Steps that do not begin an operation. -/
theorem step_shared {s t : State exampleHash "p" []} {e : Event} (he : ∀ i op, e ≠ .begin i op)
    (h : DetachedSaves.Step (text exampleJson) s (e.lower s) t) : Step exampleJson s e t :=
  ⟨fun i op heq => absurd heq (he i op), h⟩

/-- The handler is dropped after it has told the other thread to rename. -/
theorem saved_prefix_dropped :
    ∃ tr s, Lts.Run (Step exampleJson) started tr s ∧
      (∃ x ∈ tr, x.2.1 = .drop 0) ∧ ∃ done, done <+: [exampleAdd "a"] ∧
        ClientStore.load (files exampleParse s.disk) .done =
          (.ok { list := done.foldl (Crash.applied exampleHash "p") []
                 file := files exampleParse s.disk }, files exampleParse s.disk) := by
  let v := started.mem.next (exampleAdd "a")
  have r₀ : Lts.Run (Step exampleJson) started [] started := .nil
  have r₁ := r₀.snoc (e := .begin 0 (exampleAdd "a"))
    ⟨fun _ _ heq => by cases heq; exact exampleAdd_changes [] "a",
      .begin rfl rfl (started.mem.le_next _)⟩
  have r₂ := r₁.snoc (e := .queue 0) (step_shared nofun (.queue rfl))
  have r₃ := r₂.snoc (e := .open 0) (step_shared nofun (.openTemp rfl))
  have r₄ := r₃.snoc (e := .write 0 (text exampleJson v).length)
    (step_shared nofun (.write rfl (Nat.succ_pos _) (Nat.le_of_eq (Nat.zero_add _))))
  have r₅ := r₄.snoc (e := .move 0) (step_shared nofun (.move (i := 0) (a := v) rfl))
  have r₆ := r₅.snoc (e := .drop 0) (step_shared nofun (.drop rfl))
  have r₇ := r₆.snoc (e := .rename 0) (step_shared nofun (.rename rfl rfl))
  have parses : ∀ w : Version exampleHash "p" [], w ≤ v →
      exampleParse (exampleJson w.list) = some w.list := by
    intro w hle
    rw [w.made]
    rcases List.prefix_concat_iff.mp hle with heq | hnil
    · rw [heq]
      decide +kernel
    · rw [List.prefix_nil.mp hnil]
      decide +kernel
  refine ⟨_, _, r₇, ⟨_, List.mem_append_left _ (List.mem_append_right _
    (List.mem_singleton.mpr rfl)), rfl⟩, ?_⟩
  obtain ⟨done, hdone, -, hload⟩ := saved_prefix started_loaded r₇ (by
    simp only [List.forall_mem_append, List.forall_mem_singleton]
    refine ⟨⟨⟨⟨⟨⟨⟨nofun, trivial⟩, trivial⟩, fun j hne hbusy => ?_⟩, trivial⟩, trivial⟩, trivial⟩,
      trivial⟩
    -- nobody else is at work
    simp [DetachedSaves.State.setCall, Function.update_of_ne hne, started,
      DetachedSaves.Call.Busy] at hbusy) parses
  exact ⟨done, hdone, hload⟩

/-- The first handler is dropped before its job has opened the file, which it does when the
second one has written it and told the thread to rename it: `clients.json` is empty when the
second one answers, and a start fails. -/
theorem torn_by_a_dropped_handler :
    ∃ tr s, Lts.Run (Step exampleJson) started tr s ∧ s.calls 1 = .answered ∧
      (ClientStore.load (files exampleParse s.disk) .done).1 = .error .parse := by
  let v := started.mem.next (exampleAdd "a")
  let w := v.next (exampleAdd "b")
  have r₀ : Lts.Run (Step exampleJson) started [] started := .nil
  have r₁ := r₀.snoc (e := .begin 0 (exampleAdd "a"))
    ⟨fun _ _ heq => by cases heq; exact exampleAdd_changes [] "a",
      .begin rfl rfl (started.mem.le_next _)⟩
  have r₂ := r₁.snoc (e := .queue 0) (step_shared nofun (.queue rfl))
  have r₃ := r₂.snoc (e := .drop 0) (step_shared nofun (.drop rfl))
  have r₄ := r₃.snoc (e := .begin 1 (exampleAdd "b"))
    ⟨fun _ _ heq => by cases heq; exact exampleAdd_changes v.list "b",
      .begin rfl rfl (v.le_next _)⟩
  have r₅ := r₄.snoc (e := .queue 1) (step_shared nofun (.queue rfl))
  have r₆ := r₅.snoc (e := .open 1) (step_shared nofun (.openTemp rfl))
  have r₇ := r₆.snoc (e := .write 1 (text exampleJson w).length)
    (step_shared nofun (.write rfl (Nat.succ_pos _) (Nat.le_of_eq (Nat.zero_add _))))
  have r₈ := r₇.snoc (e := .move 1) (step_shared nofun (.move (i := 1) (a := w) rfl))
  have r₉ := r₈.snoc (e := .open 0) (step_shared nofun (.openTemp rfl))
  have r₁₀ := r₉.snoc (e := .rename 1) (step_shared nofun (.rename rfl rfl))
  have r₁₁ := r₁₀.snoc (e := .answer 1) (step_shared nofun (.answer rfl))
  exact ⟨_, _, r₁₁, rfl, rfl⟩

end Dropped

end MiniMask
