import MiniMask.Lib.Transition
import MiniMask.Store.Operations

/-!
# Killing the process

The client store in a process that is killed at any point and started again. An
operation is taken apart into the change in memory, the calls of its save and its
answer; a kill leaves the files as they are, and the next start loads them.

`crash_consistency` holds in every state of every run, so at every point at which
the process can be killed: the load succeeds and gives the list before or after
the operation in progress, which is the list that the operations that returned,
and some of those a kill interrupted, make one after the other.

The first load has completed: while `clients.json` is written for the first time
there is no temporary file.
-/

namespace MiniMask

open AtomicFile
open FailedSaves (Reply)

namespace Crash

/-! ## The process -/

/-- The process is down, is between two operations, or saves the change of one.
`before` is the list that the operation found; a process that is down had those
two lists when it was killed. -/
inductive Proc
  | down (before after : List Client)
  | idle (list : List Client)
  | saving (op : ClientOp) (before list : List Client) (reply : Reply) (stage : Stage)
deriving DecidableEq, Repr

structure State where
  proc : Proc
  files : Files (List Client)
deriving DecidableEq, Repr

/-- The list before the operation in progress. -/
def Proc.before : Proc → List Client
  | .down before _ => before
  | .idle list => list
  | .saving _ before _ _ _ => before

/-- The list after the operation in progress. -/
def Proc.after : Proc → List Client
  | .down _ after => after
  | .idle list => list
  | .saving _ _ list _ _ => list

inductive Event
  | refuse (op : ClientOp)
  | begin (op : ClientOp)
  | disk
  | answer (op : ClientOp)
  | kill
  | load
deriving DecidableEq, Repr

inductive Step (sha256HexWithPepper : String → String → String) (pepper : String) :
    State → Event → State → Prop
  /-- The operation changes nothing and answers. -/
  | refuse {s : State} {op : ClientOp} {list : List Client} {reply : Reply} :
      s.proc = .idle list →
      (∀ io, ClientStore.exec sha256HexWithPepper pepper { list, file := s.files } op io =
        (.ok reply, { list, file := s.files })) →
      Step sha256HexWithPepper pepper s (.refuse op) s
  /-- The operation changes the list in memory and calls `persist`. -/
  | begin {s : State} {op : ClientOp} {before list : List Client} {reply : Reply} :
      s.proc = .idle before →
      (∀ io, ClientStore.exec sha256HexWithPepper pepper { list := before, file := s.files } op io =
        ({ list, file := s.files } : ClientStore).persistThen io reply) →
      Step sha256HexWithPepper pepper s (.begin op)
        { s with proc := .saving op before list reply .opening }
  | disk {s : State} {op : ClientOp} {before list : List Client} {reply : Reply}
      {stage stage' : Stage} {files' : Files (List Client)} :
      s.proc = .saving op before list reply stage →
      SaveStep list stage s.files stage' files' →
      Step sha256HexWithPepper pepper s .disk
        { proc := .saving op before list reply stage', files := files' }
  | answer {s : State} {op : ClientOp} {before list : List Client} {reply : Reply} :
      s.proc = .saving op before list reply .saved →
      Step sha256HexWithPepper pepper s (.answer op) { s with proc := .idle list }
  | kill {s : State} :
      Step sha256HexWithPepper pepper s .kill
        { s with proc := .down s.proc.before s.proc.after }
  | load {s : State} {before after : List Client} {t : ClientStore}
      {files' : Files (List Client)} :
      s.proc = .down before after →
      ClientStore.load s.files .done = (.ok t, files') →
      Step sha256HexWithPepper pepper s .load { proc := .idle t.list, files := files' }

/-- A load has just completed; the temporary file may hold anything. -/
def Loaded (list : List Client) (s : State) : Prop :=
  s.proc = .idle list ∧ s.files.main = some (.doc list)

/-! ## Which operations took effect -/

/-- The operation that the event calls. -/
def Event.called : Event → List ClientOp
  | .refuse op => [op]
  | .begin op => [op]
  | _ => []

/-- The operation that returns with the event. -/
def Event.returned : Event → List ClientOp
  | .refuse op => [op]
  | .answer op => [op]
  | _ => []

/-- The list that an operation leaves. -/
def applied (sha256HexWithPepper : String → String → String) (pepper : String)
    (list : List Client) (op : ClientOp) : List Client :=
  (ClientStore.exec sha256HexWithPepper pepper { list, file := { main := none, tmp := none } } op
    .done).2.list

/-- `list` comes from `list₀` by all the operations that returned and some of those
that were called, in order. -/
def Explained (sha256HexWithPepper : String → String → String) (pepper : String)
    (list₀ : List Client) (returned called : List ClientOp) (list : List Client) : Prop :=
  ∃ ops, returned.Sublist ops ∧ ops.Sublist called ∧
    list = ops.foldl (applied sha256HexWithPepper pepper) list₀

section Effects

variable {hash : String → String → String} {pepper : String} {list₀ list : List Client}
  {rs cs : List ClientOp} {op : ClientOp}

/-- The list that an operation leaves depends on the list alone. -/
theorem list_exec_eq (file : Files (List Client)) (io : Outcome) :
    (ClientStore.exec hash pepper { list, file } op io).2.list = applied hash pepper list op := by
  let crypto : FailedSaves.Crypto :=
    { sha256HexWithPepper := hash, tokenPepper := pepper, hashPassword := fun _ _ => none }
  let auth : AuthStore :=
    { inner := { username := "", passwordHash := "" }, file := { main := none, tmp := none } }
  have hmemory := @FailedSaves.memory_exec_congr crypto { clients := { list, file }, auth }
    { clients := { list, file := { main := none, tmp := none } }, auth } rfl op.onStores .done
  rw [ClientStore.exec_stores, ClientStore.exec_stores] at hmemory
  rw [ClientStore.list_exec]
  exact congrArg Prod.fst hmemory

theorem Explained.snoc (h : Explained hash pepper list₀ rs cs list) (op : ClientOp) :
    Explained hash pepper list₀ (rs ++ [op]) (cs ++ [op]) (applied hash pepper list op) := by
  obtain ⟨ops, hrs, hcs, rfl⟩ := h
  exact ⟨ops ++ [op], hrs.append (.refl _), hcs.append (.refl _), by simp⟩

/-- An operation that did not take effect. -/
theorem Explained.lost (h : Explained hash pepper list₀ rs cs list) (op : ClientOp) :
    Explained hash pepper list₀ rs (cs ++ [op]) list := by
  obtain ⟨ops, hrs, hcs, rfl⟩ := h
  exact ⟨ops, hrs, hcs.trans (List.sublist_append_left _ _), rfl⟩

/-- An operation that took effect and has not returned. -/
theorem Explained.unanswered (h : Explained hash pepper list₀ (rs ++ [op]) cs list) :
    Explained hash pepper list₀ rs cs list := by
  obtain ⟨ops, hrs, hcs, rfl⟩ := h
  exact ⟨ops, (List.sublist_append_left _ _).trans hrs, hcs, rfl⟩

end Effects

/-! ## What the file and the lists are in every state -/

/-- What the file holds. -/
def OnDisk (files : Files (List Client)) : Proc → Prop
  | .down before after => files.main = some (.doc before) ∨ files.main = some (.doc after)
  | .idle list => files.main = some (.doc list)
  | .saving _ before list _ stage => Underway list (some (.doc before)) files stage

/-- Both lists are explained, by the operations `rs` that returned and `cs` that
were called; the operation in progress would be if it returned. -/
def Accounted (sha256HexWithPepper : String → String → String) (pepper : String)
    (list₀ : List Client) (rs cs : List ClientOp) : Proc → Prop
  | .down before after =>
    Explained sha256HexWithPepper pepper list₀ rs cs before ∧
      Explained sha256HexWithPepper pepper list₀ rs cs after
  | .idle list => Explained sha256HexWithPepper pepper list₀ rs cs list
  | .saving op before list _ _ =>
    Explained sha256HexWithPepper pepper list₀ rs cs before ∧
      Explained sha256HexWithPepper pepper list₀ (rs ++ [op]) cs list

section Invariant

variable {hash : String → String → String} {pepper : String} {list₀ : List Client}
  {rs cs : List ClientOp} {s t : State} {e : Event}

theorem onDisk_candidates {files : Files (List Client)} {proc : Proc} (h : OnDisk files proc) :
    files.main = some (.doc proc.before) ∨ files.main = some (.doc proc.after) := by
  cases proc with
  | down before after => exact h
  | idle list => exact .inl h
  | saving op before list reply stage => exact main_of_underway h

theorem onDisk_step (h : OnDisk s.files s.proc) (hs : Step hash pepper s e t) :
    OnDisk t.files t.proc := by
  cases hs with
  | refuse => exact h
  | begin hproc hexec =>
    rw [hproc] at h
    exact h
  | disk hproc hsave =>
    rw [hproc] at h
    exact underway_step h hsave
  | answer hproc =>
    rw [hproc] at h
    exact h.1
  | kill => exact onDisk_candidates h
  | load hproc hload =>
    obtain ⟨hfile, hmain, _⟩ := ClientStore.load_ok hload
    exact hmain

theorem accounted_candidates {proc : Proc} (h : Accounted hash pepper list₀ rs cs proc) :
    Explained hash pepper list₀ rs cs proc.before ∧
      Explained hash pepper list₀ rs cs proc.after := by
  cases proc with
  | down before after => exact h
  | idle list => exact ⟨h, h⟩
  | saving op before list reply stage => exact ⟨h.1, h.2.unanswered⟩

/-- A load gives one of the two lists of the process that was killed. -/
theorem list_of_load {files files' : Files (List Client)} {proc : Proc} {t : ClientStore}
    (h : OnDisk files proc) (hload : ClientStore.load files .done = (.ok t, files')) :
    t.list = proc.before ∨ t.list = proc.after := by
  obtain ⟨_, _, hmain⟩ := ClientStore.load_ok hload
  rcases onDisk_candidates h with hdoc | hdoc <;> rw [hdoc] at hmain <;> simp at hmain
  · exact .inl hmain.symm
  · exact .inr hmain.symm

theorem accounted_step (hdisk : OnDisk s.files s.proc)
    (h : Accounted hash pepper list₀ rs cs s.proc) (hs : Step hash pepper s e t) :
    Accounted hash pepper list₀ (rs ++ e.returned) (cs ++ e.called) t.proc := by
  cases hs with
  | @refuse op list reply hproc hexec =>
    rw [hproc] at h ⊢
    have hsame : applied hash pepper list op = list := by
      rw [← list_exec_eq s.files .done, hexec]
    have hnext := Explained.snoc h op
    rwa [hsame] at hnext
  | @begin op before list reply hproc hexec =>
    rw [hproc] at h
    have hlist : applied hash pepper before op = list := by
      rw [← list_exec_eq s.files .done, hexec, ClientStore.persistThen_list]
    have hnext := Explained.snoc h op
    rw [hlist] at hnext
    simp only [Event.returned, List.append_nil]
    exact ⟨Explained.lost h op, hnext⟩
  | disk hproc hsave =>
    rw [hproc] at h
    simp only [Event.returned, Event.called, List.append_nil]
    exact h
  | answer hproc =>
    rw [hproc] at h
    simp only [Event.called, List.append_nil]
    exact h.2
  | kill =>
    simp only [Event.returned, Event.called, List.append_nil]
    exact accounted_candidates h
  | load hproc hload =>
    simp only [Event.returned, Event.called, List.append_nil]
    rcases list_of_load hdisk hload with heq | heq
    · exact heq ▸ (accounted_candidates h).1
    · exact heq ▸ (accounted_candidates h).2

/-- Every operation can be called when none is in progress. -/
theorem can_call {list : List Client} (hproc : s.proc = .idle list) (op : ClientOp) :
    ∃ e t, Step hash pepper s e t ∧ e.called = [op] := by
  rcases ClientStore.exec_saves hash pepper { list, file := s.files } op with
    ⟨reply, hexec⟩ | ⟨list', reply, hexec⟩
  · exact ⟨_, _, .refuse hproc hexec, rfl⟩
  · exact ⟨_, _, .begin hproc hexec, rfl⟩

/-- A save whose calls have all been made leaves what the operation leaves as a whole. -/
theorem saved_eq_exec {op : ClientOp} {before list : List Client} {reply : Reply}
    {files files' : Files (List Client)} {old : Option (Text (List Client))}
    (hexec : ∀ io, ClientStore.exec hash pepper { list := before, file := files } op io =
      ({ list, file := files } : ClientStore).persistThen io reply)
    (h : Underway list old files' .saved) :
    ClientStore.exec hash pepper { list := before, file := files } op .done =
      (.ok reply, { list, file := files' }) := by
  rw [hexec, eq_save_of_underway files h]
  rfl

end Invariant

/-- **Killed at any point.** In every state of every run since a completed load,
with any number of kills and restarts and whatever is in the temporary file: a
load succeeds and gives the list before or after the operation in progress (where
no operation is in progress these are the list in memory), and that list is what
all the operations that returned, and some of those that were called and did not
return, make of the first list in order. -/
theorem crash_consistency (sha256HexWithPepper : String → String → String) (pepper : String)
    {list₀ : List Client} {s₀ s : State} {tr : List (State × Event × State)}
    (loaded : Loaded list₀ s₀) (run : Lts.Run (Step sha256HexWithPepper pepper) s₀ tr s) :
    ∃ list, ClientStore.load s.files .done = (.ok { list, file := s.files }, s.files) ∧
      (list = s.proc.before ∨ list = s.proc.after) ∧
      Explained sha256HexWithPepper pepper list₀ (tr.flatMap fun x => x.2.1.returned)
        (tr.flatMap fun x => x.2.1.called) list := by
  obtain ⟨hproc₀, hmain₀⟩ := loaded
  have key : OnDisk s.files s.proc ∧
      Accounted sha256HexWithPepper pepper list₀ (tr.flatMap fun x => x.2.1.returned)
        (tr.flatMap fun x => x.2.1.called) s.proc := by
    induction run with
    | nil =>
      rw [hproc₀]
      exact ⟨hmain₀, [], .refl _, .refl _, rfl⟩
    | snoc _ hs ih =>
      simp only [List.flatMap_append, List.flatMap_singleton]
      exact ⟨onDisk_step ih.1 hs, accounted_step ih.1 ih.2 hs⟩
  obtain ⟨hdisk, haccounted⟩ := key
  obtain ⟨hbefore, hafter⟩ := accounted_candidates haccounted
  rcases onDisk_candidates hdisk with hmain | hmain
  · exact ⟨s.proc.before, ClientStore.load_doc hmain, .inl rfl, hbefore⟩
  · exact ⟨s.proc.after, ClientStore.load_doc hmain, .inr rfl, hafter⟩

/-- A client is created and the call returns; while a second one is being saved over
a stale temporary file, the process is killed. -/
theorem crash_consistency_second_client :
    let hash := fun t p : String => t ++ p
    let a := newClient hash "p" "a" "mmk_a" "client_a" 0
    let b := newClient hash "p" "b" "mmk_b" "client_b" 1
    ∃ list, ClientStore.load { main := some (.doc [a]), tmp := some .torn } .done =
        (.ok { list, file := { main := some (.doc [a]), tmp := some .torn } },
          { main := some (.doc [a]), tmp := some .torn }) ∧
      (list = [a] ∨ list = [a, b]) := by
  intro hash a b
  let s₀ : State := { proc := .idle [], files := { main := some (.doc []), tmp := some .torn } }
  have r₀ : Lts.Run (Step hash "p") s₀ [] s₀ := .nil
  have r₁ := r₀.snoc (e := .begin (.addClient "a" "mmk_a" "client_a" 0)) (.begin rfl fun io => by
    cases io <;> rfl)
  have r₂ := r₁.snoc (.disk rfl (.truncate .torn))
  have r₃ := r₂.snoc (.disk rfl .writeRest)
  have r₄ := r₃.snoc (.disk rfl .rename)
  have r₅ := r₄.snoc (.answer rfl)
  have r₆ := r₅.snoc (e := .begin (.addClient "b" "mmk_b" "client_b" 1)) (.begin rfl fun io => by
    cases io <;> rfl)
  have r₇ := r₆.snoc (.disk rfl (.truncate .torn))
  have r₈ := r₇.snoc .kill
  obtain ⟨list, hload, hlist, _⟩ := crash_consistency hash "p" ⟨rfl, rfl⟩ r₈
  exact ⟨list, hload, hlist⟩

end Crash

end MiniMask
