/-!
# Documents saved through a temporary file

A program keeps a document in a file and replaces it by writing the new text to
a temporary file next to it and renaming that one over it. Writing can fail at
any point and leave anything in the temporary file; renaming either happens or
does not.

`save` is that procedure under every outcome the file system can produce.
`load_save_of_ok` and `main_save_of_error` are all that its users need: after a
successful save the file reads back as the document, and a failed save leaves
the file as it was.

`SaveStep` is the same procedure call by call, for a program that can be killed
in between. `Underway` says what the file holds at each point (`underway_step`):
the old text or the new document, whatever is in the temporary file.
-/

namespace AtomicFile

variable {α : Type}

/-- What a parser makes of a file: the text of the document `a`, or a text that
is not a complete document. -/
inductive Text (α : Type)
  | doc (a : α)
  | torn
deriving DecidableEq, Repr

/-- The file and the temporary file next to it. -/
structure Files (α : Type) where
  main : Option (Text α)
  tmp : Option (Text α)
deriving DecidableEq, Repr

/-- The temporary file after a failed write: as before, cut off somewhere, or
complete (the error came with the last byte). -/
inductive TmpAfter
  | untouched
  | torn
  | whole
deriving DecidableEq, Repr

/-- How the file system answers a save. -/
inductive Outcome
  | done
  | writeFailed (after : TmpAfter)
  | renameFailed
deriving DecidableEq, Repr

/-- Which of the two calls failed. -/
inductive Error
  | write
  | rename
deriving DecidableEq, Repr

/-- The temporary file once a write of `a` has failed. -/
def leftover (a : α) (files : Files α) : TmpAfter → Option (Text α)
  | .untouched => files.tmp
  | .torn => some .torn
  | .whole => some (.doc a)

/-- Write the text of `a` to the temporary file, then rename it over the file. -/
def save (a : α) (files : Files α) : Outcome → Except Error Unit × Files α
  | .writeFailed after => (.error .write, { files with tmp := leftover a files after })
  | .renameFailed => (.error .rename, { files with tmp := some (.doc a) })
  | .done => (.ok (), { main := some (.doc a), tmp := none })

/-- The document a reader finds; `none` if there is no file or the text in it is
not a document. -/
def load (files : Files α) : Option α :=
  match files.main with
  | some (.doc a) => some a
  | _ => none

theorem load_save_of_ok {a : α} {files : Files α} {io : Outcome} (h : (save a files io).1 = .ok ()) :
    load (save a files io).2 = some a := by
  cases io with
  | done => rfl
  | writeFailed after => cases h
  | renameFailed => cases h

theorem main_save_of_error {a : α} {files : Files α} {io : Outcome} {e : Error}
    (h : (save a files io).1 = .error e) : (save a files io).2.main = files.main := by
  cases io with
  | done => cases h
  | writeFailed after => rfl
  | renameFailed => rfl

example : (save 2 { main := some (.doc 1), tmp := none } (.writeFailed .torn)).2 =
    { main := some (.doc 1), tmp := some .torn } := by decide

/-! ## Loading, and the first file -/

/-- Why a load fails: reading the file, parsing it, or making or writing the first
document. -/
inductive LoadError
  | read
  | parse
  | seed
  | write
deriving DecidableEq, Repr

/-- How the file system answers a load; a failed write leaves something in the file. -/
inductive LoadOutcome
  | done
  | failed (after : TmpAfter)
deriving DecidableEq, Repr

/-- Read the file or, where there is none, write the document `seed` into it, directly
and without a temporary file. `seed` is `none` where making the document fails. -/
def loadOr (seed : Option α) (files : Files α) (io : LoadOutcome) :
    Except LoadError α × Files α :=
  match files.main with
  | some text =>
    match io, text with
    | .failed _, _ => (.error .read, files)
    | .done, .torn => (.error .parse, files)
    | .done, .doc a => (.ok a, files)
  | none =>
    match seed, io with
    | none, _ => (.error .seed, files)
    | some a, .done => (.ok a, { files with main := some (.doc a) })
    | some _, .failed .untouched => (.error .write, files)
    | some _, .failed .torn => (.error .write, { files with main := some .torn })
    | some a, .failed .whole => (.error .write, { files with main := some (.doc a) })

theorem loadOr_doc {a : α} {files : Files α} (seed : Option α) (h : files.main = some (.doc a)) :
    loadOr seed files .done = (.ok a, files) := by
  unfold loadOr
  rw [h]

/-- A load that succeeds gives the document that the file has, or the first one where
there was no file. -/
theorem loadOr_ok {seed : Option α} {files files' : Files α} {io : LoadOutcome} {a : α}
    (h : loadOr seed files io = (.ok a, files')) :
    files'.main = some (.doc a) ∧
      (files.main = some (.doc a) ∨ files.main = none ∧ seed = some a) := by
  unfold loadOr at h
  cases hmain : files.main with
  | none =>
    rw [hmain] at h
    cases seed with
    | none => cases h
    | some b =>
      cases io with
      | done => cases h; exact ⟨rfl, .inr ⟨rfl, rfl⟩⟩
      | failed after => cases after <;> cases h
  | some text =>
    rw [hmain] at h
    cases io with
    | failed after => cases h
    | done =>
      cases text with
      | torn => cases h
      | doc b => cases h; exact ⟨hmain, .inl rfl⟩

/-! ## Call by call -/

/-- Where a save stands that meets no error: before it truncates the temporary
file, while it writes, when the text is complete, and after the rename. -/
inductive Stage
  | opening
  | writing
  | written
  | saved
deriving DecidableEq, Repr

/-- One call of a save of `a`. What a parser makes of a truncated or partly written
file is anything; what the rename moves is what the temporary file holds. -/
inductive SaveStep (a : α) : Stage → Files α → Stage → Files α → Prop
  | truncate {files : Files α} (text : Text α) :
      SaveStep a .opening files .writing { files with tmp := some text }
  | writePart {files : Files α} (text : Text α) :
      SaveStep a .writing files .writing { files with tmp := some text }
  | writeRest {files : Files α} :
      SaveStep a .writing files .written { files with tmp := some (.doc a) }
  | rename {files : Files α} :
      SaveStep a .written files .saved { main := files.tmp, tmp := none }

/-- What the two files hold at each stage of a save of `a` over the text `old`. -/
def Underway (a : α) (old : Option (Text α)) (files : Files α) : Stage → Prop
  | .opening => files.main = old
  | .writing => files.main = old
  | .written => files.main = old ∧ files.tmp = some (.doc a)
  | .saved => files.main = some (.doc a) ∧ files.tmp = none

theorem underway_step {a : α} {old : Option (Text α)} {files files' : Files α} {stage stage' : Stage}
    (h : Underway a old files stage) (hs : SaveStep a stage files stage' files') :
    Underway a old files' stage' := by
  cases hs with
  | truncate text => exact h
  | writePart text => exact h
  | writeRest => exact ⟨h, rfl⟩
  | rename => exact ⟨h.2, rfl⟩

/-- At the end the files are those of `save`. -/
theorem eq_save_of_underway {a : α} {old : Option (Text α)} {files : Files α} (files₀ : Files α)
    (h : Underway a old files .saved) : files = (save a files₀ .done).2 := by
  obtain ⟨main, tmp⟩ := files
  obtain ⟨rfl, rfl⟩ := h
  rfl

/-- At every point the file holds the old text or the document. -/
theorem main_of_underway {a : α} {old : Option (Text α)} {files : Files α} {stage : Stage}
    (h : Underway a old files stage) : files.main = old ∨ files.main = some (.doc a) := by
  cases stage with
  | opening => exact .inl h
  | writing => exact .inl h
  | written => exact .inl h.1
  | saved => exact .inr h.1

end AtomicFile
