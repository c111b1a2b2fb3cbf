import MiniMask.Lib.AtomicFile

/-!
# The admin credentials (`state.rs`, `AuthStore`)

One user name and the hash of one password, kept in memory and saved to
`auth.json`. Hashing and checking a password are Argon2, which is not part of
the repository: `hashPassword salt password` is `none` when it fails.
-/

namespace MiniMask

open AtomicFile

structure AuthFile where
  username : String
  passwordHash : String
deriving DecidableEq, Repr

structure AuthStore where
  inner : AuthFile
  file : Files AuthFile
deriving DecidableEq, Repr

/-- Why `change_password` fails. -/
inductive AuthError
  | hash
  | save (e : Error)
deriving DecidableEq, Repr

namespace AuthStore

def persistInner (s : AuthStore) (f : AuthFile) (io : Outcome) :
    Except AuthError Unit × AuthStore :=
  let saved := save f s.file io
  (saved.1.mapError .save, { s with file := saved.2 })

def verify (verifyPassword : String → String → Bool) (s : AuthStore) (password : String) : Bool :=
  verifyPassword password s.inner.passwordHash

/-- The hash is computed before the field is assigned, so a failing hash changes
nothing. -/
def changePassword (hashPassword : String → String → Option String) (s : AuthStore)
    (newPassword salt : String) (io : Outcome) : Except AuthError Unit × AuthStore :=
  match hashPassword salt newPassword with
  | none => (.error .hash, s)
  | some passwordHash =>
    let inner := { s.inner with passwordHash }
    { s with inner }.persistInner inner io

end AuthStore

end MiniMask
