import Mathlib.Algebra.Order.Ring.Nat
import Mathlib.Tactic.ByContra
import MiniMask.Config
import MiniMask.Store.Auth
import MiniMask.Web.Cookies

/-!
# How long a login lasts (`web/auth.rs`, `util.rs` `make_jwt`, `config.rs` `validate`)

`login` turns `token_ttl_hours` into the expiry of the token, a date, and into the
`Max-Age` of the cookie, a number of seconds. The crate `chrono` panics when a duration or
a date is out of its range, and `validate` rejects nothing but 0.

`login_lifetime_exact`: a login with the right credentials answers with a token and a cookie
that expire together, `token_ttl_hours` from now, exactly if that date is one that `chrono`
has. `eternal_login` is the other case.

Times are in seconds since the epoch.
-/

namespace MiniMask.Web

open Protocol (asBytes)

/-! ## Arithmetic -/

/-- How a login fails: the task panics, or the request is answered with an error. -/
inductive Fault
  | panics
  | unauthorized
  | internal
deriving DecidableEq, Repr

/-- `n as i64` of a `u64`. -/
def asI64 (n : Nat) : Int := Int.bmod n (2 ^ 64)

/-- The largest number of whole seconds in a `chrono::Duration`. -/
def maxDuration : Int := (2 ^ 63 - 1) / 1000

/-- The last second of `DateTime::<Utc>::MAX_UTC`, 262142-12-31T23:59:59. -/
def maxTimestamp : Int := 8210266876799

/-- The first second of `DateTime::<Utc>::MIN_UTC`, -262143-01-01T00:00:00. -/
def minTimestamp : Int := -8334601228800

/-- What the server calls of the crate `chrono`, `Duration::hours` and the sum of a date and a
duration, with what that documents: they panic exactly where the result is out of range. -/
structure Chrono where
  hours : Int → Except Fault Int
  addSigned : Int → Int → Except Fault Int
  hours_fits : ∀ n, -maxDuration ≤ n * 3600 → n * 3600 ≤ maxDuration → hours n = .ok (n * 3600)
  hours_panics : ∀ n, ¬(-maxDuration ≤ n * 3600 ∧ n * 3600 ≤ maxDuration) →
    hours n = .error .panics
  addSigned_fits : ∀ time d, minTimestamp ≤ time + d → time + d ≤ maxTimestamp →
    addSigned time d = .ok (time + d)
  addSigned_panics : ∀ time d, ¬(minTimestamp ≤ time + d ∧ time + d ≤ maxTimestamp) →
    addSigned time d = .error .panics

/-- `a * b` of two `u64`, in a build with or without overflow checks. -/
def mulU64 (overflowChecks : Bool) (a b : Nat) : Except Fault Nat :=
  if a * b < 2 ^ 64 then .ok (a * b)
  else if overflowChecks then .error .panics
  else .ok (a * b % 2 ^ 64)

/-! ## `login` -/

structure Claims where
  sub : String
  exp : Int
deriving DecidableEq, Repr

structure LoginReq where
  username : String
  password : String
deriving DecidableEq, Repr

/-- The user name in the body, and the `Set-Cookie` line. -/
structure LoginResponse where
  username : String
  setCookie : Option HeaderValue
deriving DecidableEq

/-- The text of `set_auth_cookie`. -/
def authCookie (token : String) (ttlSecs : Nat) (secure : Bool) : String :=
  "mmk_token=" ++ token ++ "; HttpOnly; Path=/; SameSite=Strict; Max-Age=" ++ toString ttlSecs ++
    (if secure then "; Secure" else "")

section Login

variable (http : Http) (chrono : Chrono) (encode : Claims → String → Option String)

def encodeJwt (claims : Claims) (secret : String) : Except Fault String :=
  match encode claims secret with
  | some token => .ok token
  | none => .error .internal

/-- `make_jwt` at the time `now`. `encode` is that of the crate `jsonwebtoken`. -/
def makeJwt (username secret : String) (ttlHours now : Nat) : Except Fault String := do
  let lifetime ← chrono.hours (asI64 ttlHours)
  let exp ← chrono.addSigned now lifetime
  encodeJwt encode { sub := username, exp } secret

def login (verifyPassword : String → String → Bool) (overflowChecks : Bool) (cfg : Config)
    (auth : AuthStore) (now : Nat) (req : LoginReq) : Except Fault LoginResponse :=
  let username := auth.inner.username
  if req.username = username ∧ auth.verify verifyPassword req.password = true then do
    let token ← makeJwt chrono encode username cfg.auth.jwtSecret cfg.auth.tokenTtlHours now
    let ttlSecs ← mulU64 overflowChecks cfg.auth.tokenTtlHours 3600
    pure { username, setCookie := http.fromStr (authCookie token ttlSecs cfg.server.webTls) }
  else .error .unauthorized

/-- The answer to a login with the right credentials whose token and cookie both expire
`token_ttl_hours` after `now`. -/
def expiringTogether (cfg : Config) (username : String) (now : Nat) :
    Except Fault LoginResponse := do
  let ttlSecs := cfg.auth.tokenTtlHours * 3600
  let token ← encodeJwt encode { sub := username, exp := now + ttlSecs } cfg.auth.jwtSecret
  pure { username, setCookie := http.fromStr (authCookie token ttlSecs cfg.server.webTls) }

end Login

/-! ## The range of the expiry -/

section Lifetime

variable {http : Http} {chrono : Chrono} {encode : Claims → String → Option String}
  {verifyPassword : String → String → Bool} {overflowChecks : Bool} {cfg : Config}
  {auth : AuthStore} {now : Nat} {req : LoginReq}

theorem asI64_of_lt {n : Nat} (h : n < 2 ^ 63) : asI64 n = n :=
  Int.bmod_eq_of_le (by omega) (by omega)

/-- A number of hours from now that is a date is a duration. -/
theorem hours_of_le {n : Nat} (h : (now : Int) + n * 3600 ≤ maxTimestamp) :
    chrono.hours n = .ok (n * 3600) := by
  unfold maxTimestamp at h
  exact chrono.hours_fits n (by rw [maxDuration]; omega) (by rw [maxDuration]; omega)

theorem addSigned_of_le {d : Nat} (h : (now : Int) + d ≤ maxTimestamp) :
    chrono.addSigned now d = .ok (now + d) :=
  chrono.addSigned_fits now d (by rw [minTimestamp]; omega) h

theorem makeJwt_of_le {username secret : String} {ttl : Nat} (httl : ttl < 2 ^ 63)
    (h : (now : Int) + ttl * 3600 ≤ maxTimestamp) :
    makeJwt chrono encode username secret ttl now =
      encodeJwt encode { sub := username, exp := now + (ttl * 3600 : Nat) } secret := by
  have hdate : chrono.addSigned now (ttl * 3600) = .ok (now + (ttl * 3600 : Nat)) :=
    addSigned_of_le (d := ttl * 3600) (by omega)
  unfold makeJwt
  rw [asI64_of_lt httl, hours_of_le h]
  show (chrono.addSigned now (ttl * 3600) >>= _) = _
  rw [hdate]
  rfl

/-- Whatever is out of range, the duration or the date, the task panics. -/
theorem makeJwt_of_gt {username secret : String} {ttl : Nat} (httl : ttl < 2 ^ 63)
    (h : maxTimestamp < (now : Int) + ttl * 3600) :
    makeJwt chrono encode username secret ttl now = .error .panics := by
  unfold makeJwt
  rw [asI64_of_lt httl]
  -- Either the duration is out of range already, or the date is.
  by_cases hfits : -maxDuration ≤ (ttl : Int) * 3600 ∧ (ttl : Int) * 3600 ≤ maxDuration
  · have hlate : chrono.addSigned now (ttl * 3600) = .error .panics :=
      chrono.addSigned_panics _ _ fun hrange => absurd hrange.2 (Int.not_le.mpr h)
    rw [chrono.hours_fits ttl hfits.1 hfits.2]
    show (chrono.addSigned now (ttl * 3600) >>= _) = _
    rw [hlate]
    rfl
  · rw [chrono.hours_panics ttl hfits]
    rfl

/-- A lifetime that ends on a date is a number of seconds in 64 bits. -/
theorem mulU64_of_le {ttl : Nat} (h : (now : Int) + ttl * 3600 ≤ maxTimestamp) :
    mulU64 overflowChecks ttl 3600 = .ok (ttl * 3600) := by
  unfold maxTimestamp at h
  exact if_pos (by omega)

theorem login_of_correct (huser : req.username = auth.inner.username)
    (hpass : auth.verify verifyPassword req.password = true) :
    login http chrono encode verifyPassword overflowChecks cfg auth now req =
      (makeJwt chrono encode auth.inner.username cfg.auth.jwtSecret cfg.auth.tokenTtlHours now >>=
        fun token => mulU64 overflowChecks cfg.auth.tokenTtlHours 3600 >>= fun ttlSecs =>
          pure { username := auth.inner.username
                 setCookie := http.fromStr (authCookie token ttlSecs cfg.server.webTls) }) :=
  if_pos ⟨huser, hpass⟩

theorem expiringTogether_ne_panics {username : String} :
    expiringTogether http encode cfg username now ≠ .error .panics := by
  unfold expiringTogether encodeJwt
  dsimp only
  split
  · nofun
  · nofun

/-- A login with the right credentials gives the token and the cookie the lifetime that is
configured if and only if it ends on a date that `chrono` has; otherwise it panics. -/
theorem login_lifetime_exact (hcfg : cfg.Accepted) (huser : req.username = auth.inner.username)
    (hpass : auth.verify verifyPassword req.password = true) :
    login http chrono encode verifyPassword overflowChecks cfg auth now req =
        expiringTogether http encode cfg auth.inner.username now ↔
      (now : Int) + cfg.auth.tokenTtlHours * 3600 ≤ maxTimestamp := by
  rw [login_of_correct huser hpass]
  constructor
  · intro heq
    by_contra hlate
    rw [makeJwt_of_gt hcfg.ttl_lt (Int.not_le.mp hlate)] at heq
    exact expiringTogether_ne_panics heq.symm
  · intro hle
    rw [makeJwt_of_le hcfg.ttl_lt hle, mulU64_of_le hle]
    rfl

end Lifetime

/-! ## Two configurations -/

/-- The default configuration with another lifetime. -/
def exampleConfig (tokenTtlHours : Nat) : Config where
  server :=
    { tunnelBind := "0.0.0.0:7443", webBind := "0.0.0.0:8080", dataDir := "./data"
      tunnelTls := true, webTls := false }
  auth := { adminUsername := "admin", jwtSecret := "secret", tokenTtlHours }
  security := { maxClients := 100, maxConnsPerClient := 512 }
  audit := { logFile := "./data/audit.log", maxSizeMb := 10 }

def exampleChrono : Chrono where
  hours n :=
    if -maxDuration ≤ n * 3600 ∧ n * 3600 ≤ maxDuration then .ok (n * 3600) else .error .panics
  addSigned time d :=
    if minTimestamp ≤ time + d ∧ time + d ≤ maxTimestamp then .ok (time + d) else .error .panics
  hours_fits _ hmin hmax := if_pos ⟨hmin, hmax⟩
  hours_panics _ h := if_neg h
  addSigned_fits _ _ hmin hmax := if_pos ⟨hmin, hmax⟩
  addSigned_panics _ _ h := if_neg h

/-- The credentials of a first start, with the password itself as its hash. -/
def exampleAuth : AuthStore where
  inner := { username := "admin", passwordHash := "admin" }
  file := { main := none, tmp := none }

/-- The claims as they are, without a signature. -/
def exampleEncode (claims : Claims) (_ : String) : Option String :=
  some (claims.sub ++ "." ++ toString claims.exp)

theorem accepted_example {n : Nat} (hpos : 0 < n) (hlt : n < 2 ^ 63) :
    (exampleConfig n).Accepted := by
  refine ⟨?_, hlt⟩
  simp [Config.validate, exampleConfig, Nat.ne_of_gt hpos]

/-- A day, in the default configuration. -/
theorem login_lifetime_exact_day :
    login exampleHttp exampleChrono exampleEncode (· == ·) true (exampleConfig 24) exampleAuth
        1750000000 { username := "admin", password := "admin" } =
      expiringTogether exampleHttp exampleEncode (exampleConfig 24) "admin" 1750000000 :=
  (login_lifetime_exact (accepted_example (by decide) (by decide)) rfl rfl).mpr (by decide)

/-- A lifetime that is to be forever: the configuration is accepted, and every login
panics. -/
theorem eternal_login :
    (exampleConfig (2 ^ 63 - 1)).validate = .ok () ∧
      login exampleHttp exampleChrono exampleEncode (· == ·) false (exampleConfig (2 ^ 63 - 1))
        exampleAuth 1750000000 { username := "admin", password := "admin" } = .error .panics ∧
      login exampleHttp exampleChrono exampleEncode (· == ·) false (exampleConfig (2 ^ 63 - 1))
          exampleAuth 1750000000 { username := "admin", password := "admin" } ≠
        expiringTogether exampleHttp exampleEncode (exampleConfig (2 ^ 63 - 1)) "admin"
          1750000000 := by
  have hpanics : login exampleHttp exampleChrono exampleEncode (· == ·) false
      (exampleConfig (2 ^ 63 - 1)) exampleAuth 1750000000
      { username := "admin", password := "admin" } = .error .panics := by
    rw [login_of_correct rfl rfl, makeJwt_of_gt (by decide) (by decide)]
    rfl
  refine ⟨by decide, hpanics, fun heq => ?_⟩
  exact expiringTogether_ne_panics (heq.symm.trans hpanics)

end MiniMask.Web
