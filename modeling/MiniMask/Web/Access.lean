import MiniMask.Tunnel.Steps
import MiniMask.Web.Login
import MiniMask.Web.Router

/-!
# The requests to the web app (`web/mod.rs`, `web/auth.rs`, `web/routes.rs`, `util.rs`)

Each request is a task of its own: the layer of `require_auth`, then a handler. Between the
steps of one request come those of all others and of the tunnels, and restarts. A login checks
the password at one time and signs the token at a later one; a change of the password checks
the old one at one time and sets the new one at a later one.

`sound` is the invariant: every token was signed for a login with the right password, every
request past the layer came with such a token, and every password was loaded at a start or
set by such a request.

The crates `jsonwebtoken`, `argon2`, `http` and `chrono`, the extractors of `axum` and the
matching of `matchit` are parameters. That nobody can sign tokens without the secret is a
condition on the requests (`Unforged`).
-/

namespace MiniMask.Access

open Lts AtomicFile Web
open Protocol (asBytes)
open Tunnel (AdminRequest RequestId Server)

/-! ## Data -/

/-- The crate `jsonwebtoken`. `decode` checks everything but the expiry. -/
structure Jwt where
  encode : Claims → String → Option String
  decode : List UInt8 → String → Option Claims

/-- `Validation::default().leeway`, in seconds. -/
def leeway : Nat := 60

/-- `verify_jwt` at the time `now`. -/
def Jwt.verify (jwt : Jwt) (now : Nat) (token : List UInt8) (secret : String) : Option String :=
  (jwt.decode token secret).bind fun claims =>
    if claims.exp < now - leeway then none else some claims.sub

structure CreateMappingReq where
  clientId : String
  name : String
  remotePort : UInt16
  localAddr : String
deriving DecidableEq, Repr

structure ChangePasswordReq where
  oldPassword : String
  newPassword : String
deriving DecidableEq, Repr

/-- The bodies that `Json` accepts for the types of the handlers. -/
structure Bodies where
  login : List UInt8 → Option LoginReq
  createClient : List UInt8 → Option String
  updateEnabled : List UInt8 → Option Bool
  createMapping : List UInt8 → Option CreateMappingReq
  changePassword : List UInt8 → Option ChangePasswordReq

/-- The configuration, and the library functions that the app calls. -/
structure Env where
  tunnel : Tunnel.Env
  config : Config
  overflowChecks : Bool
  http : Http
  chrono : Chrono
  jwt : Jwt
  hashPassword : String → String → Option String
  verifyPassword : String → String → Bool
  takes : List Char → Bool
  percentDecode : List Char → Option String
  bodies : Bodies

structure HttpRequest where
  method : Method
  path : String
  headers : HeaderMap
  body : List UInt8

/-- A request that the layer let through: its token, its user, and when that was. -/
structure Entry where
  token : List UInt8
  user : String
  time : Nat
deriving DecidableEq, Repr

/-- A token that `login` made, when, and for what: `epoch` numbers the credentials that the
password was checked against. -/
structure Grant where
  token : String
  time : Nat
  req : LoginReq
  epoch : Nat
deriving DecidableEq, Repr

/-- A change of the password, with the credentials that the old one was checked against. -/
structure Change where
  entry : Entry
  req : ChangePasswordReq
  epoch : Nat
  salt : String
deriving DecidableEq, Repr

/-- Where credentials come from: a start, which loads or seeds them, or a change. -/
inductive Origin
  | loaded
  | changed (change : Change)
deriving DecidableEq, Repr

structure Credential where
  file : AuthFile
  origin : Origin
deriving DecidableEq, Repr

inductive Answer
  | ok
  | loggedIn (response : LoginResponse)
  | unauthorized
  | badRequest (message : String)
  | rejected
  | methodNotAllowed
  | fallback
  | failed (fault : Fault)
  | internal (e : AuthError)
deriving DecidableEq

/-- Where a request is: at its handler, past the check of a password, handed on to the
tunnel's part of the server, or answered. -/
inductive Call
  | idle
  | admitted (h : Handler) (entry : Option Entry) (captures : List (List Char))
      (body : List UInt8)
  | verified (req : LoginReq) (epoch : Nat)
  | checked (entry : Entry) (req : ChangePasswordReq) (epoch : Nat)
  | submitted (entry : Entry)
  | answered (answer : Answer)
deriving DecidableEq

/-- The server, the credentials, the clock and the requests. `grants` (newest first) and
`history` (oldest first) are not kept by the code; they outlive a restart, as the secret
does. -/
structure State where
  server : Server
  auth : AuthStore
  now : Nat
  calls : RequestId → Call
  grants : List Grant
  history : List Credential

/-! ## The handlers -/

/-- The random values and the time that a handler draws. -/
structure Draw where
  id : String
  token : String
  now : Timestamp
deriving DecidableEq, Repr

section Handlers

variable (env : Env)

/-- `Path(id)`. -/
def pathId : List (List Char) → Option String
  | [id] => env.percentDecode id
  | _ => none

/-- What a handler does to the store, up to what it draws; `none` if an extractor rejects the
request, and for the other handlers. -/
def storeRequest (h : Handler) (captures : List (List Char)) (body : List UInt8) :
    Option (Draw → AdminRequest) :=
  match h with
  | .createClient => do
    let name ← env.bodies.createClient body
    pure fun draw => .createClient name draw.token draw.id draw.now
  | .updateClient => do
    let id ← pathId env captures
    let enabled ← env.bodies.updateEnabled body
    pure fun _ => .updateClient id enabled
  | .deleteClient => do
    let id ← pathId env captures
    pure fun _ => .deleteClient id
  | .regenerateToken => do
    let id ← pathId env captures
    pure fun draw => .regenerateToken id draw.token
  | .createMapping => do
    let req ← env.bodies.createMapping body
    pure fun draw =>
      .createMapping req.clientId req.name req.remotePort req.localAddr draw.id draw.now
  | .updateMapping => do
    let id ← pathId env captures
    let enabled ← env.bodies.updateEnabled body
    pure fun _ => .updateMapping id enabled
  | .deleteMapping => do
    let id ← pathId env captures
    pure fun _ => .deleteMapping id
  | _ => none

/-- The handlers that leave everything as it is. -/
def reads : Handler → Bool
  | .me | .logout | .listClients | .listMappings | .listLogs | .getStats | .listSessions
  | .getSettings | .wsHandler => true
  | _ => false

/-- `require_auth`. -/
def authorize (now : Nat) (headers : HeaderMap) : Option String :=
  requireAuth env.http (env.jwt.verify now) env.config.auth.jwtSecret headers

/-- What the router and the layer make of a request. -/
def letIn (now : Nat) (req : HttpRequest) : Call :=
  match dispatch env.takes (authorize env now req.headers) req.method req.path with
  | .run h user captures =>
    let entry := user.map fun user =>
      { token := (getCookie env.http req.headers cookieName).getD [], user, time := now }
    .admitted h entry captures req.body
  | .unauthorized => .answered .unauthorized
  | .methodNotAllowed => .answered .methodNotAllowed
  | .fallback => .answered .fallback

/-- `login` up to the check of the password. -/
def checkLogin (auth : AuthStore) (epoch : Nat) (req : LoginReq) : Call :=
  if req.username = auth.inner.username ∧
      auth.verify env.verifyPassword req.password = true then .verified req epoch
  else .answered .unauthorized

/-- The answer of `login` with its token. -/
def loginAnswer (username token : String) : Answer :=
  match mulU64 env.overflowChecks env.config.auth.tokenTtlHours 3600 with
  | .ok ttlSecs =>
    .loggedIn
      { username
        setCookie := env.http.fromStr (authCookie token ttlSecs env.config.server.webTls) }
  | .error fault => .failed fault

/-- `change_password` up to the check of the old password. -/
def checkPassword (auth : AuthStore) (entry : Entry) (epoch : Nat) (req : ChangePasswordReq) :
    Call :=
  if req.newPassword.utf8ByteSize < 6 then
    .answered (.badRequest "new password must be at least 6 characters")
  else if auth.verify env.verifyPassword req.oldPassword = true then .checked entry req epoch
  else .answered (.badRequest "old password incorrect")

end Handlers

/-! ## Steps -/

namespace State

def setCall (s : State) (r : RequestId) (c : Call) : State :=
  { s with calls := Function.update s.calls r c }

/-- The number of the credentials in force. -/
def epoch (s : State) : Nat := s.history.length - 1

/-- `login` has made a token. -/
def grant (s : State) (g : Grant) : State := { s with grants := g :: s.grants }

/-- `AuthStore::change_password`. -/
def change (env : Env) (s : State) (c : Change) (io : Outcome) : State :=
  { s with
    auth := (s.auth.changePassword env.hashPassword c.req.newPassword c.salt io).2
    history :=
      match env.hashPassword c.salt c.req.newPassword with
      | none => s.history
      | some passwordHash =>
        s.history ++ [{ file := { s.auth.inner with passwordHash }, origin := .changed c }] }

/-- A start, with the credentials it has loaded. -/
def restart (s : State) (server : Server) (auth : AuthStore) : State :=
  { s with
    server
    auth
    calls := fun _ => .idle
    history := s.history ++ [{ file := auth.inner, origin := .loaded }] }

end State

inductive Event
  | clock (now : Nat)
  | server (e : Tunnel.Event)
  | receive (r : RequestId) (req : HttpRequest)
  | reject (r : RequestId)
  | read (r : RequestId)
  | submit (r : RequestId) (draw : Draw) (io : Outcome)
  | checkLogin (r : RequestId)
  | issue (r : RequestId)
  | checkPassword (r : RequestId)
  | change (r : RequestId) (salt : String) (io : Outcome)
  | restart

/-- One step of any task. The clock may be set to any time. -/
inductive Step (env : Env) (s : State) : Event → State → Prop
  | clock (now : Nat) : Step env s (.clock now) { s with now }
  /- A step of the tunnels, or of a handler after its operation on the store. -/
  | server {e : Tunnel.Event} {server : Server} :
      (∀ r request io, e ≠ .admin r (.submit request io)) →
      Tunnel.Step env.tunnel s.server e server → Step env s (.server e) { s with server }
  | receive {r : RequestId} {req : HttpRequest} :
      s.calls r = .idle → Step env s (.receive r req) (s.setCall r (letIn env s.now req))
  | reject {r : RequestId} {h : Handler} {entry : Option Entry} {captures : List (List Char)}
      {body : List UInt8} :
      s.calls r = .admitted h entry captures body →
      (h = .login → env.bodies.login body = none) →
      (h = .changePassword → env.bodies.changePassword body = none) →
      storeRequest env h captures body = none → reads h = false →
      Step env s (.reject r) (s.setCall r (.answered .rejected))
  | read {r : RequestId} {h : Handler} {entry : Option Entry} {captures : List (List Char)}
      {body : List UInt8} :
      s.calls r = .admitted h entry captures body → reads h = true →
      Step env s (.read r) (s.setCall r (.answered .ok))
  | submit {r : RequestId} {h : Handler} {entry : Entry} {captures : List (List Char)}
      {body : List UInt8} {request : Draw → AdminRequest} {draw : Draw} {io : Outcome}
      {server : Server} :
      s.calls r = .admitted h (some entry) captures body →
      storeRequest env h captures body = some request →
      Tunnel.Step env.tunnel s.server (.admin r (.submit (request draw) io)) server →
      Step env s (.submit r draw io) ({ s with server }.setCall r (.submitted entry))
  | checkLogin {r : RequestId} {entry : Option Entry} {captures : List (List Char)}
      {body : List UInt8} {req : LoginReq} :
      s.calls r = .admitted .login entry captures body → env.bodies.login body = some req →
      Step env s (.checkLogin r) (s.setCall r (checkLogin env s.auth s.epoch req))
  | issue {r : RequestId} {req : LoginReq} {epoch : Nat} {token : String} :
      s.calls r = .verified req epoch →
      makeJwt env.chrono env.jwt.encode req.username env.config.auth.jwtSecret
        env.config.auth.tokenTtlHours s.now =
          .ok token →
      Step env s (.issue r)
        ((s.grant { token, time := s.now, req, epoch }).setCall r
          (.answered (loginAnswer env req.username token)))
  | issueFails {r : RequestId} {req : LoginReq} {epoch : Nat} {fault : Fault} :
      s.calls r = .verified req epoch →
      makeJwt env.chrono env.jwt.encode req.username env.config.auth.jwtSecret
        env.config.auth.tokenTtlHours s.now =
          .error fault →
      Step env s (.issue r) (s.setCall r (.answered (.failed fault)))
  | checkPassword {r : RequestId} {entry : Entry} {captures : List (List Char)}
      {body : List UInt8} {req : ChangePasswordReq} :
      s.calls r = .admitted .changePassword (some entry) captures body →
      env.bodies.changePassword body = some req →
      Step env s (.checkPassword r) (s.setCall r (checkPassword env s.auth entry s.epoch req))
  | change {r : RequestId} {entry : Entry} {req : ChangePasswordReq} {epoch : Nat}
      {salt : String} {io : Outcome} :
      s.calls r = .checked entry req epoch →
      Step env s (.change r salt io)
        ((s.change env { entry, req, epoch, salt } io).setCall r (.answered
          (match (s.auth.changePassword env.hashPassword req.newPassword salt io).1 with
            | .ok () => .ok
            | .error e => .internal e)))
  | restart {server : Server} {auth : AuthStore} :
      Tunnel.Init server → Step env s .restart (s.restart server auth)

/-- The first start. -/
structure Init (s : State) : Prop where
  server : Tunnel.Init s.server
  calls : ∀ r, s.calls r = .idle
  grants : s.grants = []
  history : s.history = [{ file := s.auth.inner, origin := .loaded }]

/-- The token of a request, if it is signed with the secret, is one that was given out. -/
def Unforged (env : Env) (s : State) : Event → Prop
  | .receive _ req => ∀ token claims, getCookie env.http req.headers cookieName = some token →
      env.jwt.decode token env.config.auth.jwtSecret = some claims →
      ∃ g ∈ s.grants, asBytes g.token = token
  | _ => True

/-- A token decodes to what was signed. -/
def Jwt.Faithful (jwt : Jwt) (secret : String) : Prop :=
  ∀ claims token, jwt.encode claims secret = some token →
    jwt.decode (asBytes token) secret = some claims

/-! ## Where tokens and passwords come from -/

/-- The seconds that a token lives. -/
def Env.lifetime (env : Env) : Nat := env.config.auth.tokenTtlHours * 3600

/-- The token was signed at its time for the user of the credentials that its login was
checked against. -/
structure Grant.Rightful (env : Env) (s : State) (g : Grant) : Prop where
  signed : env.jwt.encode { sub := g.req.username, exp := (g.time + env.lifetime : Nat) }
    env.config.auth.jwtSecret = some g.token
  login : ∃ c, s.history[g.epoch]? = some c ∧ c.file.username = g.req.username ∧
    env.verifyPassword g.req.password c.file.passwordHash = true

/-- The request came with the token of `g`, which had not expired. -/
structure Grant.Opens (env : Env) (g : Grant) (entry : Entry) : Prop where
  token : asBytes g.token = entry.token
  user : g.req.username = entry.user
  time : entry.time ≤ g.time + env.lifetime + leeway

/-- The request came with the token of a login before the credentials number `n`. -/
def Entry.Traced (env : Env) (s : State) (n : Nat) (entry : Entry) : Prop :=
  ∃ g ∈ s.grants, g.Rightful env s ∧ g.epoch < n ∧ g.Opens env entry

/-- A change that may follow the first `n` credentials: the old password was checked, and the
new one is not too short. -/
structure Change.Permitted (env : Env) (s : State) (n : Nat) (entry : Entry)
    (req : ChangePasswordReq) (epoch : Nat) : Prop where
  traced : entry.Traced env s n
  long : 6 ≤ req.newPassword.utf8ByteSize
  old : epoch < n ∧ ∃ c, s.history[epoch]? = some c ∧
    env.verifyPassword req.oldPassword c.file.passwordHash = true

/-- The credentials number `n` were loaded at a start, or a permitted change made them of the
ones before. -/
def Credential.Accounted (env : Env) (s : State) (n : Nat) (c : Credential) : Prop :=
  match c.origin with
  | .loaded => True
  | .changed change =>
    Change.Permitted env s n change.entry change.req change.epoch ∧
      env.hashPassword change.salt change.req.newPassword = some c.file.passwordHash ∧
      ∃ before, s.history[n - 1]? = some before ∧ before.file.username = c.file.username

def Call.Sound (env : Env) (s : State) : Call → Prop
  | .admitted _ entry _ _ => ∀ e, entry = some e →
    e.Traced env s s.history.length
  | .verified req epoch => ∃ c, s.history[epoch]? = some c ∧ c.file.username = req.username ∧
      env.verifyPassword req.password c.file.passwordHash = true
  | .checked entry req epoch => Change.Permitted env s s.history.length entry req epoch
  | .submitted entry => entry.Traced env s s.history.length
  | _ => True

structure Sound (env : Env) (s : State) : Prop where
  current : ∃ c, s.history[s.epoch]? = some c ∧ c.file = s.auth.inner
  filled : 0 < s.history.length
  grants : ∀ g ∈ s.grants, g.Rightful env s
  calls : ∀ r, (s.calls r).Sound env s
  admins : ∀ r, s.server.admins r ≠ .idle → ∃ entry, s.calls r = .submitted entry
  history : ∀ (n : Nat) (c : Credential), s.history[n]? = some c → c.Accounted env s n

/-- Histories grow. -/
structure Grows (s t : State) : Prop where
  grants : ∀ g ∈ s.grants, g ∈ t.grants
  history : ∀ (n : Nat) (c : Credential), s.history[n]? = some c → t.history[n]? = some c

section Access

variable {env : Env} {s t : State} {e : Event} {r : RequestId} {c : Call}

theorem Grows.of_append {l : List Credential} (hgrants : t.grants = s.grants)
    (hhistory : t.history = s.history ++ l) : Grows s t := by
  refine ⟨fun g hg => hgrants ▸ hg, fun n c hc => ?_⟩
  obtain ⟨hlt, -⟩ := List.getElem?_eq_some_iff.mp hc
  rw [hhistory, List.getElem?_append_left hlt, hc]

theorem Grant.Rightful.grows {g : Grant} (h : g.Rightful env s) (hgrows : Grows s t) :
    g.Rightful env t := by
  obtain ⟨c, hc, huser, hverify⟩ := h.login
  exact ⟨h.signed, c, hgrows.history _ _ hc, huser, hverify⟩

theorem Grows.length_le (h : Grows s t) : s.history.length ≤ t.history.length := by
  by_contra hlt
  have hnone : t.history[t.history.length]? = none := List.getElem?_eq_none le_rfl
  have hsome := h.history _ _ (List.getElem?_eq_getElem (Nat.lt_of_not_le hlt))
  cases hnone.symm.trans hsome

theorem Entry.Traced.grows {n m : Nat} {entry : Entry} (h : entry.Traced env s n)
    (hgrows : Grows s t) (hle : n ≤ m) : entry.Traced env t m := by
  obtain ⟨g, hg, hrightful, hlt, hopens⟩ := h
  exact ⟨g, hgrows.grants g hg, hrightful.grows hgrows, hlt.trans_le hle, hopens⟩

theorem Change.Permitted.grows {n m epoch : Nat} {entry : Entry} {req : ChangePasswordReq}
    (h : Change.Permitted env s n entry req epoch) (hgrows : Grows s t) (hle : n ≤ m) :
    Change.Permitted env t m entry req epoch := by
  obtain ⟨hlt, c, hc, hverify⟩ := h.old
  exact ⟨h.traced.grows hgrows hle, h.long, hlt.trans_le hle, c, hgrows.history _ _ hc, hverify⟩

theorem Credential.Accounted.grows {n : Nat} {c : Credential} (h : c.Accounted env s n)
    (hgrows : Grows s t) : c.Accounted env t n := by
  unfold Credential.Accounted at *
  split
  · trivial
  · next change horigin =>
    simp only [horigin] at h
    obtain ⟨hpermitted, hhash, before, hbefore, huser⟩ := h
    exact ⟨hpermitted.grows hgrows le_rfl, hhash, before, hgrows.history _ _ hbefore, huser⟩

theorem Call.Sound.grows (h : c.Sound env s) (hgrows : Grows s t) : c.Sound env t := by
  cases c with
  | idle | answered _ => trivial
  | admitted h' entry captures body => exact fun e he => (h e he).grows hgrows hgrows.length_le
  | verified req epoch =>
    obtain ⟨c, hc, hrest⟩ := h
    exact ⟨c, hgrows.history _ _ hc, hrest⟩
  | checked entry req epoch => exact Change.Permitted.grows h hgrows hgrows.length_le
  | submitted entry => exact Entry.Traced.grows h hgrows hgrows.length_le

/-! ## Tokens -/

theorem verify_eq_some {jwt : Jwt} {now : Nat} {token : List UInt8} {secret user : String} :
    jwt.verify now token secret = some user ↔ ∃ claims, jwt.decode token secret = some claims ∧
      (now : Int) ≤ claims.exp + leeway ∧ claims.sub = user := by
  unfold Jwt.verify
  rw [Option.bind_eq_some_iff]
  refine exists_congr fun claims => and_congr_right fun _ => ?_
  split
  · next hlate => exact iff_of_false nofun fun h => absurd h.1 (by omega)
  · next htime =>
    rw [Option.some.injEq]
    exact ⟨fun h => ⟨by omega, h⟩, fun h => h.2⟩

/-- A token that is made is signed for the time that it is to live. -/
theorem encode_of_makeJwt {chrono : Chrono} {encode : Claims → String → Option String}
    {username secret token : String} {ttl now : Nat} (httl : ttl < 2 ^ 63)
    (h : makeJwt chrono encode username secret ttl now = .ok token) :
    encode { sub := username, exp := (now + ttl * 3600 : Nat) } secret = some token := by
  rcases Int.lt_or_le maxTimestamp (now + ttl * 3600) with hgt | hle
  · rw [makeJwt_of_gt httl hgt] at h
    cases h
  · rw [makeJwt_of_le httl hle, encodeJwt] at h
    split at h
    · next hencode =>
      cases h
      rw [← hencode]
      push_cast
      rfl
    · cases h

/-- What the layer lets through comes with a token that decodes and has not expired. -/
theorem authorize_eq_some {now : Nat} {headers : HeaderMap} {user : String} :
    authorize env now headers = some user ↔ ∃ token claims,
      getCookie env.http headers cookieName = some token ∧
      env.jwt.decode token env.config.auth.jwtSecret = some claims ∧
      (now : Int) ≤ claims.exp + leeway ∧ claims.sub = user := by
  unfold authorize requireAuth
  rw [Option.bind_eq_some_iff]
  simp only [verify_eq_some, exists_and_left]

theorem letIn_admitted {now : Nat} {req : HttpRequest} {h : Handler} {entry : Option Entry}
    {captures : List (List Char)} {body : List UInt8}
    (hletIn : letIn env now req = .admitted h entry captures body) :
    ∀ e, entry = some e → authorize env now req.headers = some e.user ∧
      e.token = (getCookie env.http req.headers cookieName).getD [] ∧ e.time = now := by
  rintro e rfl
  unfold letIn at hletIn
  split at hletIn
  · next hrun =>
    obtain ⟨-, hentry, -, -⟩ := Call.admitted.inj hletIn
    obtain ⟨user, rfl, rfl⟩ := Option.map_eq_some_iff.mp hentry
    obtain ⟨-, -, -, -, -, hlogin | hrest⟩ := dispatch_run hrun
    · cases hlogin.2
    · exact ⟨hrest.2.1.symm, rfl, rfl⟩
  all_goals cases hletIn

theorem sound_letIn (hjwt : env.jwt.Faithful env.config.auth.jwtSecret) (h : Sound env s)
    {req : HttpRequest} (hreal : Unforged env s (.receive r req)) :
    (letIn env s.now req).Sound env s := by
  cases hletIn : letIn env s.now req with
  | idle | answered _ => trivial
  | admitted h' entry captures body =>
    intro e he
    obtain ⟨hauth, htoken, htime⟩ := letIn_admitted hletIn e he
    obtain ⟨token, claims, hcookie, hdecode, hfresh, huser⟩ := authorize_eq_some.mp hauth
    -- a token that decodes was made by a login, and decodes to what the login put in it
    obtain ⟨g, hg, hgiven⟩ := hreal token claims hcookie hdecode
    have hrightful := h.grants g hg
    have hclaims := hjwt _ _ hrightful.signed
    rw [hgiven, hdecode, Option.some.injEq] at hclaims
    subst hclaims
    rw [hcookie, Option.getD_some] at htoken
    obtain ⟨c, hc, -⟩ := hrightful.login
    obtain ⟨hlt, -⟩ := List.getElem?_eq_some_iff.mp hc
    refine ⟨g, hg, hrightful, hlt, hgiven.trans htoken.symm, huser, ?_⟩
    have htimely : (s.now : Int) ≤ (g.time + env.lifetime : Nat) + leeway := hfresh
    rw [htime]
    exact_mod_cast htimely
  | verified _ _ | checked _ _ _ | submitted _ =>
    unfold letIn at hletIn
    split at hletIn <;> cases hletIn

/-! ## Steps -/

theorem setCall_self : (s.setCall r c).calls r = c := Function.update_self ..

theorem sound_setCall (h : Sound env s) (hc : c.Sound env s)
    (hkeep : s.server.admins r = .idle ∨ ∃ entry, c = .submitted entry) :
    Sound env (s.setCall r c) := by
  have hgrows : Grows s (s.setCall r c) := ⟨fun _ h => h, fun _ _ h => h⟩
  refine ⟨h.current, h.filled, fun g hg => (h.grants g hg).grows hgrows, fun r' => ?_,
    fun r' hr' => ?_, fun n c hc => (h.history n c hc).grows hgrows⟩
  · rcases eq_or_ne r' r with rfl | hne
    · rw [setCall_self]
      exact hc.grows hgrows
    · simp only [State.setCall, Function.update_of_ne hne]
      exact (h.calls r').grows hgrows
  · rcases eq_or_ne r' r with rfl | hne
    · rcases hkeep with hidle | ⟨entry, rfl⟩
      · exact absurd hidle hr'
      · exact ⟨entry, setCall_self⟩
    · simp only [State.setCall, Function.update_of_ne hne]
      exact h.admins r' hr'

theorem sound_server {server : Server} (h : Sound env s)
    (hadmins : ∀ r, server.admins r ≠ .idle → ∃ entry, s.calls r = .submitted entry) :
    Sound env { s with server } := by
  have hgrows : Grows s { s with server } := ⟨fun _ h => h, fun _ _ h => h⟩
  exact ⟨h.current, h.filled, fun g hg => (h.grants g hg).grows hgrows,
    fun r => (h.calls r).grows hgrows, hadmins, fun n c hc => (h.history n c hc).grows hgrows⟩

theorem sound_grant {g : Grant} (h : Sound env s) (hg : g.Rightful env s) :
    Sound env (s.grant g) := by
  have hgrows : Grows s (s.grant g) := ⟨fun _ => List.mem_cons_of_mem _, fun _ _ h => h⟩
  refine ⟨h.current, h.filled, fun g' hg' => ?_, fun r => (h.calls r).grows hgrows, h.admins,
    fun n c hc => (h.history n c hc).grows hgrows⟩
  rcases List.mem_cons.mp hg' with rfl | hg'
  · exact hg.grows hgrows
  · exact (h.grants g' hg').grows hgrows

/-- New credentials are in force as soon as they are in the history. -/
theorem sound_snoc {new : Credential} (h : Sound env s)
    (hgrants : t.grants = s.grants) (hhistory : t.history = s.history ++ [new])
    (hauth : t.auth.inner = new.file) (hnew : new.Accounted env t s.history.length)
    (hcalls : ∀ r, (t.calls r).Sound env t)
    (hadmins : ∀ r, t.server.admins r ≠ .idle → ∃ entry, t.calls r = .submitted entry) :
    Sound env t := by
  have hgrows : Grows s t := .of_append hgrants hhistory
  refine ⟨⟨new, ?_, hauth.symm⟩, ?_, fun g hg => ?_, hcalls, hadmins, fun n c hc => ?_⟩
  · unfold State.epoch
    rw [hhistory, List.length_append, List.length_singleton, Nat.add_sub_cancel]
    exact List.getElem?_concat_length
  · rw [hhistory, List.length_append]
    exact Nat.add_pos_right _ Nat.zero_lt_one
  · exact (h.grants g (hgrants ▸ hg)).grows hgrows
  · rw [hhistory] at hc
    -- credentials number `n` are old ones or the new ones
    rcases Nat.lt_or_ge n s.history.length with hlt | hge
    · rw [List.getElem?_append_left hlt] at hc
      exact (h.history n c hc).grows hgrows
    · rw [List.getElem?_append_right hge, List.getElem?_singleton] at hc
      split at hc
      · next hn =>
        cases hc
        obtain rfl : n = s.history.length := by omega
        exact hnew
      · cases hc

theorem change_eq (env : Env) (s : State) (new : Change) (io : Outcome) :
    (env.hashPassword new.salt new.req.newPassword = none ∧ s.change env new io = s) ∨
      ∃ passwordHash, env.hashPassword new.salt new.req.newPassword = some passwordHash ∧
        (s.change env new io).auth.inner = { s.auth.inner with passwordHash } ∧
        (s.change env new io).history =
          s.history ++
            [{ file := { s.auth.inner with passwordHash }, origin := .changed new }] := by
  unfold State.change AuthStore.changePassword
  cases hhash : env.hashPassword new.salt new.req.newPassword with
  | none => exact .inl ⟨rfl, rfl⟩
  | some passwordHash => exact .inr ⟨passwordHash, rfl, rfl, rfl⟩

theorem sound_change {new : Change} {io : Outcome} (h : Sound env s)
    (hnew : Change.Permitted env s s.history.length new.entry new.req new.epoch) :
    Sound env (s.change env new io) := by
  rcases change_eq env s new io with ⟨-, heq⟩ | ⟨passwordHash, hhash, hinner, hhistory⟩
  · rwa [heq]
  · have hgrows : Grows s (s.change env new io) := .of_append rfl hhistory
    refine sound_snoc h rfl hhistory hinner ?_ (fun r => (h.calls r).grows hgrows) h.admins
    obtain ⟨before, hbefore, hfile⟩ := h.current
    exact ⟨hnew.grows hgrows le_rfl, hhash, before, hgrows.history _ _ hbefore, by rw [hfile]⟩

theorem sound_restart {server : Server} {auth : AuthStore} (h : Sound env s)
    (hinit : Tunnel.Init server) : Sound env (s.restart server auth) :=
  sound_snoc h rfl rfl rfl trivial (fun _ => trivial) fun r hr => absurd (hinit.admins r) hr

theorem sound_init (h : Init s) : Sound env s := by
  have hfirst : s.history[0]? = some { file := s.auth.inner, origin := .loaded } := by
    rw [h.history]
    rfl
  refine ⟨⟨{ file := s.auth.inner, origin := .loaded }, ?_, rfl⟩, ?_, ?_, fun r => ?_,
    fun r hr => ?_, fun n c hc => ?_⟩
  · unfold State.epoch
    rw [h.history] at hfirst ⊢
    exact hfirst
  · rw [h.history]
    exact Nat.zero_lt_one
  · rw [h.grants]
    nofun
  · rw [h.calls r]
    trivial
  · exact absurd (h.server.admins r) hr
  · rw [h.history, List.getElem?_singleton] at hc
    split at hc
    · cases hc
      trivial
    · cases hc

/-- Who checks a password reads the credentials in force. -/
theorem verified_current (h : Sound env s) {password : String}
    (hverify : s.auth.verify env.verifyPassword password = true) :
    ∃ c, s.history[s.epoch]? = some c ∧ c.file.username = s.auth.inner.username ∧
      env.verifyPassword password c.file.passwordHash = true := by
  obtain ⟨c, hc, hfile⟩ := h.current
  exact ⟨c, hc, by rw [hfile], by rw [hfile]; exact hverify⟩

theorem sound_checkLogin (h : Sound env s) (req : LoginReq) :
    (checkLogin env s.auth s.epoch req).Sound env s := by
  unfold checkLogin
  split
  · next hright =>
    obtain ⟨c, hc, huser, hverify⟩ := verified_current h hright.2
    exact ⟨c, hc, huser.trans hright.1.symm, hverify⟩
  · trivial

theorem sound_checkPassword (h : Sound env s) {entry : Entry}
    (hentry : entry.Traced env s s.history.length) (req : ChangePasswordReq) :
    (checkPassword env s.auth entry s.epoch req).Sound env s := by
  unfold checkPassword
  split
  · trivial
  · next hlong =>
    split
    · next hright =>
      obtain ⟨c, hc, -, hverify⟩ := verified_current h hright
      obtain ⟨hlt, -⟩ := List.getElem?_eq_some_iff.mp hc
      exact ⟨hentry, Nat.le_of_not_lt hlong, hlt, c, hc, hverify⟩
    · trivial

/-- A handler takes no step before its request begins. -/
theorem not_idle_of_step {server server' : Server} {e : Tunnel.AdminEvent}
    (hs : Tunnel.AdminStep env.tunnel r server e server')
    (hnot : ∀ request io, e ≠ .submit request io) : server.admins r ≠ .idle := by
  intro hidle
  cases hs with
  | submit => exact hnot _ _ rfl
  | findMapping hrunning | startClient hrunning | add hrunning _ | added hrunning _ _
  | collect hrunning _ | removeIn hrunning _ | removeMiss hrunning _ | removeNowhere hrunning
  | offline hrunning _ | findSession hrunning _ | drain hrunning =>
    cases hidle.symm.trans hrunning

/-- Only requests that came through the layer are at work. -/
theorem admins_of_step {server : Server} {e : Tunnel.Event} (h : Sound env s)
    (hnot : ∀ r request io, e ≠ .admin r (.submit request io))
    (hs : Tunnel.Step env.tunnel s.server e server) :
    ∀ r, server.admins r ≠ .idle → ∃ entry, s.calls r = .submitted entry := by
  intro r hr
  rcases Tunnel.admin_of_step hs r with hsame | ⟨e', rfl, hadmin⟩
  · exact h.admins r (hsame ▸ hr)
  · exact h.admins r (not_idle_of_step hadmin fun request io heq => hnot r request io (heq ▸ rfl))

theorem idle_of_call (h : Sound env s) (hcall : s.calls r = c)
    (hc : ∀ entry, c ≠ .submitted entry) : s.server.admins r = .idle := by
  by_contra hbusy
  obtain ⟨entry, heq⟩ := h.admins r hbusy
  exact hc entry (hcall.symm.trans heq)

theorem sound_step (hcfg : env.config.Accepted) (hjwt : env.jwt.Faithful env.config.auth.jwtSecret)
    (h : Sound env s) (hreal : Unforged env s e) (hs : Step env s e t) : Sound env t := by
  cases hs with
  | clock now =>
    have hgrows : Grows s { s with now } := ⟨fun _ h => h, fun _ _ h => h⟩
    exact ⟨h.current, h.filled, fun g hg => (h.grants g hg).grows hgrows,
      fun r => (h.calls r).grows hgrows, h.admins,
      fun n c hc => (h.history n c hc).grows hgrows⟩
  | server hnot hs => exact sound_server h (admins_of_step h hnot hs)
  | @receive r req hidle =>
    exact sound_setCall h (sound_letIn hjwt h hreal)
      (.inl (idle_of_call h hidle nofun))
  | @reject r _ _ _ _ hcall | @read r _ _ _ _ hcall =>
    exact sound_setCall h trivial
      (.inl (idle_of_call h hcall nofun))
  | @submit r _ entry _ _ _ _ _ server hcall _ hs =>
    have hcallSound := h.calls r
    rw [hcall] at hcallSound
    have hsubmitted : Sound env (s.setCall r (.submitted entry)) :=
      sound_setCall h (hcallSound entry rfl) (.inr ⟨entry, rfl⟩)
    -- the step of the tunnels is one of this request, which is noted as submitted
    refine sound_server hsubmitted fun r' hr' => ?_
    rcases eq_or_ne r' r with rfl | hne
    · exact ⟨entry, setCall_self⟩
    · rcases Tunnel.admin_of_step hs r' with hsame | ⟨e', heq, -⟩
      · exact hsubmitted.admins r' (hsame ▸ hr')
      · cases heq
        exact absurd rfl hne
  | @checkLogin r _ _ _ req hcall _ =>
    exact sound_setCall h (sound_checkLogin h req)
      (.inl (idle_of_call h hcall nofun))
  | @issue r req epoch token hcall hmake =>
    have hverified := h.calls r
    rw [hcall] at hverified
    have hgrant : Grant.Rightful env s { token, time := s.now, req, epoch } :=
      ⟨encode_of_makeJwt hcfg.ttl_lt hmake, hverified⟩
    have hidle := idle_of_call h hcall nofun
    exact sound_setCall (sound_grant h hgrant) trivial (.inl hidle)
  | @issueFails r _ _ _ hcall _ =>
    exact sound_setCall h trivial
      (.inl (idle_of_call h hcall nofun))
  | @checkPassword r entry _ _ req hcall _ =>
    have hcallSound := h.calls r
    rw [hcall] at hcallSound
    exact sound_setCall h (sound_checkPassword h (hcallSound entry rfl) req)
      (.inl (idle_of_call h hcall nofun))
  | @change r entry req epoch salt io hcall =>
    have hpermitted := h.calls r
    rw [hcall] at hpermitted
    have hidle := idle_of_call h hcall nofun
    have hchange : Sound env (s.change env { entry, req, epoch, salt } io) :=
      sound_change h hpermitted
    exact sound_setCall hchange trivial (.inl hidle)
  | restart hinit => exact sound_restart h hinit

theorem sound (hcfg : env.config.Accepted) (hjwt : env.jwt.Faithful env.config.auth.jwtSecret)
    (h : Reachable (Guarded (Step env) (Unforged env)) Init s) : Sound env s :=
  h.invariant (fun _ h => sound_init h) fun _ _ _ h hs => sound_step hcfg hjwt h hs.2 hs.1

end Access

end MiniMask.Access
