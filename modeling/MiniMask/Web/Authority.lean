import MiniMask.Web.Access

/-!
# Who may administer

What follows from `Access.sound` for the web app, in every run of it.

* `changes_traced`: whatever changes the clients or the password while the server runs is a
  request whose token a login with the right password gave out, not longer ago than a token
  lives.
* `session_exact`: a token is good from the login until it expires. Nothing ends it earlier.
* `password_custody`: where the password in force comes from.
-/

namespace MiniMask.Access

open Lts Web
open Protocol (asBytes)
open Tunnel (RequestId)

variable {env : Env} {s t : State} {e : Event} {r : RequestId} {c : Call}

/-! ## An example -/

/-- The token of a login of the default user, a day before 1750086400. -/
def exampleToken : String :=
  "eyJ0eXAiOiJKV1QiLCJhbGciOiJIUzI1NiJ9.eyJzdWIiOiJhZG1pbiIsImV4cCI6MTc1MDA4NjQwMH0." ++
    "UXJjcZwkqGNysJBL3OT21aoBk4ebf4ChpFRWkAT5vM0"

def exampleClaims : Claims where
  sub := "admin"
  exp := 1750086400

/-- What the crates do with the requests of the example. -/
def exampleEnv : Env where
  tunnel := Tunnel.exampleEnv
  config := exampleConfig 24
  overflowChecks := true
  http := exampleHttp
  chrono := exampleChrono
  jwt :=
    { encode := fun claims secret =>
        if claims = exampleClaims ∧ secret = "secret" then some exampleToken else none
      decode := fun token secret =>
        if token = asBytes exampleToken ∧ secret = "secret" then some exampleClaims else none }
  hashPassword := fun _ password => some password
  verifyPassword := (· == ·)
  takes := fun _ => true
  percentDecode := fun text => some (String.ofList text)
  bodies :=
    { login := fun body =>
        if body = asBytes "\x7b\"username\":\"admin\",\"password\":\"admin\"\x7d" then
          some { username := "admin", password := "admin" }
        else none
      createClient := fun _ => none
      updateEnabled := fun _ => none
      createMapping := fun _ => none
      changePassword := fun body =>
        if body = asBytes "\x7b\"old_password\":\"admin\",\"new_password\":\"hunter2\"\x7d" then
          some { oldPassword := "admin", newPassword := "hunter2" }
        else none }

def exampleLogin : HttpRequest where
  method := .post
  path := "/api/auth/login"
  headers := []
  body := asBytes "\x7b\"username\":\"admin\",\"password\":\"admin\"\x7d"

/-- A request that comes with the token. -/
def exampleRequest (method : Method) (path : String) (body : String) : HttpRequest where
  method
  path
  headers := (exampleHttp.fromStr ("mmk_token=" ++ exampleToken)).toList.map (("cookie", ·))
  body := asBytes body

theorem faithful_example : exampleEnv.jwt.Faithful exampleEnv.config.auth.jwtSecret := by
  intro claims token h
  simp only [exampleEnv] at h ⊢
  split at h
  · next hboth =>
    cases h
    rw [hboth.1]
    exact if_pos ⟨rfl, rfl⟩
  · cases h

theorem accepted_example : exampleEnv.config.Accepted :=
  Web.accepted_example (by decide) (by decide)

/-- The token was given out. -/
def exampleGrant : Grant where
  token := exampleToken
  time := 1750000000
  req := { username := "admin", password := "admin" }
  epoch := 0

/-- A server where somebody has just logged in. -/
structure LoggedIn (s : State) : Prop where
  reachable : Reachable (Guarded (Step exampleEnv) (Unforged exampleEnv)) Init s
  server : s.server = Tunnel.Server.init Tunnel.exampleStore
  auth : s.auth = exampleAuth
  now : s.now = 1750000000
  calls : s.calls 1 = .idle
  grants : s.grants = [exampleGrant]
  history : s.history = [{ file := exampleAuth.inner, origin := .loaded }]

theorem step_unforged
    (h : Reachable (Guarded (Step exampleEnv) (Unforged exampleEnv)) Init s)
    (hs : Step exampleEnv s e t) (hreal : Unforged exampleEnv s e) :
    Reachable (Guarded (Step exampleEnv) (Unforged exampleEnv)) Init t :=
  h.step ⟨hs, hreal⟩

/-- The first start. -/
def exampleStart : State where
  server := .init Tunnel.exampleStore
  auth := exampleAuth
  now := 1750000000
  calls := fun _ => .idle
  grants := []
  history := [{ file := exampleAuth.inner, origin := .loaded }]

/-- After `login` has read its body. -/
def exampleAdmitted : State :=
  exampleStart.setCall 0 (.admitted .login none [] exampleLogin.body)

theorem logged_in : ∃ s, LoggedIn s := by
  have started : Reachable (Guarded (Step exampleEnv) (Unforged exampleEnv)) Init exampleStart :=
    .init ⟨Tunnel.init_example, fun _ => rfl, rfl, rfl⟩
  have hletIn : exampleStart.setCall 0 (letIn exampleEnv exampleStart.now exampleLogin) =
      exampleAdmitted := congrArg _ (by decide +kernel)
  have received : Reachable (Guarded (Step exampleEnv) (Unforged exampleEnv)) Init
      exampleAdmitted := by
    rw [← hletIn]
    exact step_unforged started (.receive rfl) fun _ _ h => nomatch h
  have hbody : exampleEnv.bodies.login exampleLogin.body =
      some { username := "admin", password := "admin" } := by decide +kernel
  have hcheck : checkLogin exampleEnv exampleAdmitted.auth exampleAdmitted.epoch
      { username := "admin", password := "admin" } =
        .verified { username := "admin", password := "admin" } 0 := by decide +kernel
  have checked := step_unforged received (.checkLogin (Function.update_self ..) hbody) trivial
  rw [hcheck] at checked
  have hmake : makeJwt exampleEnv.chrono exampleEnv.jwt.encode "admin" "secret" 24 1750000000 =
      .ok exampleToken := by decide +kernel
  have issued := step_unforged checked (.issue (Function.update_self ..) hmake) trivial
  exact ⟨_, issued, rfl, rfl, rfl, rfl, rfl, rfl⟩

theorem unforged_example (h : s.grants = [exampleGrant]) {req : HttpRequest} :
    Unforged exampleEnv s (.receive r req) := by
  intro token claims _ hdecode
  refine ⟨exampleGrant, h ▸ List.mem_singleton_self _, ?_⟩
  simp only [exampleEnv] at hdecode
  split at hdecode
  · next hboth => exact hboth.1.symm
  · cases hdecode

/-- The entry of a request with the token right after the login. -/
def exampleEntry : Entry where
  token := asBytes exampleToken
  user := "admin"
  time := 1750000000

theorem LoggedIn.receive (h : LoggedIn s) {req : HttpRequest}
    (hletIn : letIn exampleEnv 1750000000 req = c) :
    Reachable (Guarded (Step exampleEnv) (Unforged exampleEnv)) Init (s.setCall 1 c) := by
  rw [← hletIn, ← h.now]
  exact step_unforged h.reachable (.receive h.calls) (unforged_example h.grants)

/-! ## What the requests may do -/

/-- The request that a step belongs to. -/
def Event.call : Event → Option RequestId
  | .receive r _ | .reject r | .read r | .submit r _ _ | .checkLogin r | .issue r
  | .checkPassword r | .change r _ _ | .server (.admin r _) => some r
  | _ => none

def Call.entry : Call → Option Entry
  | .admitted _ entry _ _ => entry
  | .checked entry _ _ | .submitted entry => some entry
  | _ => none

/-- The step changes the clients or the password, or carries out what changed the clients. -/
def Administers (s : State) (e : Event) (t : State) : Prop :=
  t.server.clients ≠ s.server.clients ∨ t.auth ≠ s.auth ∨ ∃ r e', e = .server (.admin r e')

theorem Call.Sound.traced {entry : Entry} (h : c.Sound env s) (hentry : c.entry = some entry) :
    entry.Traced env s s.history.length := by
  cases c with
  | admitted h' entry' captures body => exact h entry hentry
  | checked entry' req epoch =>
    cases hentry
    exact Change.Permitted.traced h
  | submitted entry' =>
    cases hentry
    exact h
  | idle | verified _ _ | answered _ => cases hentry

/-- Whatever changes the clients or the password while the server runs, or starts or stops
the listeners for it, is a request that came with the token of a login; the password of the
login was right, and the token had not expired. -/
theorem changes_traced (hcfg : env.config.Accepted)
    (hjwt : env.jwt.Faithful env.config.auth.jwtSecret)
    (h : Reachable (Guarded (Step env) (Unforged env)) Init s) (hs : Step env s e t)
    (hrunning : e ≠ .restart) (hchange : Administers s e t) :
    ∃ r entry, e.call = some r ∧ (s.calls r).entry = some entry ∧
      entry.Traced env s s.history.length := by
  have hsound := sound hcfg hjwt h
  -- the invariant traces every entry, so it is enough to find the request
  suffices key : ∃ r entry, e.call = some r ∧ (s.calls r).entry = some entry by
    obtain ⟨r, entry, hcall, hentry⟩ := key
    exact ⟨r, entry, hcall, hentry, (hsound.calls r).traced hentry⟩
  -- the tunnels do not change the clients but for a request, which is noted as submitted
  cases hs with
  | clock | receive _ | reject _ _ _ _ _ | read _ _ | checkLogin _ _ | issue _ _
  | issueFails _ _ | checkPassword _ _ =>
    rcases hchange with hclients | hauth | ⟨r, e', heq⟩
    · exact absurd rfl hclients
    · exact absurd rfl hauth
    · cases heq
  | @server e server hnot hs =>
    rcases hchange with hclients | hauth | ⟨r, e', heq⟩
    · rcases Tunnel.clients_of_step hs with hsame | ⟨r, request, io, heq, -⟩
      · exact absurd hsame.2 hclients
      · exact absurd heq (hnot r request io)
    · exact absurd rfl hauth
    · cases heq
      cases hs with
      | admin hs =>
        have hbusy := not_idle_of_step hs fun request io heq => hnot r request io (heq ▸ rfl)
        obtain ⟨entry, hcall⟩ := hsound.admins r hbusy
        exact ⟨r, entry, rfl, by rw [hcall, Call.entry]⟩
  | submit hcall _ _ => exact ⟨_, _, rfl, by rw [hcall, Call.entry]⟩
  | change hcall => exact ⟨_, _, rfl, by rw [hcall, Call.entry]⟩
  | restart _ => exact absurd rfl hrunning

/-- The deletion of a client. -/
theorem changes_traced_deletion : ∃ s e t r entry,
    Reachable (Guarded (Step exampleEnv) (Unforged exampleEnv)) Init s ∧ Step exampleEnv s e t ∧
      s.server.clients.list.length = 1 ∧ t.server.clients.list = [] ∧
      (s.calls r).entry = some entry ∧ entry.Traced exampleEnv s s.history.length := by
  obtain ⟨s, hs⟩ := logged_in
  let call : Call := .admitted .deleteClient (some exampleEntry) ["cli_home".toList] []
  have hletIn : letIn exampleEnv 1750000000
      (exampleRequest .delete "/api/clients/cli_home" "") = call := by decide +kernel
  have admitted := hs.receive hletIn
  have hserver : (s.setCall 1 call).server = .init Tunnel.exampleStore := hs.server
  have hidle : (s.setCall 1 call).server.admins 1 = .idle := by rw [hserver]; rfl
  have hlock : (s.setCall 1 call).server.WriteLockFree := by
    rw [hserver]
    exact fun _ _ _ => nofun
  have hrequest : storeRequest exampleEnv .deleteClient ["cli_home".toList] [] =
      some fun _ => .deleteClient "cli_home" := rfl
  have hsubmit : Tunnel.Step exampleEnv.tunnel (s.setCall 1 call).server
      (.admin 1 (.submit (.deleteClient "cli_home") .done)) _ :=
    .admin (.submit hidle hlock trivial)
  have hstep : Step exampleEnv (s.setCall 1 call) (.submit 1 ⟨"", "", 0⟩ .done) _ :=
    .submit setCall_self hrequest hsubmit
  have hbefore : (s.setCall 1 call).server.clients.list.length = 1 := by
    rw [hserver]
    rfl
  have hafter : (Tunnel.handle exampleEnv.tunnel (s.setCall 1 call).server.clients
      (.deleteClient "cli_home") .done).2.list = [] := by
    rw [hserver]
    decide
  obtain ⟨r, entry, -, hentry, htraced⟩ := changes_traced accepted_example faithful_example
    admitted hstep nofun (.inl fun heq => by
      have hlength := (congrArg (fun clients => clients.list.length) heq).trans hbefore
      cases (congrArg List.length hafter).symm.trans hlength)
  exact ⟨_, _, _, r, entry, admitted, hstep, hbefore, hafter, hentry, htraced⟩

/-- A route that the layer is around takes the path. -/
def Protected (env : Env) (path : String) : Prop :=
  ∃ x ∈ buildApp, x.2.layered = true ∧
    (Routing.capture env.takes x.1 (segments path)).isSome = true

theorem letIn_unauthorized {now : Nat} {req : HttpRequest} :
    letIn env now req = .answered .unauthorized ↔
      authorize env now req.headers = none ∧ Protected env req.path := by
  have hdispatch : dispatch env.takes (authorize env now req.headers) req.method req.path =
      .unauthorized ↔ authorize env now req.headers = none ∧ Protected env req.path :=
    dispatch_unauthorized
  rw [← hdispatch, letIn]
  split
  · next hrun => exact iff_of_false nofun (by rw [hrun]; nofun)
  · next hrun => exact iff_of_true rfl hrun
  · next hrun => exact iff_of_false nofun (by rw [hrun]; nofun)
  · next hrun => exact iff_of_false nofun (by rw [hrun]; nofun)

/-- A request for a route of the layer is turned away if and only if no login gave out its
token or the token has expired; a logout, a new password and a restart change nothing. -/
theorem session_exact {req : HttpRequest} (hcfg : env.config.Accepted)
    (hjwt : env.jwt.Faithful env.config.auth.jwtSecret)
    (h : Reachable (Guarded (Step env) (Unforged env)) Init s)
    (hreal : Unforged env s (.receive r req)) :
    letIn env s.now req = .answered .unauthorized ↔
      Protected env req.path ∧
        ∀ g ∈ s.grants, getCookie env.http req.headers cookieName = some (asBytes g.token) →
          g.time + env.lifetime + leeway < s.now := by
  have hsound := sound hcfg hjwt h
  rw [letIn_unauthorized, and_comm]
  refine and_congr_right fun _ => ?_
  constructor
  · intro hnone g hg hcookie
    -- the token of a grant decodes, so one that is not late would let its user in
    by_contra hfresh
    have htimely : (s.now : Int) ≤ (g.time + env.lifetime : Nat) + leeway := by
      exact_mod_cast Nat.le_of_not_lt hfresh
    have hauth : authorize env s.now req.headers = some g.req.username :=
      authorize_eq_some.mpr
        ⟨_, _, hcookie, hjwt _ _ (hsound.grants g hg).signed, htimely, rfl⟩
    cases hnone.symm.trans hauth
  · intro hexpired
    rw [Option.eq_none_iff_forall_not_mem]
    intro user hauth
    obtain ⟨token, claims, hcookie, hdecode, hfresh, -⟩ := authorize_eq_some.mp hauth
    obtain ⟨g, hg, rfl⟩ := hreal token claims hcookie hdecode
    have hclaims := hjwt _ _ (hsound.grants g hg).signed
    rw [hdecode, Option.some.injEq] at hclaims
    subst hclaims
    have htimely : (s.now : Int) ≤ (g.time + env.lifetime : Nat) + leeway := hfresh
    exact absurd (hexpired g hg hcookie) (Nat.not_lt.mpr (by exact_mod_cast htimely))

/-- The token at the end of its day, and when the leeway is over. -/
theorem session_exact_day : ∃ s t,
    Reachable (Guarded (Step exampleEnv) (Unforged exampleEnv)) Init s ∧
      Reachable (Guarded (Step exampleEnv) (Unforged exampleEnv)) Init t ∧
      s.now = 1750086400 ∧ t.now = 1750086461 ∧
      letIn exampleEnv s.now (exampleRequest .get "/api/auth/me" "") ≠ .answered .unauthorized ∧
      letIn exampleEnv t.now (exampleRequest .get "/api/auth/me" "") =
        .answered .unauthorized := by
  obtain ⟨s, hs⟩ := logged_in
  have hcookie : getCookie exampleEnv.http (exampleRequest .get "/api/auth/me" "").headers
      cookieName = some (asBytes exampleGrant.token) := by decide +kernel
  have hprotected : Protected exampleEnv "/api/auth/me" := by
    unfold Protected
    decide +kernel
  have fresh := step_unforged hs.reachable (.clock 1750086400) trivial
  have late := step_unforged hs.reachable (.clock 1750086461) trivial
  refine ⟨_, _, fresh, late, rfl, rfl, fun hout => ?_, ?_⟩
  · have hexpired := (session_exact (r := 1) accepted_example faithful_example fresh
      (unforged_example (r := 1) hs.grants)).mp hout
    have hlate := hexpired.2 exampleGrant (hs.grants ▸ List.mem_singleton_self _) hcookie
    exact absurd hlate
      (show ¬ exampleGrant.time + exampleEnv.lifetime + leeway < 1750086400 by decide)
  · refine (session_exact (r := 1) accepted_example faithful_example late
      (unforged_example (r := 1) hs.grants)).mpr ⟨hprotected, fun g hg _ => ?_⟩
    cases List.mem_singleton.mp (hs.grants ▸ hg)
    show exampleGrant.time + exampleEnv.lifetime + leeway < 1750086461
    decide

/-- Where the credentials number `n` come from: a start, or a change whose token and whose
old password each come from earlier credentials that do. -/
inductive Custody (env : Env) (s : State) : Nat → Prop
  | loaded {n : Nat} {c : Credential} :
      s.history[n]? = some c → c.origin = .loaded → Custody env s n
  | changed {n : Nat} {c old : Credential} {change : Change} {g : Grant} :
      s.history[n]? = some c → c.origin = .changed change → g.epoch < n → change.epoch < n →
      env.hashPassword change.salt change.req.newPassword = some c.file.passwordHash →
      6 ≤ change.req.newPassword.utf8ByteSize →
      g ∈ s.grants → g.Rightful env s → g.Opens env change.entry → Custody env s g.epoch →
      s.history[change.epoch]? = some old →
      env.verifyPassword change.req.oldPassword old.file.passwordHash = true →
      Custody env s change.epoch → Custody env s n

theorem custody (h : Sound env s) (n : Nat) (hn : n < s.history.length) : Custody env s n := by
  -- a change was checked against earlier credentials, and so was the login that it rests on
  induction n using Nat.strongRecOn with
  | ind n ih =>
    have hc := List.getElem?_eq_getElem hn
    cases horigin : s.history[n].origin with
    | loaded => exact .loaded hc horigin
    | changed change =>
      have haccounted := h.history n _ hc
      unfold Credential.Accounted at haccounted
      simp only [horigin] at haccounted
      obtain ⟨hpermitted, hhash, -⟩ := haccounted
      obtain ⟨g, hg, hrightful, hbefore, hopens⟩ := hpermitted.traced
      obtain ⟨hlt, old, hold, hverify⟩ := hpermitted.old
      exact .changed hc horigin hbefore hlt hhash hpermitted.long hg hrightful hopens
        (ih _ hbefore (hbefore.trans hn)) hold hverify (ih _ hlt (hlt.trans hn))

/-- The password in force was loaded at a start, or set by a request that came with the token
of a login and with the old password, and so were, all the way back, the passwords that the
login and the request were checked against. -/
theorem password_custody (hcfg : env.config.Accepted)
    (hjwt : env.jwt.Faithful env.config.auth.jwtSecret)
    (h : Reachable (Guarded (Step env) (Unforged env)) Init s) :
    ∃ c, s.history[s.epoch]? = some c ∧ c.file = s.auth.inner ∧ Custody env s s.epoch := by
  have hsound := sound hcfg hjwt h
  obtain ⟨c, hc, hfile⟩ := hsound.current
  obtain ⟨hlt, -⟩ := List.getElem?_eq_some_iff.mp hc
  exact ⟨c, hc, hfile, custody hsound _ hlt⟩

/-- A new password. -/
theorem password_custody_changed : ∃ s c,
    Reachable (Guarded (Step exampleEnv) (Unforged exampleEnv)) Init s ∧
      s.auth.inner.passwordHash = "hunter2" ∧ s.epoch = 1 ∧ s.history[s.epoch]? = some c ∧
      c.file = s.auth.inner ∧ Custody exampleEnv s s.epoch := by
  obtain ⟨s, hs⟩ := logged_in
  let body := "\x7b\"old_password\":\"admin\",\"new_password\":\"hunter2\"\x7d"
  let req : ChangePasswordReq := { oldPassword := "admin", newPassword := "hunter2" }
  have hletIn : letIn exampleEnv 1750000000 (exampleRequest .post "/api/settings/password" body) =
      .admitted .changePassword (some exampleEntry) [] (asBytes body) := by decide +kernel
  have hbody : exampleEnv.bodies.changePassword (asBytes body) = some req := by decide +kernel
  have hcheck : checkPassword exampleEnv exampleAuth exampleEntry 0 req =
      .checked exampleEntry req 0 := by decide +kernel
  have hepoch : s.epoch = 0 := by
    unfold State.epoch
    rw [hs.history]
    rfl
  have admitted := hs.receive hletIn
  have checked := step_unforged admitted (.checkPassword setCall_self hbody) trivial
  have hcall : checkPassword exampleEnv s.auth exampleEntry s.epoch req =
      .checked exampleEntry req 0 := by rw [hs.auth, hepoch, hcheck]
  have changed := step_unforged (e := .change 1 "salt" .done) checked
    (.change (setCall_self.trans hcall)) trivial
  have htwo : ∀ c : Credential, (s.history ++ [c]).length - 1 = 1 := fun c => by
    rw [hs.history]
    rfl
  obtain ⟨c, hc, hfile, hcustody⟩ := password_custody accepted_example faithful_example changed
  exact ⟨_, c, changed, rfl, htwo _, hc, hfile, hcustody⟩

end MiniMask.Access
