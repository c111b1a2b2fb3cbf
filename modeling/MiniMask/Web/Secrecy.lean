import MiniMask.Lib.Unwinding
import MiniMask.Web.Api

/-!
# What the API gives away

Two runs of the server with the same requests, in the same order and with the same answers of
the file system, but with other secrets: the tokens past their first 12 characters, their
digests, the pepper, the salts and the hashes of the password. The API answers alike in both,
but for the token in the answer to the request that it was drawn for, and the audit log and its
files have the same lines (`tokens_shown_once`).

What an operation of the client store does is told by the views of its clients, which is what
the `views_…` and `alike_…` lemmas are about.
-/

namespace MiniMask.Api

open AtomicFile Lts
open Access (CreateMappingReq ChangePasswordReq)
open Dashboard (StatsMessage)
open Tunnel (RequestId trim)

/-! ## What is shown -/

/-- A body without the token in it. -/
def Body.mask : Body → Body
  | .created client _ => .created client ""
  | .token _ => .token ""
  | body => body

/-- The token in a body. -/
def Body.shownToken : Body → Option String
  | .created _ text => some text
  | .token text => some text
  | _ => none

def Call.mask : Call → Call
  | .logging line body => .logging line body.mask
  | .appending n body => .appending n body.mask
  | .answered (.ok body) => .answered (.ok body.mask)
  | c => c

/-- The token that a request is answered with, or will be. -/
def Call.shownToken : Call → Option String
  | .logging _ body | .appending _ body | .answered (.ok body) => body.shownToken
  | _ => none

/-- The answers without tokens, and the audit log with its files. -/
structure Shown where
  calls : RequestId → Call
  audit : AuditLogStore.State

def State.shown (s : State) : Shown where
  calls := fun r => (s.calls r).mask
  audit := s.audit

/-- The token in an answer is always the one that was drawn for the request before. -/
def OwnTokens (tr : List (State × Event × State)) : Prop :=
  ∀ before x after, tr = before ++ x :: after → ∀ r token,
    (x.2.2.calls r).shownToken = some token →
      ∃ y ∈ before ++ [x], ∃ draw io, y.2.1 = .store r draw io ∧ draw.token = token

/-- What is drawn without the secrets. -/
def Draw.mask (d : Draw) : Draw := { d with token := tokenPrefixOf d.token, salt := "" }

def Event.mask : Event → Event
  | .store r draw io => .store r draw.mask io
  | .changePassword r draw io => .changePassword r draw.mask io
  | e => e

/-! ## Stores that show the same -/

/-- What `list_clients` makes of the store. -/
def views (s : ClientStore) : List ClientView := s.list.map .ofClient

/-- Both operations fail alike, or both succeed with related answers, and the stores show the
same afterwards. -/
inductive Alike {α : Type} (rel : α → α → Prop) :
    Except Error α × ClientStore → Except Error α × ClientStore → Prop
  | ok {a b : α} {s t : ClientStore} :
      rel a b → views s = views t → Alike rel (.ok a, s) (.ok b, t)
  | error {e : Error} {s t : ClientStore} :
      views s = views t → Alike rel (.error e, s) (.error e, t)

section Stores

variable {s t : ClientStore} {α β : Type} {io : Outcome}

theorem map_updateFirst {v : α → β} {p : β → Bool} {f : α → α} {g : β → β}
    (h : ∀ a, v (f a) = g (v a)) (l : List α) :
    (updateFirst (fun a => p (v a)) f l).map v = updateFirst p g (l.map v) := by
  induction l with
  | nil => rfl
  | cons a l ih =>
    cases hp : p (v a) with
    | true => simp [updateFirst, hp, h]
    | false => simp [updateFirst, hp, ih]

theorem any_views (h : views s = views t) (p : ClientView → Bool) :
    (s.list.any fun c => p (.ofClient c)) = t.list.any fun c => p (.ofClient c) := by
  have hany := congrArg (fun l => l.any p) h
  simp only [views, List.any_map] at hany
  exact hany

theorem alike_persistThen {rel : α → α → Prop} {a b : α} (h : views s = views t) (hrel : rel a b) :
    Alike rel (s.persistThen io a) (t.persistThen io b) := by
  cases io with
  | done => exact .ok hrel h
  | writeFailed _ => exact .error h
  | renameFailed => exact .error h

/-- The clients shown after an update of the first one that `p` selects. -/
theorem views_updateFirst (h : views s = views t) {f f' : Client → Client}
    {g : ClientView → ClientView} (hf : ∀ c, ClientView.ofClient (f c) = g (.ofClient c))
    (hf' : ∀ c, ClientView.ofClient (f' c) = g (.ofClient c)) (p : ClientView → Bool) :
    (updateFirst (fun c => p (.ofClient c)) f s.list).map ClientView.ofClient =
      (updateFirst (fun c => p (.ofClient c)) f' t.list).map .ofClient := by
  rw [map_updateFirst hf, map_updateFirst hf']
  exact congrArg _ h

/-- The clients shown after a change of the mappings of every client. -/
theorem views_map (h : views s = views t) (kept : List PortMapping → List PortMapping) :
    (s.list.map fun c => { c with mappings := kept c.mappings }).map ClientView.ofClient =
      (t.list.map fun c => { c with mappings := kept c.mappings }).map .ofClient := by
  have hmap := congrArg
    (List.map fun v : ClientView => { v with mappings := kept v.mappings }) h
  simp only [views, List.map_map] at hmap ⊢
  exact hmap

theorem alike_setClientEnabled (h : views s = views t) (id : String) (enabled : Bool) :
    Alike Eq (s.setClientEnabled id enabled io) (t.setClientEnabled id enabled io) := by
  have hany : (s.list.any fun c => c.id == id) = t.list.any fun c => c.id == id :=
    any_views h (·.id == id)
  unfold ClientStore.setClientEnabled
  rw [hany]
  split
  · exact alike_persistThen (views_updateFirst h
      (g := fun v => { v with enabled }) (fun _ => rfl) (fun _ => rfl) (·.id == id)) rfl
  · exact .ok rfl h

theorem alike_deleteClient (h : views s = views t) (id : String) :
    Alike Eq (s.deleteClient id io) (t.deleteClient id io) := by
  have hlist : (s.list.filter fun c => c.id != id).map ClientView.ofClient =
      (t.list.filter fun c => c.id != id).map .ofClient := by
    have hfilter := congrArg (List.filter fun v : ClientView => v.id != id) h
    simp only [views, List.filter_map] at hfilter
    exact hfilter
  have hlength : s.list.length = t.list.length := by
    simpa [views] using congrArg List.length h
  have hlength' : (s.list.filter fun c => c.id != id).length =
      (t.list.filter fun c => c.id != id).length := by
    simpa only [List.length_map] using congrArg List.length hlist
  simp only [ClientStore.deleteClient, hlength, hlength']
  split
  · exact alike_persistThen hlist rfl
  · exact .ok rfl hlist

theorem alike_addClient (h : views s = views t) {hash hash' : String → String → String}
    {pepper pepper' token token' : String} (htoken : tokenPrefixOf token = tokenPrefixOf token')
    (name id : String) (now : Timestamp) :
    Alike (fun r r' => ClientView.ofClient r.1 = .ofClient r'.1)
      (s.addClient hash name pepper token id now io)
      (t.addClient hash' name pepper' token' id now io) := by
  unfold ClientStore.addClient
  refine alike_persistThen ?_ ?_
  · simp only [views, List.map_append, List.map_singleton, ClientView.ofClient, htoken]
    exact congrArg (· ++ _) h
  · simp only [ClientView.ofClient, htoken]

theorem alike_regenerateToken (h : views s = views t) {hash hash' : String → String → String}
    {pepper pepper' token token' : String} (htoken : tokenPrefixOf token = tokenPrefixOf token')
    (id : String) :
    Alike (fun r r' => r.isSome = r'.isSome) (s.regenerateToken hash id pepper token io)
      (t.regenerateToken hash' id pepper' token' io) := by
  have hany : (s.list.any fun c => c.id == id) = t.list.any fun c => c.id == id :=
    any_views h (·.id == id)
  unfold ClientStore.regenerateToken
  rw [hany]
  split
  · refine alike_persistThen (views_updateFirst h
      (g := fun v => { v with tokenPrefix := tokenPrefixOf token }) (fun _ => rfl) (fun c => ?_)
      (·.id == id)) rfl
    rw [htoken]
    rfl
  · exact .ok rfl h

theorem alike_addMapping (h : views s = views t) (clientId name : String) (remotePort : UInt16)
    (localAddr id : String) (now : Timestamp) :
    Alike Eq (s.addMapping clientId name remotePort localAddr id now io)
      (t.addMapping clientId name remotePort localAddr id now io) := by
  have htaken : s.remotePortTaken remotePort none = t.remotePortTaken remotePort none :=
    any_views h fun v => v.mappings.any fun m =>
      m.remotePort == remotePort && some m.id != none
  have hany : (s.list.any fun c => c.id == clientId) = t.list.any fun c => c.id == clientId :=
    any_views h (·.id == clientId)
  unfold ClientStore.addMapping
  rw [htaken, hany]
  split
  · exact .ok rfl h
  split
  · exact alike_persistThen (views_updateFirst h
      (g := fun v => { v with mappings := v.mappings ++ [_] }) (fun _ => rfl) (fun _ => rfl)
      (·.id == clientId)) rfl
  · exact .ok rfl h

theorem alike_deleteMapping (h : views s = views t) (id : String) :
    Alike Eq (s.deleteMapping id io) (t.deleteMapping id io) := by
  have hchanged := any_views h fun v =>
    (v.mappings.filter fun m => m.id != id).length != v.mappings.length
  have hlist := views_map h (List.filter fun m => m.id != id)
  simp only [ClientView.ofClient] at hchanged
  simp only [ClientStore.deleteMapping, hchanged]
  split
  · exact alike_persistThen hlist rfl
  · exact .ok rfl hlist

theorem alike_setMappingEnabled (h : views s = views t) (id : String) (enabled : Bool) :
    Alike Eq (s.setMappingEnabled id enabled io) (t.setMappingEnabled id enabled io) := by
  have hfound := any_views h fun v => v.mappings.any fun m => m.id == id
  have hlist := views_map h (updateFirst (fun m => m.id == id) fun m => { m with enabled })
  simp only [ClientView.ofClient] at hfound
  simp only [ClientStore.setMappingEnabled, hfound]
  split
  · exact alike_persistThen hlist rfl
  · exact .ok rfl hlist

theorem mappingViews_eq (h : views s = views t) : s.mappingViews = t.mappingViews := by
  have hviews := congrArg (List.flatMap fun v : ClientView => v.mappings.map fun m =>
    ({ id := m.id, name := m.name, remotePort := m.remotePort, localAddr := m.localAddr
       enabled := m.enabled, createdAt := m.createdAt, clientId := v.id
       clientName := v.name } : MappingView)) h
  simp only [views, List.flatMap_map] at hviews
  exact hviews

end Stores

/-! ## Servers that show the same -/

/-- A password is accepted where its hash was made, and no other one is. -/
def Env.Verifies (env : Env) : Prop :=
  ∀ salt password passwordHash, env.crypto.hashPassword salt password = some passwordHash →
    ∀ p, env.verifyPassword p passwordHash = (p == password)

/-- Two servers that differ in nothing but how they make digests and hashes. -/
structure Env.Alike (env env' : Env) : Prop where
  config : env.config = env'.config
  toJson : env.toJson = env'.toJson
  hashError : env.hashError = env'.hashError
  clientsPath : env.clientsPath = env'.clientsPath
  clientsTmp : env.clientsTmp = env'.clientsTmp
  authPath : env.authPath = env'.authPath
  authTmp : env.authTmp = env'.authTmp
  hashes : ∀ salt salt' password, (env.crypto.hashPassword salt password).isSome =
    (env'.crypto.hashPassword salt' password).isSome
  verifies : env.Verifies
  verifies' : env'.Verifies

/-- The credentials have one user name and accept the same passwords. -/
structure AuthAlike (env env' : Env) (a a' : AuthStore) : Prop where
  username : a.inner.username = a'.inner.username
  accepts : ∀ p, a.verify env.verifyPassword p = a'.verify env'.verifyPassword p

structure State.Alike (env env' : Env) (s s' : State) : Prop where
  clients : views s.clients = views s'.clients
  auth : AuthAlike env env' s.auth s'.auth
  audit : s.audit = s'.audit
  added : s.added = s'.added
  calls : ∀ r, (s.calls r).mask = (s'.calls r).mask

section Handlers

variable {env env' : Env} {clients clients' : ClientStore} {user : String} {draw draw' : Draw}
  {io : Outcome}

theorem clientsError_eq (henv : env.Alike env') (e : Error) :
    clientsError env e = clientsError env' e := by
  cases e <;> simp only [clientsError, henv.clientsTmp, henv.clientsPath]

theorem authError_eq (henv : env.Alike env') (e : AuthError) :
    authError env e = authError env' e := by
  cases e with
  | hash => simp only [authError, henv.hashError]
  | save e => cases e <;> simp only [authError, henv.authTmp, henv.authPath]

/-- What a handler goes on with is shown alike, and so are the stores. -/
def Next.Alike (n n' : Call × ClientStore) : Prop :=
  n.1.mask = n'.1.mask ∧ views n.2 = views n'.2

theorem alike_andThen {α : Type} {rel : α → α → Prop} {r r' : Except Error α × ClientStore}
    {next next' : α → Call} (henv : env.Alike env') (h : Api.Alike rel r r')
    (hnext : ∀ a b, rel a b → (next a).mask = (next' b).mask) :
    Next.Alike (andThen env r next) (andThen env' r' next') := by
  cases h with
  | ok hrel hviews => exact ⟨hnext _ _ hrel, hviews⟩
  | error hviews =>
    exact ⟨congrArg (fun e => Call.answered (.error e)) (clientsError_eq henv _), hviews⟩

/-- Where both servers do the same with what the store answers. -/
theorem alike_andThen_eq {α : Type} {r r' : Except Error α × ClientStore} {next : α → Call}
    (henv : env.Alike env') (h : Api.Alike Eq r r') :
    Next.Alike (andThen env r next) (andThen env' r' next) :=
  alike_andThen henv h fun _ _ heq => congrArg (fun a => (next a).mask) heq

theorem alike_createClient (henv : env.Alike env') (h : views clients = views clients')
    (hdraw : draw.mask = draw'.mask) (name : String) :
    Next.Alike (createClient env clients user draw io name)
      (createClient env' clients' user draw' io name) := by
  obtain ⟨id, token, salt, now⟩ := draw
  obtain ⟨id', token', salt', now'⟩ := draw'
  obtain ⟨rfl, htoken, -, rfl⟩ := Draw.mk.inj hdraw
  unfold createClient
  split
  · exact ⟨rfl, h⟩
  · refine alike_andThen henv (alike_addClient h htoken ..) fun r r' hview => ?_
    obtain ⟨client, u⟩ := r
    obtain ⟨client', u'⟩ := r'
    have hid : client.id = client'.id := congrArg ClientView.id hview
    have hname : client.name = client'.name := congrArg ClientView.name hview
    simp only [Call.mask, Body.mask, hid, hname, hview]

theorem alike_regenerate (henv : env.Alike env') (h : views clients = views clients')
    (hdraw : draw.mask = draw'.mask) (id : String) :
    Next.Alike (regenerateToken env clients user draw io id)
      (regenerateToken env' clients' user draw' io id) := by
  refine alike_andThen henv (alike_regenerateToken h (congrArg Draw.token hdraw) id)
    fun r r' hsome => ?_
  cases r with
  | none => cases r' with
    | none => rfl
    | some u' => cases hsome
  | some u => cases r' with
    | none => cases hsome
    | some u' => rfl

theorem alike_createMapping (henv : env.Alike env') (h : views clients = views clients')
    (hdraw : draw.mask = draw'.mask) (req : CreateMappingReq) :
    Next.Alike (createMapping env clients user draw io req)
      (createMapping env' clients' user draw' io req) := by
  obtain ⟨id, token, salt, now⟩ := draw
  obtain ⟨id', token', salt', now'⟩ := draw'
  obtain ⟨rfl, -, -, rfl⟩ := Draw.mk.inj hdraw
  unfold createMapping
  split
  · exact ⟨rfl, h⟩
  split
  · exact ⟨rfl, h⟩
  split
  · exact ⟨rfl, h⟩
  · exact alike_andThen_eq henv (alike_addMapping h ..)

/-- Every operation on the client store is shown alike. -/
theorem alike_handle (henv : env.Alike env') (h : views clients = views clients')
    (hdraw : draw.mask = draw'.mask) {req : Request} {next : Call × ClientStore}
    (hnext : handle env clients user draw io req = some next) :
    ∃ next', handle env' clients' user draw' io req = some next' ∧ Next.Alike next next' := by
  cases req with
  | createClient name =>
    cases hnext
    exact ⟨_, rfl, alike_createClient henv h hdraw name⟩
  | updateClient id enabled =>
    cases hnext
    exact ⟨_, rfl, alike_andThen_eq henv (alike_setClientEnabled h id enabled)⟩
  | deleteClient id =>
    cases hnext
    exact ⟨_, rfl, alike_andThen_eq henv (alike_deleteClient h id)⟩
  | regenerateToken id =>
    cases hnext
    exact ⟨_, rfl, alike_regenerate henv h hdraw id⟩
  | createMapping req =>
    cases hnext
    exact ⟨_, rfl, alike_createMapping henv h hdraw req⟩
  | updateMapping id enabled =>
    cases hnext
    exact ⟨_, rfl, alike_andThen_eq henv (alike_setMappingEnabled h id enabled)⟩
  | deleteMapping id =>
    cases hnext
    exact ⟨_, rfl, alike_andThen_eq henv (alike_deleteMapping h id)⟩
  | me | listClients | listMappings | listLogs | getStats | listSessions | getSettings
  | changePassword _ => cases hnext

/-- What is read is the same. -/
theorem read_eq (henv : env.Alike env') (h : views clients = views clients')
    {auth auth' : AuthStore} (hauth : AuthAlike env env' auth auth') (logs : List AuditLog)
    (live : StatsMessage) (req : Request) :
    read env clients user auth logs live req = read env' clients' user auth' logs live req := by
  cases req with
  | listClients => exact congrArg (fun l => some (Body.clients l)) h
  | listMappings => exact congrArg (fun l => some (Body.mappings l)) (mappingViews_eq h)
  | getSettings => rw [read, read, hauth.username, henv.config]
  | _ => rfl

theorem checkPassword_eq {auth auth' : AuthStore} (hauth : AuthAlike env env' auth auth')
    (req : ChangePasswordReq) :
    checkPassword env user auth req = checkPassword env' user auth' req := by
  unfold checkPassword
  rw [hauth.accepts]

theorem alike_changePassword (henv : env.Alike env') {auth auth' : AuthStore}
    (hauth : AuthAlike env env' auth auth') (user newPassword : String) (draw draw' : Draw)
    (io : Outcome) :
    (changePassword env user draw io auth newPassword).1.mask =
        (changePassword env' user draw' io auth' newPassword).1.mask ∧
      AuthAlike env env' (changePassword env user draw io auth newPassword).2
        (changePassword env' user draw' io auth' newPassword).2 := by
  -- Hashing fails in both servers or in neither.
  have hsome := henv.hashes draw.salt draw'.salt newPassword
  have herror : ∀ e, Call.answered (.error (authError env e)) =
      .answered (.error (authError env' e)) := fun e =>
    congrArg (fun e => Call.answered (.error e)) (authError_eq henv e)
  unfold changePassword AuthStore.changePassword
  cases hhash : env.crypto.hashPassword draw.salt newPassword with
  | none =>
    rw [hhash] at hsome
    have hhash' := Option.isNone_iff_eq_none.mp (by simpa using hsome.symm)
    rw [hhash']
    exact ⟨herror _, hauth⟩
  | some passwordHash =>
    rw [hhash] at hsome
    obtain ⟨passwordHash', hhash'⟩ := Option.isSome_iff_exists.mp hsome.symm
    rw [hhash']
    -- The hashes differ, but each accepts the new password only.
    have hauth' : ∀ files files', AuthAlike env env'
        { inner := { auth.inner with passwordHash }, file := files }
        { inner := { auth'.inner with passwordHash := passwordHash' }, file := files' } := by
      intro files files'
      refine ⟨hauth.username, fun p => ?_⟩
      exact (henv.verifies _ _ _ hhash p).trans (henv.verifies' _ _ _ hhash' p).symm
    cases io with
    | done => exact ⟨rfl, hauth' _ _⟩
    | writeFailed _ => exact ⟨herror _, hauth' _ _⟩
    | renameFailed => exact ⟨herror _, hauth' _ _⟩

end Handlers

/-! ## Steps -/

section Steps

variable {env env' : Env} {s s' t : State} {e e' : Event} {r : RequestId}

/-- Whether nothing of a call is masked. -/
def Call.bodiless : Call → Bool
  | .logging _ _ | .appending _ _ | .answered (.ok _) => false
  | _ => true

theorem Call.eq_of_mask {c c' : Call} (h : c'.mask = c.mask) (hc : c.bodiless = true) :
    c' = c := by
  cases c with
  | logging _ _ | appending _ _ => cases hc
  | answered reply =>
    cases reply with
    | ok _ => cases hc
    | error e =>
      cases c' with
      | answered reply' =>
        cases reply' with
        | ok _ => cases h
        | error _ => exact h
      | _ => cases h
  | _ =>
    cases c' with
    | answered reply' => cases reply' <;> cases h
    | _ => first | exact h | cases h

theorem Call.of_mask_logging {c : Call} {line : Line} {body : Body}
    (h : c.mask = (logging line body).mask) :
    ∃ body', c = .logging line body' ∧ body'.mask = body.mask := by
  cases c with
  | logging line' body' =>
    obtain ⟨rfl, hbody⟩ := Call.logging.inj h
    exact ⟨body', rfl, hbody⟩
  | answered reply => cases reply <;> cases h
  | _ => cases h

theorem Call.of_mask_appending {c : Call} {n : Nat} {body : Body}
    (h : c.mask = (appending n body).mask) :
    ∃ body', c = .appending n body' ∧ body'.mask = body.mask := by
  cases c with
  | appending n' body' =>
    obtain ⟨rfl, hbody⟩ := Call.appending.inj h
    exact ⟨body', rfl, hbody⟩
  | answered reply => cases reply <;> cases h
  | _ => cases h

theorem Call.of_mask_answered {c : Call} {body : Body} (h : c.mask = (answered (.ok body)).mask) :
    ∃ body', c = .answered (.ok body') := by
  cases c with
  | answered reply =>
    cases reply with
    | ok body' => exact ⟨body', rfl⟩
    | error _ => cases h
  | _ => cases h

theorem Call.add_mask (c : Call) : c.mask.add = c.add := by
  cases c with
  | answered reply => cases reply <;> rfl
  | _ => rfl

theorem Event.of_mask_store {draw : Draw} {io : Outcome}
    (h : (store r draw io).mask = e'.mask) :
    ∃ draw', e' = .store r draw' io ∧ draw.mask = draw'.mask := by
  cases e' with
  | store r' draw' io' =>
    obtain ⟨rfl, hdraw, rfl⟩ := Event.store.inj h
    exact ⟨draw', rfl, hdraw⟩
  | _ => cases h

theorem Event.of_mask_changePassword {draw : Draw} {io : Outcome}
    (h : (changePassword r draw io).mask = e'.mask) : ∃ draw', e' = .changePassword r draw' io := by
  cases e' with
  | changePassword r' draw' io' =>
    obtain ⟨rfl, -, rfl⟩ := Event.changePassword.inj h
    exact ⟨draw', rfl⟩
  | _ => cases h

/-- The other events have no secrets. -/
theorem Event.of_mask (h : e.mask = e'.mask) (hstore : ∀ r draw io, e ≠ .store r draw io)
    (hchange : ∀ r draw io, e ≠ .changePassword r draw io) : e' = e := by
  cases e with
  | store r draw io => exact absurd rfl (hstore r draw io)
  | changePassword r draw io => exact absurd rfl (hchange r draw io)
  | _ => cases e' <;> first | exact h.symm | cases h

theorem State.Alike.setCall (h : State.Alike env env' s s') {c c' : Call} (hc : c.mask = c'.mask) :
    State.Alike env env' (s.setCall r c) (s'.setCall r c') := by
  refine ⟨h.clients, h.auth, h.audit, h.added, fun q => ?_⟩
  show (Function.update s.calls r c q).mask = (Function.update s'.calls r c' q).mask
  rcases eq_or_ne q r with rfl | hne
  · rw [Function.update_self, Function.update_self, hc]
  · rw [Function.update_of_ne hne, Function.update_of_ne hne, h.calls]

theorem State.Alike.setClients (h : State.Alike env env' s s') {clients clients' : ClientStore}
    (hviews : views clients = views clients') :
    State.Alike env env' { s with clients } { s' with clients := clients' } :=
  ⟨hviews, h.auth, h.audit, h.added, h.calls⟩

theorem State.Alike.setAuth (h : State.Alike env env' s s') {auth auth' : AuthStore}
    (hauth : AuthAlike env env' auth auth') :
    State.Alike env env' { s with auth } { s' with auth := auth' } :=
  ⟨h.clients, hauth, h.audit, h.added, h.calls⟩

theorem State.Alike.setAudit (h : State.Alike env env' s s') (audit : AuditLogStore.State) :
    State.Alike env env' { s with audit } { s' with audit } :=
  ⟨h.clients, h.auth, rfl, h.added, h.calls⟩

theorem auditFile_eq (henv : env.Alike env') : env.auditFile = env'.auditFile := by
  rw [Env.auditFile, henv.config, Env.auditFile]

theorem State.Alike.log (henv : env.Alike env') (h : State.Alike env env' s s') (ts : String)
    (line : Line) : State.Alike env env' (s.log env ts line) (s'.log env' ts line) := by
  refine ⟨h.clients, h.auth, ?_, ?_, h.calls⟩
  · simp only [State.log, h.audit, h.added, auditFile_eq henv]
  · simp only [State.log, h.added]

/-- A call without a body is the same in both. -/
theorem State.Alike.call_eq (h : State.Alike env env' s s') {c : Call} (hc : s.calls r = c)
    (hbody : c.bodiless = true) : s'.calls r = c :=
  Call.eq_of_mask (by rw [← h.calls, hc]) hbody

/-- So it is in the one if it is in the other. -/
theorem State.Alike.ne_call (h : State.Alike env env' s s') {c : Call} (hc : s.calls r ≠ c)
    (hbody : c.bodiless = true) : s'.calls r ≠ c := fun heq =>
  hc (Call.eq_of_mask (by rw [h.calls, heq]) hbody)

theorem State.Alike.not_answered (h : State.Alike env env' s s')
    (hanswered : ∀ reply, s.calls r ≠ .answered reply) (reply : Reply) :
    s'.calls r ≠ .answered reply := by
  cases reply with
  | error e => exact h.ne_call (hanswered _) rfl
  | ok body =>
    intro heq
    obtain ⟨body', heq'⟩ := Call.of_mask_answered ((h.calls r).trans (congrArg Call.mask heq))
    exact hanswered _ heq'

theorem State.Alike.goes (h : State.Alike env env' s s') {e : AuditLogStore.Event}
    (hgoes : s.Goes e) : s'.Goes e := by
  cases e with
  | push _ _ => exact hgoes
  | check n | rename n | «open» n => exact fun r => h.ne_call (hgoes r) rfl
  | write n =>
    refine fun r => ⟨h.ne_call (hgoes r).1 rfl, fun body heq => ?_⟩
    obtain ⟨body', heq', -⟩ := Call.of_mask_appending ((h.calls r).trans (congrArg Call.mask heq))
    exact (hgoes r).2 body' heq'

/-- Every step is followed in the other server. -/
theorem alike_step (henv : env.Alike env') (h : State.Alike env env' s s')
    (hseen : e.mask = e'.mask) (hs : Step env s e t) :
    ∃ t', Step env' s' e' t' ∧ State.Alike env env' t t' := by
  cases hs with
  | receive hcall =>
    obtain rfl := Event.of_mask hseen nofun nofun
    exact ⟨_, .receive (h.call_eq hcall rfl), h.setCall rfl⟩
  | read hcall hread =>
    obtain rfl := Event.of_mask hseen nofun nofun
    rw [read_eq henv h.clients h.auth, h.audit] at hread
    exact ⟨_, .read (h.call_eq hcall rfl) hread, h.setCall rfl⟩
  | store hcall hnext =>
    -- The other server draws its own token; ids and times are the same.
    obtain ⟨draw', rfl, hdraw⟩ := Event.of_mask_store hseen
    obtain ⟨next', hnext', hmask, hviews⟩ := alike_handle henv h.clients hdraw hnext
    exact ⟨_, .store (h.call_eq hcall rfl) hnext', (h.setClients hviews).setCall hmask⟩
  | checkPassword hcall =>
    obtain rfl := Event.of_mask hseen nofun nofun
    refine ⟨_, .checkPassword (h.call_eq hcall rfl), h.setCall ?_⟩
    rw [checkPassword_eq h.auth]
  | @changePassword r user newPassword draw io hcall =>
    obtain ⟨draw', rfl⟩ := Event.of_mask_changePassword hseen
    obtain ⟨hmask, hauth⟩ := alike_changePassword henv h.auth user newPassword draw draw' io
    exact ⟨_, .changePassword (h.call_eq hcall rfl), (h.setAuth hauth).setCall hmask⟩
  | @log r ts line body hcall =>
    obtain rfl := Event.of_mask hseen nofun nofun
    -- The bodies may differ in a token; the line is the same in both.
    obtain ⟨body', hcall', hbody⟩ := Call.of_mask_logging ((h.calls r).symm.trans (by rw [hcall]))
    refine ⟨_, .log hcall', (h.log henv ts line).setCall ?_⟩
    rw [auditFile_eq henv, h.added]
    split
    · exact congrArg (Call.appending s'.added) hbody.symm
    · exact congrArg (fun body => Call.answered (.ok body)) hbody.symm
  | append hfile hgoes hs =>
    obtain rfl := Event.of_mask hseen nofun nofun
    rw [auditFile_eq henv] at hfile
    rw [h.audit, henv.toJson] at hs
    exact ⟨_, .append hfile (h.goes hgoes) hs, h.setAudit _⟩
  | @answer r n body entry i hcall hopened =>
    obtain rfl := Event.of_mask hseen nofun nofun
    obtain ⟨body', hcall', hbody⟩ :=
      Call.of_mask_appending ((h.calls r).symm.trans (by rw [hcall]))
    rw [h.audit] at hopened
    exact ⟨_, .answer hcall' hopened,
      h.setCall (congrArg (fun body => Call.answered (.ok body)) hbody.symm)⟩
  | @openFails r n body entry hcall hopening =>
    obtain rfl := Event.of_mask hseen nofun nofun
    obtain ⟨body', hcall', hbody⟩ :=
      Call.of_mask_appending ((h.calls r).symm.trans (by rw [hcall]))
    rw [h.audit] at hopening
    refine ⟨_, .openFails hcall' hopening, ?_⟩
    rw [h.audit]
    exact (h.setAudit _).setCall (congrArg (fun body => Call.answered (.ok body)) hbody.symm)
  | @drop r hidle hanswered hdropped =>
    obtain rfl := Event.of_mask hseen nofun nofun
    refine ⟨_, .drop (h.ne_call hidle rfl) (h.not_answered hanswered)
      fun left => h.ne_call (hdropped left) rfl, h.setCall ?_⟩
    rw [← Call.add_mask, h.calls, Call.add_mask]
  | leave hcall hfile he hs =>
    obtain rfl := Event.of_mask hseen nofun nofun
    rw [auditFile_eq henv] at hfile
    rw [h.audit, henv.toJson] at hs
    exact ⟨_, .leave (h.call_eq hcall rfl) hfile he hs, (h.setAudit _).setCall rfl⟩
  | other =>
    obtain rfl := Event.of_mask hseen nofun nofun
    exact ⟨_, .other, h.log henv _ _⟩

end Steps

theorem unwinding {env env' : Env} (henv : env.Alike env') :
    Unwinding (Step env) (Step env') (State.Alike env env') Event.mask Event.mask State.shown
      State.shown where
  follow _ _ _ _ _ h hseen hs := alike_step henv h hseen hs
  shows s s' h := by
    rw [State.shown, State.shown, h.audit, funext h.calls]

/-! ## The tokens in the answers -/

section Tokens

variable {env : Env} {s₀ s t : State} {e : Event} {r : RequestId} {clients : ClientStore}
  {user token : String} {draw : Draw} {io : Outcome} {req : Request}

theorem shownToken_setCall {q : RequestId} {c : Call}
    (h : ((s.setCall q c).calls r).shownToken = some token) :
    (s.calls r).shownToken = some token ∨ r = q ∧ c.shownToken = some token := by
  rcases eq_or_ne r q with rfl | hne
  · rw [State.calls_setCall] at h
    exact .inr ⟨rfl, h⟩
  · rw [State.calls_setCall_ne c hne] at h
    exact .inl h

theorem shownToken_andThen {α : Type} {r : Except Error α × ClientStore} {next : α → Call}
    (h : (andThen env r next).1.shownToken = some token) :
    ∃ a, r.1 = .ok a ∧ (next a).shownToken = some token := by
  obtain ⟨e | a, _⟩ := r
  · cases h
  · exact ⟨a, rfl, h⟩

theorem shownToken_ifFound (line : Line) (found : Bool) :
    (ifFound line found).shownToken = none := by
  cases found <;> rfl

/-- A handler goes on with the token that it has drawn, or with none. -/
theorem shownToken_handle {next : Call × ClientStore}
    (hnext : handle env clients user draw io req = some next)
    (h : next.1.shownToken = some token) : draw.token = token := by
  have hfound : ∀ {r : Except Error Bool × ClientStore} {line : Line},
      (andThen env r (ifFound line)).1.shownToken ≠ some token := by
    intro r line h
    obtain ⟨found, -, hfound⟩ := shownToken_andThen h
    rw [shownToken_ifFound] at hfound
    cases hfound
  cases req with
  | createClient name =>
    cases hnext
    unfold createClient at h
    split at h
    · cases h
    · obtain ⟨made, hmade, htoken⟩ := shownToken_andThen h
      obtain ⟨-, rfl⟩ := ClientStore.persistThen_ok.mp hmade
      exact Option.some.inj htoken
  | regenerateToken id =>
    cases hnext
    obtain ⟨made, hmade, htoken⟩ := shownToken_andThen h
    unfold ClientStore.regenerateToken at hmade
    split at hmade
    · obtain ⟨-, rfl⟩ := ClientStore.persistThen_ok.mp hmade
      exact Option.some.inj htoken
    · cases hmade
      cases htoken
  | createMapping req =>
    cases hnext
    unfold createMapping at h
    split at h
    · cases h
    split at h
    · cases h
    split at h
    · cases h
    · obtain ⟨made, -, htoken⟩ := shownToken_andThen h
      cases made <;> cases htoken
  | updateClient _ _ | deleteClient _ | updateMapping _ _ | deleteMapping _ =>
    cases hnext
    exact absurd h hfound
  | me | listClients | listMappings | listLogs | getStats | listSessions | getSettings
  | changePassword _ => cases hnext

theorem shownToken_read {auth : AuthStore} {logs : List AuditLog} {live : StatsMessage}
    {body : Body} (h : read env clients user auth logs live req = some body) :
    body.shownToken = none := by
  cases req <;> cases h <;> rfl

theorem shownToken_checkPassword (auth : AuthStore) (req : ChangePasswordReq) :
    (checkPassword env user auth req).shownToken = none := by
  unfold checkPassword
  split
  · rfl
  split <;> rfl

theorem shownToken_changePassword (auth : AuthStore) (newPassword : String) :
    (changePassword env user draw io auth newPassword).1.shownToken = none := by
  unfold changePassword
  dsimp only
  split <;> rfl

/-- A token gets into an answer when its handler draws it. -/
theorem shownToken_of_step (hs : Step env s e t) (h : (t.calls r).shownToken = some token) :
    (s.calls r).shownToken = some token ∨
      ∃ draw io, e = .store r draw io ∧ draw.token = token := by
  cases hs with
  | append _ _ _ | other => exact .inl h
  | receive _ | drop _ _ _ | leave _ _ _ _ =>
    rcases shownToken_setCall h with hold | ⟨-, hnew⟩
    · exact .inl hold
    · cases hnew
  | read _ hread =>
    rcases shownToken_setCall h with hold | ⟨-, hnew⟩
    · exact .inl hold
    · cases (shownToken_read hread).symm.trans hnew
  | checkPassword _ =>
    rcases shownToken_setCall h with hold | ⟨-, hnew⟩
    · exact .inl hold
    · cases (shownToken_checkPassword _ _).symm.trans hnew
  | changePassword _ =>
    rcases shownToken_setCall h with hold | ⟨-, hnew⟩
    · exact .inl hold
    · cases (shownToken_changePassword _ _).symm.trans hnew
  | store _ hnext =>
    rcases shownToken_setCall h with hold | ⟨rfl, hnew⟩
    · exact .inl hold
    · exact .inr ⟨_, _, rfl, shownToken_handle hnext hnew⟩
  -- From here on the body is the one that the operation has made.
  | log hcall =>
    rcases shownToken_setCall h with hold | ⟨rfl, hnew⟩
    · exact .inl hold
    · rw [hcall]
      split at hnew <;> exact .inl hnew
  | answer hcall _ | openFails hcall _ =>
    rcases shownToken_setCall h with hold | ⟨rfl, hnew⟩
    · exact .inl hold
    · rw [hcall]
      exact .inl hnew

theorem ownTokens_run {tr : List (State × Event × State)} (hrun : Run (Step env) s₀ tr s)
    (h₀ : ∀ r, s₀.calls r = .idle) : OwnTokens tr := by
  suffices key : (∀ r token, (s.calls r).shownToken = some token →
      ∃ y ∈ tr, ∃ draw io, y.2.1 = .store r draw io ∧ draw.token = token) ∧ OwnTokens tr from key.2
  induction hrun with
  | nil =>
    refine ⟨fun r token htoken => ?_, fun before x after heq => ?_⟩
    · rw [h₀] at htoken
      cases htoken
    · cases List.append_ne_nil_of_right_ne_nil _ (List.cons_ne_nil _ _) heq.symm
  | @snoc tr s t e _ hs ih =>
    obtain ⟨hbefore, hown⟩ := ih
    have hlast : ∀ r token, (t.calls r).shownToken = some token →
        ∃ y ∈ tr ++ [(s, e, t)], ∃ draw io, y.2.1 = .store r draw io ∧ draw.token = token := by
      intro r token htoken
      rcases shownToken_of_step hs htoken with hold | ⟨draw, io, rfl, hdrawn⟩
      · obtain ⟨y, hy, hdrawn⟩ := hbefore r token hold
        exact ⟨y, List.mem_append_left _ hy, hdrawn⟩
      · exact ⟨_, List.mem_append_right _ (List.mem_singleton_self _), draw, io, rfl, hdrawn⟩
    refine ⟨hlast, fun before x after heq r token htoken => ?_⟩
    rcases eq_append_cons_of_snoc heq with ⟨-, rfl, rfl⟩ | ⟨after', -, hsplit⟩
    · exact hlast r token htoken
    · exact hown before x after' hsplit r token htoken

end Tokens

/-! ## An example -/

def exampleStats : StatsMessage where
  snapshot := { bytesIn := 0, bytesOut := 0, totalConns := 0, activeConns := 0 }
  history := []
  sessions := []

/-- A client is made, and all are listed. -/
def exampleEvents (mark : String) : List Event :=
  [.receive 0 "admin" (.createClient " home "),
    .store 0 (exampleDraw mark) .done,
    .log 0 exampleTime,
    .append (.check 0),
    .append (.open 0),
    .answer 0,
    .append (.write 0),
    .receive 1 "admin" .listClients,
    .read 1 exampleStats]

theorem verifies_example (mark : String) : (exampleEnv mark).Verifies := by
  intro salt password passwordHash hhash p
  cases hhash
  simp [exampleEnv]

theorem alike_example (mark mark' : String) : (exampleEnv mark).Alike (exampleEnv mark') where
  config := rfl
  toJson := rfl
  hashError := rfl
  clientsPath := rfl
  clientsTmp := rfl
  authPath := rfl
  authTmp := rfl
  hashes _ _ _ := rfl
  verifies := verifies_example mark
  verifies' := verifies_example mark'

theorem alike_exampleState (mark mark' : String) :
    State.Alike (exampleEnv mark) (exampleEnv mark') (exampleState mark) (exampleState mark') where
  clients := rfl
  auth := ⟨rfl, fun p => by simp [AuthStore.verify, exampleEnv, exampleState]⟩
  audit := rfl
  added := rfl
  calls _ := rfl

/-- The run of the example. -/
theorem run_example : ∃ tr s, Run (Step (exampleEnv "a")) (exampleState "a") tr s ∧
    (tr.map fun x => x.2.1) = exampleEvents "a" := by
  obtain ⟨view, admitted, stored, pushed, looked, opened, answered, written, receive, store, push,
    look, opens, answer, write, -, -, hidle, -⟩ := steps_example "a"
  have ask : Step (exampleEnv "a") written (.receive 1 "admin" .listClients) _ := .receive hidle
  have list : Step (exampleEnv "a") (written.setCall 1 (.admitted "admin" .listClients))
      (.read 1 exampleStats) _ := .read (State.calls_setCall ..) rfl
  have logged := ((Run.nil.snoc receive).snoc store).snoc push
  have made := (((logged.snoc look).snoc opens).snoc answer).snoc write
  exact ⟨_, _, (made.snoc ask).snoc list, rfl⟩

/-- Whatever secrets the server and the requests have, the run shows the same: a server with
other ones that are asked for the same goes the same way, and after each step it has given
the same answers but for tokens, and its audit log is the same. In both, a token in an answer
is the one that was drawn for the request. -/
theorem tokens_shown_once {env env' : Env} (henv : env.Alike env') {s₀ s₀' s : State}
    {tr : List (State × Event × State)} (h₀ : State.Alike env env' s₀ s₀')
    (hidle : ∀ r, s₀.calls r = .idle) (hrun : Run (Step env) s₀ tr s) {es : List Event}
    (hes : (tr.map fun x => x.2.1.mask) = es.map Event.mask) :
    ∃ tr' s', Run (Step env') s₀' tr' s' ∧ (tr'.map fun x => x.2.1) = es ∧
      (tr'.map fun x => x.2.2.shown) = (tr.map fun x => x.2.2.shown) ∧
      OwnTokens tr ∧ OwnTokens tr' := by
  obtain ⟨tr', s', hrun', hevents, -, hshown⟩ := (unwinding henv).run hrun h₀ hes
  have hidle' : ∀ r, s₀'.calls r = .idle := fun r => h₀.call_eq (hidle r) rfl
  exact ⟨tr', s', hrun', hevents, hshown, ownTokens_run hrun hidle, ownTokens_run hrun' hidle'⟩

theorem tokens_shown_once_created : ∃ tr s tr' s',
    Run (Step (exampleEnv "a")) (exampleState "a") tr s ∧
    (tr.map fun x => x.2.1) = exampleEvents "a" ∧
    Run (Step (exampleEnv "b")) (exampleState "b") tr' s' ∧
    (tr'.map fun x => x.2.1) = exampleEvents "b" ∧
    (tr'.map fun x => x.2.2.shown) = (tr.map fun x => x.2.2.shown) ∧
    OwnTokens tr ∧ OwnTokens tr' := by
  obtain ⟨tr, s, hrun, hevents⟩ := run_example
  have hseen : (tr.map fun x => x.2.1.mask) = (exampleEvents "b").map Event.mask := by
    rw [← Function.comp_def Event.mask, ← List.map_map, hevents]
    decide +kernel
  obtain ⟨tr', s', hrun', hevents', hshown⟩ := tokens_shown_once (alike_example "a" "b")
    (alike_exampleState "a" "b") (fun _ => rfl) hrun hseen
  exact ⟨tr, s, tr', s', hrun, hevents, hrun', hevents', hshown⟩

end MiniMask.Api
