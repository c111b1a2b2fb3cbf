import MiniMask.Lib.NetAddr
import MiniMask.Store.AuditLog
import MiniMask.Store.Operations
import MiniMask.Web.Access
import MiniMask.Web.Dashboard

/-!
# The REST API (`web/routes.rs`, `error.rs`)

The handlers with the texts and the data that they answer: what they check, the errors with
their status codes, the lines of the audit log, and the views of the stores. A request is a
task: its operation on the store, the push of its line to the audit log, what the log does
with its file and the answer are separate steps, the ones of other requests come in between,
and a handler is dropped when its connection goes away. A handler that is dropped inside a
save is a matter of the stores.

`handle_agrees`: the handlers do to the store what those of the tunnel's part of the server
do, which go on to the listeners, and answer with the same status.

How the answers are written as JSON is `serde_json`'s.
-/

namespace MiniMask.Api

open AtomicFile
open Access (CreateMappingReq ChangePasswordReq)
open Dashboard (SessionStats StatsMessage)
open FailedSaves (Crypto)
open Tunnel (AdminRequest RequestId trim)

/-! ## Errors -/

inductive AppError
  | notFound
  | unauthorized
  | forbidden
  | badRequest (message : String)
  | conflict (message : String)
  | internal (message : String)
deriving DecidableEq, Repr

namespace AppError

/-- The status code of `into_response`. -/
def status : AppError → Nat
  | notFound => 404
  | unauthorized => 401
  | forbidden => 403
  | badRequest _ => 400
  | conflict _ => 409
  | internal _ => 500

/-- `to_string`, the `error` of the body. -/
def message : AppError → String
  | notFound => "not found"
  | unauthorized => "unauthorized"
  | forbidden => "forbidden"
  | badRequest message => message
  | conflict message => message
  | internal message => "internal error: " ++ message

end AppError

/-! ## Requests and answers -/

/-- A client without its `token_hash`. -/
structure ClientView where
  id : String
  name : String
  tokenPrefix : String
  enabled : Bool
  createdAt : Timestamp
  mappings : List PortMapping
deriving DecidableEq, Repr

/-- `From<Client>`. -/
def ClientView.ofClient (c : Client) : ClientView where
  id := c.id
  name := c.name
  tokenPrefix := c.tokenPrefix
  enabled := c.enabled
  createdAt := c.createdAt
  mappings := c.mappings

/-- What `get_settings` shows. -/
structure Settings where
  username : String
  tunnelBind : String
  webBind : String
  tunnelTls : Bool
  webTls : Bool
  maxClients : Nat
  maxConnsPerClient : Nat
  dataDir : String
deriving DecidableEq, Repr

def Settings.ofConfig (username : String) (cfg : Config) : Settings where
  username
  tunnelBind := cfg.server.tunnelBind
  webBind := cfg.server.webBind
  tunnelTls := cfg.server.tunnelTls
  webTls := cfg.server.webTls
  maxClients := cfg.security.maxClients
  maxConnsPerClient := cfg.security.maxConnsPerClient
  dataDir := cfg.server.dataDir

/-- The requests behind the layer of `require_auth`, past the extractors of their handlers. -/
inductive Request
  | me
  | listClients
  | createClient (name : String)
  | updateClient (id : String) (enabled : Bool)
  | deleteClient (id : String)
  | regenerateToken (id : String)
  | listMappings
  | createMapping (req : CreateMappingReq)
  | updateMapping (id : String) (enabled : Bool)
  | deleteMapping (id : String)
  | listLogs
  | getStats
  | listSessions
  | getSettings
  | changePassword (req : ChangePasswordReq)
deriving DecidableEq, Repr

/-- The bodies of the answers with status 200. -/
inductive Body
  | ok
  | user (username : String)
  | clients (views : List ClientView)
  | created (client : ClientView) (token : String)
  | token (token : String)
  | mappings (views : List MappingView)
  | mapping (m : PortMapping)
  | logs (logs : List AuditLog)
  | stats (m : StatsMessage)
  | sessions (sessions : List SessionStats)
  | settings (settings : Settings)
deriving DecidableEq, Repr

abbrev Reply := Except AppError Body

/-- The status code of an answer. -/
def statusOf : Reply → Nat
  | .ok _ => 200
  | .error e => e.status

/-- The configuration and what the server's libraries do. `toJson` is `serde_json::to_string`,
the paths are as `display` writes them, and `hashError` is the text of an error of `argon2`. -/
structure Env where
  config : Config
  toJson : AuditLog → String
  crypto : Crypto
  verifyPassword : String → String → Bool
  hashError : String
  clientsPath : String
  clientsTmp : String
  authPath : String
  authTmp : String

/-! ## The handlers -/

/-- A line for the audit log, but for its time. -/
structure Line where
  level : String
  category : String
  message : String
deriving DecidableEq, Repr

/-- The entry of the audit log that `AuditLogStore::add` makes of it. -/
def Line.entry (line : Line) (ts : String) : AuditLog where
  ts := ts
  level := line.level
  category := line.category
  message := line.message

/-- The random values and the time that a handler draws. -/
structure Draw where
  id : String
  token : String
  salt : String
  now : Timestamp
deriving DecidableEq, Repr

/-- Where a request is: at its handler, past the check of the old password, past its
operation on the store with its line yet to be pushed to the audit log, waiting for call `n`
of `AuditLogStore::add` to be done with the file, or answered; or its handler was dropped,
with an operation on the file in call `left` maybe under way. -/
inductive Call
  | idle
  | admitted (user : String) (req : Request)
  | checked (user : String) (newPassword : String)
  | logging (line : Line) (body : Body)
  | appending (n : Nat) (body : Body)
  | answered (reply : Reply)
  | dropped (left : Option Nat)
deriving DecidableEq, Repr

/-- The call of `add` that the handler is in. -/
def Call.add : Call → Option Nat
  | appending n _ => some n
  | _ => none

section Handlers

variable (env : Env)

/-- What `?` makes of a failed `persist` of the clients. -/
def clientsError : Error → AppError
  | .write => .internal ("write clients tmp " ++ env.clientsTmp)
  | .rename => .internal ("rename clients to " ++ env.clientsPath)

/-- What `?` makes of a failed `change_password`. -/
def authError : AuthError → AppError
  | .hash => .internal ("argon2 hash: " ++ env.hashError)
  | .save .write => .internal ("write auth tmp " ++ env.authTmp)
  | .save .rename => .internal ("rename auth to " ++ env.authPath)

/-- `.await?` of an operation of the client store, and what follows it. -/
def andThen {α : Type} (r : Except Error α × ClientStore) (next : α → Call) : Call × ClientStore :=
  (match r.1 with
    | .ok a => next a
    | .error e => .answered (.error (clientsError env e)), r.2)

/-- `if !found { return Err(AppError::NotFound) }`, and the answer `{ "ok": true }`. -/
def ifFound (line : Line) (found : Bool) : Call :=
  if found then .logging line .ok else .answered (.error .notFound)

variable (clients : ClientStore) (user : String) (draw : Draw) (io : Outcome)

def createClient (name : String) : Call × ClientStore :=
  if trim name = "" then (.answered (.error (.badRequest "name is required")), clients)
  else
    andThen env (clients.addClient env.crypto.sha256HexWithPepper (trim name)
      env.crypto.tokenPepper draw.token draw.id draw.now io) fun (client, token) =>
        .logging
          { level := "info", category := "client"
            message := user ++ " created client " ++ client.id ++ " (" ++ client.name ++ ")" }
          (.created (.ofClient client) token)

def updateClient (id : String) (enabled : Bool) : Call × ClientStore :=
  andThen env (clients.setClientEnabled id enabled io) <| ifFound
    { level := "info", category := "client"
      message := user ++ " set client " ++ id ++ " enabled=" ++ toString enabled }

def deleteClient (id : String) : Call × ClientStore :=
  andThen env (clients.deleteClient id io) <| ifFound
    { level := "warn", category := "client", message := user ++ " deleted client " ++ id }

def regenerateToken (id : String) : Call × ClientStore :=
  andThen env (clients.regenerateToken env.crypto.sha256HexWithPepper id env.crypto.tokenPepper
    draw.token io) fun
      | some token =>
        .logging
          { level := "warn", category := "client"
            message := user ++ " regenerated token for client " ++ id }
          (.token token)
      | none => .answered (.error .notFound)

def createMapping (req : CreateMappingReq) : Call × ClientStore :=
  if trim req.name = "" then (.answered (.error (.badRequest "name is required")), clients)
  else if req.remotePort = 0 then
    (.answered (.error (.badRequest "remote_port is required")), clients)
  else if NetAddr.isSocketAddr req.localAddr = false then
    (.answered (.error (.badRequest "local_addr must be IP:port, e.g. 127.0.0.1:8080")), clients)
  else
    andThen env (clients.addMapping req.clientId (trim req.name) req.remotePort req.localAddr
      draw.id draw.now io) fun
        | some m =>
          .logging
            { level := "info", category := "mapping"
              message := user ++ " created mapping " ++ m.id ++ " (" ++ m.localAddr ++ " -> :" ++
                toString m.remotePort ++ ")" }
            (.mapping m)
        | none =>
          .answered (.error (.conflict "remote_port already in use or client not found"))

def updateMapping (id : String) (enabled : Bool) : Call × ClientStore :=
  andThen env (clients.setMappingEnabled id enabled io) <| ifFound
    { level := "info", category := "mapping"
      message := user ++ " set mapping " ++ id ++ " enabled=" ++ toString enabled }

def deleteMapping (id : String) : Call × ClientStore :=
  andThen env (clients.deleteMapping id io) <| ifFound
    { level := "warn", category := "mapping", message := user ++ " deleted mapping " ++ id }

/-- The handlers with an operation on the client store, up to and including it; `none` for
the others. -/
def handle : Request → Option (Call × ClientStore)
  | .createClient name => some (createClient env clients user draw io name)
  | .updateClient id enabled => some (updateClient env clients user io id enabled)
  | .deleteClient id => some (deleteClient env clients user io id)
  | .regenerateToken id => some (regenerateToken env clients user draw io id)
  | .createMapping req => some (createMapping env clients user draw io req)
  | .updateMapping id enabled => some (updateMapping env clients user io id enabled)
  | .deleteMapping id => some (deleteMapping env clients user io id)
  | _ => none

/-- `change_password` up to the check of the old password. -/
def checkPassword (auth : AuthStore) (req : ChangePasswordReq) : Call :=
  if req.newPassword.utf8ByteSize < 6 then
    .answered (.error (.badRequest "new password must be at least 6 characters"))
  else if auth.verify env.verifyPassword req.oldPassword = true then .checked user req.newPassword
  else .answered (.error (.badRequest "old password incorrect"))

/-- The rest of `change_password`. -/
def changePassword (auth : AuthStore) (newPassword : String) : Call × AuthStore :=
  let r := auth.changePassword env.crypto.hashPassword newPassword draw.salt io
  (match r.1 with
    | .ok () =>
      .logging
        { level := "warn", category := "auth", message := user ++ " changed admin password" } .ok
    | .error e => .answered (.error (authError env e)), r.2)

/-- The handlers that only read. `live` is what `build_stats_value` loads for them. -/
def read (auth : AuthStore) (logs : List AuditLog) (live : StatsMessage) : Request → Option Body
  | .me => some (.user user)
  | .listClients => some (.clients (clients.list.map .ofClient))
  | .listMappings => some (.mappings clients.mappingViews)
  | .listLogs => some (.logs logs)
  | .getStats => some (.stats live)
  | .listSessions => some (.sessions live.sessions)
  | .getSettings => some (.settings (.ofConfig auth.inner.username env.config))
  | _ => none

end Handlers

/-! ## Steps -/

/-- The server as the API sees it. `added` numbers the calls of `AuditLogStore::add`. -/
structure State where
  clients : ClientStore
  auth : AuthStore
  audit : AuditLogStore.State
  added : Nat
  calls : RequestId → Call

/-- `AuditLogStore::new(500)`. -/
def logCap : Nat := 500

/-- `with_file`, unless `log_file` is empty. -/
def Env.auditFile (env : Env) : Option Nat :=
  if env.config.audit.logFile = "" then none
  else some (AuditLogStore.maxBytes env.config.audit.maxSizeMb)

namespace State

def setCall (s : State) (r : RequestId) (c : Call) : State :=
  { s with calls := Function.update s.calls r c }

@[simp] theorem calls_setCall (s : State) (r : RequestId) (c : Call) :
    (s.setCall r c).calls r = c :=
  Function.update_self ..

@[simp] theorem calls_setCall_ne {s : State} {r q : RequestId} (c : Call) (h : q ≠ r) :
    (s.setCall r c).calls q = s.calls q :=
  Function.update_of_ne h ..

/-- `AppState::log` at the time `ts`, up to the push to the ring. -/
def log (env : Env) (s : State) (ts : String) (line : Line) : State :=
  { s with
    audit := { s.audit with
        logs := AuditLogStore.pushLog logCap s.audit.logs (line.entry ts) }.setCall s.added
      (env.auditFile.map fun _ => { entry := line.entry ts, phase := .pushed })
    added := s.added + 1 }

/-- Whether a step of the audit log is one that a task takes on its own: a call whose handler
was dropped goes no further, and a line is only written after its handler has handed it
over. -/
def Goes (s : State) : AuditLogStore.Event → Prop
  | .push _ _ => False
  | .check n | .rename n | .open n => ∀ r, s.calls r ≠ .dropped (some n)
  | .write n => ∀ r, s.calls r ≠ .dropped (some n) ∧ ∀ body, s.calls r ≠ .appending n body

end State

inductive Event
  | receive (r : RequestId) (user : String) (req : Request)
  | read (r : RequestId) (live : StatsMessage)
  | store (r : RequestId) (draw : Draw) (io : Outcome)
  | checkPassword (r : RequestId)
  | changePassword (r : RequestId) (draw : Draw) (io : Outcome)
  | log (r : RequestId) (ts : String)
  | append (e : AuditLogStore.Event)
  | answer (r : RequestId)
  | openFails (r : RequestId)
  | drop (r : RequestId)
  | leave (r : RequestId) (e : AuditLogStore.Event)
  | other (ts : String) (line : Line)
deriving DecidableEq, Repr

inductive Step (env : Env) (s : State) : Event → State → Prop
  | receive {r : RequestId} {user : String} {req : Request} :
      s.calls r = .idle → Step env s (.receive r user req) (s.setCall r (.admitted user req))
  | read {r : RequestId} {user : String} {req : Request} {live : StatsMessage} {body : Body} :
      s.calls r = .admitted user req →
      read env s.clients user s.auth s.audit.logs live req = some body →
      Step env s (.read r live) (s.setCall r (.answered (.ok body)))
  | store {r : RequestId} {user : String} {req : Request} {draw : Draw} {io : Outcome}
      {next : Call × ClientStore} :
      s.calls r = .admitted user req → handle env s.clients user draw io req = some next →
      Step env s (.store r draw io) ({ s with clients := next.2 }.setCall r next.1)
  | checkPassword {r : RequestId} {user : String} {req : ChangePasswordReq} :
      s.calls r = .admitted user (.changePassword req) →
      Step env s (.checkPassword r) (s.setCall r (checkPassword env user s.auth req))
  | changePassword {r : RequestId} {user newPassword : String} {draw : Draw} {io : Outcome} :
      s.calls r = .checked user newPassword →
      Step env s (.changePassword r draw io)
        ({ s with auth := (changePassword env user draw io s.auth newPassword).2 }.setCall r
          (changePassword env user draw io s.auth newPassword).1)
  /- Without a file there is nothing more to wait for. -/
  | log {r : RequestId} {ts : String} {line : Line} {body : Body} :
      s.calls r = .logging line body →
      Step env s (.log r ts) ((s.log env ts line).setCall r
        (if env.auditFile.isSome then .appending s.added body else .answered (.ok body)))
  /- The file is looked at, renamed, opened or written to for one of the calls of `add`. -/
  | append {maxBytes : Nat} {e : AuditLogStore.Event} {audit : AuditLogStore.State} :
      env.auditFile = some maxBytes → s.Goes e →
      AuditLogStore.Step env.toJson logCap maxBytes s.audit e audit →
      Step env s (.append e) { s with audit }
  /- The file is open: `write_all` takes the line, to write it in the background. -/
  | answer {r : RequestId} {n : Nat} {body : Body} {entry : AuditLog} {i : AuditLogStore.Inode} :
      s.calls r = .appending n body → s.audit.calls n = some ⟨entry, .opened i⟩ →
      Step env s (.answer r) (s.setCall r (.answered (.ok body)))
  /- `add` only warns of an error. -/
  | openFails {r : RequestId} {n : Nat} {body : Body} {entry : AuditLog} :
      s.calls r = .appending n body → s.audit.calls n = some ⟨entry, .opening⟩ →
      Step env s (.openFails r)
        ({ s with audit := s.audit.setCall n none }.setCall r (.answered (.ok body)))
  | drop {r : RequestId} :
      s.calls r ≠ .idle → (∀ reply, s.calls r ≠ .answered reply) →
      (∀ left, s.calls r ≠ .dropped left) →
      Step env s (.drop r) (s.setCall r (.dropped (s.calls r).add))
  /- What was under way on the file when the handler was dropped. -/
  | leave {r : RequestId} {n maxBytes : Nat} {e : AuditLogStore.Event}
      {audit : AuditLogStore.State} :
      s.calls r = .dropped (some n) → env.auditFile = some maxBytes → e = .rename n ∨ e = .open n →
      AuditLogStore.Step env.toJson logCap maxBytes s.audit e audit →
      Step env s (.leave r e) ({ s with audit := audit.setCall n none }.setCall r (.dropped none))
  /- Another task writes a line to the audit log. -/
  | other {ts : String} {line : Line} : Step env s (.other ts line) (s.log env ts line)

/-! ## An example -/

/-- A server whose secrets are marked. -/
def exampleEnv (mark : String) : Env where
  config := Web.exampleConfig 24
  toJson := AuditLogStore.plainJson
  crypto :=
    { sha256HexWithPepper := fun token pepper => mark ++ token ++ pepper
      tokenPepper := mark
      hashPassword := fun _ password => some (mark ++ password) }
  verifyPassword := fun password passwordHash => mark ++ password == passwordHash
  hashError := "output is too short"
  clientsPath := "data/clients.json"
  clientsTmp := "data/clients.json.tmp"
  authPath := "data/auth.json"
  authTmp := "data/auth.json.tmp"

/-- One client, and nothing asked for yet. -/
def exampleState (mark : String) : State where
  clients :=
    { list := [{
        id := "cli_work", name := "work", tokenHash := mark, tokenPrefix := "mmk_workwork"
        enabled := true, createdAt := 0, mappings := [] }]
      file := { main := none, tmp := none } }
  auth :=
    { inner := { username := "admin", passwordHash := mark ++ "admin" }
      file := { main := none, tmp := none } }
  audit := AuditLogStore.init none none
  added := 0
  calls := fun _ => .idle

def exampleDraw (mark : String) : Draw where
  id := "cli_home"
  token := "mmk_homehome" ++ mark
  salt := mark
  now := 1

def exampleLine : Line where
  level := "info"
  category := "client"
  message := "admin created client cli_home (home)"

def exampleTime : String := "1970-01-01T00:00:00.001Z"

/-- The request to make a client, from its start to its line in the file. -/
theorem steps_example (mark : String) :
    ∃ view admitted stored pushed looked opened answered written,
      Step (exampleEnv mark) (exampleState mark) (.receive 0 "admin" (.createClient " home "))
        admitted ∧
      Step (exampleEnv mark) admitted (.store 0 (exampleDraw mark) .done) stored ∧
      Step (exampleEnv mark) stored (.log 0 exampleTime) pushed ∧
      Step (exampleEnv mark) pushed (.append (.check 0)) looked ∧
      Step (exampleEnv mark) looked (.append (.open 0)) opened ∧
      Step (exampleEnv mark) opened (.answer 0) answered ∧
      Step (exampleEnv mark) answered (.append (.write 0)) written ∧
      stored.calls 0 = .logging exampleLine (.created view (exampleDraw mark).token) ∧
      written.calls 0 = .answered (.ok (.created view (exampleDraw mark).token)) ∧
      written.calls 1 = .idle ∧ written.audit.logs = [exampleLine.entry exampleTime] ∧
      written.audit.written = [(2, exampleLine.entry exampleTime)] ∧
      view.id = "cli_home" ∧ view.name = "home" := by
  obtain ⟨view, clients, hcreate, hid, hname⟩ : ∃ view clients, handle (exampleEnv mark)
      (exampleState mark).clients "admin" (exampleDraw mark) .done (.createClient " home ") =
        some (.logging exampleLine (.created view (exampleDraw mark).token), clients) ∧
      view.id = "cli_home" ∧ view.name = "home" := ⟨_, _, rfl, rfl, rfl⟩
  let made : Body := .created view (exampleDraw mark).token
  let admitted : State :=
    (exampleState mark).setCall 0 (.admitted "admin" (.createClient " home "))
  let stored : State := { admitted with clients }.setCall 0 (.logging exampleLine made)
  let pushed : State := (stored.log (exampleEnv mark) exampleTime exampleLine).setCall 0
    (.appending 0 made)
  let entry : AuditLog := exampleLine.entry exampleTime
  let looked : State :=
    { pushed with audit := pushed.audit.setCall 0 (some ⟨entry, .opening⟩) }
  let opened : State :=
    { looked with audit := looked.audit.openPath.1.setCall 0 (some ⟨entry, .opened 2⟩) }
  let answered : State := opened.setCall 0 (.answered (.ok made))
  have hother : ∀ r ≠ 0, ∀ c, (stored.setCall 0 c).calls r = .idle := fun r hne c =>
    (State.calls_setCall_ne c hne).trans
      ((State.calls_setCall_ne _ hne).trans (State.calls_setCall_ne _ hne))
  have hgoes : ∀ r, pushed.calls r ≠ .dropped (some 0) := by
    intro r
    rcases eq_or_ne r 0 with rfl | hne
    · exact fun heq => nomatch (State.calls_setCall ..).symm.trans heq
    · exact fun heq => nomatch (hother r hne (.appending 0 made)).symm.trans heq
  have hhanded : ∀ r, answered.calls r ≠ .dropped (some 0) ∧
      ∀ body, answered.calls r ≠ .appending 0 body := by
    intro r
    rcases eq_or_ne r 0 with rfl | hne
    · rw [show answered.calls 0 = _ from State.calls_setCall ..]
      exact ⟨nofun, nofun⟩
    · have hidle : answered.calls r = .idle :=
        (State.calls_setCall_ne _ hne).trans (hother r hne (.appending 0 made))
      rw [hidle]
      exact ⟨nofun, nofun⟩
  have store : Step (exampleEnv mark) admitted (.store 0 (exampleDraw mark) .done) stored :=
    Step.store (s := admitted) (State.calls_setCall ..) hcreate
  have push : Step (exampleEnv mark) stored (.log 0 exampleTime) pushed :=
    .log (State.calls_setCall ..)
  have look : Step (exampleEnv mark) pushed (.append (.check 0)) looked :=
    .append rfl hgoes (.check rfl)
  have opens : Step (exampleEnv mark) looked (.append (.open 0)) opened :=
    .append rfl hgoes (.open rfl)
  have hopened : opened.audit.calls 0 = some ⟨entry, .opened 2⟩ := rfl
  have hwaiting : opened.calls 0 = .appending 0 made :=
    State.calls_setCall (stored.log (exampleEnv mark) exampleTime exampleLine) 0 _
  have answer : Step (exampleEnv mark) opened (.answer 0) answered := .answer hwaiting hopened
  have write : Step (exampleEnv mark) answered (.append (.write 0)) _ :=
    .append rfl hhanded (.write hopened)
  have hidle : answered.calls 1 = .idle := hother 1 (by decide) (.answered (.ok made))
  exact ⟨view, admitted, stored, pushed, looked, opened, answered, _, .receive rfl, store, push,
    look, opens, answer, write, rfl, rfl, hidle, rfl, rfl, hid, hname⟩

/-! ## The tunnel's part of the handlers -/

/-- What a request asks of the tunnel's part of the server. -/
def Request.toAdmin (draw : Draw) : Request → Option AdminRequest
  | .createClient name => some (.createClient name draw.token draw.id draw.now)
  | .updateClient id enabled => some (.updateClient id enabled)
  | .deleteClient id => some (.deleteClient id)
  | .regenerateToken id => some (.regenerateToken id draw.token)
  | .createMapping req =>
    some (.createMapping req.clientId req.name req.remotePort req.localAddr draw.id draw.now)
  | .updateMapping id enabled => some (.updateMapping id enabled)
  | .deleteMapping id => some (.deleteMapping id)
  | _ => none

/-- The status code that a request is answered with, once it is. -/
def Call.status : Call → Option Nat
  | .logging _ body | .appending _ body => some (statusOf (.ok body))
  | .answered reply => some (statusOf reply)
  | _ => none

/-- The same for the tunnel's part; a handler that goes on to the listeners succeeds. -/
def nextStatus : Tunnel.Next → Option Nat
  | .go _ => some 200
  | .answer .ok => some 200
  | .answer .badRequest => some 400
  | .answer .notFound => some 404
  | .answer .conflict => some 409
  | .answer .internal => some 500

/-- Both parts run in one process. -/
structure Env.Hosts (env : Env) (tunnel : Tunnel.Env) : Prop where
  hash : tunnel.sha256HexWithPepper = env.crypto.sha256HexWithPepper
  pepper : tunnel.tokenPepper = env.crypto.tokenPepper
  addr : tunnel.isSocketAddr = NetAddr.isSocketAddr

section Agreement

variable {env : Env} {tunnel : Tunnel.Env} {clients : ClientStore} {user : String} {draw : Draw}
  {io : Outcome}

/-- A failed save is answered with 500. -/
theorem status_clientsError (e : Error) :
    (Call.answered (.error (clientsError env e))).status = some 500 := by
  cases e <;> rfl

theorem status_ifFound (r : Except Error Bool × ClientStore) (stage : Tunnel.AdminStage)
    (line : Line) :
    nextStatus (.ofChanged r.1 stage) = (andThen env r (ifFound line)).1.status := by
  obtain ⟨e | found, _⟩ := r
  · exact (status_clientsError e).symm
  · cases found <;> rfl

theorem handle_agrees (henv : env.Hosts tunnel) {req : Request} {request : AdminRequest}
    (hreq : req.toAdmin draw = some request) :
    ∃ next, handle env clients user draw io req = some next ∧
      (Tunnel.handle tunnel clients request io).2 = next.2 ∧
      nextStatus (Tunnel.handle tunnel clients request io).1 = next.1.status := by
  cases req with
  | createClient name =>
    cases hreq
    refine ⟨_, rfl, ?_⟩
    rw [Tunnel.handle, createClient, henv.hash, henv.pepper]
    split
    · exact ⟨rfl, rfl⟩
    · refine ⟨rfl, ?_⟩
      simp only [andThen]
      generalize (clients.addClient _ _ _ _ _ _ io).1 = result
      cases result with
      | error e => exact (status_clientsError e).symm
      | ok made => rfl
  | updateClient id enabled =>
    cases hreq
    exact ⟨_, rfl, rfl, status_ifFound ..⟩
  | deleteClient id =>
    cases hreq
    exact ⟨_, rfl, rfl, status_ifFound ..⟩
  | regenerateToken id =>
    cases hreq
    refine ⟨_, rfl, ?_⟩
    rw [Tunnel.handle, regenerateToken, henv.hash, henv.pepper]
    refine ⟨rfl, ?_⟩
    simp only [andThen]
    generalize (clients.regenerateToken _ id _ _ io).1 = result
    cases result with
    | error e => exact (status_clientsError e).symm
    | ok token => cases token <;> rfl
  | createMapping req =>
    cases hreq
    refine ⟨_, rfl, ?_⟩
    rw [Tunnel.handle, createMapping, henv.addr]
    split
    · exact ⟨rfl, rfl⟩
    split
    · exact ⟨rfl, rfl⟩
    split
    · exact ⟨rfl, rfl⟩
    refine ⟨rfl, ?_⟩
    simp only [andThen]
    generalize (clients.addMapping _ _ _ _ _ _ io).1 = result
    cases result with
    | error e => exact (status_clientsError e).symm
    | ok m =>
      cases m with
      | none => rfl
      | some m =>
        -- Whether the listener is started makes no difference to the answer.
        show nextStatus (if m.enabled then _ else _) = some 200
        split <;> rfl
  | updateMapping id enabled =>
    cases hreq
    exact ⟨_, rfl, rfl, status_ifFound ..⟩
  | deleteMapping id =>
    cases hreq
    exact ⟨_, rfl, rfl, status_ifFound ..⟩
  | me | listClients | listMappings | listLogs | getStats | listSessions | getSettings
  | changePassword _ => cases hreq

end Agreement

end MiniMask.Api
