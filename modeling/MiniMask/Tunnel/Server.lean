import Mathlib.Data.List.AList
import Mathlib.Logic.Function.Basic
import MiniMask.Config
import MiniMask.Lib.Registry
import MiniMask.Store.Effects
import MiniMask.Tunnel.Driver

/-!
# The tunnel server (`tunnel/listener.rs`, `tunnel/session.rs`, `web/routes.rs`)

The tasks of the server and what they share: any number of `handle_tunnel`
invocations with the sessions they drive, the public accept loops, the proxy
tasks and the handlers of the administration API. Every step is what one task
does between two of its awaits; the tasks take their steps in any order.

* `Server` is the shared state, with the local state of every task.
* `TunnelTask` is where one invocation of `handle_tunnel` stands.
* `Step` is one step of any task. Its rules are grouped by the function they
  belong to: `AddStep` for `add_listener`, `TunnelStep` for `handle_tunnel` and
  `drive_server`, `LoopStep` for `public_accept_loop`, `AdminStep` for the
  handlers.

A session's proxy channel, its `listeners` map and its connection counter belong
to the session, not to its entry in the table, so they are indexed by the
session. The yamux connection is seen only through what it answers; the driver's
own module has the details.
-/

namespace MiniMask.Tunnel

open Lts AtomicFile

/-! ## Data -/

/-- An invocation of `handle_tunnel`. The `session_id` it generates is a random
UUID, taken to be distinct for distinct invocations. -/
abbrev SessionId := Nat

/-- A task that runs `public_accept_loop`. -/
abbrev LoopId := Nat

/-- A visitor's connection, numbered in the order of `accept`. -/
abbrev ConnId := Nat

/-- A request to the administration API. -/
abbrev RequestId := Nat

abbrev ProxyRequest := Driver.ProxyRequest ConnId

/-- The configuration, and the library functions the server calls. -/
structure Env where
  security : SecurityConfig
  tokenPepper : String
  sha256HexWithPepper : String → String → String
  isSocketAddr : String → Bool

/-- An entry of the session table. `proxy_tx`, `listeners` and `active_conns` are
those of the session `sessionId`. -/
structure SessionInfo where
  clientId : String
  sessionId : SessionId
  remoteAddr : String
deriving DecidableEq, Repr

/-- What `add_listener` is doing: nothing, binding the port of `m` for session
`k`, or about to store the handle of the loop it spawned. -/
inductive AddStage
  | idle
  | found (m : PortMapping) (k : SessionId)
  | bound (m : PortMapping) (k : SessionId) (l : LoopId)
deriving DecidableEq, Repr

/-- A loop of `add_listener` calls: the client, the mappings still to come and
the call in progress. -/
structure Starter where
  client : String
  todo : List PortMapping
  stage : AddStage
deriving DecidableEq, Repr

/-- What `handle_tunnel` knows of the peer after the handshake: the id and token
it announced and the id of the client the token belongs to. -/
structure Peer where
  announced : String
  token : String
  clientId : String
  remoteAddr : String
deriving DecidableEq, Repr

/-- The stages of `handle_tunnel` after the token check; from `driving` on it is
in `drive_server`. -/
inductive Stage
  | verified
  | registered
  | connected
  | starting (st : Starter)
  | driving
  | opening
  | ending
  | cleaned
deriving DecidableEq, Repr

/-- How `handle_tunnel` returned. -/
inductive Exit
  | handshakeFailed
  | invalidToken
  | rejected (peer : Peer)
  | statusFailed (peer : Peer)
  | driven (peer : Peer)
deriving DecidableEq, Repr

/-- One invocation of `handle_tunnel`. -/
inductive TunnelTask
  | fresh
  | live (peer : Peer) (stage : Stage)
  | returned (exit : Exit)
deriving DecidableEq, Repr

def TunnelTask.isReturned : TunnelTask → Bool
  | .returned _ => true
  | _ => false

/-- A task in `public_accept_loop`: its port, the address and the session it was
given, and whether it was aborted. `mapping` is the mapping that `add_listener`
was called with, which the task does not keep. -/
structure AcceptLoop where
  port : UInt16
  localAddr : String
  clientId : String
  session : SessionId
  mapping : PortMapping
  aborted : Bool
deriving DecidableEq, Repr

/-- A new loop for `m` and session `k`. -/
def AcceptLoop.start (clientId : String) (m : PortMapping) (k : SessionId) : AcceptLoop where
  port := m.remotePort
  localAddr := m.localAddr
  clientId := clientId
  session := k
  mapping := m
  aborted := false

/-- A proxy task: spawned, counted in `active_conns`, or over. -/
inductive TaskPhase
  | spawned
  | counted
  | over
deriving DecidableEq, Repr

/-- The requests that change something, with the random values they draw. -/
inductive AdminRequest
  | createClient (name token id : String) (now : Timestamp)
  | updateClient (id : String) (enabled : Bool)
  | deleteClient (id : String)
  | regenerateToken (id token : String)
  | createMapping (clientId name : String) (remotePort : UInt16) (localAddr id : String)
      (now : Timestamp)
  | updateMapping (id : String) (enabled : Bool)
  | deleteMapping (id : String)
deriving DecidableEq, Repr

inductive Response
  | ok
  | badRequest
  | notFound
  | conflict
  | internal
deriving DecidableEq, Repr

/-- The stages of a handler after its operation on the store. `underRead` says
whether the handler holds the read lock of the store while it adds listeners. -/
inductive AdminStage
  | findMapping (id : String)
  | startClient (id : String)
  | adding (st : Starter) (underRead : Bool)
  | removeListener (id : String)
  | removing (id : String) (arcs : List SessionId)
  | removeClient (id : String)
  | draining (k : SessionId)
deriving DecidableEq, Repr

inductive Admin
  | idle
  | running (request : AdminRequest) (stage : AdminStage)
  | done (request : AdminRequest) (response : Response)
deriving DecidableEq, Repr

def Admin.isRunning : Admin → Bool
  | .running _ _ => true
  | _ => false

/-- A visitor's connection as `accept` returned it: the listener it came from.
The code does not keep this. -/
structure Accepted where
  clientId : String
  mapping : PortMapping
deriving DecidableEq, Repr

/-- The state of the server.

* `loops` has the accept loops whose task is not dropped; each holds its port.
* A visitor's connection is in `offered` while its loop waits for a slot in the
  proxy channel, then in `channel`, then in `opening` while the driver waits for
  a stream, then in `streams` with the session whose stream it was given to; or
  it is in `closed`.
* `accepted`, `issued`, `issuedClients`, `admitted` (newest first) and `cleaned`
  are histories, which the code does not keep. -/
structure Server where
  clients : ClientStore
  sessions : AList fun _ : String => SessionInfo
  tunnels : SessionId → TunnelTask
  listeners : SessionId → AList fun _ : String => LoopId
  loops : LoopId → Option AcceptLoop
  spawned : LoopId
  accepted : List Accepted
  offered : List (LoopId × ProxyRequest)
  channel : List (SessionId × ProxyRequest)
  opening : List (SessionId × ProxyRequest)
  streams : List (SessionId × ProxyRequest)
  closed : List ConnId
  taskPhase : Nat → TaskPhase
  activeConns : SessionId → Nat
  admins : RequestId → Admin
  issued : List Route
  issuedClients : List String
  admitted : List SessionInfo
  cleaned : List SessionId

namespace Server

/-- The server after `start` loaded `clients`. -/
def init (clients : ClientStore) : Server where
  clients := clients
  sessions := ∅
  tunnels := fun _ => .fresh
  listeners := fun _ => ∅
  loops := fun _ => none
  spawned := 0
  accepted := []
  offered := []
  channel := []
  opening := []
  streams := []
  closed := []
  taskPhase := fun _ => .spawned
  activeConns := fun _ => 0
  admins := fun _ => .idle
  issued := routes clients.list
  issuedClients := clients.list.map (·.id)
  admitted := []
  cleaned := []

/-! ## Effects -/

def setTunnel (s : Server) (k : SessionId) (t : TunnelTask) : Server :=
  { s with tunnels := Function.update s.tunnels k t }

def setAdmin (s : Server) (r : RequestId) (a : Admin) : Server :=
  { s with admins := Function.update s.admins r a }

/-- A port is free when no accept loop holds it. -/
def PortFree (s : Server) (port : UInt16) : Prop :=
  ∀ l L, s.loops l = some L → L.port ≠ port

/-- The receiver of the channel is dropped when `handle_tunnel` returns. -/
def channelOpen (s : Server) (k : SessionId) : Bool := !(s.tunnels k).isReturned

/-- Spawn `public_accept_loop` for `m` and session `k`. -/
def spawn (s : Server) (clientId : String) (m : PortMapping) (k : SessionId) : Server :=
  { s with
    loops := Function.update s.loops s.spawned (some (.start clientId m k))
    spawned := s.spawned + 1 }

/-- `listeners.insert(mapping.id, handle)`: a handle that was there is dropped,
which detaches its task. -/
def storeHandle (s : Server) (k : SessionId) (id : String) (l : LoopId) : Server :=
  { s with listeners := Function.update s.listeners k ((s.listeners k).insert id l) }

/-- `handle.abort()` on the handles that `p` selects. -/
def abort (s : Server) (p : LoopId → Bool) : Server :=
  { s with
    loops := fun l =>
      if p l then (s.loops l).map fun L => { L with aborted := true } else s.loops l }

/-- `listeners.remove(id)` and the abort of the handle found. -/
def removeHandle (s : Server) (k : SessionId) (id : String) (l : LoopId) : Server :=
  { s.abort (· == l) with
    listeners := Function.update s.listeners k ((s.listeners k).erase id) }

/-- `map.drain()` with the abort of every handle. -/
def drainListeners (s : Server) (k : SessionId) : Server :=
  { s.abort fun l => (s.listeners k).entries.any fun x => x.2 == l with
    listeners := Function.update s.listeners k ∅ }

/-- The entry of a new session; `HashMap::insert` replaces the one of an older
session of the client. -/
def insertSession (s : Server) (k : SessionId) (peer : Peer) : Server :=
  let info : SessionInfo :=
    { clientId := peer.clientId, sessionId := k, remoteAddr := peer.remoteAddr }
  { s with
    sessions := s.sessions.insert peer.clientId info
    admitted := info :: s.admitted }

/-- The cleanup of `drive_server`: remove the entry if it is still this session's. -/
def cleanup (s : Server) (k : SessionId) (peer : Peer) : Server :=
  { s with
    sessions := Registry.removeOwn SessionInfo.sessionId s.sessions peer.clientId k
    cleaned := k :: s.cleaned }

/-- `handle_tunnel` returns: the receiver is dropped and with it the visitors in
the channel. -/
def exit (s : Server) (k : SessionId) (e : Exit) : Server :=
  { s with
    tunnels := Function.update s.tunnels k (.returned e)
    channel := s.channel.filter fun x => x.1 != k
    closed := s.closed ++ (s.channel.filter fun x => x.1 == k).map (·.2.conn) }

/-- Drop the task of a loop, with a visitor it may hold. -/
def dropLoop (s : Server) (l : LoopId) : Server :=
  { s with
    loops := Function.update s.loops l none
    offered := s.offered.filter fun x => x.1 != l
    closed := s.closed ++ (s.offered.filter fun x => x.1 == l).map (·.2.conn) }

/-- The number of requests in the channel of a session. -/
def pending (s : Server) (k : SessionId) : Nat := s.channel.countP fun x => x.1 == k

/-- The limit check of `public_accept_loop`. -/
def AtConnLimit (env : Env) (s : Server) (k : SessionId) : Prop :=
  env.security.maxConnsPerClient ≠ 0 ∧ env.security.maxConnsPerClient ≤ s.activeConns k

/-- A writer gets the lock of the client store only when no handler reads it. -/
def WriteLockFree (s : Server) : Prop :=
  ∀ r request st, s.admins r ≠ .running request (.adding st true)

end Server

/-! ## `add_listener` -/

/-- The list that `start_client_listeners` goes through. -/
def startClientListeners (clients : ClientStore) (clientId : String) : Starter where
  client := clientId
  todo := match clients.find clientId with
    | some client => client.mappings.filter (·.enabled)
    | none => []
  stage := .idle

inductive AddEvent
  | offline
  | found
  | bindFails (client : String) (m : PortMapping) (k : SessionId)
  | bound
  | stored
deriving DecidableEq, Repr

/-- One step of a loop of `add_listener` calls. The lookup of the session, the
bind and the lock of its `listeners` map are separate steps. A bind can fail for
any reason; it succeeds only on a free port. -/
inductive AddStep (s : Server) : Starter → AddEvent → Server → Starter → Prop
  | offline {st : Starter} {m : PortMapping} {rest : List PortMapping} :
      st.stage = .idle → st.todo = m :: rest → s.sessions.lookup st.client = none →
      AddStep s st .offline s { st with todo := rest }
  | found {st : Starter} {m : PortMapping} {rest : List PortMapping} {info : SessionInfo} :
      st.stage = .idle → st.todo = m :: rest → s.sessions.lookup st.client = some info →
      AddStep s st .found s { st with todo := rest, stage := .found m info.sessionId }
  | bindFails {st : Starter} {m : PortMapping} {k : SessionId} :
      st.stage = .found m k →
      AddStep s st (.bindFails st.client m k) s { st with stage := .idle }
  | bound {st : Starter} {m : PortMapping} {k : SessionId} :
      st.stage = .found m k → s.PortFree m.remotePort →
      AddStep s st .bound (s.spawn st.client m k) { st with stage := .bound m k s.spawned }
  | stored {st : Starter} {m : PortMapping} {k : SessionId} {l : LoopId} :
      st.stage = .bound m k l →
      AddStep s st .stored (s.storeHandle k m.id l) { st with stage := .idle }

/-! ## `handle_tunnel` and `drive_server` -/

inductive TunnelEvent
  | handshakeFails
  | handshake (announced token remoteAddr : String)
  | insert
  | statusOk
  | statusFails
  | startListeners
  | add (a : AddEvent)
  | drive
  | recv
  | openOk
  | openFails
  | sessionEnds
  | cleanup
  | returns
deriving DecidableEq, Repr

/-- One step of the invocation `k` of `handle_tunnel`. -/
inductive TunnelStep (env : Env) (k : SessionId) (s : Server) : TunnelEvent → Server → Prop
  /- The TLS handshake or reading the handshake fails or times out. -/
  | handshakeFails :
      s.tunnels k = .fresh → TunnelStep env k s .handshakeFails (s.exit k .handshakeFailed)
  | invalidToken {announced token remoteAddr : String} :
      s.tunnels k = .fresh →
      s.clients.verifyToken env.sha256HexWithPepper token env.tokenPepper = none →
      TunnelStep env k s (.handshake announced token remoteAddr) (s.exit k .invalidToken)
  /- The announced id is not looked at. -/
  | verified {announced token remoteAddr clientId : String} {enabled : Bool} :
      s.tunnels k = .fresh →
      s.clients.verifyToken env.sha256HexWithPepper token env.tokenPepper =
        some (clientId, enabled) →
      TunnelStep env k s (.handshake announced token remoteAddr)
        (s.setTunnel k (.live { announced, token, clientId, remoteAddr } .verified))
  | rejected {peer : Peer} :
      s.tunnels k = .live peer .verified →
      env.security.maxClients ≤ s.sessions.entries.length →
      TunnelStep env k s .insert (s.exit k (.rejected peer))
  | admitted {peer : Peer} :
      s.tunnels k = .live peer .verified → s.sessions.entries.length < env.security.maxClients →
      TunnelStep env k s .insert ((s.insertSession k peer).setTunnel k (.live peer .registered))
  | statusOk {peer : Peer} :
      s.tunnels k = .live peer .registered →
      TunnelStep env k s .statusOk (s.setTunnel k (.live peer .connected))
  /- `write_status(..).await?` returns from `handle_tunnel`. -/
  | statusFails {peer : Peer} :
      s.tunnels k = .live peer .registered →
      TunnelStep env k s .statusFails (s.exit k (.statusFailed peer))
  | startListeners {peer : Peer} :
      s.tunnels k = .live peer .connected →
      TunnelStep env k s .startListeners (s.setTunnel k
        (.live peer (.starting (startClientListeners s.clients peer.clientId))))
  | add {peer : Peer} {st st' : Starter} {a : AddEvent} {s' : Server} :
      s.tunnels k = .live peer (.starting st) → AddStep s st a s' st' →
      TunnelStep env k s (.add a) (s'.setTunnel k (.live peer (.starting st')))
  | drive {peer : Peer} {st : Starter} :
      s.tunnels k = .live peer (.starting st) → st.stage = .idle → st.todo = [] →
      TunnelStep env k s .drive (s.setTunnel k (.live peer .driving))
  | recv {peer : Peer} {req : ProxyRequest} {pre post : List (SessionId × ProxyRequest)} :
      s.tunnels k = .live peer .driving → s.channel = pre ++ (k, req) :: post →
      (∀ x ∈ pre, x.1 ≠ k) →
      TunnelStep env k s .recv
        ({ s with channel := pre ++ post, opening := (k, req) :: s.opening }.setTunnel k
          (.live peer .opening))
  | openOk {peer : Peer} {req : ProxyRequest} {pre post : List (SessionId × ProxyRequest)} :
      s.tunnels k = .live peer .opening → s.opening = pre ++ (k, req) :: post →
      TunnelStep env k s .openOk
        ({ s with opening := pre ++ post, streams := s.streams ++ [(k, req)] }.setTunnel k
          (.live peer .driving))
  | openFails {peer : Peer} {req : ProxyRequest} {pre post : List (SessionId × ProxyRequest)} :
      s.tunnels k = .live peer .opening → s.opening = pre ++ (k, req) :: post →
      TunnelStep env k s .openFails
        ({ s with opening := pre ++ post, closed := s.closed ++ [req.conn] }.setTunnel k
          (.live peer .ending))
  /- The yamux connection ends or fails. -/
  | sessionEnds {peer : Peer} :
      s.tunnels k = .live peer .driving →
      TunnelStep env k s .sessionEnds (s.setTunnel k (.live peer .ending))
  | cleanup {peer : Peer} :
      s.tunnels k = .live peer .ending →
      TunnelStep env k s .cleanup ((s.cleanup k peer).setTunnel k (.live peer .cleaned))
  | returns {peer : Peer} :
      s.tunnels k = .live peer .cleaned →
      TunnelStep env k s .returns (s.exit k (.driven peer))

/-! ## `public_accept_loop` and the proxy tasks -/

inductive LoopEvent
  | accept
  | sendOk
  | sendClosed
  | sendTimeout
  | acceptFails
  | reap
deriving DecidableEq, Repr

/-- One step of the accept loop `l`. A loop that was aborted may go on until its
task is dropped. -/
inductive LoopStep (env : Env) (l : LoopId) (s : Server) : LoopEvent → Server → Prop
  | refused {L : AcceptLoop} :
      s.loops l = some L → (∀ x ∈ s.offered, x.1 ≠ l) → s.AtConnLimit env L.session →
      LoopStep env l s .accept
        { s with
          accepted := s.accepted ++ [{ clientId := L.clientId, mapping := L.mapping }]
          closed := s.closed ++ [s.accepted.length] }
  | accept {L : AcceptLoop} :
      s.loops l = some L → (∀ x ∈ s.offered, x.1 ≠ l) → ¬ s.AtConnLimit env L.session →
      LoopStep env l s .accept
        { s with
          accepted := s.accepted ++ [{ clientId := L.clientId, mapping := L.mapping }]
          offered := (l, { target := L.localAddr, conn := s.accepted.length }) :: s.offered }
  | sendOk {L : AcceptLoop} {req : ProxyRequest} {pre post : List (LoopId × ProxyRequest)} :
      s.loops l = some L → s.offered = pre ++ (l, req) :: post → s.channelOpen L.session = true →
      s.pending L.session < Driver.proxyChannelCapacity →
      LoopStep env l s .sendOk
        { s with offered := pre ++ post, channel := s.channel ++ [(L.session, req)] }
  /- The send has waited for 200 ms. -/
  | sendTimeout {L : AcceptLoop} {req : ProxyRequest} {pre post : List (LoopId × ProxyRequest)} :
      s.loops l = some L → s.offered = pre ++ (l, req) :: post → s.channelOpen L.session = true →
      LoopStep env l s .sendTimeout
        { s with offered := pre ++ post, closed := s.closed ++ [req.conn] }
  | sendClosed {L : AcceptLoop} {req : ProxyRequest} :
      s.loops l = some L → (l, req) ∈ s.offered → s.channelOpen L.session = false →
      LoopStep env l s .sendClosed (s.dropLoop l)
  | acceptFails {L : AcceptLoop} :
      s.loops l = some L → (∀ x ∈ s.offered, x.1 ≠ l) →
      LoopStep env l s .acceptFails (s.dropLoop l)
  | reap {L : AcceptLoop} :
      s.loops l = some L → L.aborted = true → LoopStep env l s .reap (s.dropLoop l)

inductive TaskEvent
  | starts
  | ends
deriving DecidableEq, Repr

/-- The proxy task of the stream with index `i`. -/
inductive TaskStep (i : Nat) (s : Server) : TaskEvent → Server → Prop
  | starts {k : SessionId} {req : ProxyRequest} :
      s.streams[i]? = some (k, req) → s.taskPhase i = .spawned →
      TaskStep i s .starts
        { s with
          taskPhase := Function.update s.taskPhase i .counted
          activeConns := Function.update s.activeConns k (s.activeConns k + 1) }
  | ends {k : SessionId} {req : ProxyRequest} :
      s.streams[i]? = some (k, req) → s.taskPhase i = .counted →
      TaskStep i s .ends
        { s with
          taskPhase := Function.update s.taskPhase i .over
          activeConns := Function.update s.activeConns k (s.activeConns k - 1) }

/-! ## The handlers of the API -/

/-- `str::trim`: the code points that Unicode calls white space. -/
def isWhitespace (c : Char) : Bool :=
  let n := c.toNat
  (0x9 ≤ n && n ≤ 0xd) || n == 0x20 || n == 0x85 || n == 0xa0 || n == 0x1680 ||
    (0x2000 ≤ n && n ≤ 0x200a) || n == 0x2028 || n == 0x2029 || n == 0x202f || n == 0x205f ||
    n == 0x3000

def trim (name : String) : String :=
  String.ofList ((name.toList.dropWhile isWhitespace).reverse.dropWhile isWhitespace).reverse

/-- What follows the operation on the store: the rest of the handler, or its
answer. -/
inductive Next
  | go (stage : AdminStage)
  | answer (response : Response)
deriving DecidableEq, Repr

/-- `.await?` and `if !found`. -/
def Next.ofChanged (r : Except Error Bool) (go : AdminStage) : Next :=
  match r with
  | .ok true => .go go
  | .ok false => .answer .notFound
  | .error _ => .answer .internal

/-- `create_mapping` once the store has answered. -/
def Next.ofMapping (clientId : String) : Except Error (Option PortMapping) → Next
  | .ok (some m) =>
    if m.enabled then .go (.adding { client := clientId, todo := [m], stage := .idle } false)
    else .answer .ok
  | .ok none => .answer .conflict
  | .error _ => .answer .internal

/-- The handlers up to and including their operation on the store. -/
def handle (env : Env) (clients : ClientStore) (request : AdminRequest) (io : Outcome) :
    Next × ClientStore :=
  match request with
  | .createClient name token id now =>
    if trim name = "" then (.answer .badRequest, clients)
    else
      let r := clients.addClient env.sha256HexWithPepper (trim name) env.tokenPepper token id now io
      (match r.1 with
        | .ok _ => .answer .ok
        | .error _ => .answer .internal, r.2)
  | .updateClient id enabled =>
    let r := clients.setClientEnabled id enabled io
    (.ofChanged r.1 (if enabled then .startClient id else .removeClient id), r.2)
  | .deleteClient id =>
    let r := clients.deleteClient id io
    (.ofChanged r.1 (.removeClient id), r.2)
  | .regenerateToken id token =>
    let r := clients.regenerateToken env.sha256HexWithPepper id env.tokenPepper token io
    (match r.1 with
      | .ok (some _) => .answer .ok
      | .ok none => .answer .notFound
      | .error _ => .answer .internal, r.2)
  | .createMapping clientId name remotePort localAddr id now =>
    if trim name = "" then (.answer .badRequest, clients)
    else if remotePort = 0 then (.answer .badRequest, clients)
    else if env.isSocketAddr localAddr = false then (.answer .badRequest, clients)
    else
      let r := clients.addMapping clientId (trim name) remotePort localAddr id now io
      (.ofMapping clientId r.1, r.2)
  | .updateMapping id enabled =>
    let r := clients.setMappingEnabled id enabled io
    (.ofChanged r.1 (if enabled then .findMapping id else .removeListener id), r.2)
  | .deleteMapping id =>
    let r := clients.deleteMapping id io
    (.ofChanged r.1 (.removeListener id), r.2)

/-- `if let Some((cid, m)) = state.clients.read().await.find_mapping(&id)`: the
guard lives as long as the body, so `add_listener` runs under it. -/
def afterFindMapping (clients : ClientStore) (id : String) : Next :=
  match clients.findMapping id with
  | some (clientId, m) => .go (.adding { client := clientId, todo := [m], stage := .idle } true)
  | none => .answer .ok

def Next.toAdmin (request : AdminRequest) : Next → Admin
  | .go stage => .running request stage
  | .answer response => .done request response

/-- The ids a request draws have never been drawn before. -/
def AdminRequest.FreshIn (s : Server) : AdminRequest → Prop
  | .createClient _ _ id _ => id ∉ s.issuedClients
  | .createMapping _ _ _ _ id _ => ∀ route ∈ s.issued, route.mappingId ≠ id
  | _ => True

/-- The server after the store of a handler is `clients`; a mapping or client that
was not there before enters the histories. -/
def Server.setClients (s : Server) (clients : ClientStore) : Server :=
  { s with
    clients := clients
    issued := s.issued ++ (routes clients.list).filter fun route => route ∉ s.issued
    issuedClients := s.issuedClients ++
      (clients.list.map (·.id)).filter fun id => id ∉ s.issuedClients }

inductive AdminEvent
  | submit (request : AdminRequest) (io : Outcome)
  | findMapping
  | startClient
  | add (a : AddEvent)
  | added
  | collect
  | removeIn
  | findSession
  | drain
deriving DecidableEq, Repr

/-- One step of the handler of request `r`. -/
inductive AdminStep (env : Env) (r : RequestId) (s : Server) : AdminEvent → Server → Prop
  | submit {request : AdminRequest} {io : Outcome} :
      s.admins r = .idle → s.WriteLockFree → request.FreshIn s →
      AdminStep env r s (.submit request io)
        ((s.setClients (handle env s.clients request io).2).setAdmin r
          ((handle env s.clients request io).1.toAdmin request))
  | findMapping {request : AdminRequest} {id : String} :
      s.admins r = .running request (.findMapping id) →
      AdminStep env r s .findMapping
        (s.setAdmin r ((afterFindMapping s.clients id).toAdmin request))
  | startClient {request : AdminRequest} {id : String} :
      s.admins r = .running request (.startClient id) →
      AdminStep env r s .startClient
        (s.setAdmin r (.running request (.adding (startClientListeners s.clients id) false)))
  | add {request : AdminRequest} {st st' : Starter} {underRead : Bool} {a : AddEvent}
      {s' : Server} :
      s.admins r = .running request (.adding st underRead) → AddStep s st a s' st' →
      AdminStep env r s (.add a) (s'.setAdmin r (.running request (.adding st' underRead)))
  | added {request : AdminRequest} {st : Starter} {underRead : Bool} :
      s.admins r = .running request (.adding st underRead) → st.stage = .idle → st.todo = [] →
      AdminStep env r s .added (s.setAdmin r (.done request .ok))
  /- `sessions.values()` comes in any order. -/
  | collect {request : AdminRequest} {id : String} {arcs : List SessionId} :
      s.admins r = .running request (.removeListener id) →
      arcs.Perm (s.sessions.entries.map fun x => x.2.sessionId) →
      AdminStep env r s .collect (s.setAdmin r (.running request (.removing id arcs)))
  | removeIn {request : AdminRequest} {id : String} {k : SessionId} {arcs : List SessionId}
      {l : LoopId} :
      s.admins r = .running request (.removing id (k :: arcs)) →
      (s.listeners k).lookup id = some l →
      AdminStep env r s .removeIn ((s.removeHandle k id l).setAdmin r (.done request .ok))
  | removeMiss {request : AdminRequest} {id : String} {k : SessionId} {arcs : List SessionId} :
      s.admins r = .running request (.removing id (k :: arcs)) →
      (s.listeners k).lookup id = none →
      AdminStep env r s .removeIn (s.setAdmin r (.running request (.removing id arcs)))
  | removeNowhere {request : AdminRequest} {id : String} :
      s.admins r = .running request (.removing id []) →
      AdminStep env r s .removeIn (s.setAdmin r (.done request .ok))
  | offline {request : AdminRequest} {id : String} :
      s.admins r = .running request (.removeClient id) → s.sessions.lookup id = none →
      AdminStep env r s .findSession (s.setAdmin r (.done request .ok))
  | findSession {request : AdminRequest} {id : String} {info : SessionInfo} :
      s.admins r = .running request (.removeClient id) → s.sessions.lookup id = some info →
      AdminStep env r s .findSession
        (s.setAdmin r (.running request (.draining info.sessionId)))
  | drain {request : AdminRequest} {k : SessionId} :
      s.admins r = .running request (.draining k) →
      AdminStep env r s .drain ((s.drainListeners k).setAdmin r (.done request .ok))

/-! ## The server -/

inductive Event
  | tunnel (k : SessionId) (e : TunnelEvent)
  | loop (l : LoopId) (e : LoopEvent)
  | task (i : Nat) (e : TaskEvent)
  | admin (r : RequestId) (e : AdminEvent)
deriving DecidableEq, Repr

/-- One step of any task. -/
inductive Step (env : Env) : Server → Event → Server → Prop
  | tunnel {s t : Server} {k : SessionId} {e : TunnelEvent} :
      TunnelStep env k s e t → Step env s (.tunnel k e) t
  | loop {s t : Server} {l : LoopId} {e : LoopEvent} :
      LoopStep env l s e t → Step env s (.loop l e) t
  | task {s t : Server} {i : Nat} {e : TaskEvent} : TaskStep i s e t → Step env s (.task i e) t
  | admin {s t : Server} {r : RequestId} {e : AdminEvent} :
      AdminStep env r s e t → Step env s (.admin r e) t

/-- A store whose clients and mappings have distinct ids. -/
structure WellFormed (clients : ClientStore) : Prop where
  clientIds : (clients.list.map (·.id)).Nodup
  mappingIds : ((routes clients.list).map (·.mappingId)).Nodup

/-- The server starts with a well-formed store and no task. -/
def Init (s : Server) : Prop := ∃ clients, WellFormed clients ∧ s = Server.init clients

theorem Init.admins {s : Server} (h : Init s) (r : RequestId) : s.admins r = .idle := by
  obtain ⟨clients, _, rfl⟩ := h
  rfl

/-! ## An example server (used by the runs in the other modules)

One client with one mapping. The digest is that of HMAC-SHA256. -/

def exampleEnv : Env where
  security := { maxClients := 2, maxConnsPerClient := 0 }
  tokenPepper := "pepper"
  sha256HexWithPepper := fun token pepper =>
    if token = "mmk_home" ∧ pepper = "pepper" then
      "24d9de9508c070e8843a0283eba2c159d2b3c00529d5113e2711cdb556a3f037"
    else ""
  isSocketAddr := fun addr => addr = "127.0.0.1:80"

def exampleMapping : PortMapping where
  id := "map_web"
  name := "web"
  remotePort := 9000
  localAddr := "127.0.0.1:80"
  enabled := true
  createdAt := 0

def exampleClient : Client where
  id := "cli_home"
  name := "home"
  tokenHash := exampleEnv.sha256HexWithPepper "mmk_home" "pepper"
  tokenPrefix := "mmk_home"
  enabled := true
  createdAt := 0
  mappings := [exampleMapping]

def exampleStore : ClientStore where
  list := [exampleClient]
  file := { main := some (.doc [exampleClient]), tmp := none }

theorem init_example : Init (Server.init exampleStore) :=
  ⟨exampleStore, ⟨by decide, by decide⟩, rfl⟩

/-- The peer that announces the client's id and token. -/
def examplePeer (addr : String) : Peer where
  announced := "cli_home"
  token := "mmk_home"
  clientId := "cli_home"
  remoteAddr := addr

/-- The handshake of the client is accepted whenever the store is the example's. -/
theorem example_verified {s : Server} {k : SessionId} (addr : String)
    (hclients : s.clients = exampleStore) (hfresh : s.tunnels k = .fresh) :
    Step exampleEnv s (.tunnel k (.handshake "cli_home" "mmk_home" addr))
      (s.setTunnel k (.live (examplePeer addr) .verified)) := by
  have hverify : s.clients.verifyToken exampleEnv.sha256HexWithPepper "mmk_home"
      exampleEnv.tokenPepper = some ("cli_home", true) := by
    rw [hclients]
    decide
  exact .tunnel (.verified hfresh hverify)

/-- The event is no request, no bind that fails and no failure of `accept`. -/
def Event.isQuiet : Event → Bool
  | .tunnel _ (.add (.bindFails _ _ _)) => false
  | .admin _ (.add (.bindFails _ _ _)) => false
  | .admin _ (.submit _ _) => false
  | .loop _ .acceptFails => false
  | _ => true

/-- The loop that the first session of the example starts. -/
def exampleLoop : AcceptLoop := .start "cli_home" exampleMapping 0

/-- The client of the example has connected from `addr` as session `k`, which is about
to start its mappings. -/
def exampleStarting (s : Server) (k : SessionId) (addr : String) : Server :=
  let peer := examplePeer addr
  let registered := ((s.setTunnel k (.live peer .verified)).insertSession k peer).setTunnel k
    (.live peer .registered)
  (registered.setTunnel k (.live peer .connected)).setTunnel k
    (.live peer (.starting (startClientListeners s.clients "cli_home")))

/-- The session is about to bind the port of the mapping. -/
def exampleFound (s : Server) (k : SessionId) (addr : String) : Server :=
  (exampleStarting s k addr).setTunnel k (.live (examplePeer addr) (.starting
    { client := "cli_home", todo := [], stage := .found exampleMapping k }))

/-- The client of the example is served by its first session. -/
def exampleServing : Server :=
  let adding := fun stage => TunnelTask.live (examplePeer "198.51.100.7:5000")
    (.starting { client := "cli_home", todo := [], stage })
  let bound := ((exampleFound (Server.init exampleStore) 0 "198.51.100.7:5000").spawn "cli_home"
    exampleMapping 0).setTunnel 0 (adding (.bound exampleMapping 0 0))
  ((bound.storeHandle 0 "map_web" 0).setTunnel 0 (adding .idle)).setTunnel 0
    (.live (examplePeer "198.51.100.7:5000") .driving)

theorem example_loop {s : Server}
    (h : s.loops = Function.update (fun _ => none) 0 (some exampleLoop)) {l : LoopId}
    {L : AcceptLoop} (hL : s.loops l = some L) : l = 0 ∧ L = exampleLoop := by
  rw [h] at hL
  rcases eq_or_ne l 0 with rfl | hne
  · rw [Function.update_self] at hL
    exact ⟨rfl, (Option.some.inj hL).symm⟩
  · rw [Function.update_of_ne hne] at hL
    cases hL

theorem example_running {s : Server}
    (h : s.loops = Function.update (fun _ => none) 0 (some exampleLoop)) :
    ∀ l L, s.loops l = some L → L.aborted = false := by
  intro l L hL
  rw [(example_loop h hL).2]
  rfl

/-- What the steps of a connecting session keep holds of `exampleFound`. -/
theorem example_found {p : Server → Prop} {s : Server} {k : SessionId} (addr : String)
    (hclients : s.clients = exampleStore) (hfresh : s.tunnels k = .fresh)
    (hroom : s.sessions.entries.length < 2) (hloops : ∀ l L, s.loops l = some L → L.aborted = false)
    (h : p s) (keep : ∀ {s t e}, p s → Step exampleEnv s (.tunnel k e) t →
      (Event.tunnel k e).isQuiet = true → (∀ l L, t.loops l = some L → L.aborted = false) → p t) :
    p (exampleFound s k addr) := by
  have hstage : ∀ (s : Server) (x : TunnelTask), (s.setTunnel k x).tunnels k = x :=
    fun s x => Function.update_self ..
  have registered := keep (keep h (example_verified addr hclients hfresh) rfl hloops)
    (.tunnel (.admitted (hstage ..) hroom)) rfl hloops
  have starting : p (exampleStarting s k addr) :=
    keep (keep registered (.tunnel (.statusOk (hstage ..))) rfl hloops)
      (.tunnel (.startListeners (hstage ..))) rfl hloops
  have htodo : (startClientListeners s.clients "cli_home").todo = [exampleMapping] := by
    rw [hclients]
    decide
  have hsession : (exampleStarting s k addr).sessions.lookup "cli_home" =
      some ⟨"cli_home", k, addr⟩ := AList.lookup_insert _
  exact keep (e := .add .found) starting
    (.tunnel (.add (hstage ..) (.found rfl htodo hsession))) rfl hloops

/-- What the steps of the first session keep holds of `exampleServing`. -/
theorem example_serving {p : Server → Prop} (h₀ : p (Server.init exampleStore))
    (keep : ∀ {s t e}, p s → Step exampleEnv s (.tunnel 0 e) t →
      (Event.tunnel 0 e).isQuiet = true → (∀ l L, t.loops l = some L → L.aborted = false) → p t) :
    p exampleServing := by
  have found := example_found (s := Server.init exampleStore) (k := 0) "198.51.100.7:5000" rfl rfl
    (by decide) nofun h₀ keep
  have hfree : (exampleFound (Server.init exampleStore) 0 "198.51.100.7:5000").PortFree 9000 :=
    fun l L hL => by cases hL
  have bound := keep found (.tunnel (.add (k := 0) rfl (.bound rfl hfree))) rfl
    (example_running rfl)
  exact keep (keep bound (.tunnel (.add (k := 0) rfl (.stored rfl))) rfl (example_running rfl))
    (.tunnel (.drive (k := 0) rfl rfl rfl)) rfl (example_running rfl)

/-- The first session of the example server has ended; its loop is left. -/
def exampleLeft : Server :=
  let peer := examplePeer "198.51.100.7:5000"
  let ending := exampleServing.setTunnel 0 (.live peer .ending)
  ((ending.cleanup 0 peer).setTunnel 0 (.live peer .cleaned)).exit 0 (.driven peer)

/-- What the steps of the first session keep holds of `exampleLeft`. -/
theorem example_left {p : Server → Prop} (serving : p exampleServing)
    (keep : ∀ {s t e}, p s → Step exampleEnv s (.tunnel 0 e) t →
      (Event.tunnel 0 e).isQuiet = true → p t) : p exampleLeft := by
  have cleaned := keep (keep serving (.tunnel (.sessionEnds (k := 0) rfl)) rfl)
    (.tunnel (.cleanup (k := 0) rfl)) rfl
  exact keep cleaned (.tunnel (.returns (k := 0) rfl)) rfl

theorem reachable_serving : Reachable (Step exampleEnv) Init exampleServing :=
  example_serving (.init init_example) fun hr hs _ _ => hr.step hs

/-- No handler of the example reads the store. -/
theorem serving_lock : exampleServing.WriteLockFree := by
  intro r request st heq
  cases heq

end MiniMask.Tunnel
