import MiniMask.Client.Backoff
import MiniMask.Lib.Pipe
import MiniMask.Lib.Series
import MiniMask.Tunnel.Server

/-!
# The window of the client (`gui.rs`, `App`; `client.rs`, `EventSink`, `run_supervised`)

The window and the clients it starts: each start makes a runtime with a task in
`run_supervised` and a channel for its events, and the window takes the events out of the
channel of the client that it has. A client that was stopped goes on for a while with nobody
to listen.

* `badge_exact`: a window that has taken all events shows the state in which the client is,
  how often it has reconnected, and the settings it runs with; and the client goes on.
* `log_exact`: the log has the last lines since it was cleared, and those of each client are
  what it sent, in order and without a gap, up to some point.

Drawing, fonts and the file with the settings are left out.
-/

namespace MiniMask.Gui

open Lts Series
open Supervisor (Stage initialBackoff)
open Tunnel (trim)

/-! ## Events -/

inductive LogLevel
  | info
  | warn
  | error
deriving DecidableEq, Repr

inductive ConnState
  | connecting
  | connected
  | reconnecting
deriving DecidableEq, Repr

inductive ClientEvent
  | log (level : LogLevel) (message : String)
  | state (s : ConnState)
deriving DecidableEq, Repr

structure ClientArgs where
  server : String
  id : String
  token : String
  tls : Bool
  serverName : String
  caPath : String
  insecureSkipVerify : Bool
deriving DecidableEq, Repr

/-- Why `run_once` failed: the text of the error, and whether it is one of writing the
handshake or of reading the answer. -/
structure Failure where
  text : String
  inHandshake : Bool
deriving DecidableEq, Repr

section Events

variable (args : ClientArgs) (showDuration : Nat → String)

def info (message : String) : ClientEvent := .log .info message

def warn (message : String) : ClientEvent := .log .warn message

def error (message : String) : ClientEvent := .log .error message

/-- The first line of `run_supervised`. -/
def greeting : ClientEvent :=
  info ("客户端启动，连接到 " ++ args.server ++ " (TLS=" ++ toString args.tls ++ ") 身份 " ++ args.id)

/-- What `run_once` reports when it comes to a stage. -/
def arrival : Stage → List ClientEvent
  | .tcp => [info ("正在连接 " ++ args.server ++ " ...")]
  | .tls =>
    info ("开始 TLS 握手 (server_name=" ++ args.serverName ++ ")") ::
      if args.insecureSkipVerify then
        [warn "已禁用 TLS 证书校验（--insecure-skip-verify），仅用于本地调试"]
      else []
  | .handshake => [info "传输通道就绪", info ("发送握手 (id=" ++ args.id ++ ")")]
  | .session => [info "认证成功，隧道已建立", .state .connected]

/-- What `run_once` reports when it leaves a stage for the next one. -/
def departure : Stage → List ClientEvent
  | .tcp => [info ("TCP 已连接到 " ++ args.server)]
  | _ => []

/-- The hints before the error of a failed handshake. -/
def hints (stage : Stage) (failure : Failure) : List ClientEvent :=
  if stage = .handshake ∧ failure.inHandshake = true ∧ args.tls = false then
    [warn "服务端在握手后立即关闭了连接",
      warn "提示：服务端可能要求 TLS，请尝试勾选「启用 TLS」"]
  else []

/-- What a step of `run_supervised` sends. -/
def emits (s : Supervisor.State) (failure : Failure) : Supervisor.Event → List ClientEvent
  | .cancel => []
  | .stop =>
    match s.phase with
    | .attempting _ => [info "收到停止信号，正在断开"]
    | _ => [info "已停止"]
  | .connect => .state .connecting :: arrival args .tcp
  | .advance stage => departure args stage ++ arrival args (stage.next args.tls)
  | .fail stage =>
    hints args stage failure ++
      [error ("隧道错误：" ++ failure.text ++ "；" ++ showDuration s.backoff ++ " 后重连")]
  | .close => [warn ("隧道已关闭，" ++ showDuration s.backoff ++ " 后重连")]
  | .sleep => [.state .reconnecting]
  | .wake => []

end Events

/-! ## The window -/

structure Settings where
  server : String
  id : String
  token : String
  tls : Bool
  serverName : String
  caPath : String
  insecureSkipVerify : Bool
  darkMode : Bool
deriving DecidableEq, Repr

def Settings.default : Settings where
  server := "127.0.0.1:7443"
  id := ""
  token := ""
  tls := true
  serverName := "localhost"
  caPath := "./data/ca.pem"
  insecureSkipVerify := false
  darkMode := true

/-- The arguments that `start` makes of the settings. -/
def Settings.args (settings : Settings) : ClientArgs where
  server := trim settings.server
  id := trim settings.id
  token := trim settings.token
  tls := settings.tls
  serverName := trim settings.serverName
  caPath := trim settings.caPath
  insecureSkipVerify := settings.insecureSkipVerify

def Settings.validate (settings : Settings) : Except String Unit :=
  if trim settings.server = "" then .error "请填写服务器地址"
  else if settings.server.toList.contains ':' = false then
    .error "服务器地址需包含端口，如 127.0.0.1:7443"
  else if trim settings.id = "" then .error "请填写客户端 ID"
  else if trim settings.token = "" then .error "请填写 Token"
  else .ok ()

/-- `MAX_LOG_LINES`. -/
@[irreducible] def maxLogLines : Nat := 2000

structure LogLine where
  level : LogLevel
  time : String
  message : String
deriving DecidableEq, Repr

/-- A client that the window has started. -/
abbrev RunId := Nat

structure App where
  settings : Settings
  state : Option ConnState
  running : Option RunId
  logs : List LogLine
  reconnects : Nat
deriving DecidableEq, Repr

def App.new (settings : Settings) : App where
  settings := settings
  state := none
  running := none
  logs := []
  reconnects := 0

def App.pushLog (app : App) (line : LogLine) : App :=
  let logs := if maxLogLines ≤ app.logs.length then app.logs.drop 1 else app.logs
  { app with logs := logs ++ [line] }

/-- What `pump_events` does with an event at the time `time`. -/
def App.pump (app : App) (time : String) : ClientEvent → App
  | .log level message => app.pushLog { level, time, message }
  | .state s =>
    let app := if s = .reconnecting then
        { app with reconnects := (app.reconnects + 1) % 2 ^ 32 }
      else app
    { app with state := some s }

/-! ## The window and its clients -/

/-- A task in `run_supervised`; `begun` once it has run at all. -/
structure Client where
  args : ClientArgs
  sup : Supervisor.State
  begun : Bool
deriving DecidableEq, Repr

def Client.start (args : ClientArgs) : Client := { args, sup := Supervisor.init, begun := false }

/-- `cancel.cancel()`. -/
def Client.cancel (c : Client) : Client := { c with sup := { c.sup with cancelled := true } }

/-- The window, the clients whose runtime is there, and the channels of all clients. `closed`
once the window is. `lines` has all lines that were ever in the log, with the client that sent
them, and `cleared` the number of them when the log was cleared; the code does not keep
them. -/
structure State where
  app : App
  clients : RunId → Option Client
  channels : RunId → Pipe ClientEvent
  next : RunId
  closed : Bool
  lines : List (Option RunId × LogLine)
  cleared : Nat

namespace State

def init (settings : Settings) : State where
  app := .new settings
  clients := fun _ => none
  channels := fun _ => .empty
  next := 0
  closed := false
  lines := []
  cleared := 0

/-- A line of the window's own. -/
def pushLog (s : State) (line : LogLine) : State :=
  { s with app := s.app.pushLog line, lines := s.lines ++ [(none, line)] }

/-- `start`, once the runtime is there. -/
def start (s : State) : State :=
  { s with
    app := { s.app with reconnects := 0, running := some s.next, state := some .connecting }
    clients := Function.update s.clients s.next (some (.start s.app.settings.args))
    next := s.next + 1 }

def cancel (s : State) (k : RunId) : State :=
  { s with clients := Function.update s.clients k ((s.clients k).map Client.cancel) }

/-- `stop`. -/
def stop (s : State) (k : RunId) : State :=
  { s.cancel k with app := { s.app with running := none, state := none } }

/-- The line that an event becomes. -/
def lineOf (k : RunId) (time : String) : ClientEvent → List (Option RunId × LogLine)
  | .log level message => [(some k, { level, time, message })]
  | .state _ => []

/-- One event of `pump_events`. -/
def take (s : State) (k : RunId) (time : String) (event : ClientEvent) : State :=
  { s with
    app := s.app.pump time event
    channels := Function.update s.channels k ((s.channels k).receive 1)
    lines := s.lines ++ lineOf k time event }

/-- The client `k` has become `c`, and has sent `events`. -/
def send (s : State) (k : RunId) (c : Client) (events : List ClientEvent) : State :=
  { s with
    clients := Function.update s.clients k (some c)
    channels := Function.update s.channels k ((s.channels k).send events) }

end State

inductive Event
  | edit (settings : Settings)
  | startRefused (time : String)
  | startFails (time message : String)
  | start
  | stop (time : String)
  | take (time : String)
  | clear
  | save (time : String)
  | exit
  | begins (k : RunId)
  | client (k : RunId) (e : Supervisor.Event) (failure : Failure)
  | reports (k : RunId) (level : LogLevel) (message : String)
  | dropped (k : RunId)
deriving DecidableEq, Repr

/-- One step of the window or of a client. `pump_events` takes all events that are there; each
is a step here. -/
inductive Step (showDuration : Nat → String) (s : State) : Event → State → Prop
  /- All fields but the theme are disabled while a client is running. -/
  | edit {settings : Settings} :
      s.closed = false →
      s.app.running = none ∨ settings = { s.app.settings with darkMode := settings.darkMode } →
      Step showDuration s (.edit settings) { s with app := { s.app with settings } }
  | startRefused {time message : String} :
      s.closed = false → s.app.running = none → s.app.settings.validate = .error message →
      Step showDuration s (.startRefused time) (s.pushLog { level := .error, time, message })
  | startFails {time message : String} :
      s.closed = false → s.app.running = none → s.app.settings.validate = .ok () →
      Step showDuration s (.startFails time message)
        ({ s with app := { s.app with reconnects := 0 } }.pushLog
          { level := .error, time, message := "无法创建运行时：" ++ message })
  | start :
      s.closed = false → s.app.running = none → s.app.settings.validate = .ok () →
      Step showDuration s .start s.start
  | stop {k : RunId} {time : String} :
      s.closed = false → s.app.running = some k →
      Step showDuration s (.stop time)
        ((s.stop k).pushLog { level := .info, time, message := "已断开连接" })
  | take {k : RunId} {time : String} {event : ClientEvent} {rest : List ClientEvent} :
      s.closed = false → s.app.running = some k → (s.channels k).inFlight = event :: rest →
      Step showDuration s (.take time) (s.take k time event)
  | clear :
      s.closed = false →
      Step showDuration s .clear
        { s with app := { s.app with logs := [] }, cleared := s.lines.length }
  | save {time : String} :
      s.closed = false →
      Step showDuration s (.save time) (s.pushLog { level := .info, time, message := "配置已保存" })
  | exit {t : State} :
      s.closed = false →
      (t = match s.app.running with | some k => s.cancel k | none => s) →
      Step showDuration s .exit { t with closed := true }
  | begins {k : RunId} {c : Client} :
      s.clients k = some c → c.begun = false →
      Step showDuration s (.begins k) (s.send k { c with begun := true } [greeting c.args])
  | client {k : RunId} {c : Client} {e : Supervisor.Event} {sup : Supervisor.State}
      {failure : Failure} :
      s.clients k = some c → c.begun = true → e ≠ .cancel →
      Supervisor.Step c.args.tls c.sup e sup →
      Step showDuration s (.client k e failure)
        (s.send k { c with sup } (emits c.args showDuration c.sup failure e))
  /- `run_once` waits for the answer to its handshake, or a stream of the session has
  something to report, possibly after the session. -/
  | reports {k : RunId} {c : Client} {level : LogLevel} {message : String} :
      s.clients k = some c → c.begun = true →
      Step showDuration s (.reports k level message) (s.send k c [.log level message])
  /- The runtime of a client that was stopped is shut down. -/
  | dropped {k : RunId} :
      s.app.running ≠ some k ∨ s.closed = true →
      Step showDuration s (.dropped k) { s with clients := Function.update s.clients k none }

def Init (s : State) : Prop := ∃ settings, s = State.init settings

/-! ## What is shown -/

/-- The states that the events tell, one after the other. -/
def states (events : List ClientEvent) : List ConnState :=
  events.filterMap fun event =>
    match event with
    | .state s => some s
    | .log _ _ => none

/-- The last state that the events tell, after the one that `start` shows. -/
def lastState (events : List ClientEvent) : ConnState := (states events).getLastD .connecting

/-- How many of the events are reconnects. -/
def reconnects (events : List ClientEvent) : Nat := (states events).count .reconnecting

/-- What there is to tell about where `run_supervised` is. -/
def badge (s : Supervisor.State) : ConnState :=
  match s.phase with
  | .attempting .session | .attempted .closed => .connected
  | .sleeping _ => .reconnecting
  | .checking => if s.attempts = [] then .connecting else .reconnecting
  | _ => .connecting

/-- The lines that are from `k`. -/
def linesOf (k : RunId) (lines : List (Option RunId × LogLine)) : List (LogLevel × String) :=
  lines.filterMap fun x => if x.1 = some k then some (x.2.level, x.2.message) else none

/-- The log lines among the events. -/
def logged (events : List ClientEvent) : List (LogLevel × String) :=
  events.filterMap fun event =>
    match event with
    | .log level message => some (level, message)
    | .state _ => none

/-- A client that was not cancelled goes on, and has told where it is. -/
structure Client.Told (c : Client) (sent : List ClientEvent) : Prop where
  goes_on : c.sup.phase ≠ .returned
  slept : ∀ o, c.sup.phase = .sleeping o → c.sup.attempts ≠ []
  badge : lastState sent = badge c.sup
  reconnects : reconnects sent = c.sup.attempts.length

/-- What the window shows of the client that it has. -/
structure Shown (app : App) (received : List ClientEvent) : Prop where
  state : app.state = some (lastState received)
  reconnects : app.reconnects = Gui.reconnects received % 2 ^ 32

/-- The window has a client that goes on, with the settings that it shows. -/
structure Current (s : State) (k : RunId) : Prop where
  client : ∃ c, s.clients k = some c ∧ c.sup.cancelled = false ∧ c.args = s.app.settings.args
  bound : k < s.next

structure Sound (s : State) : Prop where
  fresh : ∀ k, s.next ≤ k → s.clients k = none ∧ s.channels k = .empty
  told : ∀ k c, s.clients k = some c → c.sup.cancelled = false → c.Told (s.channels k).sent
  current : s.closed = false → ∀ k, s.app.running = some k → Current s k
  shown : ∀ k, s.app.running = some k → Shown s.app (s.channels k).received
  logs : s.app.logs = ((s.lines.drop s.cleared).map (·.2)).rtake maxLogLines
  cleared : s.cleared ≤ s.lines.length
  lines : ∀ k, linesOf k s.lines = logged (s.channels k).received

section Gui

variable {showDuration : Nat → String} {s t : State} {e : Event} {k : RunId}

theorem pushLog_logs {app : App} {line : LogLine} {all : List LogLine}
    (h : app.logs = all.rtake maxLogLines) :
    (app.pushLog line).logs = (all ++ [line]).rtake maxLogLines := by
  have hlength : app.logs.length ≤ maxLogLines := by
    rw [h, length_rtake]
    exact Nat.min_le_right _ _
  rw [← rtake_rtake_concat, ← h, App.pushLog]
  dsimp only
  unfold List.rtake
  rw [List.length_append, List.length_singleton]
  split
  -- Full: the oldest line goes, and the drain is of exactly one.
  · next hfull =>
    have hcap : app.logs.length = maxLogLines := le_antisymm hlength hfull
    have hpos : 1 ≤ app.logs.length := by
      rw [hcap, maxLogLines]
      exact Nat.le_add_left 1 1999
    rw [hcap, Nat.add_sub_cancel_left, List.drop_append_of_le_length hpos]
  · next hroom => rw [Nat.sub_eq_zero_of_le (by omega), List.drop_zero]

/-! ## What the clients tell -/

theorem states_append (events more : List ClientEvent) :
    states (events ++ more) = states events ++ states more :=
  List.filterMap_append

/-- The state that a step of the loop tells. -/
theorem states_emits {args : ClientArgs} {sup : Supervisor.State} {failure : Failure}
    (e : Supervisor.Event) :
    states (emits args showDuration sup failure e) =
      match e with
      | .connect => [.connecting]
      | .advance stage => if stage.next args.tls = .session then [.connected] else []
      | .sleep => [.reconnecting]
      | _ => [] := by
  cases e with
  | cancel | close | sleep | wake | connect => rfl
  | stop =>
    rw [emits]
    split <;> rfl
  | advance stage =>
    have hdeparture : states (departure args stage) = [] := by cases stage <;> rfl
    have harrival : ∀ next, states (arrival args next) =
        if next = .session then [.connected] else [] := by
      intro next
      cases next with
      | tls =>
        rw [arrival]
        split <;> rfl
      | tcp | handshake | session => rfl
    rw [emits, states_append, hdeparture, List.nil_append, harrival]
  | fail stage =>
    have hhints : states (hints args stage failure) = [] := by
      rw [hints]
      split <;> rfl
    rw [emits, states_append, hhints]
    rfl

theorem lastState_concat {events more : List ClientEvent} {shown : ConnState}
    (h : states more = [shown]) : lastState (events ++ more) = shown := by
  rw [lastState, states_append, h, List.getLastD_concat]

theorem lastState_silent {events more : List ClientEvent} (h : states more = []) :
    lastState (events ++ more) = lastState events := by
  rw [lastState, states_append, h, List.append_nil, lastState]

theorem reconnects_append (events more : List ClientEvent) :
    reconnects (events ++ more) = reconnects events + (states more).count .reconnecting := by
  rw [reconnects, states_append, List.count_append, reconnects]

/-- Lines alone leave what was told as it is. -/
theorem Client.Told.silent {c c' : Client} {sent events : List ClientEvent} (h : c.Told sent)
    (hsup : c'.sup = c.sup) (hsilent : states events = []) : c'.Told (sent ++ events) := by
  obtain ⟨hphase, hslept, hbadge, hreconnects⟩ := h
  rw [← hsup] at hphase hslept hbadge hreconnects
  refine ⟨hphase, hslept, (lastState_silent hsilent).trans hbadge, ?_⟩
  rw [reconnects_append, hsilent]
  exact hreconnects

theorem badge_attempting {sup : Supervisor.State} {stage : Stage}
    (h : sup.phase = .attempting stage) :
    badge sup = if stage = .session then .connected else .connecting := by
  rw [badge, h]
  cases stage <;> rfl

/-- A step of the loop tells the state that it leads to. -/
theorem told_step {c : Client} {sup : Supervisor.State} {e' : Supervisor.Event}
    {failure : Failure} {sent : List ClientEvent} (h : c.Told sent)
    (hs : Supervisor.Step c.args.tls c.sup e' sup) (hcancel : e' ≠ .cancel)
    (hgoes : sup.cancelled = false) :
    Client.Told { c with sup } (sent ++ emits c.args showDuration c.sup failure e') := by
  have hstates : states (emits c.args showDuration c.sup failure e') = _ := states_emits e'
  have hcount := reconnects_append sent (emits c.args showDuration c.sup failure e')
  have hbadge := h.badge
  rw [hstates, h.reconnects] at hcount
  cases hs with
  | cancel => exact absurd rfl hcancel
  | stop hcancelled =>
    cases hcancelled.symm.trans hgoes
  | connect hphase _ =>
    exact ⟨nofun, nofun, lastState_concat hstates, hcount⟩
  | @advance stage hphase hnot =>
    rw [badge_attempting hphase, if_neg hnot] at hbadge
    dsimp only at hstates hcount
    -- Only the step into the session tells a state.
    rcases eq_or_ne (stage.next c.args.tls) .session with hup | hdown
    · rw [if_pos hup] at hstates hcount
      exact ⟨nofun, nofun,
        (lastState_concat hstates).trans ((badge_attempting rfl).trans (if_pos hup)).symm, hcount⟩
    · rw [if_neg hdown] at hstates hcount
      exact ⟨nofun, nofun, (lastState_silent hstates).trans
        (hbadge.trans ((badge_attempting rfl).trans (if_neg hdown)).symm), hcount⟩
  -- Before the session the badge is already the one of an attempt that ended.
  | @fail stage hphase hnot =>
    rw [badge_attempting hphase, if_neg hnot] at hbadge
    exact ⟨nofun, nofun, (lastState_silent hstates).trans hbadge, hcount⟩
  | close hphase =>
    refine ⟨nofun, nofun, (lastState_silent hstates).trans ?_, hcount⟩
    rw [hbadge, badge, hphase]
    rfl
  | @sleep o hphase _ =>
    refine ⟨nofun, fun _ _ => List.append_ne_nil_of_right_ne_nil _ (List.cons_ne_nil _ _),
      lastState_concat hstates, ?_⟩
    rw [hcount, List.length_append]
    rfl
  -- Awake again, but not yet dialing: the badge of the pause stays.
  | @wake o hphase =>
    refine ⟨nofun, nofun, (lastState_silent hstates).trans ?_, hcount⟩
    rw [hbadge, badge, hphase]
    exact (if_neg (h.slept o hphase)).symm

/-! ## Steps -/

theorem linesOf_append (k : RunId) (lines more : List (Option RunId × LogLine)) :
    linesOf k (lines ++ more) = linesOf k lines ++ linesOf k more :=
  List.filterMap_append

theorem logged_append (events more : List ClientEvent) :
    logged (events ++ more) = logged events ++ logged more :=
  List.filterMap_append

/-- A line more in the log. -/
theorem logs_snoc {app : App} {x : Option RunId × LogLine} (h : Sound s)
    (happ : app.logs = s.app.logs) :
    (app.pushLog x.2).logs = (((s.lines ++ [x]).drop s.cleared).map (·.2)).rtake maxLogLines := by
  rw [List.drop_append_of_le_length h.cleared, List.map_append]
  exact pushLog_logs (happ.trans h.logs)

theorem Shown.of_eq {app app' : App} {received : List ClientEvent} (h : Shown app received)
    (hstate : app'.state = app.state) (hreconnects : app'.reconnects = app.reconnects) :
    Shown app' received :=
  ⟨hstate.trans h.state, hreconnects.trans h.reconnects⟩

theorem sound_pushLog (h : Sound s) (line : LogLine) : Sound (s.pushLog line) := by
  refine ⟨h.fresh, h.told, fun hopen k hk => ?_, fun k hk => ?_, ?_, ?_, fun k => ?_⟩
  · obtain ⟨hclient, hbound⟩ := h.current hopen k hk
    exact ⟨hclient, hbound⟩
  · exact (h.shown k hk).of_eq rfl rfl
  · exact logs_snoc (x := (none, line)) h rfl
  · rw [State.pushLog, List.length_append]
    exact h.cleared.trans (Nat.le_add_right _ _)
  · rw [State.pushLog, linesOf_append, h.lines k]
    exact List.append_nil _

theorem bound_of_client {c : Client} (h : Sound s) (hc : s.clients k = some c) : k < s.next := by
  by_contra hge
  cases hc.symm.trans (h.fresh k (Nat.le_of_not_lt hge)).1

/-- What a client does and sends leaves the window as it is. -/
theorem sound_send {c c' : Client} {events : List ClientEvent} (h : Sound s)
    (hc : s.clients k = some c) (hargs : c'.args = c.args)
    (hcancelled : c'.sup.cancelled = c.sup.cancelled)
    (htold : c'.sup.cancelled = false → c'.Told ((s.channels k).sent ++ events)) :
    Sound (s.send k c' events) := by
  have hbound := bound_of_client h hc
  have hreceived : ∀ i, ((s.send k c' events).channels i).received = (s.channels i).received := by
    intro i
    rcases eq_or_ne i k with rfl | hne
    · simp [State.send]
    · simp [State.send, hne]
  refine ⟨fun i hi => ?_, fun i d hd hgoes => ?_, fun hopen i hi => ?_, fun i hi => ?_, h.logs,
    h.cleared, fun i => ?_⟩
  · have hne : i ≠ k := fun heq => absurd hbound (Nat.not_lt.mpr (heq ▸ hi))
    simp only [State.send, Function.update_of_ne hne]
    exact h.fresh i hi
  · rcases eq_or_ne i k with rfl | hne
    · simp only [State.send, Function.update_self, Option.some.injEq] at hd ⊢
      subst hd
      exact htold hgoes
    · simp only [State.send, Function.update_of_ne hne] at hd ⊢
      exact h.told i d hd hgoes
  · obtain ⟨⟨d, hd, hgoes, hsettings⟩, hlt⟩ := h.current hopen i hi
    refine ⟨?_, hlt⟩
    rcases eq_or_ne i k with rfl | hne
    -- The client that was started: its settings are still the ones on the window.
    · cases hc.symm.trans hd
      exact ⟨c', Function.update_self .., hcancelled.trans hgoes, hargs.trans hsettings⟩
    · exact ⟨d, (Function.update_of_ne hne ..).trans hd, hgoes, hsettings⟩
  · rw [hreceived]
    exact h.shown i hi
  · rw [hreceived]
    exact h.lines i

theorem clients_cancel {i : RunId} {c : Client} (hc : (s.cancel k).clients i = some c)
    (hgoes : c.sup.cancelled = false) : s.clients i = some c := by
  rcases eq_or_ne i k with rfl | hne
  · simp only [State.cancel, Function.update_self] at hc
    obtain ⟨d, -, rfl⟩ := Option.map_eq_some_iff.mp hc
    cases hgoes
  · simpa only [State.cancel, Function.update_of_ne hne] using hc

theorem fresh_cancel (h : Sound s) (i : RunId) (hi : s.next ≤ i) :
    (s.cancel k).clients i = none ∧ s.channels i = .empty := by
  obtain ⟨hclient, hchannel⟩ := h.fresh i hi
  refine ⟨?_, hchannel⟩
  rcases eq_or_ne i k with rfl | hne
  · simp only [State.cancel, Function.update_self, hclient, Option.map_none]
  · simpa only [State.cancel, Function.update_of_ne hne] using hclient

theorem sound_stop (h : Sound s) : Sound (s.stop k) :=
  ⟨fun i hi => fresh_cancel h i hi, fun i c hc hgoes => h.told i c (clients_cancel hc hgoes) hgoes,
    nofun, nofun, h.logs, h.cleared, h.lines⟩

theorem sound_exit (h : Sound s) : Sound { s.cancel k with closed := true } :=
  ⟨fun i hi => fresh_cancel h i hi, fun i c hc hgoes => h.told i c (clients_cancel hc hgoes) hgoes,
    nofun, h.shown, h.logs, h.cleared, h.lines⟩

theorem sound_start (h : Sound s) : Sound s.start := by
  have hempty := (h.fresh s.next le_rfl).2
  refine ⟨fun i hi => ?_, fun i c hc hgoes => ?_, fun _ i hi => ?_, fun i hi => ?_, h.logs,
    h.cleared, h.lines⟩
  · have hlt : s.next < i := hi
    simp only [State.start, Function.update_of_ne hlt.ne']
    exact h.fresh i hlt.le
  · rcases eq_or_ne i s.next with rfl | hne
    · simp only [State.start, Function.update_self, Option.some.injEq] at hc ⊢
      subst hc
      rw [hempty]
      exact ⟨nofun, nofun, rfl, rfl⟩
    · simp only [State.start, Function.update_of_ne hne] at hc
      exact h.told i c hc hgoes
  · cases hi
    exact ⟨⟨_, Function.update_self .., rfl, rfl⟩, Nat.lt_succ_self _⟩
  · cases hi
    show Shown _ (s.channels s.next).received
    rw [hempty]
    exact ⟨rfl, rfl⟩

/-- What an event changes of what is shown. -/
theorem shown_pump {app : App} {time : String} {event : ClientEvent}
    {received : List ClientEvent} (h : Shown app received) :
    Shown (app.pump time event) (received ++ [event]) := by
  cases event with
  | log level message =>
    have hsilent : states [.log level message] = [] := rfl
    refine ⟨?_, ?_⟩
    · rw [lastState_silent hsilent]
      exact h.state
    · rw [reconnects_append, hsilent]
      exact h.reconnects
  | state shown =>
    have htold : states [.state shown] = [shown] := rfl
    refine ⟨?_, ?_⟩
    · rw [lastState_concat htold]
      rfl
    · rw [reconnects_append, htold, App.pump]
      dsimp only
      split
      · next heq =>
        rw [heq, h.reconnects, Nat.mod_add_mod]
        rfl
      · next hne =>
        rw [List.count_singleton, if_neg (by simpa using hne), h.reconnects, Nat.add_zero]

theorem pump_running (app : App) (time : String) (event : ClientEvent) :
    (app.pump time event).running = app.running ∧
      (app.pump time event).settings = app.settings := by
  cases event with
  | log level message => exact ⟨rfl, rfl⟩
  | state shown =>
    rw [App.pump]
    dsimp only
    split <;> exact ⟨rfl, rfl⟩

theorem sound_take {time : String} {event : ClientEvent} {rest : List ClientEvent} (h : Sound s)
    (hk : s.app.running = some k) (hnext : (s.channels k).inFlight = event :: rest) :
    Sound (s.take k time event) := by
  have hbound : k < s.next := by
    by_contra hge
    rw [(h.fresh k (Nat.le_of_not_lt hge)).2] at hnext
    cases hnext
  have htaken : ((s.take k time event).channels k).received =
      (s.channels k).received ++ [event] := by
    simp [State.take, hnext]
  have hother : ∀ i, i ≠ k → (s.take k time event).channels i = s.channels i := fun i hne => by
    simp [State.take, hne]
  have hsent : ∀ i, ((s.take k time event).channels i).sent = (s.channels i).sent := fun i => by
    rcases eq_or_ne i k with rfl | hne
    · simp [State.take]
    · rw [hother i hne]
  obtain ⟨hrunning, hsettings⟩ := pump_running s.app time event
  refine ⟨fun i hi => ?_, fun i c hc hgoes => ?_, fun hopen i hi => ?_, fun i hi => ?_, ?_, ?_,
    fun i => ?_⟩
  · have hne : i ≠ k := fun heq => absurd hbound (Nat.not_lt.mpr (heq ▸ hi))
    rw [hother i hne]
    exact h.fresh i hi
  · rw [hsent]
    exact h.told i c hc hgoes
  · obtain ⟨⟨c, hc, hgoes, hargs⟩, hlt⟩ := h.current hopen i (hrunning ▸ hi)
    exact ⟨⟨c, hc, hgoes, hargs.trans (congrArg Settings.args hsettings.symm)⟩, hlt⟩
  -- An event of the channel is an event of the client that runs: no other is polled.
  · cases hk.symm.trans (hrunning.symm.trans hi)
    rw [htaken]
    exact shown_pump (h.shown k hk)
  · cases event with
    | log level message => exact logs_snoc (x := (some k, ⟨level, time, message⟩)) h rfl
    | state shown =>
      have hlogs : (s.take k time (.state shown)).app.logs = s.app.logs := by
        rw [State.take, App.pump]
        dsimp only
        split <;> rfl
      rw [hlogs, h.logs, State.take, State.lineOf, List.append_nil]
  · rw [State.take, List.length_append]
    exact h.cleared.trans (Nat.le_add_right _ _)
  · have hlines : (s.take k time event).lines = s.lines ++ State.lineOf k time event := rfl
    rw [hlines, linesOf_append, h.lines i]
    rcases eq_or_ne i k with rfl | hne
    · rw [htaken, logged_append]
      cases event <;> simp [State.lineOf, linesOf, logged]
    · rw [hother i hne]
      cases event <;> simp [State.lineOf, linesOf, hne.symm]

theorem sound_init (h : Init s) : Sound s := by
  obtain ⟨settings, rfl⟩ := h
  exact ⟨fun _ _ => ⟨rfl, rfl⟩, nofun, nofun, nofun, (List.rtake_nil _).symm, le_rfl,
    fun _ => rfl⟩

theorem cancelled_of_step {useTls : Bool} {sup sup' : Supervisor.State} {e' : Supervisor.Event}
    (hs : Supervisor.Step useTls sup e' sup') (hcancel : e' ≠ .cancel) :
    sup'.cancelled = sup.cancelled := by
  cases hs with
  | cancel => exact absurd rfl hcancel
  | stop _ | connect _ _ | advance _ _ | fail _ _ | close _ | sleep _ _ | wake _ => rfl

theorem sound_step (h : Sound s) (hs : Step showDuration s e t) : Sound t := by
  cases hs with
  | @edit settings hopen hfree =>
    refine ⟨h.fresh, h.told, fun hopen k hk => ?_, fun k hk => (h.shown k hk).of_eq rfl rfl,
      h.logs, h.cleared, h.lines⟩
    rcases hfree with hnone | hsame
    · cases hnone.symm.trans hk
    · obtain ⟨⟨c, hc, hgoes, hargs⟩, hlt⟩ := h.current hopen k hk
      refine ⟨⟨c, hc, hgoes, hargs.trans ?_⟩, hlt⟩
      rw [hsame]
      rfl
  | startRefused _ _ _ => exact sound_pushLog h _
  | @startFails time message hopen hnone _ =>
    have hreset : Sound { s with app := { s.app with reconnects := 0 } } :=
      ⟨h.fresh, h.told, fun hopen k hk => (nomatch hnone.symm.trans hk),
        fun k hk => (nomatch hnone.symm.trans hk), h.logs, h.cleared, h.lines⟩
    exact sound_pushLog hreset _
  | start _ _ _ => exact sound_start h
  | stop _ _ => exact sound_pushLog (sound_stop h) _
  | take _ hk hnext => exact sound_take h hk hnext
  | clear _ =>
    refine ⟨h.fresh, h.told, fun hopen k hk => ?_, fun k hk => (h.shown k hk).of_eq rfl rfl,
      ?_, le_rfl, h.lines⟩
    · obtain ⟨hclient, hbound⟩ := h.current hopen k hk
      exact ⟨hclient, hbound⟩
    · rw [List.drop_length]
      exact (List.rtake_nil _).symm
  | save _ => exact sound_pushLog h _
  | exit _ heq =>
    subst heq
    split
    · exact sound_exit h
    · exact ⟨h.fresh, h.told, nofun, h.shown, h.logs, h.cleared, h.lines⟩
  | @begins k c hc hbegun =>
    exact sound_send h hc rfl rfl fun hgoes => (h.told k c hc hgoes).silent rfl rfl
  | @client k c e' sup failure hc _ hcancel hs =>
    have hcancelled := cancelled_of_step hs hcancel
    exact sound_send h hc rfl hcancelled fun hgoes =>
      told_step (h.told k c hc (hcancelled.symm.trans hgoes)) hs hcancel hgoes
  | @reports k c level message hc _ =>
    exact sound_send h hc rfl rfl fun hgoes => (h.told k c hc hgoes).silent rfl rfl
  | @dropped k hdropped =>
    refine ⟨fun i hi => ?_, fun i c hc hgoes => ?_, fun hopen i hi => ?_, h.shown, h.logs,
      h.cleared, h.lines⟩
    · obtain ⟨hclient, hchannel⟩ := h.fresh i hi
      refine ⟨?_, hchannel⟩
      rcases eq_or_ne i k with rfl | hne
      · exact Function.update_self ..
      · exact (Function.update_of_ne hne ..).trans hclient
    · rcases eq_or_ne i k with rfl | hne
      · simp only [Function.update_self] at hc
        cases hc
      · simp only [Function.update_of_ne hne] at hc
        exact h.told i c hc hgoes
    · have hne : i ≠ k := by
        rintro rfl
        rcases hdropped with hnot | hclosed
        · exact hnot hi
        · cases hclosed.symm.trans hopen
      obtain ⟨⟨c, hc, hrest⟩, hlt⟩ := h.current hopen i hi
      exact ⟨⟨c, (Function.update_of_ne hne ..).trans hc, hrest⟩, hlt⟩

theorem sound (h : Reachable (Step showDuration) Init s) : Sound s :=
  h.invariant (fun _ h => sound_init h) fun _ _ _ h hs => sound_step h hs

/-- A window that has a client has one that goes on with the settings that the window shows.
Once all its events are taken, the state shown is the one that it is in, and the number of
reconnects is how often it has slept, up to the width of the counter. -/
theorem badge_exact (h : Reachable (Step showDuration) Init s) (hopen : s.closed = false)
    (hk : s.app.running = some k) :
    ∃ c, s.clients k = some c ∧ c.sup.phase ≠ .returned ∧ c.args = s.app.settings.args ∧
      ((s.channels k).inFlight = [] → s.app.state = some (badge c.sup) ∧
        s.app.reconnects = c.sup.attempts.length % 2 ^ 32) := by
  have hsound := sound h
  obtain ⟨⟨c, hc, hgoes, hargs⟩, -⟩ := hsound.current hopen k hk
  obtain ⟨hphase, -, hbadge, hcount⟩ := hsound.told k c hc hgoes
  obtain ⟨hstate, hreconnects⟩ := hsound.shown k hk
  refine ⟨c, hc, hphase, hargs, fun htaken => ?_⟩
  have hall := (s.channels k).received_append_inFlight
  rw [htaken, List.append_nil] at hall
  rw [hall] at hstate hreconnects
  exact ⟨hstate.trans (congrArg some hbadge), hreconnects.trans (congrArg (· % 2 ^ 32) hcount)⟩

/-- The log has the last lines since it was cleared. All lines of a client that were ever in
it are what the client sent, in order and without a gap, up to some point; once all its events
are taken, all that it sent. -/
theorem log_exact (h : Reachable (Step showDuration) Init s) :
    s.app.logs = ((s.lines.drop s.cleared).map (·.2)).rtake maxLogLines ∧
      ∀ k, ∃ taken, taken <+: (s.channels k).sent ∧ linesOf k s.lines = logged taken ∧
        ((s.channels k).inFlight = [] → taken = (s.channels k).sent) := by
  have hsound := sound h
  refine ⟨hsound.logs, fun k => ⟨_, (s.channels k).ordered, hsound.lines k, fun htaken => ?_⟩⟩
  rw [← (s.channels k).received_append_inFlight, htaken, List.append_nil]

end Gui

/-! ## A client that finds no server -/

def exampleSettings : Settings :=
  { Settings.default with id := "cli_home", token := "mmk_home", tls := false }

/-- The client has failed to connect once and sleeps; the window has taken all its events. -/
theorem reachable_reconnecting : ∃ s, Reachable (Step toString) Init s ∧ s.closed = false ∧
    s.app.running = some 0 ∧ (s.channels 0).inFlight = [] := by
  have started : Reachable (Step toString) Init (State.init exampleSettings).start :=
    (Reachable.init ⟨_, rfl⟩).step (.start rfl rfl (by decide +kernel))
  have begun := started.step (.begins (k := 0) rfl rfl)
  have connecting := begun.step (e := .client 0 .connect ⟨"", false⟩)
    (.client rfl rfl (by decide) (.connect rfl rfl))
  have failed := connecting.step (e := .client 0 (.fail .tcp) ⟨"Connection refused", false⟩)
    (.client rfl rfl (by decide) (.fail rfl (by decide)))
  have slept := failed.step (e := .client 0 .sleep ⟨"", false⟩)
    (.client rfl rfl (by decide) (.sleep rfl rfl))
  have first := slept.step (e := .take "12:00:00") (.take (k := 0) rfl rfl rfl)
  have second := first.step (e := .take "12:00:00") (.take (k := 0) rfl rfl rfl)
  have third := second.step (e := .take "12:00:00") (.take (k := 0) rfl rfl rfl)
  have fourth := third.step (e := .take "12:00:00") (.take (k := 0) rfl rfl rfl)
  have fifth := fourth.step (e := .take "12:00:00") (.take (k := 0) rfl rfl rfl)
  exact ⟨_, fifth, rfl, rfl, rfl⟩

theorem badge_exact_reconnecting : ∃ s c, Reachable (Step toString) Init s ∧
    s.clients 0 = some c ∧ s.app.state = some (badge c.sup) := by
  obtain ⟨s, hs, hopen, hrunning, htaken⟩ := reachable_reconnecting
  obtain ⟨c, hc, -, -, hshown⟩ := badge_exact hs hopen hrunning
  exact ⟨s, c, hs, hc, (hshown htaken).1⟩

theorem log_exact_reconnecting : ∃ s, Reachable (Step toString) Init s ∧
    linesOf 0 s.lines = logged (s.channels 0).sent := by
  obtain ⟨s, hs, -, -, htaken⟩ := reachable_reconnecting
  obtain ⟨taken, -, hlines, hall⟩ := (log_exact hs).2 0
  exact ⟨s, hs, hlines.trans (congrArg logged (hall htaken))⟩

end MiniMask.Gui
