import MiniMask.Web.Api

/-!
# What the audit log tells (`web/routes.rs`)

A handler that changes the clients or the password pushes its line to the ring of the audit
log after the operation, waits for the file to be open, and answers after that; requests
interleave, saves fail, and handlers are dropped. `Trail` follows a run and notes which request
each line is from.

`audited`: the ring has the last lines that were pushed, and every line is written to the file
once at most. A request that is answered with success has one line, which tells who changed
what, if it changes anything, and none otherwise; the other requests that have a line are those
which wait for the file, or were dropped there. So a change that is not in the log is one whose
save has failed, whose handler was dropped or whose line is yet to come.
-/

namespace MiniMask.Api

open AtomicFile Lts
open Access (CreateMappingReq ChangePasswordReq)
open Tunnel (RequestId trim)

/-! ## Definitions -/

/-- The line for a request that was carried out, by its user and the body of its answer;
`none` if it changes nothing. -/
def Request.line (user : String) : Request → Body → Option Line
  | .createClient _, .created client _ =>
    some { level := "info", category := "client"
           message := user ++ " created client " ++ client.id ++ " (" ++ client.name ++ ")" }
  | .updateClient id enabled, _ =>
    some { level := "info", category := "client"
           message := user ++ " set client " ++ id ++ " enabled=" ++ toString enabled }
  | .deleteClient id, _ =>
    some { level := "warn", category := "client", message := user ++ " deleted client " ++ id }
  | .regenerateToken id, _ =>
    some { level := "warn", category := "client"
           message := user ++ " regenerated token for client " ++ id }
  | .createMapping _, .mapping m =>
    some { level := "info", category := "mapping"
           message := user ++ " created mapping " ++ m.id ++ " (" ++ m.localAddr ++ " -> :" ++
             toString m.remotePort ++ ")" }
  | .updateMapping id enabled, _ =>
    some { level := "info", category := "mapping"
           message := user ++ " set mapping " ++ id ++ " enabled=" ++ toString enabled }
  | .deleteMapping id, _ =>
    some { level := "warn", category := "mapping", message := user ++ " deleted mapping " ++ id }
  | .changePassword _, _ =>
    some { level := "warn", category := "auth", message := user ++ " changed admin password" }
  | _, _ => none

/-- A request: who asked for what, whether its operation has changed the clients or the
password in memory, and whether the clients were on disk afterwards. -/
structure Record where
  request : Option (String × Request)
  changed : Bool
  saved : Bool
deriving DecidableEq, Repr

def Record.blank : Record where
  request := none
  changed := false
  saved := false

/-- The requests of a run; the lines that were in the files before; those that were pushed
since, by the number of their call of `add`, with the requests they are from; and the calls
that have written theirs to the file. -/
structure Trail where
  records : RequestId → Record
  old : List AuditLog
  journal : List (Option RequestId × AuditLog)
  filed : List Nat

/-- The lines of a request. -/
def Trail.lines (g : Trail) (r : RequestId) : List AuditLog :=
  g.journal.filterMap fun x => if x.1 = some r then some x.2 else none

/-- The lines that these calls have pushed. -/
def Trail.pushed (g : Trail) (ns : List Nat) : List AuditLog :=
  ns.filterMap fun n => (g.journal[n]?).map Prod.snd

def Trail.setRecord (g : Trail) (r : RequestId) (record : Record) : Trail :=
  { g with records := Function.update g.records r record }

def Trail.add (g : Trail) (r : Option RequestId) (entry : AuditLog) : Trail :=
  { g with journal := g.journal ++ [(r, entry)] }

def Trail.file (g : Trail) (e : AuditLogStore.Event) : Trail :=
  match e with
  | .write n => { g with filed := g.filed ++ [n] }
  | _ => g

def watch (g : Trail) (s : State) (e : Event) (t : State) : Trail :=
  match e with
  | .receive r user req => g.setRecord r { Record.blank with request := some (user, req) }
  | .store r _ _ =>
    g.setRecord r
      { g.records r with
        changed := decide (t.clients.list ≠ s.clients.list)
        saved := decide (load t.clients.file = some t.clients.list) }
  | .changePassword r _ _ =>
    g.setRecord r { g.records r with changed := decide (t.auth.inner ≠ s.auth.inner) }
  | .log r ts =>
    match s.calls r with
    | .logging line _ => g.add (some r) (line.entry ts)
    | _ => g
  | .append e => g.file e
  | .other ts line => g.add none (line.entry ts)
  | _ => g

/-- A start: nothing has been asked for yet, and the files have the lines of earlier ones. -/
structure Init (x : State × Trail) : Prop where
  calls : ∀ r, x.1.calls r = .idle
  records : ∀ r, x.2.records r = .blank
  audit : ∃ old cur, x.1.audit = AuditLogStore.init old cur
  added : x.1.added = 0
  old : x.2.old = x.1.audit.written.map Prod.snd
  journal : x.2.journal = []
  filed : x.2.filed = []

/-- What is in the audit log: in the ring the last lines that were pushed, and in the files the
lines of earlier starts and of some of the calls, of each of them once. -/
structure Logged (s : State) (g : Trail) : Prop where
  ring : s.audit.logs = (g.journal.map Prod.snd).rtake logCap
  once : g.filed.Nodup
  files : s.audit.written.map Prod.snd = g.old ++ g.pushed g.filed

/-- What the log has of a request of `user`. -/
structure Audited (s : State) (g : Trail) (r : RequestId) (user : String) (req : Request) :
    Prop where
  /- Its change was carried out. -/
  done : ∀ body line, s.calls r = .answered (.ok body) → req.line user body = some line →
    ∃ ts, g.lines r = [line.entry ts]
  /- It has a line. -/
  told : g.lines r ≠ [] → ∃ body line ts, req.line user body = some line ∧
    g.lines r = [line.entry ts] ∧ ((g.records r).saved = true ∨ line.category = "auth") ∧
    (s.calls r = .answered (.ok body) ∨ (∃ n, s.calls r = .appending n body) ∨
      ∃ left, s.calls r = .dropped left)
  /- It has changed something, and has no line. -/
  untold : (g.records r).changed = true → g.lines r = [] →
    (∃ line body, s.calls r = .logging line body) ∨
      (∃ message, s.calls r = .answered (.error (.internal message))) ∨
      ∃ left, s.calls r = .dropped left

/-! ## Operations -/

/-- An operation that fails, or finds what it looks for and saves, or leaves the clients as
they are. -/
def Carried {α : Type} (hit : α → Prop) (s : ClientStore) (r : Except Error α × ClientStore) :
    Prop :=
  (∃ e, r.1 = .error e) ∨ ∃ a, r.1 = .ok a ∧
    (hit a ∧ load r.2.file = some r.2.list ∨ ¬ hit a ∧ r.2.list = s.list)

section Operations

variable {α : Type} {hit : α → Prop} {s : ClientStore} {io : Outcome}

theorem carried_persistThen {list : List Client} {a : α} (ha : hit a) :
    Carried hit s ({ s with list }.persistThen io a) := by
  cases io with
  | done => exact .inr ⟨a, rfl, .inl ⟨ha, rfl⟩⟩
  | writeFailed _ => exact .inl ⟨_, rfl⟩
  | renameFailed => exact .inl ⟨_, rfl⟩

theorem carried_same {a : α} (ha : ¬ hit a) : Carried hit s (.ok a, s) :=
  .inr ⟨a, rfl, .inr ⟨ha, rfl⟩⟩

theorem carried_addClient (hash : String → String → String) (name pepper token id : String)
    (now : Timestamp) :
    Carried (fun _ => True) s (s.addClient hash name pepper token id now io) :=
  carried_persistThen trivial

theorem carried_setClientEnabled (id : String) (enabled : Bool) :
    Carried (· = true) s (s.setClientEnabled id enabled io) := by
  unfold ClientStore.setClientEnabled
  split
  · exact carried_persistThen rfl
  · exact carried_same Bool.false_ne_true

theorem carried_deleteClient (id : String) : Carried (· = true) s (s.deleteClient id io) := by
  simp only [ClientStore.deleteClient]
  split
  · exact carried_persistThen rfl
  · next hsame =>
    -- nothing was filtered out, so it is the same list, in the same order
    have hlist : (s.list.filter fun c => c.id != id) = s.list :=
      List.filter_sublist.eq_of_length (by simpa using hsame)
    exact .inr ⟨false, rfl, .inr ⟨Bool.false_ne_true, hlist⟩⟩

theorem carried_regenerateToken (hash : String → String → String) (id pepper token : String) :
    Carried (·.isSome = true) s (s.regenerateToken hash id pepper token io) := by
  unfold ClientStore.regenerateToken
  split
  · exact carried_persistThen rfl
  · exact carried_same nofun

theorem carried_addMapping (clientId name : String) (remotePort : UInt16) (localAddr id : String)
    (now : Timestamp) :
    Carried (·.isSome = true) s (s.addMapping clientId name remotePort localAddr id now io) := by
  unfold ClientStore.addMapping
  split
  · exact carried_same nofun
  split
  · exact carried_persistThen rfl
  · exact carried_same nofun

theorem carried_deleteMapping (id : String) : Carried (· = true) s (s.deleteMapping id io) := by
  simp only [ClientStore.deleteMapping]
  split
  · exact carried_persistThen rfl
  · next hsame =>
    have hkept : ∀ c ∈ s.list, (c.mappings.filter fun m => m.id != id) = c.mappings := by
      intro c hc
      have hlength := List.any_eq_false.mp (Bool.not_eq_true _ ▸ hsame) c hc
      exact List.filter_sublist.eq_of_length (by simpa using hlength)
    exact .inr ⟨false, rfl, .inr ⟨Bool.false_ne_true, ClientStore.map_mappings_eq hkept⟩⟩

theorem carried_setMappingEnabled (id : String) (enabled : Bool) :
    Carried (· = true) s (s.setMappingEnabled id enabled io) := by
  simp only [ClientStore.setMappingEnabled]
  split
  · exact carried_persistThen rfl
  · next hsame =>
    have hkept : ∀ c ∈ s.list, updateFirst (fun m : PortMapping => m.id == id)
        (fun m => { m with enabled }) c.mappings = c.mappings := by
      intro c hc
      have hnone := List.any_eq_false.mp (Bool.not_eq_true _ ▸ hsame) c hc
      exact ClientStore.updateFirst_of_none (by simpa using hnone)
    exact .inr ⟨false, rfl, .inr ⟨Bool.false_ne_true, ClientStore.map_mappings_eq hkept⟩⟩

end Operations

/-! ## Handlers -/

/-- What an operation on the clients comes to: a line about it, with the clients on disk, or an
error, which is an internal one if the clients have changed. -/
def Told (user : String) (req : Request) (clients : ClientStore) (next : Call × ClientStore) :
    Prop :=
  (∃ line body, next.1 = .logging line body ∧ req.line user body = some line ∧
      load next.2.file = some next.2.list) ∨
    ∃ e, next.1 = .answered (.error e) ∧
      (next.2.list = clients.list ∨ ∃ message, e = .internal message)

section Handlers

variable {env : Env} {clients : ClientStore} {user : String} {draw : Draw} {io : Outcome}
  {req : Request}

theorem clientsError_internal (e : Error) : ∃ message, clientsError env e = .internal message := by
  cases e with
  | write => exact ⟨_, rfl⟩
  | rename => exact ⟨_, rfl⟩

theorem told_andThen {α : Type} {hit : α → Prop} {r : Except Error α × ClientStore}
    {next : α → Call} (h : Carried hit clients r)
    (hhit : ∀ a, hit a → ∃ line body, next a = .logging line body ∧ req.line user body = some line)
    (hmiss : ∀ a, ¬ hit a → ∃ e, next a = .answered (.error e)) :
    Told user req clients (andThen env r next) := by
  obtain ⟨r, after⟩ := r
  rcases h with ⟨e, rfl⟩ | ⟨a, rfl, ⟨ha, hsaved⟩ | ⟨ha, hsame⟩⟩
  · exact .inr ⟨_, rfl, .inr (clientsError_internal e)⟩
  · obtain ⟨line, body, hnext, hline⟩ := hhit a ha
    exact .inl ⟨line, body, hnext, hline, hsaved⟩
  · obtain ⟨e, hnext⟩ := hmiss a ha
    exact .inr ⟨e, hnext, .inl hsame⟩

theorem told_ifFound {r : Except Error Bool × ClientStore} {line : Line}
    (h : Carried (· = true) clients r) (hline : req.line user .ok = some line) :
    Told user req clients (andThen env r (ifFound line)) := by
  refine told_andThen h (fun found hfound => ?_) fun found hfound => ?_
  · rw [hfound]
    exact ⟨line, .ok, rfl, hline⟩
  · rw [ifFound, if_neg hfound]
    exact ⟨_, rfl⟩

theorem told_handle {next : Call × ClientStore}
    (h : handle env clients user draw io req = some next) : Told user req clients next := by
  cases req with
  | createClient name =>
    cases h
    unfold createClient
    split
    · exact .inr ⟨_, rfl, .inl rfl⟩
    · exact told_andThen (carried_addClient ..) (fun _ _ => ⟨_, _, rfl, rfl⟩)
        fun _ hno => absurd trivial hno
  | updateClient id enabled =>
    cases h
    exact told_ifFound (carried_setClientEnabled id enabled) rfl
  | deleteClient id =>
    cases h
    exact told_ifFound (carried_deleteClient id) rfl
  | regenerateToken id =>
    cases h
    refine told_andThen (carried_regenerateToken ..) (fun token hsome => ?_) fun token hnone => ?_
    · cases token with
      | none => cases hsome
      | some token => exact ⟨_, _, rfl, rfl⟩
    · cases token with
      | none => exact ⟨_, rfl⟩
      | some token => exact absurd rfl hnone
  | createMapping req =>
    cases h
    unfold createMapping
    split
    · exact .inr ⟨_, rfl, .inl rfl⟩
    split
    · exact .inr ⟨_, rfl, .inl rfl⟩
    split
    · exact .inr ⟨_, rfl, .inl rfl⟩
    refine told_andThen (carried_addMapping ..) (fun m hsome => ?_) fun m hnone => ?_
    · cases m with
      | none => cases hsome
      | some m => exact ⟨_, _, rfl, rfl⟩
    · cases m with
      | none => exact ⟨_, rfl⟩
      | some m => exact absurd rfl hnone
  | updateMapping id enabled =>
    cases h
    exact told_ifFound (carried_setMappingEnabled id enabled) rfl
  | deleteMapping id =>
    cases h
    exact told_ifFound (carried_deleteMapping id) rfl
  | me | listClients | listMappings | listLogs | getStats | listSessions | getSettings
  | changePassword _ => cases h

/-- A request that only reads has no line. -/
theorem line_of_read {auth : AuthStore} {logs : List AuditLog} {live : Dashboard.StatsMessage}
    {body : Body} (h : read env clients user auth logs live req = some body) :
    req.line user body = none := by
  cases req <;> first | rfl | cases h

theorem changePassword_cases (auth : AuthStore) (req : ChangePasswordReq) :
    (∃ line, (changePassword env user draw io auth req.newPassword).1 = .logging line .ok ∧
        (Request.changePassword req).line user .ok = some line ∧ line.category = "auth") ∨
      ∃ message, (changePassword env user draw io auth req.newPassword).1 =
        .answered (.error (.internal message)) := by
  simp only [changePassword]
  cases (auth.changePassword env.crypto.hashPassword req.newPassword draw.salt io).1 with
  | ok _ => exact .inl ⟨_, rfl, rfl, rfl⟩
  | error e =>
    cases e with
    | hash => exact .inr ⟨_, rfl⟩
    | save e =>
      cases e with
      | write => exact .inr ⟨_, rfl⟩
      | rename => exact .inr ⟨_, rfl⟩

end Handlers

/-! ## The log -/

/-- What holds of the calls of `add`: each is known by its number, and has not written its line
yet while it goes on. -/
structure Numbered (x : State × Trail) : Prop where
  added : x.1.added = x.2.journal.length
  filed_lt : ∀ n ∈ x.2.filed, n < x.2.journal.length
  going : ∀ n entry phase, x.1.audit.calls n = some ⟨entry, phase⟩ →
    (x.2.journal[n]?).map Prod.snd = some entry ∧ n ∉ x.2.filed

section Log

variable {env : Env} {s t : State} {g : Trail} {e : Event} {r q : RequestId}

theorem pushed_add {ns : List Nat} (h : ∀ n ∈ ns, n < g.journal.length) (p : Option RequestId)
    (entry : AuditLog) : (g.add p entry).pushed ns = g.pushed ns := by
  refine List.filterMap_congr fun n hn => ?_
  rw [Trail.add, List.getElem?_append_left (h n hn)]

theorem logged_init {x : State × Trail} (h : Init x) : Logged x.1 x.2 ∧ Numbered x := by
  obtain ⟨old, cur, haudit⟩ := h.audit
  refine ⟨⟨?_, ?_, ?_⟩, ?_, ?_, ?_⟩
  · rw [haudit, h.journal]
    rfl
  · rw [h.filed]
    exact List.nodup_nil
  · rw [h.old, h.filed]
    exact (List.append_nil _).symm
  · rw [h.added, h.journal]
    rfl
  · rw [h.filed]
    nofun
  · rw [haudit]
    nofun

/-- Some task pushes a line. -/
theorem logged_log (h : Logged s g) (hn : Numbered (s, g)) (ts : String) (line : Line)
    (p : Option RequestId) :
    Logged (s.log env ts line) (g.add p (line.entry ts)) ∧
      Numbered (s.log env ts line, g.add p (line.entry ts)) := by
  have hadded : s.added = g.journal.length := hn.added
  refine ⟨⟨?_, h.once, ?_⟩, ?_, fun n hmem => ?_, fun n entry phase hcall => ?_⟩
  · show AuditLogStore.pushLog logCap s.audit.logs (line.entry ts) =
      ((g.journal ++ [(p, line.entry ts)]).map Prod.snd).rtake logCap
    rw [h.ring, AuditLogStore.pushLog_rtake (by decide), List.map_append]
    rfl
  · show s.audit.written.map Prod.snd = g.old ++ (g.add p (line.entry ts)).pushed g.filed
    rw [pushed_add hn.filed_lt]
    exact h.files
  · show s.added + 1 = (g.journal ++ [_]).length
    rw [hadded, List.length_append, List.length_singleton]
  · show n < (g.journal ++ [_]).length
    rw [List.length_append]
    exact Nat.lt_add_right _ (hn.filed_lt n hmem)
  · show ((g.journal ++ [(p, line.entry ts)])[n]?).map Prod.snd = some entry ∧ n ∉ g.filed
    rcases AuditLogStore.setCall_cases hcall with ⟨rfl, hnew⟩ | hold
    -- The number of the new call is the first one that is free.
    · obtain ⟨_, -, heq⟩ := Option.map_eq_some_iff.mp hnew
      cases heq
      rw [hadded, List.getElem?_concat_length]
      exact ⟨rfl, fun hmem => Nat.lt_irrefl _ (hn.filed_lt _ hmem)⟩
    · obtain ⟨hjournal, hnot⟩ := hn.going n entry phase hold
      obtain ⟨x, hx, -⟩ := Option.map_eq_some_iff.mp hjournal
      obtain ⟨hlt, -⟩ := List.getElem?_eq_some_iff.mp hx
      rw [List.getElem?_append_left hlt]
      exact ⟨hjournal, hnot⟩

/-- A step on the file. -/
theorem logged_append {maxBytes : Nat} {e : AuditLogStore.Event} {audit : AuditLogStore.State}
    (h : Logged s g) (hn : Numbered (s, g)) (hpush : ∀ c entry, e ≠ .push c entry)
    (hs : AuditLogStore.Step env.toJson logCap maxBytes s.audit e audit) :
    Logged { s with audit } (g.file e) ∧ Numbered ({ s with audit }, g.file e) := by
  obtain ⟨hlogs, hcalls⟩ := AuditLogStore.calls_of_step hs hpush
  rcases AuditLogStore.written_of_step hs with ⟨hnot, hwritten⟩ |
    ⟨c, i, entry, rfl, hcall, hwritten, hended⟩
  · have hsame : g.file e = g := by
      cases e with
      | write c => exact absurd rfl (hnot c)
      | _ => rfl
    rw [hsame]
    refine ⟨⟨hlogs.trans h.ring, h.once, ?_⟩, hn.added, hn.filed_lt, fun n entry phase hc => ?_⟩
    · show audit.written.map Prod.snd = _
      rw [hwritten, h.files]
    · obtain ⟨phase', hbefore⟩ := hcalls n entry phase hc
      exact hn.going n entry phase' hbefore
  -- The call is over, so it does not write again.
  · obtain ⟨hjournal, hnot⟩ := hn.going c entry _ hcall
    obtain ⟨x, hx, -⟩ := Option.map_eq_some_iff.mp hjournal
    obtain ⟨hlt, -⟩ := List.getElem?_eq_some_iff.mp hx
    refine ⟨⟨hlogs.trans h.ring, ?_, ?_⟩, hn.added, ?_, fun n entry' phase hc => ?_⟩
    · exact List.nodup_append.mpr ⟨h.once, List.nodup_singleton c, fun a ha b hb heq =>
        hnot (List.mem_singleton.mp hb ▸ heq ▸ ha)⟩
    · show audit.written.map Prod.snd = g.old ++ g.pushed (g.filed ++ [c])
      rw [hwritten, List.map_append, h.files, Trail.pushed, Trail.pushed, List.filterMap_append,
        List.append_assoc, List.filterMap_cons, hjournal]
      rfl
    · exact List.forall_mem_append.mpr ⟨hn.filed_lt, List.forall_mem_singleton.mpr hlt⟩
    · obtain ⟨phase', hbefore⟩ := hcalls n entry' phase hc
      obtain ⟨hentry, hmem⟩ := hn.going n entry' phase' hbefore
      refine ⟨hentry, fun hfiled => ?_⟩
      rcases List.mem_append.mp hfiled with hold | hnew
      · exact hmem hold
      · cases List.mem_singleton.mp hnew
        cases hended.symm.trans hc

/-- A call of `add` is given up. -/
theorem numbered_setCall (hn : Numbered (s, g)) (n : Nat) :
    Numbered ({ s with audit := s.audit.setCall n none }, g) := by
  refine ⟨hn.added, hn.filed_lt, fun m entry phase hcall => ?_⟩
  rcases AuditLogStore.setCall_cases hcall with ⟨-, heq⟩ | hold
  · cases heq
  · exact hn.going m entry phase hold

theorem logged_step (h : Logged s g) (hn : Numbered (s, g)) (hs : Step env s e t) :
    Logged t (watch g s e t) ∧ Numbered (t, watch g s e t) := by
  cases hs with
  | receive _ | read _ _ | store _ _ | checkPassword _ | changePassword _ | answer _ _
  | drop _ _ _ =>
    exact ⟨⟨h.ring, h.once, h.files⟩, ⟨hn.added, hn.filed_lt, hn.going⟩⟩
  | @log r ts line body hcall =>
    rw [watch, hcall]
    obtain ⟨hlogged, hnumbered⟩ : Logged (s.log env ts line) _ ∧ Numbered (s.log env ts line, _) :=
      logged_log h hn ts line (some r)
    exact ⟨⟨hlogged.ring, hlogged.once, hlogged.files⟩,
      ⟨hnumbered.added, hnumbered.filed_lt, hnumbered.going⟩⟩
  | append _ hgoes hs =>
    refine logged_append h hn ?_ hs
    rintro c entry rfl
    exact hgoes
  | @openFails _ n _ _ _ _ =>
    have hgiven := numbered_setCall hn n
    exact ⟨⟨h.ring, h.once, h.files⟩, ⟨hgiven.added, hgiven.filed_lt, hgiven.going⟩⟩
  | @leave _ n _ e _ _ _ he hs =>
    have hpush : ∀ c entry, e ≠ .push c entry := by rcases he with rfl | rfl <;> exact nofun
    have hfile : g.file e = g := by rcases he with rfl | rfl <;> rfl
    obtain ⟨hlogged, hnumbered⟩ := logged_append h hn hpush hs
    rw [hfile] at hlogged hnumbered
    have hgiven := numbered_setCall hnumbered n
    exact ⟨⟨hlogged.ring, hlogged.once, hlogged.files⟩,
      ⟨hgiven.added, hgiven.filed_lt, hgiven.going⟩⟩
  | other => exact logged_log h hn _ _ none

end Log

/-! ## The trail -/

/-- The request has its line, and is to be answered with `body`. -/
def Record.HasLine (record : Record) (lines : List AuditLog) (body : Body) : Prop :=
  ∃ user req line ts, record.request = some (user, req) ∧ req.line user body = some line ∧
    lines = [line.entry ts] ∧ (record.saved = true ∨ line.category = "auth")

/-- What has been noted of a request, by where it is. -/
def Call.Noted (record : Record) (lines : List AuditLog) : Call → Prop
  | .idle => record = .blank ∧ lines = []
  | .admitted user req => record = { Record.blank with request := some (user, req) } ∧ lines = []
  | .checked user newPassword => lines = [] ∧ record.changed = false ∧
      ∃ req, req.newPassword = newPassword ∧ record.request = some (user, .changePassword req)
  | .logging line body => lines = [] ∧
      (∃ user req, record.request = some (user, req) ∧ req.line user body = some line) ∧
      (record.saved = true ∨ line.category = "auth")
  | .appending _ body => record.HasLine lines body
  | .answered (.ok body) => record.HasLine lines body ∨
      ∃ user req, record.request = some (user, req) ∧ req.line user body = none ∧ lines = [] ∧
        record.changed = false
  | .answered (.error e) => lines = [] ∧ (record.changed = true → ∃ message, e = .internal message)
  | .dropped _ => lines = [] ∨ ∃ body, record.HasLine lines body

def Noted (s : State) (g : Trail) : Prop :=
  ∀ r, (s.calls r).Noted (g.records r) (g.lines r)

section Trail

variable {env : Env} {s t : State} {g : Trail} {e : Event} {r q : RequestId}

theorem lines_add_self (entry : AuditLog) :
    (g.add (some r) entry).lines r = g.lines r ++ [entry] := by
  simp [Trail.add, Trail.lines]

theorem lines_add_ne {p : Option RequestId} (hne : p ≠ some q) (entry : AuditLog) :
    (g.add p entry).lines q = g.lines q := by
  simp [Trail.add, Trail.lines, hne]

theorem lines_file (e : AuditLogStore.Event) (r : RequestId) :
    (g.file e).lines r = g.lines r ∧ (g.file e).records = g.records := by
  cases e <;> exact ⟨rfl, rfl⟩

/-- A step of one request that pushes no line. -/
theorem Noted.setCall (h : Noted s g) {s' : State} {c : Call} {record : Record}
    (hcalls : s'.calls = s.calls) (hnoted : c.Noted record (g.lines r)) :
    Noted (s'.setCall r c) (g.setRecord r record) := by
  intro q
  show (Function.update s'.calls r c q).Noted (Function.update g.records r record q) (g.lines q)
  rcases eq_or_ne q r with rfl | hne
  · rw [Function.update_self, Function.update_self]
    exact hnoted
  · rw [Function.update_of_ne hne, Function.update_of_ne hne, hcalls]
    exact h q

/-- The same, where nothing more is noted of the request. -/
theorem Noted.move (h : Noted s g) {s' : State} {c : Call} (hcalls : s'.calls = s.calls)
    (hnoted : c.Noted (g.records r) (g.lines r)) : Noted (s'.setCall r c) g := by
  have hset := h.setCall (r := r) hcalls hnoted
  rwa [Trail.setRecord, Function.update_eq_self] at hset

/-- The handler of a request pushes its line. -/
theorem Noted.log (h : Noted s g) {line : Line} {body : Body} {c : Call}
    (hcall : s.calls r = .logging line body) (ts : String)
    (hc : ∀ record lines, record.HasLine lines body → c.Noted record lines) :
    Noted ((s.log env ts line).setCall r c) (g.add (some r) (line.entry ts)) := by
  intro q
  show (Function.update s.calls r c q).Noted (g.records q) _
  rcases eq_or_ne q r with rfl | hne
  · rw [Function.update_self, lines_add_self]
    have hnoted := h q
    rw [hcall] at hnoted
    obtain ⟨hlines, ⟨user, req, hrequest, hline⟩, hsaved⟩ := hnoted
    exact hc _ _ ⟨user, req, line, ts, hrequest, hline, by rw [hlines]; rfl, hsaved⟩
  · rw [Function.update_of_ne hne, lines_add_ne (by simpa using hne.symm)]
    exact h q

theorem Noted.other (h : Noted s g) (ts : String) (line : Line) :
    Noted (s.log env ts line) (g.add none (line.entry ts)) := by
  intro q
  rw [lines_add_ne (Option.some_ne_none q).symm]
  exact h q

theorem noted_init {x : State × Trail} (h : Init x) : Noted x.1 x.2 := by
  intro r
  have hlines : x.2.lines r = [] := by simp [Trail.lines, h.journal]
  rw [h.calls, h.records, hlines]
  exact ⟨rfl, rfl⟩

theorem noted_step (h : Noted s g) (hs : Step env s e t) : Noted t (watch g s e t) := by
  cases hs with
  | @receive r user req hcall =>
    have hnoted := h r
    rw [hcall] at hnoted
    exact h.setCall rfl ⟨rfl, hnoted.2⟩
  | @read r user req live body hcall hread =>
    have hnoted := h r
    rw [hcall] at hnoted
    obtain ⟨hrecord, hlines⟩ := hnoted
    exact h.move rfl (.inr ⟨user, req, by rw [hrecord], line_of_read hread, hlines,
      by rw [hrecord]; rfl⟩)
  | @store r user req draw io next hcall hnext =>
    have hnoted := h r
    rw [hcall] at hnoted
    obtain ⟨hrecord, hlines⟩ := hnoted
    refine h.setCall rfl ?_
    -- A handler is left with a line to push or with an error; a change is in the one or the other.
    rcases told_handle hnext with ⟨line, body, hlogging, hline, hsaved⟩ | ⟨e, herror, hsame⟩
    · rw [hlogging]
      exact ⟨hlines, ⟨user, req, by rw [hrecord], hline⟩, .inl (decide_eq_true hsaved)⟩
    · rw [herror]
      refine ⟨hlines, fun hchanged => ?_⟩
      rcases hsame with hsame | hinternal
      -- refused before anything was changed
      · exact absurd hsame (of_decide_eq_true hchanged)
      · exact hinternal
  | @checkPassword r user req hcall =>
    have hnoted := h r
    rw [hcall] at hnoted
    obtain ⟨hrecord, hlines⟩ := hnoted
    refine h.move rfl ?_
    unfold checkPassword
    split
    · exact ⟨hlines, by rw [hrecord]; nofun⟩
    split
    · exact ⟨hlines, by rw [hrecord]; rfl, req, rfl, by rw [hrecord]⟩
    · exact ⟨hlines, by rw [hrecord]; nofun⟩
  | @changePassword r user newPassword draw io hcall =>
    have hnoted := h r
    rw [hcall] at hnoted
    obtain ⟨hlines, -, req, rfl, hrequest⟩ := hnoted
    refine h.setCall rfl ?_
    rcases changePassword_cases s.auth req with ⟨line, hlogging, hline, hauth⟩ | ⟨message, herror⟩
    · rw [hlogging]
      exact ⟨hlines, ⟨user, _, hrequest, hline⟩, .inr hauth⟩
    · rw [herror]
      exact ⟨hlines, fun _ => ⟨message, rfl⟩⟩
  | @log r ts line body hcall =>
    rw [watch, hcall]
    refine h.log hcall ts fun record lines hline => ?_
    split
    · exact hline
    · exact .inl hline
  | @append _ e audit _ _ _ =>
    intro q
    obtain ⟨hlines, hrecords⟩ := lines_file (g := g) e q
    rw [watch, hlines, hrecords]
    exact h q
  | @answer r n body entry i hcall _ =>
    have hnoted := h r
    rw [hcall] at hnoted
    exact h.move rfl (.inl hnoted)
  | @openFails r n body entry hcall _ =>
    have hnoted := h r
    rw [hcall] at hnoted
    exact h.move rfl (.inl hnoted)
  -- A handler that is dropped before the push takes its line with it.
  | @drop r hidle hanswered hdropped =>
    refine h.move rfl ?_
    have hnoted := h r
    cases hcall : s.calls r with
    | idle => exact absurd hcall hidle
    | answered reply => exact absurd hcall (hanswered reply)
    | dropped left => exact absurd hcall (hdropped left)
    | admitted _ _ =>
      rw [hcall] at hnoted
      exact .inl hnoted.2
    | checked _ _ | logging _ _ =>
      rw [hcall] at hnoted
      exact .inl hnoted.1
    | appending n body =>
      rw [hcall] at hnoted
      exact .inr ⟨body, hnoted⟩
  | @leave r n _ e _ hcall _ _ _ =>
    have hnoted := h r
    rw [hcall] at hnoted
    exact h.move rfl hnoted
  | other => exact h.other _ _

theorem noted {x : State × Trail} (h : Reachable (Observed (Step env) watch) Init x) :
    Logged x.1 x.2 ∧ Numbered x ∧ Noted x.1 x.2 := by
  induction h with
  | init hx =>
    obtain ⟨hlogged, hnumbered⟩ := logged_init hx
    exact ⟨hlogged, hnumbered, noted_init hx⟩
  | @step x y e _ hs ih =>
    obtain ⟨s, g⟩ := x
    obtain ⟨t, g'⟩ := y
    obtain ⟨hlogged, hnumbered, hnoted⟩ := ih
    obtain ⟨hstep, hwatch⟩ := hs
    rw [show g' = watch g s e t from hwatch]
    obtain ⟨hlogged', hnumbered'⟩ := logged_step hlogged hnumbered hstep
    exact ⟨hlogged', hnumbered', noted_step hnoted hstep⟩

/-- A request that has no line. -/
theorem audited_silent {user : String} {req : Request} (hlines : g.lines r = [])
    (hcall : ∀ body line, s.calls r = .answered (.ok body) → req.line user body ≠ some line)
    (huntold : (g.records r).changed = true → (∃ line body, s.calls r = .logging line body) ∨
      (∃ message, s.calls r = .answered (.error (.internal message))) ∨
      ∃ left, s.calls r = .dropped left) :
    Audited s g r user req where
  done body line hok hline := absurd hline (hcall body line hok)
  told hne := absurd hlines hne
  untold hchanged _ := huntold hchanged

/-- A request that has its line. -/
theorem audited_told {user : String} {req : Request} {body : Body}
    (hrequest : (g.records r).request = some (user, req))
    (hline : (g.records r).HasLine (g.lines r) body)
    (hcall : s.calls r = .answered (.ok body) ∨ (∃ n, s.calls r = .appending n body) ∨
      ∃ left, s.calls r = .dropped left) :
    Audited s g r user req := by
  obtain ⟨user', req', line, ts, hrequest', hline, hlines, hsaved⟩ := hline
  cases hrequest.symm.trans hrequest'
  refine ⟨fun body' line' hok hline' => ?_, fun _ => ⟨body, line, ts, hline, hlines, hsaved, hcall⟩,
    fun _ hnil => ?_⟩
  · rcases hcall with heq | ⟨n, heq⟩ | ⟨left, heq⟩
    · cases heq.symm.trans hok
      cases hline.symm.trans hline'
      exact ⟨ts, hlines⟩
    · cases heq.symm.trans hok
    · cases heq.symm.trans hok
  · cases hlines.symm.trans hnil

end Trail

/-- In every run, the ring has the last lines that were pushed, and of each push the files have
one line at most. A request that changes something and is answered with success has pushed one
line; no other one has a line but those that wait for the file or were dropped there, and a
change without a line is one whose save has failed, whose handler was dropped or whose line is
yet to come. -/
theorem audited {env : Env} {s : State} {g : Trail}
    (h : Reachable (Observed (Step env) watch) Init (s, g)) :
    Logged s g ∧
      ∀ r user req, (g.records r).request = some (user, req) → Audited s g r user req := by
  obtain ⟨hlogged, -, hnoted⟩ := noted h
  refine ⟨hlogged, fun r user req hrequest => ?_⟩
  have hcall := hnoted r
  simp only at hcall
  cases hwhere : s.calls r with
  | idle =>
    rw [hwhere] at hcall
    rw [hcall.1] at hrequest
    cases hrequest
  | admitted user' req' =>
    rw [hwhere] at hcall
    refine audited_silent hcall.2 (by rw [hwhere]; nofun) fun hchanged => ?_
    rw [hcall.1] at hchanged
    cases hchanged
  | checked user' newPassword =>
    rw [hwhere] at hcall
    refine audited_silent hcall.1 (by rw [hwhere]; nofun) fun hchanged => ?_
    rw [hcall.2.1] at hchanged
    cases hchanged
  | logging line body =>
    rw [hwhere] at hcall
    exact audited_silent hcall.1 (by rw [hwhere]; nofun) fun _ => .inl ⟨line, body, hwhere⟩
  | appending n body =>
    rw [hwhere] at hcall
    exact audited_told hrequest hcall (.inr (.inl ⟨n, hwhere⟩))
  | dropped left =>
    rw [hwhere] at hcall
    rcases hcall with hlines | ⟨body, hline⟩
    · exact audited_silent hlines (by rw [hwhere]; nofun) fun _ => .inr (.inr ⟨left, hwhere⟩)
    · exact audited_told hrequest hline (.inr (.inr ⟨left, hwhere⟩))
  | answered reply =>
    rw [hwhere] at hcall
    cases reply with
    | error e =>
      refine audited_silent hcall.1 (by rw [hwhere]; nofun) fun hchanged => ?_
      obtain ⟨message, rfl⟩ := hcall.2 hchanged
      exact .inr (.inl ⟨message, hwhere⟩)
    | ok body =>
      rcases hcall with hline | ⟨user', req', hrequest', hnone, hlines, hchanged⟩
      · exact audited_told hrequest hline (.inl hwhere)
      · cases hrequest.symm.trans hrequest'
        refine audited_silent hlines (fun body' line hok hline => ?_) fun htrue => ?_
        · cases hwhere.symm.trans hok
          cases hnone.symm.trans hline
        · cases hchanged.symm.trans htrue

/-- A client is made, and the ring and the file say so. -/
theorem audited_created : ∃ s g, Reachable (Observed (Step (exampleEnv "")) watch) Init (s, g) ∧
    (∃ body, s.calls 0 = .answered (.ok body)) ∧ Logged s g ∧
    Audited s g 0 "admin" (.createClient " home ") ∧ (∃ ts, g.lines 0 = [exampleLine.entry ts]) ∧
    s.audit.logs = [exampleLine.entry exampleTime] ∧
    s.audit.written = [(2, exampleLine.entry exampleTime)] := by
  obtain ⟨view, admitted, stored, pushed, looked, opened, answered, written, receive, store, push,
    look, opens, answer, write, hstored, hanswered, -, hring, hfile, hid, hname⟩ := steps_example ""
  let g₀ : Trail := { records := fun _ => .blank, old := [], journal := [], filed := [] }
  let g₁ := watch g₀ (exampleState "") (.receive 0 "admin" (.createClient " home ")) admitted
  let g₂ := watch g₁ admitted (.store 0 (exampleDraw "") .done) stored
  let g₃ := watch g₂ stored (.log 0 exampleTime) pushed
  have start : Reachable (Observed (Step (exampleEnv "")) watch) Init (exampleState "", g₀) :=
    .init ⟨fun _ => rfl, fun _ => rfl, ⟨none, none, rfl⟩, rfl, rfl, rfl, rfl⟩
  have logged := ((start.step (t := (admitted, g₁)) ⟨receive, rfl⟩).step (t := (stored, g₂))
    ⟨store, rfl⟩).step (t := (pushed, g₃)) ⟨push, rfl⟩
  have handed := ((logged.step (t := (looked, g₃)) ⟨look, rfl⟩).step (t := (opened, g₃))
    ⟨opens, rfl⟩).step (t := (answered, g₃)) ⟨answer, rfl⟩
  have run := handed.step (t := (written, g₃.file (.write 0))) ⟨write, rfl⟩
  have hrequest : (g₃.records 0).request = some ("admin", .createClient " home ") := by
    simp only [g₃, watch, hstored]
    rfl
  obtain ⟨hlogged, haudited⟩ := audited run
  have hone := haudited 0 "admin" (.createClient " home ") hrequest
  have hline : Request.line "admin" (.createClient " home ")
      (.created view (exampleDraw "").token) = some exampleLine := by
    rw [Request.line, hid, hname]
    rfl
  exact ⟨_, _, run, ⟨_, hanswered⟩, hlogged, hone, hone.done _ _ hanswered hline, hring, hfile⟩

end MiniMask.Api
