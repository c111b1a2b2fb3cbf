import MiniMask.Tunnel.Removal

/-!
# Abandoned requests

When the peer of a request hangs up, the future of its handler is dropped at the
await it has reached: what it has done stays done, a file operation that is under
way comes to its end, and nothing else of the handler happens. No handler runs in a
task of its own, and none undoes what it has done.

* `abandoned_exact`: what is left agrees in memory, on disk and on the network exactly
  if the request was `Harmless` where it was dropped.
* `abandoned_midway`: a request to delete a mapping that is dropped halfway, twice: the
  mapping is gone and its loop runs on, or it is gone from the memory and not from the
  file.

The other tasks go on meanwhile, as long as they leave the store, the table of sessions
and the running loops as they are; what their own steps do there is not the doing of
the request.
-/

namespace MiniMask.Tunnel.Abandoned

open Lts AtomicFile

/-! ## What is left -/

/-- The accept loop `l` is running. -/
def Runs (s : Server) (l : LoopId) (L : AcceptLoop) : Prop :=
  s.loops l = some L ∧ L.aborted = false

/-- The store has the mapping `id` of the client `c`, enabled. -/
def Recorded (list : List Client) (c id : String) : Prop :=
  ∃ client ∈ list, client.id = c ∧ ∃ m ∈ client.mappings, m.id = id ∧ m.enabled = true

/-- The store has the client `c`, enabled. -/
def EnabledClient (list : List Client) (c : String) : Prop :=
  ∃ client ∈ list, client.id = c ∧ client.enabled = true

/-- Memory, disk and network agree in `s`, which came from `s₀`: the file has what the
memory has, and every running loop is for a mapping that the store has as enabled and
whose client was not deleted or disabled since. -/
structure Agrees (s₀ s : Server) : Prop where
  disk : load s.clients.file = some s.clients.list
  mapping : ∀ l L, Runs s l L → Recorded s.clients.list L.clientId L.mapping.id
  client : ∀ l L, Runs s l L → EnabledClient s₀.clients.list L.clientId →
    EnabledClient s.clients.list L.clientId

/-! ## Where a handler is dropped -/

/-- The awaits of `persist`. -/
inductive Saving
  | createDirAll
  | write
  | rename
deriving DecidableEq, Repr

/-- What a save can come to when `persist` is dropped at an await: the operation awaited
comes to its end, and the ones after it are not begun. -/
def Saving.Leaves : Saving → Outcome → Prop
  | .createDirAll, io => io = .writeFailed .untouched
  | .write, io => io = .renameFailed ∨ ∃ after, io = .writeFailed after
  | .rename, io => io = .done ∨ io = .renameFailed

/-- The awaits of a handler: for the write lock of the store; in `persist`; in the calls
that start or stop listeners, by the stage of the handler; and in `state.log`. -/
inductive Point
  | lock
  | saving (stage : Saving) (io : Outcome)
  | handling (stage : AdminStage)
  | logging
deriving DecidableEq, Repr

/-- `t` has the sessions, the handles and the running loops of `s`. -/
structure SameLoops (s t : Server) : Prop where
  sessions : t.sessions = s.sessions
  listeners : t.listeners = s.listeners
  runs : ∀ l L, Runs t l L ↔ Runs s l L

/-- And it has its store. -/
structure SameNet (s t : Server) : Prop extends SameLoops s t where
  clients : t.clients = s.clients

/-- A step of another task than the handler of `r`, which keeps all this. -/
def Aside (env : Env) (r : RequestId) (s : Server) (e : Event) (t : Server) : Prop :=
  Step env s e t ∧ t.admins r = s.admins r ∧ SameNet s t

/-- A step of the handler of `r`, or one beside it. -/
def Along (env : Env) (r : RequestId) (s : Server) (e : Event) (t : Server) : Prop :=
  (∃ e', e = .admin r e' ∧ AdminStep env r s e' t) ∨ Aside env r s e t

/-- The handler of `request` comes at `s₀` and is dropped at `p`, which leaves `s`. -/
inductive Leaves (env : Env) (r : RequestId) (request : AdminRequest) (s₀ : Server) :
    Point → Server → Prop
  | lock {s : Server} {tr : List (Server × Event × Server)} :
      Run (Aside env r) s₀ tr s → Leaves env r request s₀ .lock s
  /- A handler that answers `500` when the save fails is one that saves. -/
  | saving {s : Server} {tr : List (Server × Event × Server)} {stage : Saving} {io : Outcome} :
      Run (Aside env r) s₀ tr s → s.WriteLockFree → request.FreshIn s →
      (handle env s.clients request .renameFailed).1 = .answer .internal → stage.Leaves io →
      Leaves env r request s₀ (.saving stage io)
        (s.setClients (handle env s.clients request io).2)
  | handling {s : Server} {tr : List (Server × Event × Server)} {stage : AdminStage} :
      Run (Along env r) s₀ tr s → s.admins r = .running request stage →
      Leaves env r request s₀ (.handling stage) s
  | logging {s : Server} {tr : List (Server × Event × Server)} :
      Run (Along env r) s₀ tr s → s.admins r = .done request .ok →
      Leaves env r request s₀ .logging s

/-! ## When it does no harm -/

/-- The request deletes or disables the mapping of the loop, or its client. -/
def Takes (s : Server) (request : AdminRequest) (L : AcceptLoop) : Prop :=
  request.TakesMapping L.mapping.id ∨
    ∃ client ∈ s.clients.list, client.id = L.clientId ∧ request.TakesClient client

/-- The handle of the loop is stored in the session that is registered for its client. -/
def InReach (s : Server) (l : LoopId) (L : AcceptLoop) : Prop :=
  L.Registered s ∧ (s.listeners L.session).lookup L.mapping.id = some l

/-- The request takes nothing off that is on the network. -/
def TakesNone (s : Server) (request : AdminRequest) : Prop :=
  ∀ l L, Runs s l L → ¬ Takes s request L

/-- Dropped at `p`, the request does no harm:

* while it waits for the store;
* in `persist`, if the save still goes through or the request changes nothing, and it
  takes nothing off the network;
* while it starts or stops listeners, if it takes nothing off the network;
* at the log, if the loops that it takes off were in reach. -/
def Harmless (env : Env) (request : AdminRequest) (s₀ : Server) : Point → Prop
  | .lock => True
  | .saving _ io =>
    (io ≠ .done → (handle env s₀.clients request .done).2.list = s₀.clients.list) ∧
      TakesNone s₀ request
  | .handling _ => TakesNone s₀ request
  | .logging => ∀ l L, Runs s₀ l L → Takes s₀ request L → InReach s₀ l L

/-! ## What the operation on the store does -/

section Store

variable {env : Env} {s₀ t : Server} {request : AdminRequest} {io : Outcome} {L : AcceptLoop}

/-- Whatever the request does not take off stays on record. -/
theorem kept_of_not_takes (hr : Reachable (Step env) Init s₀) (io : Outcome)
    (hrecorded : Recorded s₀.clients.list L.clientId L.mapping.id) (hnot : ¬ Takes s₀ request L) :
    Recorded (handle env s₀.clients request io).2.list L.clientId L.mapping.id ∧
      (EnabledClient s₀.clients.list L.clientId →
        EnabledClient (handle env s₀.clients request io).2.list L.clientId) := by
  obtain ⟨client, hclient, hid, m, hm, hmid, hen⟩ := hrecorded
  obtain ⟨client', hclient', hid', henabled, hmappings⟩ := client_kept env io hclient fun htakes =>
    hnot (.inr ⟨client, hclient, hid, htakes⟩)
  obtain ⟨m', hm', hmid', hen'⟩ :=
    hmappings m hm hen fun htakes => hnot (.inl (hmid ▸ htakes))
  refine ⟨⟨client', hclient', hid'.trans hid, m', hm', hmid'.trans hmid, hen'⟩, ?_⟩
  rintro ⟨owner, howner, hoid, hon⟩
  -- ids are distinct
  cases List.inj_on_of_nodup_map (ledger_reachable hr).ids_nodup howner hclient
    (hoid.trans hid.symm)
  exact ⟨client', hclient', hid'.trans hid, henabled hon⟩

/-- Whatever the request takes off is off the record, or its client is. -/
theorem not_kept_of_takes (hr : Reachable (Step env) Init s₀) (htakes : Takes s₀ request L)
    (hrecorded : Recorded (handle env s₀.clients request io).2.list L.clientId L.mapping.id)
    (hclient : EnabledClient s₀.clients.list L.clientId →
      EnabledClient (handle env s₀.clients request io).2.list L.clientId) : False := by
  have hledger := ledger_reachable hr
  obtain ⟨client', hclient', hid', m', hm', hmid', hen'⟩ := hrecorded
  rcases htakes with htakes | ⟨client, hmem, hid, htakes⟩
  · cases request with
    | updateMapping id enabled =>
      obtain ⟨rfl, hid⟩ := htakes
      rw [show (handle env s₀.clients (.updateMapping id false) io).2.list = _ from
        s₀.clients.setMappingEnabled_list io id false] at hclient'
      obtain ⟨client, hmem, rfl⟩ := List.mem_map.mp hclient'
      obtain ⟨m, _, rfl⟩ := mem_updateFirst_key (mappingIds_nodup hledger.routes_nodup hmem) hm'
        (hmid'.trans hid)
      cases hen'
    | deleteMapping id =>
      rw [show (handle env s₀.clients (.deleteMapping id) io).2.list = _ from
        s₀.clients.deleteMapping_list io id] at hclient'
      obtain ⟨client, _, rfl⟩ := List.mem_map.mp hclient'
      have hne := (List.mem_filter.mp hm').2
      rw [hmid', show L.mapping.id = id from htakes, bne_self_eq_false] at hne
      cases hne
    | _ => cases htakes
  · cases request with
    | updateClient id enabled =>
      obtain ⟨rfl, rfl, hon⟩ := htakes
      obtain ⟨client'', hclient'', hid'', hon''⟩ := hclient ⟨client, hmem, hid, hon⟩
      rw [show (handle env s₀.clients (.updateClient client.id false) io).2.list = _ from
        s₀.clients.setClientEnabled_list io client.id false] at hclient''
      obtain ⟨_, _, rfl⟩ := mem_updateFirst_key hledger.ids_nodup hclient'' (hid''.trans hid.symm)
      cases hon''
    | deleteClient id =>
      rw [show (handle env s₀.clients (.deleteClient id) io).2.list = _ from
        s₀.clients.deleteClient_list io id] at hclient'
      have hne := (List.mem_filter.mp hclient').2
      rw [hid', ← hid, show client.id = id from htakes, bne_self_eq_false] at hne
      cases hne
    | _ => cases htakes

/-- A handler leaves the store alone, or puts a new list in memory and saves it. -/
theorem handle_saves (env : Env) (clients : ClientStore) (request : AdminRequest) :
    (∀ io, (handle env clients request io).2 = clients) ∨
      ∃ list, ∀ io, (handle env clients request io).2 =
        { list, file := (save list clients.file io).2 } := by
  have hsaves : ∀ {α : Type} {f : Outcome → Except Error α × ClientStore}, clients.Saves f →
      (∀ io, (f io).2 = clients) ∨
        ∃ list, ∀ io, (f io).2 = { list, file := (save list clients.file io).2 } := by
    rintro α f (⟨a, hf⟩ | ⟨list, a, hf⟩)
    · exact .inl fun io => by rw [hf]
    · refine .inr ⟨list, fun io => ?_⟩
      rw [hf]
      cases io <;> rfl
  cases request with
  | createClient name token id now =>
    by_cases hname : trim name = ""
    · exact .inl fun io => by simp [handle, hname]
    · have hstore := hsaves (clients.addClient_saves env.sha256HexWithPepper (trim name)
        env.tokenPepper token id now)
      simpa [handle, hname] using hstore
  | createMapping clientId name remotePort localAddr id now =>
    by_cases hname : trim name = ""
    · exact .inl fun io => by simp [handle, hname]
    by_cases hport : remotePort = 0
    · exact .inl fun io => by simp [handle, hname, hport]
    cases haddr : env.isSocketAddr localAddr with
    | false => exact .inl fun io => by simp [handle, hname, hport, haddr]
    | true =>
      have hstore := hsaves (clients.addMapping_saves clientId (trim name) remotePort localAddr
        id now)
      simpa [handle, hname, hport, haddr] using hstore
  | updateClient id enabled => exact hsaves (clients.setClientEnabled_saves id enabled)
  | deleteClient id => exact hsaves (clients.deleteClient_saves id)
  | regenerateToken id token =>
    exact hsaves (clients.regenerateToken_saves env.sha256HexWithPepper id env.tokenPepper token)
  | updateMapping id enabled => exact hsaves (clients.setMappingEnabled_saves id enabled)
  | deleteMapping id => exact hsaves (clients.deleteMapping_saves id)

/-- The file has what the memory has unless a save of something new fails. -/
theorem disk_iff (env : Env) (request : AdminRequest) (io : Outcome) {clients : ClientStore}
    (hdisk : load clients.file = some clients.list) :
    load (handle env clients request io).2.file = some (handle env clients request io).2.list ↔
      (io ≠ .done → (handle env clients request .done).2.list = clients.list) := by
  rcases handle_saves env clients request with hsame | ⟨list, hnew⟩
  · rw [hsame, hsame]
    exact iff_of_true hdisk fun _ => rfl
  · rw [hnew, hnew]
    have hmain : ∀ files : Files (List Client), files.main = clients.file.main →
        (load files = some list ↔ list = clients.list) := by
      intro files hmain
      rw [load, hmain, ← load, hdisk, Option.some.injEq, eq_comm]
    cases io with
    | done => exact iff_of_true rfl fun hne => absurd rfl hne
    | writeFailed after =>
      exact (hmain _ rfl).trans ⟨fun heq _ => heq, fun himp => himp nofun⟩
    | renameFailed => exact (hmain _ rfl).trans ⟨fun heq _ => heq, fun himp => himp nofun⟩

/-- What is left once the store is changed and before any loop is started or stopped. -/
theorem agrees_iff (hr : Reachable (Step env) Init s₀) (hagrees : Agrees s₀ s₀)
    (hclients : t.clients = (handle env s₀.clients request io).2)
    (hruns : ∀ l L, Runs t l L ↔ Runs s₀ l L) :
    Agrees s₀ t ↔
      (io ≠ .done → (handle env s₀.clients request .done).2.list = s₀.clients.list) ∧
        TakesNone s₀ request := by
  rw [← disk_iff env request io hagrees.disk]
  constructor
  · intro h
    have hdisk := h.disk
    rw [hclients] at hdisk
    refine ⟨hdisk, fun l L hL htakes => ?_⟩
    have hL' := (hruns l L).mpr hL
    exact not_kept_of_takes hr htakes (hclients ▸ h.mapping l L hL')
      (hclients ▸ h.client l L hL')
  · rintro ⟨hdisk, hnone⟩
    have hkept : ∀ l L, Runs t l L → _ := fun l L hL =>
      kept_of_not_takes hr io
        (hagrees.mapping l L ((hruns l L).mp hL)) (hnone l L ((hruns l L).mp hL))
    rw [← hclients] at hdisk hkept
    exact ⟨hdisk, fun l L hL => (hkept l L hL).1, fun l L hL => (hkept l L hL).2⟩

end Store

/-! ## The handler on its way -/

/-- The mappings that the handler is going to start are on record. -/
def Starts (request : AdminRequest) (clients : ClientStore) : AdminStage → Prop
  | .findMapping id => request = .updateMapping id true
  | .startClient _ => True
  | .adding st _ => ∀ m, m ∈ st.todo ∨ st.stage.mapping = some m →
      Recorded clients.list st.client m.id
  | _ => False

/-- What the request concerns, the handler is going to stop in the sessions of `s₀`. -/
def Stops (request : AdminRequest) (s₀ : Server) : AdminStage → Prop
  | .removeListener id => request.concerns = fun route => route.mappingId == id
  | .removing id arcs => (request.concerns = fun route => route.mappingId == id) ∧
      (∀ k ∈ arcs, ∃ c info, s₀.sessions.lookup c = some info ∧ info.sessionId = k) ∧
      ∀ c info, s₀.sessions.lookup c = some info →
        info.sessionId ∈ arcs ∨ (s₀.listeners info.sessionId).lookup id = none
  | .removeClient id => request.concerns = fun route => route.clientId == id
  | .draining k => ∃ c info, (request.concerns = fun route => route.clientId == c) ∧
      s₀.sessions.lookup c = some info ∧ info.sessionId = k
  | _ => False

/-- The request takes nothing off, and the loops that are new are on record. -/
structure Starting (request : AdminRequest) (s₀ s : Server) : Prop where
  request : request.turnsOff = false
  runs : ∀ l L, Runs s l L → Runs s₀ l L ∨ Recorded s.clients.list L.clientId L.mapping.id

/-- Of the loops that the request takes off, those in reach are stopped. -/
structure Stopped (request : AdminRequest) (s₀ s : Server) : Prop where
  old : ∀ l L, Runs s l L → Runs s₀ l L
  runs : ∀ l L, Runs s₀ l L → Takes s₀ request L → (Runs s l L ↔ ¬ InReach s₀ l L)

/-- What the handler has done where it stands. -/
def Standing (env : Env) (s₀ s : Server) : Admin → Prop
  | .idle => SameNet s₀ s
  | .running request stage => s.clients = (handle env s₀.clients request .done).2 ∧
      (Starting request s₀ s ∧ Starts request s.clients stage ∨
        SameLoops s₀ s ∧ Stops request s₀ stage)
  | .done request response => response = .ok →
      s.clients = (handle env s₀.clients request .done).2 ∧
        (Starting request s₀ s ∨ Stopped request s₀ s)

section Standing

variable {env : Env} {s₀ s s' t : Server} {request : AdminRequest} {stage : AdminStage}

theorem SameLoops.refl (s : Server) : SameLoops s s := ⟨rfl, rfl, fun _ _ => .rfl⟩

theorem SameLoops.trans (h : SameLoops s₀ s) (h' : SameLoops s t) : SameLoops s₀ t where
  sessions := h'.sessions.trans h.sessions
  listeners := h'.listeners.trans h.listeners
  runs l L := (h'.runs l L).trans (h.runs l L)

theorem Starting.of_same (h : SameLoops s₀ s) (hoff : request.turnsOff = false) :
    Starting request s₀ s := ⟨hoff, fun l L hL => .inl ((h.runs l L).mp hL)⟩

/-- The steps of the other tasks change nothing of it. -/
theorem Standing.aside {a : Admin} (h : Standing env s₀ s a) (hsame : SameNet s t) :
    Standing env s₀ t a := by
  have starting : ∀ {request}, Starting request s₀ s → Starting request s₀ t := by
    intro request h
    refine ⟨h.request, fun l L hL => ?_⟩
    rw [hsame.clients]
    exact h.runs l L ((hsame.runs l L).mp hL)
  cases a with
  | idle =>
    have h : SameNet s₀ s := h
    exact ⟨h.toSameLoops.trans hsame.toSameLoops, hsame.clients.trans h.clients⟩
  | running request stage =>
    obtain ⟨hclients, ⟨hstarting, hstarts⟩ | ⟨hloops, hstops⟩⟩ := h
    · exact ⟨hsame.clients.trans hclients, .inl ⟨starting hstarting, hsame.clients ▸ hstarts⟩⟩
    · exact ⟨hsame.clients.trans hclients, .inr ⟨hloops.trans hsame.toSameLoops, hstops⟩⟩
  | done request response =>
    intro hok
    obtain ⟨hclients, hstarting | hstopped⟩ := h hok
    · exact ⟨hsame.clients.trans hclients, .inl (starting hstarting)⟩
    · refine ⟨hsame.clients.trans hclients, .inr ⟨fun l L hL => ?_, fun l L hL htakes => ?_⟩⟩
      · exact hstopped.old l L ((hsame.runs l L).mp hL)
      · exact (hsame.runs l L).trans (hstopped.runs l L hL htakes)

theorem Standing.setAdmin {r : RequestId} {a a' : Admin} (h : Standing env s₀ s a) :
    Standing env s₀ (s.setAdmin r a') a :=
  h.aside ⟨⟨rfl, rfl, fun _ _ => .rfl⟩, rfl⟩

/-- What the request takes off is what it concerns. -/
theorem concerned_of_takes {L : AcceptLoop} (h : Takes s₀ request L) :
    request.turnsOff = true ∧ request.concerns (L.mapping.route L.clientId) = true := by
  rcases h with htakes | ⟨client, _, hid, htakes⟩
  · exact htakes.turnsOff
  · rw [← hid]
    exact htakes.turnsOff

/-! ### The operation on the store -/

theorem ofChanged_ne_ok (changed : Except Error Bool) (go : AdminStage) :
    Next.ofChanged changed go ≠ .answer .ok := by
  unfold Next.ofChanged
  split <;> nofun

/-- A request that is answered `Ok` at once has saved, and starts and stops nothing. -/
theorem handle_ok {clients : ClientStore} {io : Outcome}
    (h : (handle env clients request io).1 = .answer .ok) :
    request.turnsOff = false ∧ io = .done := by
  cases request with
  | createClient name token id now =>
    refine ⟨rfl, ?_⟩
    unfold handle at h
    simp only at h
    split at h
    · cases h
    · simp only at h
      split at h
      · next hok => exact (ClientStore.persistThen_ok.mp hok).1
      · cases h
  | regenerateToken id token =>
    refine ⟨rfl, ?_⟩
    unfold handle at h
    simp only at h
    split at h
    · next hok =>
      unfold ClientStore.regenerateToken at hok
      split at hok
      · exact (ClientStore.persistThen_ok.mp hok).1
      · cases hok
    · cases h
    · cases h
  | createMapping clientId name remotePort localAddr id now =>
    rcases createMapping_cases env clients clientId name remotePort localAddr id now io with
      ⟨_, hnot, heq⟩ | ⟨_, _, ⟨_, heq⟩ | ⟨_, heq⟩⟩ <;> rw [heq] at h <;> cases h
    exact absurd rfl hnot
  | updateClient id enabled => exact absurd h (ofChanged_ne_ok _ _)
  | deleteClient id => exact absurd h (ofChanged_ne_ok _ _)
  | updateMapping id enabled => exact absurd h (ofChanged_ne_ok _ _)
  | deleteMapping id => exact absurd h (ofChanged_ne_ok _ _)

/-- The mapping that `create_mapping` goes on with is on record. -/
theorem adding_recorded {clients : ClientStore} {io : Outcome} {st : Starter} {underRead : Bool}
    (h : (handle env clients request io).1 = .go (.adding st underRead)) :
    Starts request (handle env clients request io).2 (.adding st underRead) := by
  obtain ⟨clientId, name, remotePort, localAddr, id, now, _, rfl, hany, hlist⟩ := handle_adding h
  intro m hm
  cases List.mem_singleton.mp (hm.resolve_right nofun)
  obtain ⟨pre, client, post, _, hid, hupdate⟩ := updateFirst_split hany
  rw [hlist, hupdate]
  exact ⟨_, List.mem_append_right _ List.mem_cons_self, by simpa using hid, _,
    List.mem_append_right _ (List.mem_singleton_self _), rfl, rfl⟩

theorem standing_submit {io : Outcome} (h : SameNet s₀ s)
    (hclients : t.clients = (handle env s.clients request io).2) (hloops : SameLoops s t) :
    Standing env s₀ t ((handle env s.clients request io).1.toAdmin request) := by
  have hloops := h.toSameLoops.trans hloops
  rw [h.clients] at hclients ⊢
  cases hnext : (handle env s₀.clients request io).1 with
  | answer response =>
    rintro rfl
    obtain ⟨hoff, rfl⟩ := handle_ok hnext
    exact ⟨hclients, .inl (.of_same hloops hoff)⟩
  | go stage =>
    obtain ⟨rfl, hgoes⟩ := handle_go hnext
    refine ⟨hclients, ?_⟩
    rw [hclients]
    cases hgoes with
    | enableClient => exact .inl ⟨.of_same hloops rfl, trivial⟩
    | enableMapping => exact .inl ⟨.of_same hloops rfl, rfl⟩
    | createMapping => exact .inl ⟨.of_same hloops rfl, adding_recorded hnext⟩
    | disableClient => exact .inr ⟨hloops, rfl⟩
    | deleteClient => exact .inr ⟨hloops, rfl⟩
    | disableMapping => exact .inr ⟨hloops, rfl⟩
    | deleteMapping => exact .inr ⟨hloops, rfl⟩

/-! ### Starting loops -/

/-- The mapping that `update_mapping` finds again is the one it has enabled. -/
theorem found_recorded (hr : Reachable (Step env) Init s₀) {id c : String} {m : PortMapping}
    {io : Outcome}
    (hfind : (handle env s₀.clients (.updateMapping id true) io).2.findMapping id = some (c, m)) :
    Recorded (handle env s₀.clients (.updateMapping id true) io).2.list c m.id := by
  obtain ⟨hroute, hid⟩ := findMapping_mem hfind
  obtain ⟨client', hclient', m', hm', hroute⟩ := mem_routes.mp hroute
  have hmid : m'.id = m.id := congrArg Route.mappingId hroute
  refine ⟨client', hclient', congrArg Route.clientId hroute, m', hm', hmid, ?_⟩
  rw [show (handle env s₀.clients (.updateMapping id true) io).2.list = _ from
    s₀.clients.setMappingEnabled_list io id true] at hclient'
  obtain ⟨client, hclient, rfl⟩ := List.mem_map.mp hclient'
  obtain ⟨_, _, rfl⟩ := mem_updateFirst_key
    (mappingIds_nodup (ledger_reachable hr).routes_nodup hclient) hm' (hmid.trans hid)
  rfl

/-- `start_client_listeners` takes mappings that are on record. -/
theorem todo_recorded (clients : ClientStore) (c : String) {underRead : Bool} :
    Starts request clients (.adding (startClientListeners clients c) underRead) := by
  intro m hm
  have hm := hm.resolve_right nofun
  unfold startClientListeners at hm ⊢
  simp only at hm ⊢
  split at hm
  · next client hfind =>
    obtain ⟨hm, hen⟩ := List.mem_filter.mp hm
    exact ⟨client, List.mem_of_find?_eq_some hfind, by simpa using List.find?_some hfind, m, hm,
      rfl, hen⟩
  · cases hm

/-- `update_mapping` starts the mapping that it finds, or nothing. -/
theorem standing_findMapping (hr : Reachable (Step env) Init s₀) {id : String}
    (hclients : s.clients = (handle env s₀.clients (.updateMapping id true) .done).2)
    (h : Starting (.updateMapping id true) s₀ s) :
    Standing env s₀ s ((afterFindMapping s.clients id).toAdmin (.updateMapping id true)) := by
  unfold afterFindMapping
  cases hfound : s.clients.findMapping id with
  | none => exact fun _ => ⟨hclients, .inl h⟩
  | some x =>
    refine ⟨hclients, .inl ⟨h, fun m hm => ?_⟩⟩
    cases List.mem_singleton.mp (hm.resolve_right nofun)
    rw [hclients] at hfound ⊢
    exact found_recorded hr hfound

/-- A call of `add_listener` spawns a loop for a mapping on record, or none. -/
theorem starting_add {st st' : Starter} {a : AddEvent} {underRead : Bool}
    (h : Starting request s₀ s) (hstarts : Starts request s.clients (.adding st underRead))
    (hadd : AddStep s st a s' st') :
    Starting request s₀ s' ∧ Starts request s'.clients (.adding st' underRead) := by
  have hclients : s'.clients = s.clients := by rw [hadd.frame]
  refine ⟨⟨h.request, ?_⟩, ?_⟩
  · rintro l L ⟨hL, hrunning⟩
    rw [hclients]
    rcases hadd.loop hL with hold | ⟨_, m, k, _, hspawn⟩
    · exact h.runs l L ⟨hold, hrunning⟩
    · rw [hspawn.loop]
      exact .inr (hstarts m (.inr (by rw [hspawn.stage]; rfl)))
  · obtain ⟨hclient, hmappings, _⟩ := hadd.keeps
    intro m hm
    rw [hclients, hclient]
    exact hstarts m (hmappings m hm)

/-! ### Stopping loops -/

theorem runs_abort {p : LoopId → Bool} {l : LoopId} {L : AcceptLoop} :
    Runs (s.abort p) l L ↔ Runs s l L ∧ p l = false := by
  constructor
  · rintro ⟨hL, hrunning⟩
    cases hp : p l with
    | true =>
      rw [aborted_of_abort hp hL] at hrunning
      cases hrunning
    | false =>
      obtain ⟨L₀, hL₀, hsame⟩ := abort_loops hL
      cases hsame.eq hrunning
      exact ⟨⟨hL₀, hrunning⟩, rfl⟩
  · rintro ⟨⟨hL, hrunning⟩, hp⟩
    refine ⟨(abort_running hL).resolve_right fun h => ?_, hrunning⟩
    rw [hp] at h
    cases h

/-- A handle in the registered session `k` is that of a loop in reach. -/
theorem inReach_of_handle (hr : Reachable (Step env) Init s₀) {c id : String} {info : SessionInfo}
    (hlookup : s₀.sessions.lookup c = some info) {l : LoopId} {L : AcceptLoop}
    (hL : s₀.loops l = some L) (hhandle : (s₀.listeners info.sessionId).lookup id = some l) :
    InReach s₀ l L := by
  obtain ⟨hsession, hid⟩ := ((handles_reachable hr).handle _ id l hhandle).2 L hL
  have hauth := (listening_reachable hr).loop_session l L hL
  rw [hsession] at hauth
  cases AuthenticatedAs.unique (authenticatedAs_of_lookup hr hlookup) hauth
  refine ⟨⟨info, hlookup, hsession.symm⟩, ?_⟩
  rw [hsession, hid]
  exact hhandle

/-- The handle that `remove_listener` finds is that of the loop in reach. -/
theorem removed_iff (hr : Reachable (Step env) Init s₀) {c id : String} {info : SessionInfo}
    (hlookup : s₀.sessions.lookup c = some info) {l l₁ : LoopId} {L : AcceptLoop}
    (hL : s₀.loops l = some L) (hid : L.mapping.id = id)
    (hhandle : (s₀.listeners info.sessionId).lookup id = some l₁) :
    InReach s₀ l L ↔ l = l₁ := by
  constructor
  · rintro ⟨hregistered, hown⟩
    -- the session with the handle is one of the owner of the mapping
    obtain ⟨route, hroute, hrid, hauth⟩ := (handles_reachable hr).owner _ id l₁ hhandle
    cases AuthenticatedAs.unique (authenticatedAs_of_lookup hr hlookup) hauth
    have hclient := congrArg Route.clientId (loop_route_eq hr hL hroute (hrid.trans hid.symm))
    rw [← show L.clientId = route.clientId from hclient] at hlookup
    rw [hregistered.session_eq hlookup, hid, hhandle] at hown
    exact (Option.some.inj hown).symm
  · rintro rfl
    exact inReach_of_handle hr hlookup hL hhandle

theorem stopped_of_none (hloops : SameLoops s₀ s)
    (h : ∀ l L, Runs s₀ l L → Takes s₀ request L → ¬ InReach s₀ l L) :
    Stopped request s₀ s where
  old l L hL := (hloops.runs l L).mp hL
  runs l L hL htakes := (hloops.runs l L).trans (iff_of_true hL (h l L hL htakes))

/-- The loops that `p` selects are aborted. -/
theorem stopped_of_abort {p : LoopId → Bool} (hloops : SameLoops s₀ s)
    (hruns : ∀ l L, Runs t l L ↔ Runs (s.abort p) l L)
    (h : ∀ l L, Runs s₀ l L → Takes s₀ request L → (InReach s₀ l L ↔ p l = true)) :
    Stopped request s₀ t where
  old l L hL := (hloops.runs l L).mp (runs_abort.mp ((hruns l L).mp hL)).1
  runs l L hL htakes := by
    rw [hruns, runs_abort, hloops.runs, h l L hL htakes, Bool.not_eq_true]
    exact and_iff_right hL

/-- The stages that stop listeners belong to requests that start none, and the other way
round. -/
theorem Standing.stops (h : Standing env s₀ s (.running request stage))
    (hnot : ¬ Starts request s.clients stage) :
    s.clients = (handle env s₀.clients request .done).2 ∧ SameLoops s₀ s ∧
      Stops request s₀ stage :=
  ⟨h.1, h.2.resolve_left fun h => hnot h.2⟩

theorem Standing.starts (h : Standing env s₀ s (.running request stage))
    (hnot : ¬ Stops request s₀ stage) :
    s.clients = (handle env s₀.clients request .done).2 ∧ Starting request s₀ s ∧
      Starts request s.clients stage :=
  ⟨h.1, h.2.resolve_right fun h => hnot h.2⟩

/-- `remove_listener` collected the sessions. -/
theorem stops_collect {id : String} {arcs : List SessionId}
    (hloops : SameLoops s₀ s) (hstops : Stops request s₀ (.removeListener id))
    (hperm : arcs.Perm (s.sessions.entries.map fun x => x.2.sessionId)) :
    Stops request s₀ (.removing id arcs) := by
  refine ⟨hstops, fun k hk => ?_, fun c info hlookup => ?_⟩
  · rw [← hloops.sessions]
    exact (mem_collected hperm).mp hk
  · rw [← hloops.sessions] at hlookup
    exact .inl ((mem_collected hperm).mpr ⟨c, info, hlookup, rfl⟩)

/-- `remove_listener` found no handle in session `k`. -/
theorem stops_removeMiss {id : String} {k : SessionId} {arcs : List SessionId}
    (hloops : SameLoops s₀ s) (hstops : Stops request s₀ (.removing id (k :: arcs)))
    (hmiss : (s.listeners k).lookup id = none) : Stops request s₀ (.removing id arcs) := by
  obtain ⟨hconcerns, hregistered, hmissed⟩ := hstops
  refine ⟨hconcerns, fun k' hk' => hregistered k' (List.mem_cons_of_mem _ hk'),
    fun c info hlookup => ?_⟩
  rcases hmissed c info hlookup with hmem | hnone
  · rcases List.mem_cons.mp hmem with rfl | hmem
    · rw [hloops.listeners] at hmiss
      exact .inr hmiss
    · exact .inl hmem
  · exact .inr hnone

/-- `remove_listener` found the handle in session `k`. -/
theorem stopped_removeIn (hr : Reachable (Step env) Init s₀) {id : String} {k : SessionId}
    {arcs : List SessionId} {l : LoopId} (hloops : SameLoops s₀ s)
    (hstops : Stops request s₀ (.removing id (k :: arcs)))
    (hhandle : (s.listeners k).lookup id = some l) {a : Admin} {r : RequestId} :
    Stopped request s₀ ((s.removeHandle k id l).setAdmin r a) := by
  obtain ⟨hconcerns, hregistered, _⟩ := hstops
  obtain ⟨c, info, hlookup, rfl⟩ := hregistered k List.mem_cons_self
  rw [hloops.listeners] at hhandle
  refine stopped_of_abort (p := (· == l)) hloops (fun _ _ => .rfl) fun l' L hL htakes => ?_
  have hconcerned := (concerned_of_takes htakes).2
  rw [hconcerns] at hconcerned
  rw [removed_iff hr hlookup hL.1 (beq_iff_eq.mp hconcerned) hhandle, beq_iff_eq]

/-- `remove_listener` found no handle. -/
theorem stopped_removeNowhere {id : String} (hloops : SameLoops s₀ s)
    (hstops : Stops request s₀ (.removing id [])) : Stopped request s₀ s := by
  obtain ⟨hconcerns, _, hmissed⟩ := hstops
  refine stopped_of_none hloops fun l L hL htakes => ?_
  rintro ⟨⟨info, hlookup, hsession⟩, hhandle⟩
  have hconcerned := (concerned_of_takes htakes).2
  rw [hconcerns] at hconcerned
  rcases hmissed _ info hlookup with hmem | hnone
  · cases hmem
  · rw [← hsession, show L.mapping.id = id from beq_iff_eq.mp hconcerned, hnone] at hhandle
    cases hhandle

/-- `remove_client_listeners` found no session. -/
theorem stopped_offline {id : String} (hloops : SameLoops s₀ s)
    (hstops : Stops request s₀ (.removeClient id)) (hnone : s.sessions.lookup id = none) :
    Stopped request s₀ s := by
  refine stopped_of_none hloops fun l L hL htakes => ?_
  rintro ⟨⟨info, hlookup, _⟩, _⟩
  have hconcerned := (concerned_of_takes htakes).2
  rw [show request.concerns = _ from hstops] at hconcerned
  rw [← hloops.sessions, show L.clientId = id from beq_iff_eq.mp hconcerned, hnone] at hlookup
  cases hlookup

/-- `remove_client_listeners` drained the session of the client. -/
theorem stopped_drain (hr : Reachable (Step env) Init s₀) {k : SessionId}
    (hloops : SameLoops s₀ s) (hstops : Stops request s₀ (.draining k)) {a : Admin}
    {r : RequestId} : Stopped request s₀ ((s.drainListeners k).setAdmin r a) := by
  obtain ⟨c, info, hconcerns, hlookup, rfl⟩ := hstops
  refine stopped_of_abort (p := fun l =>
    (s.listeners info.sessionId).entries.any fun x => x.2 == l) hloops (fun _ _ => .rfl)
    fun l L hL htakes => ?_
  rw [hloops.listeners]
  constructor
  · rintro ⟨hregistered, hhandle⟩
    have hconcerned := (concerned_of_takes htakes).2
    rw [hconcerns] at hconcerned
    rw [← show L.clientId = c from beq_iff_eq.mp hconcerned] at hlookup
    rw [hregistered.session_eq hlookup] at hhandle
    exact List.any_eq_true.mpr ⟨_, AList.mem_lookup_iff.mp hhandle, beq_self_eq_true l⟩
  · intro hany
    obtain ⟨id, hhandle⟩ := lookup_of_any hany
    exact inReach_of_handle hr hlookup hL.1 hhandle

/-- What one step does to where the handler stands. -/
theorem standing_step {r : RequestId} {e : Event} (hr : Reachable (Step env) Init s₀)
    (h : Standing env s₀ s (s.admins r)) (hs : Along env r s e t) :
    Standing env s₀ t (t.admins r) := by
  rcases hs with ⟨e', rfl, hs⟩ | ⟨_, hadmin, hsame⟩
  case inr =>
    rw [hadmin]
    exact h.aside hsame
  have hself : ∀ (s : Server) (a : Admin), (s.setAdmin r a).admins r = a :=
    fun s a => Function.update_self ..
  cases hs with
  | submit hidle _ _ =>
    rw [hidle] at h
    rw [hself]
    exact standing_submit h rfl ⟨rfl, rfl, fun _ _ => .rfl⟩
  | findMapping hfind =>
    rw [hfind] at h
    obtain ⟨hclients, hstarting, rfl⟩ := h.starts id
    rw [hself]
    exact (standing_findMapping hr hclients hstarting).setAdmin
  | startClient hstart =>
    rw [hstart] at h
    obtain ⟨hclients, hstarting, _⟩ := h.starts id
    rw [hself]
    exact Standing.setAdmin ⟨hclients, .inl ⟨hstarting, todo_recorded s.clients _⟩⟩
  | @add request st st' underRead a s' hadding hadd =>
    rw [hadding] at h
    obtain ⟨hclients, hstarting, hstarts⟩ := h.starts id
    have hkept : s'.clients = s.clients := by rw [hadd.frame]
    rw [hself]
    exact Standing.setAdmin ⟨hkept.trans hclients, .inl (starting_add hstarting hstarts hadd)⟩
  | added hadding _ _ =>
    rw [hadding] at h
    obtain ⟨hclients, hstarting, _⟩ := h.starts id
    rw [hself]
    exact Standing.setAdmin fun _ => ⟨hclients, .inl hstarting⟩
  | collect hremove hperm =>
    rw [hremove] at h
    obtain ⟨hclients, hloops, hstops⟩ := h.stops id
    rw [hself]
    exact Standing.setAdmin ⟨hclients, .inr ⟨hloops, stops_collect hloops hstops hperm⟩⟩
  | removeIn hremoving hhandle =>
    rw [hremoving] at h
    obtain ⟨hclients, hloops, hstops⟩ := h.stops id
    rw [hself]
    exact fun _ => ⟨hclients, .inr (stopped_removeIn hr hloops hstops hhandle)⟩
  | removeMiss hremoving hmiss =>
    rw [hremoving] at h
    obtain ⟨hclients, hloops, hstops⟩ := h.stops id
    rw [hself]
    exact Standing.setAdmin ⟨hclients, .inr ⟨hloops, stops_removeMiss hloops hstops hmiss⟩⟩
  | removeNowhere hremoving =>
    rw [hremoving] at h
    obtain ⟨hclients, hloops, hstops⟩ := h.stops id
    rw [hself]
    exact Standing.setAdmin fun _ => ⟨hclients, .inr (stopped_removeNowhere hloops hstops)⟩
  | offline hremove hnone =>
    rw [hremove] at h
    obtain ⟨hclients, hloops, hstops⟩ := h.stops id
    rw [hself]
    exact Standing.setAdmin fun _ => ⟨hclients, .inr (stopped_offline hloops hstops hnone)⟩
  | findSession hremove hlookup =>
    rw [hremove] at h
    obtain ⟨hclients, hloops, hconcerns⟩ := h.stops id
    rw [hloops.sessions] at hlookup
    rw [hself]
    exact Standing.setAdmin ⟨hclients, .inr ⟨hloops, _, _, hconcerns, hlookup, rfl⟩⟩
  | drain hdraining =>
    rw [hdraining] at h
    obtain ⟨hclients, hloops, hstops⟩ := h.stops id
    rw [hself]
    exact fun _ => ⟨hclients, .inr (stopped_drain hr hloops hstops)⟩

end Standing

/-! ## Abandoned requests -/

section Abandoned

variable {env : Env} {r : RequestId} {s₀ s : Server} {request : AdminRequest}

theorem aside_run {tr : List (Server × Event × Server)} (hrun : Run (Aside env r) s₀ tr s) :
    SameNet s₀ s :=
  hrun.keeps
    (fun _ _ _ h hs => ⟨h.toSameLoops.trans hs.2.2.toSameLoops, hs.2.2.clients.trans h.clients⟩)
    ⟨.refl s₀, rfl⟩

theorem standing_run {tr : List (Server × Event × Server)} (hr : Reachable (Step env) Init s₀)
    (hidle : s₀.admins r = .idle) (hrun : Run (Along env r) s₀ tr s) :
    Standing env s₀ s (s.admins r) := by
  refine hrun.keeps (fun _ _ _ h hs => standing_step hr h hs) ?_
  rw [hidle]
  exact ⟨.refl s₀, rfl⟩

theorem Starting.takesNone (h : request.turnsOff = false) {L : AcceptLoop} :
    ¬ Takes s₀ request L := by
  intro htakes
  rw [(concerned_of_takes htakes).1] at h
  cases h

/-- A handler that starts listeners leaves everything in agreement at every point. -/
theorem agrees_of_starting (hr : Reachable (Step env) Init s₀) (hagrees : Agrees s₀ s₀)
    (hclients : s.clients = (handle env s₀.clients request .done).2)
    (h : Starting request s₀ s) : Agrees s₀ s := by
  have hdisk := (disk_iff env request .done hagrees.disk).mpr
    fun hne => absurd rfl hne
  rw [← hclients] at hdisk
  refine ⟨hdisk, fun l L hL => ?_, fun l L hL henabled => ?_⟩
  · rcases h.runs l L hL with hold | hnew
    · rw [hclients]
      exact (kept_of_not_takes hr .done (hagrees.mapping l L hold) (Starting.takesNone h.request)).1
    · exact hnew
  · obtain ⟨client, hclient, hid, hon⟩ := henabled
    obtain ⟨client', hclient', hid', henabled, _⟩ := client_kept env .done hclient
      fun htakes => Starting.takesNone h.request (L := L) (.inr ⟨client, hclient, hid, htakes⟩)
    rw [hclients]
    exact ⟨client', hclient', hid'.trans hid, henabled hon⟩

/-- A handler that has stopped what is in reach leaves everything in agreement if
nothing that it takes off was out of reach. -/
theorem agrees_iff_of_stopped (hr : Reachable (Step env) Init s₀) (hagrees : Agrees s₀ s₀)
    (hclients : s.clients = (handle env s₀.clients request .done).2)
    (h : Stopped request s₀ s) :
    Agrees s₀ s ↔ ∀ l L, Runs s₀ l L → Takes s₀ request L → InReach s₀ l L := by
  constructor
  · intro hleft l L hL htakes
    by_contra hnot
    have hL' := (h.runs l L hL htakes).mpr hnot
    exact not_kept_of_takes hr htakes (hclients ▸ hleft.mapping l L hL')
      (hclients ▸ hleft.client l L hL')
  · intro hreach
    have hkept : ∀ l L, Runs s l L → _ := fun l L hL =>
      kept_of_not_takes hr .done
        (hagrees.mapping l L (h.old l L hL)) fun htakes =>
          (h.runs l L (h.old l L hL) htakes).mp hL (hreach l L (h.old l L hL) htakes)
    have hdisk := (disk_iff env request .done hagrees.disk).mpr
      fun hne => absurd rfl hne
    rw [← hclients] at hdisk hkept
    exact ⟨hdisk, fun l L hL => (hkept l L hL).1, fun l L hL => (hkept l L hL).2⟩

/-- A handler is dropped at whichever await: where memory, disk and network agreed when
the request came, they agree afterwards exactly if it was harmless to drop it there. -/
theorem abandoned_exact {p : Point} (hr : Reachable (Step env) Init s₀)
    (hidle : s₀.admins r = .idle) (hagrees : Agrees s₀ s₀) (h : Leaves env r request s₀ p s) :
    Agrees s₀ s ↔ Harmless env request s₀ p := by
  cases h with
  | lock hrun =>
    have hsame := aside_run hrun
    refine iff_of_true ⟨?_, fun l L hL => ?_, fun l L hL => ?_⟩ trivial
    · rw [hsame.clients]
      exact hagrees.disk
    · rw [hsame.clients]
      exact hagrees.mapping l L ((hsame.runs l L).mp hL)
    · rw [hsame.clients]
      exact id
  | saving hrun _ _ _ _ =>
    have hsame := aside_run hrun
    exact agrees_iff hr hagrees (by rw [← hsame.clients]; rfl) hsame.runs
  | @handling _ _ stage hrun hrunning =>
    have hstanding := standing_run hr hidle hrun
    rw [hrunning] at hstanding
    obtain ⟨hclients, ⟨hstarting, _⟩ | ⟨hloops, _⟩⟩ := hstanding
    · exact iff_of_true (agrees_of_starting hr hagrees hclients hstarting)
        fun l L _ => Starting.takesNone hstarting.request
    · exact (agrees_iff hr hagrees hclients hloops.runs).trans
        (and_iff_right fun hne => absurd rfl hne)
  | logging hrun hdone =>
    have hstanding := standing_run hr hidle hrun
    rw [hdone] at hstanding
    obtain ⟨hclients, hstarting | hstopped⟩ := hstanding rfl
    · exact iff_of_true (agrees_of_starting hr hagrees hclients hstarting)
        fun l L _ htakes => absurd htakes (Starting.takesNone hstarting.request)
    · exact agrees_iff_of_stopped hr hagrees hclients hstopped

end Abandoned

/-! ## Runs of the example server -/

theorem agrees_serving : Agrees exampleServing exampleServing := by
  refine ⟨rfl, fun l L hL => ?_, fun _ _ _ h => h⟩
  rw [(example_loop rfl hL.1).2]
  exact ⟨exampleClient, List.mem_singleton_self _, rfl, exampleMapping, List.mem_singleton_self _,
    rfl, rfl⟩

/-- The handler of a request to delete the mapping has been through the store. -/
theorem serving_submit : AdminStep exampleEnv 0 exampleServing
    (.submit (.deleteMapping "map_web") .done)
    ((exampleServing.setClients (handle exampleEnv exampleStore (.deleteMapping "map_web") .done).2)
      |>.setAdmin 0 (.running (.deleteMapping "map_web") (.removeListener "map_web"))) :=
  .submit rfl serving_lock trivial

/-- Dropped at the log, the request to delete the mapping leaves no trace of it. -/
theorem abandoned_exact_deleted :
    ∃ s, Leaves exampleEnv 0 (.deleteMapping "map_web") exampleServing .logging s ∧
      Agrees exampleServing s := by
  have submitted := (@Run.nil _ _ (Along exampleEnv 0) exampleServing).snoc
    (.inl ⟨_, rfl, serving_submit⟩)
  have collected := submitted.snoc
    (.inl ⟨_, rfl, @AdminStep.collect _ 0 _ _ "map_web" [0] rfl (.refl _)⟩)
  have removed := collected.snoc (.inl ⟨_, rfl, .removeIn (r := 0) rfl rfl⟩)
  refine ⟨_, .logging removed rfl,
    (abandoned_exact reachable_serving rfl agrees_serving (.logging removed rfl)).mpr ?_⟩
  intro l L hL _
  obtain ⟨rfl, rfl⟩ := example_loop rfl hL.1
  exact ⟨⟨⟨"cli_home", 0, "198.51.100.7:5000"⟩, rfl, rfl⟩, rfl⟩

/-- A request to delete the mapping, dropped at two awaits of its handler.

* While `remove_listener` waits for the table of sessions: the mapping is gone from the
  memory and the file, and its loop runs on.
* While `persist` writes the temporary file: the mapping is gone from the memory, and the
  file still has it. -/
theorem abandoned_midway :
    Reachable (Step exampleEnv) Init exampleServing ∧ Agrees exampleServing exampleServing ∧
      (∃ s, Leaves exampleEnv 0 (.deleteMapping "map_web") exampleServing
          (.handling (.removeListener "map_web")) s ∧
        Runs s 0 exampleLoop ∧ load s.clients.file = some s.clients.list ∧
        ¬ Recorded s.clients.list "cli_home" "map_web" ∧ ¬ Agrees exampleServing s) ∧
      ∃ s, Leaves exampleEnv 0 (.deleteMapping "map_web") exampleServing
          (.saving .write .renameFailed) s ∧
        load s.clients.file ≠ some s.clients.list ∧ ¬ Agrees exampleServing s := by
  have hnone : ∀ {io}, ¬ Recorded
      (handle exampleEnv exampleStore (.deleteMapping "map_web") io).2.list
      "cli_home" "map_web" := by
    rintro io ⟨client, hclient, _, m, hm, hid, _⟩
    rw [show (handle exampleEnv exampleStore (.deleteMapping "map_web") io).2.list = _ from
      exampleStore.deleteMapping_list io "map_web"] at hclient
    obtain ⟨_, _, rfl⟩ := List.mem_map.mp hclient
    have hne := (List.mem_filter.mp hm).2
    rw [hid] at hne
    cases hne
  refine ⟨reachable_serving, agrees_serving, ?_, ?_⟩
  · have submitted := (@Run.nil _ _ (Along exampleEnv 0) exampleServing).snoc
      (.inl ⟨_, rfl, serving_submit⟩)
    exact ⟨_, .handling submitted rfl, ⟨rfl, rfl⟩, rfl, hnone,
      fun h => hnone (h.mapping 0 exampleLoop ⟨rfl, rfl⟩)⟩
  · have hdisk : load (handle exampleEnv exampleStore (.deleteMapping "map_web")
        .renameFailed).2.file ≠
        some (handle exampleEnv exampleStore (.deleteMapping "map_web") .renameFailed).2.list := by
      decide
    exact ⟨_, .saving (@Run.nil _ _ (Aside exampleEnv 0) _) serving_lock trivial (by decide)
      (.inl rfl), hdisk, fun h => hdisk h.disk⟩

end MiniMask.Tunnel.Abandoned
