import MiniMask.Startup
import MiniMask.Store.Credentials

/-!
# Tokens across restarts (`server.rs`, `run`; `state.rs`, `ClientStore`)

The server over all its starts: a start gets the token pepper, loads `clients.json` and serves
operations, each of which changes the list in memory and saves it. A save can fail, a load can
fail, and the process can die at any point; the next start has the files as they are.

* `token_survives`: a token that was handed out works in every later start exactly while its
  client is enabled, until the client is deleted or gets another token.
* `revoked_for_good`: once the answer to a deletion or to another token is out, no earlier
  token of the client works in any later start.

Neither asks that no start dies too early: whatever pepper the first one gets, all get
(`one_pepper`).
-/

namespace MiniMask

open AtomicFile
open FailedSaves (Reply)
namespace Restarts

open Lts Credentials
open Tunnel (trim)

/-! ## The server over all its starts -/

structure State where
  boot : Startup.State
  clients : Crash.State

inductive Event
  | boot (e : Startup.Event)
  | clients (e : Crash.Event)
  | saveFails (op : ClientOp)
  | loadFails
  | dies
deriving DecidableEq, Repr

/-- The operation that the event calls. -/
def Event.called : Event → List ClientOp
  | .clients e => e.called
  | _ => []

/-- Both parts are down. -/
def State.die (s : State) : State where
  boot := { s.boot with phase := .down }
  clients := { s.clients with proc := .down s.clients.proc.before s.clients.proc.after }

section Model

variable (engine : Startup.UrlSafeNoPad) (configured : String)
  (sha256HexWithPepper : String → String → String)

/-- One step of the server. It serves with the pepper of its start; a save that fails leaves
the change in memory, and a load that fails ends the start. -/
inductive Step (s : State) : Event → State → Prop
  | boot {e : Startup.Event} {b : Startup.State} :
      e ≠ .dies → Startup.Step engine configured s.boot e b →
      Step s (.boot e) { s with boot := b }
  | clients {e : Crash.Event} {p : Startup.Secrets} {c : Crash.State} :
      s.boot.phase = .running → s.boot.passes.getLast? = some p → e ≠ .kill →
      Crash.Step sha256HexWithPepper p.tokenPepper s.clients e c →
      Step s (.clients e) { s with clients := c }
  | saveFails {op : ClientOp} {before list : List Client} {reply : Reply} {stage : Stage} :
      s.clients.proc = .saving op before list reply stage → stage ≠ .saved →
      Step s (.saveFails op) { s with clients := { s.clients with proc := .idle list } }
  | loadFails {before after : List Client} {io : LoadOutcome} {e : LoadError}
      {files : Files (List Client)} :
      s.boot.phase = .running → s.clients.proc = .down before after →
      ClientStore.load s.clients.files io = (.error e, files) →
      Step s .loadFails { s.die with clients := { s.die.clients with files } }
  | dies : s.boot.phase ≠ .down → Step s .dies s.die

end Model

/-- A data directory without clients, and no start has got past. -/
structure Init (s : State) : Prop where
  phase : s.boot.phase = .down
  passes : s.boot.passes = []
  proc : s.clients.proc = .down [] []
  files : s.clients.files.main = none ∨ s.clients.files.main = some (.doc [])

/-- The server has loaded its clients, and no operation is in progress. -/
def State.Serves (s : State) : Prop := ∃ list, s.clients.proc = .idle list

/-- `verify_token` of the server, with the pepper of its start. -/
def State.verifyToken (sha256HexWithPepper : String → String → String) (s : State)
    (token : String) : Option (String × Bool) :=
  match s.clients.proc, s.boot.passes.getLast? with
  | .idle list, some p =>
    ClientStore.verifyToken sha256HexWithPepper { list, file := s.clients.files } token
      p.tokenPepper
  | _, _ => none

/-- The client `c` is in the store and enabled. -/
def State.enabled (s : State) (c : String) : Bool :=
  match s.clients.proc with
  | .idle list => list.any fun client => client.id == c && client.enabled
  | _ => false

/-- All operations that a run calls. -/
def called (tr : List (State × Event × State)) : List ClientOp := tr.flatMap fun x => x.2.1.called

/-! ## What is in memory and in the file -/

/-- All lists that the process has or can load satisfy `P`. -/
structure Lists (P : List Client → Prop) (s : Crash.State) : Prop where
  before : P s.proc.before
  after : P s.proc.after
  disk : ∀ list, s.files.main = some (.doc list) → P list

/-- What a save has written so far. -/
def Staged (s : Crash.State) : Prop :=
  match s.proc with
  | .saving _ _ list _ .written => s.files.tmp = some (.doc list)
  | .saving _ _ list _ .saved => s.files.main = some (.doc list)
  | _ => True

/-- What the operation in progress has done. -/
def Begun (sha256HexWithPepper : String → String → String) (pepper : String) (s : Crash.State) :
    Prop :=
  ∀ op before list reply stage, s.proc = .saving op before list reply stage →
    list = Crash.applied sha256HexWithPepper pepper before op ∧
      ∀ c token, op.grant = some (c, token) → ∃ k ∈ list.map Client.credential,
        k.id = c ∧ k.digest = sha256HexWithPepper token pepper

section Crashes

variable {hash : String → String → String} {pepper : String} {P Q : List Client → Prop}
  {s t : Crash.State} {e : Crash.Event} {before list : List Client} {reply : Reply}
  {files : Files (List Client)} {op : ClientOp}

theorem list_of_begin (h : ∀ io, ClientStore.exec hash pepper { list := before, file := files } op
    io = ({ list, file := files } : ClientStore).persistThen io reply) :
    list = Crash.applied hash pepper before op := by
  rw [← Crash.list_exec_eq files .done, h, ClientStore.persistThen_list]

/-- An operation that saves has put the digest of its token on its client. -/
theorem held_of_begin (h : ∀ io, ClientStore.exec hash pepper { list := before, file := files } op
    io = ({ list, file := files } : ClientStore).persistThen io reply) {c token : String}
    (hgrant : op.grant = some (c, token)) :
    ∃ k ∈ list.map Client.credential, k.id = c ∧ k.digest = hash token pepper := by
  rw [list_of_begin h, credentials_applied]
  cases op with
  | addClient name u id now =>
    cases hgrant
    exact ⟨_, List.mem_append_right _ (List.mem_singleton_self _), rfl, rfl⟩
  | regenerateToken id u =>
    cases hgrant
    cases hfound : before.any fun client => client.id == c with
    | false =>
      -- an unknown id is refused before the save, so it does not depend on `io`
      have hrefused := h .renameFailed
      simp only [ClientStore.exec, ClientStore.regenerateToken, hfound] at hrefused
      cases congrArg Prod.fst hrefused
    | true =>
      obtain ⟨client, hclient, hid⟩ := List.any_eq_true.mp hfound
      have hany : ((before.map Client.credential).any fun k => k.id == c) = true :=
        List.any_eq_true.mpr ⟨_, List.mem_map_of_mem hclient, hid⟩
      obtain ⟨pre, k, post, _, hk, heq⟩ := updateFirst_split
        (f := fun k : Credential => { k with digest := hash token pepper }) hany
      refine ⟨{ k with digest := hash token pepper }, ?_, eq_of_beq hk, rfl⟩
      rw [ClientOp.onCredentials, heq]
      exact List.mem_append_right _ List.mem_cons_self
  | deleteClient => cases hgrant
  | setClientEnabled => cases hgrant
  | addMapping => cases hgrant
  | deleteMapping => cases hgrant
  | setMappingEnabled => cases hgrant

theorem staged_crash (h : Staged s) (hs : Crash.Step hash pepper s e t) : Staged t := by
  cases hs with
  | refuse _ _ => exact h
  | begin _ _ => trivial
  | disk hproc hsave =>
    rw [Staged, hproc] at h
    cases hsave with
    | truncate => trivial
    | writePart => trivial
    | writeRest => rfl
    | rename => exact h
  | answer _ => trivial
  | kill => trivial
  | load _ _ => trivial

theorem begun_crash (h : Begun hash pepper s) (hs : Crash.Step hash pepper s e t) :
    Begun hash pepper t := by
  intro op before list reply stage hsaving
  cases hs with
  | refuse _ _ => exact h op before list reply stage hsaving
  | begin _ hexec =>
    cases hsaving
    exact ⟨list_of_begin hexec, fun _ _ hgrant => held_of_begin hexec hgrant⟩
  | disk hproc _ =>
    cases hsaving
    exact h _ _ _ _ _ hproc
  | answer _ => cases hsaving
  | kill => cases hsaving
  | load _ _ => cases hsaving

/-- What holds of all lists, and of a list that an operation makes of one, holds of all lists
after a step. -/
theorem lists_crash (hstaged : Staged s) (h : Lists P s) (hs : Crash.Step hash pepper s e t)
    (hnil : s.files.main = none → P []) (hmono : ∀ list, P list → Q list)
    (hop : ∀ op ∈ e.called, ∀ list, P list → Q (Crash.applied hash pepper list op)) :
    Lists Q t := by
  have hdisk : ∀ list, s.files.main = some (.doc list) → Q list := fun list hmain =>
    hmono _ (h.disk list hmain)
  cases hs with
  | refuse _ _ => exact ⟨hmono _ h.before, hmono _ h.after, hdisk⟩
  | @begin op before list reply hproc hexec =>
    have hbefore : P before := by
      have hp := h.before
      rwa [hproc] at hp
    refine ⟨hmono _ hbefore, ?_, hdisk⟩
    show Q list
    rw [list_of_begin hexec]
    exact hop op (List.mem_singleton_self op) before hbefore
  | @disk op before list reply stage stage' files' hproc hsave =>
    obtain ⟨hbefore, hafter, -⟩ := h
    rw [hproc] at hbefore hafter
    rw [Staged, hproc] at hstaged
    refine ⟨hmono _ hbefore, hmono _ hafter, ?_⟩
    cases hsave with
    | truncate => exact hdisk
    | writePart => exact hdisk
    | writeRest => exact hdisk
    | rename =>
      intro list' hmain
      cases hstaged.symm.trans hmain
      exact hmono _ hafter
  | @answer op before list reply hproc =>
    have hafter := h.after
    rw [hproc] at hafter
    exact ⟨hmono _ hafter, hmono _ hafter, hdisk⟩
  | kill => exact ⟨hmono _ h.before, hmono _ h.after, hdisk⟩
  | @load before after store files' hproc hload =>
    obtain ⟨_, hmain, hold⟩ := ClientStore.load_ok hload
    have hlist : Q store.list := by
      -- `load` reads the file, or makes one without clients
      rcases hold with hdoc | ⟨hnone, hempty⟩
      · exact hdisk _ hdoc
      · exact hempty ▸ hmono _ (hnil hnone)
    refine ⟨hlist, hlist, fun list hdoc => ?_⟩
    cases hmain.symm.trans hdoc
    exact hlist

end Crashes

/-! ## Steps of the server -/

/-- What holds in every state: a server that has clients in memory has got past with a pepper,
and every start gets the same one. -/
structure Sound (configured : String) (s : State) : Prop where
  staged : Staged s.clients
  up : (∃ before after, s.clients.proc = .down before after) ∨
    s.boot.phase = .running ∧ s.boot.passes ≠ []
  boot : Startup.Sound configured s.boot
  pepper : s.boot.passes ≠ [] → ∃ v, Startup.Settled configured .tokenPepper v 0 s.boot

/-- `v` is the pepper of all starts that got past. -/
def Peppered (v : String) (s : State) : Prop := ∀ p ∈ s.boot.passes, p.tokenPepper = v

section Steps

variable {engine : Startup.UrlSafeNoPad} {configured v : String} {hash : String → String → String}
  {s t : State} {e : Event}

/-- A load leaves a file that is there as it is. -/
theorem load_there {files : Files (List Client)} {io : LoadOutcome} (h : files.main ≠ none) :
    (ClientStore.load files io).2 = files := by
  show (loadOr (some []) files io).2 = files
  unfold loadOr
  cases hmain : files.main with
  | none => exact absurd hmain h
  | some text =>
    cases io with
    | failed after => rfl
    | done => cases text <;> rfl

/-- A load that fails leaves the file that was there, or an empty list at most. -/
theorem load_error {files files' : Files (List Client)} {io : LoadOutcome} {err : LoadError}
    (h : ClientStore.load files io = (.error err, files')) {list : List Client}
    (hmain : files'.main = some (.doc list)) :
    files.main = some (.doc list) ∨ files.main = none ∧ list = [] := by
  have hfiles : (ClientStore.load files io).2 = files' := congrArg Prod.snd h
  cases hold : files.main with
  | some text =>
    have hthere : files.main ≠ none := hold ▸ Option.some_ne_none text
    rw [← hfiles, load_there hthere, hold] at hmain
    exact .inl hmain
  | none =>
    rw [← hfiles] at hmain
    change (loadOr (some []) files io).2.main = some (.doc list) at hmain
    unfold loadOr at hmain
    rw [hold] at hmain
    refine .inr ⟨rfl, ?_⟩
    cases io with
    | done => cases hmain; rfl
    | failed after =>
      cases after with
      | untouched => cases hold.symm.trans hmain
      | torn => cases hmain
      | whole => cases hmain; rfl

/-- The first start that gets past settles the pepper. -/
theorem settled_boot {b b' : Startup.State} {e : Startup.Event}
    (hsound : Startup.Sound configured b)
    (h : b.passes ≠ [] → ∃ v, Startup.Settled configured .tokenPepper v 0 b)
    (hs : Startup.Step engine configured b e b') (hany : b'.passes ≠ []) :
    ∃ v, Startup.Settled configured .tokenPepper v 0 b' := by
  by_cases hfirst : b.passes = []
  · have hobtain : ∀ {f : Startup.SecretFile} {jwt value content : String},
        (b.obtain f jwt value).passes ≠ [] → b.files f = some content →
        trim content = value →
        ∃ v, Startup.Settled configured .tokenPepper v 0 (b.obtain f jwt value) := by
      intro f jwt value content hne hfile hvalue
      cases f with
      | jwtSecret => exact absurd hfirst hne
      | tokenPepper =>
        have hsource : (b.files .tokenPepper).map trim = some value := by
          rw [hfile, Option.map_some, hvalue]
        refine ⟨value, hsource, nofun, nofun, fun p hp => ?_⟩
        rw [Startup.State.obtain, hfirst] at hp
        rw [List.mem_singleton.mp hp]
        rfl
    cases hs with
    | read _ hfile => exact hobtain hany hfile rfl
    | @written f jwt secret off hphase hoff =>
      obtain ⟨hfile, halphabet, -⟩ := hsound.writing f jwt secret off hphase
      rw [hoff, Startup.prefixOf_all] at hfile
      exact hobtain hany hfile (Startup.trim_secret halphabet)
    | start _ => exact absurd hfirst hany
    | create _ _ _ _ => exact absurd hfirst hany
    | write _ _ _ _ => exact absurd hfirst hany
    | dies _ => exact absurd hfirst hany
  · obtain ⟨v, hv⟩ := h hfirst
    exact ⟨v, Startup.settled_step hsound hv hs⟩

theorem sound_init (h : Init s) : Sound configured s := by
  refine ⟨?_, .inl ⟨_, _, h.proc⟩, ⟨?_, ?_⟩, fun hany => absurd h.passes hany⟩
  · rw [Staged, h.proc]
    trivial
  · rw [h.phase]
    nofun
  · rw [h.phase]
    nofun

/-- A server whose start is running makes no step of a start but to die. -/
theorem not_running_of_boot {b b' : Startup.State} {e : Startup.Event} (hne : e ≠ .dies)
    (hs : Startup.Step engine configured b e b') : b.phase ≠ .running := by
  intro hrunning
  cases hs with
  | start hphase => cases hphase.symm.trans hrunning
  | read hphase _ => cases hphase.symm.trans hrunning
  | create _ hphase _ _ => cases hphase.symm.trans hrunning
  | write _ hphase _ _ => cases hphase.symm.trans hrunning
  | written hphase _ => cases hphase.symm.trans hrunning
  | dies _ => exact hne rfl

theorem sound_die (engine : Startup.UrlSafeNoPad) (h : Sound configured s)
    (hphase : s.boot.phase ≠ .down) : Sound configured s.die := by
  have hdies : Startup.Step engine configured s.boot .dies s.die.boot := .dies hphase
  exact ⟨trivial, .inl ⟨_, _, rfl⟩, Startup.sound_step h.boot hdies,
    settled_boot h.boot h.pepper hdies⟩

theorem sound_step (h : Sound configured s) (hs : Step engine configured hash s e t) :
    Sound configured t := by
  cases hs with
  | boot hne hboot =>
    refine ⟨h.staged, .inl ?_, Startup.sound_step h.boot hboot,
      settled_boot h.boot h.pepper hboot⟩
    -- clients are loaded only after the start, so there are none yet
    exact h.up.resolve_right fun hup => not_running_of_boot hne hboot hup.1
  | clients hphase hlast _ hclients =>
    refine ⟨staged_crash h.staged hclients, .inr ⟨hphase, ?_⟩, h.boot, h.pepper⟩
    intro hnil
    rw [hnil] at hlast
    cases hlast
  | saveFails hproc _ =>
    refine ⟨trivial, .inr (h.up.resolve_left ?_), h.boot, h.pepper⟩
    rintro ⟨before, after, hdown⟩
    cases hdown.symm.trans hproc
  | loadFails hphase hproc _ =>
    have hne : s.boot.phase ≠ .down := fun hdown => nomatch hphase.symm.trans hdown
    obtain ⟨-, hup, hboot, hpepper⟩ := sound_die engine h hne
    exact ⟨trivial, hup, hboot, hpepper⟩
  | dies hphase => exact sound_die engine h hphase

/-- `lists_crash` for the server. -/
theorem lists_step {P Q : List Client → Prop} (hstaged : Staged s.clients)
    (h : Lists P s.clients) (hs : Step engine configured hash s e t)
    (hnil : s.clients.files.main = none → P []) (hmono : ∀ list, P list → Q list)
    (hop : ∀ p, s.boot.passes.getLast? = some p → ∀ op ∈ e.called, ∀ list, P list →
      Q (Crash.applied hash p.tokenPepper list op)) :
    Lists Q t.clients := by
  have hsame : Lists Q s.clients :=
    ⟨hmono _ h.before, hmono _ h.after, fun list hmain => hmono _ (h.disk list hmain)⟩
  cases hs with
  | boot _ _ => exact hsame
  | clients _ hlast _ hclients =>
    exact lists_crash hstaged h hclients hnil hmono (hop _ hlast)
  | @saveFails op before list reply stage hproc _ =>
    have hafter := hsame.after
    rw [hproc] at hafter
    exact ⟨hafter, hafter, hsame.disk⟩
  | loadFails _ hproc hload =>
    refine ⟨hsame.before, hsame.after, fun list hmain => ?_⟩
    -- a load that fails can leave a whole new file
    rcases load_error hload hmain with hold | ⟨hnone, rfl⟩
    · exact hsame.disk list hold
    · exact hmono _ (hnil hnone)
  | dies _ => exact ⟨hsame.before, hsame.after, hsame.disk⟩

/-- A start that gets past takes nothing from the ones before. -/
theorem Peppered.before (h : Peppered v t) (hs : Step engine configured hash s e t) :
    Peppered v s := by
  have hsub : s.boot.passes ⊆ t.boot.passes := by
    cases hs with
    | @boot e b _ hboot =>
      have hobtain : ∀ f jwt value, s.boot.passes ⊆ (s.boot.obtain f jwt value).passes :=
        fun f jwt value => by
          cases f with
          | jwtSecret => exact List.Subset.refl _
          | tokenPepper => exact List.subset_append_left ..
      cases hboot with
      | read _ _ => exact hobtain _ _ _
      | written _ _ => exact hobtain _ _ _
      | start _ => exact List.Subset.refl _
      | create _ _ _ _ => exact List.Subset.refl _
      | write _ _ _ _ => exact List.Subset.refl _
      | dies _ => exact List.Subset.refl _
    | clients _ _ _ _ => exact List.Subset.refl _
    | saveFails _ _ => exact List.Subset.refl _
    | loadFails _ _ _ => exact List.Subset.refl _
    | dies _ => exact List.Subset.refl _
  exact fun p hp => h p (hsub hp)

/-- A file that is there stays there. -/
theorem main_step (hstaged : Staged s.clients) (h : s.clients.files.main ≠ none)
    (hs : Step engine configured hash s e t) : t.clients.files.main ≠ none := by
  cases hs with
  | clients _ _ _ hclients =>
    cases hclients with
    | disk hproc hsave =>
      rw [Staged, hproc] at hstaged
      cases hsave with
      | truncate => exact h
      | writePart => exact h
      | writeRest => exact h
      -- what was written becomes the file
      | rename => exact fun hnone => nomatch hstaged.symm.trans hnone
    | load _ hload => exact fun hnone => nomatch (ClientStore.load_ok hload).2.1.symm.trans hnone
    | refuse _ _ => exact h
    | begin _ _ => exact h
    | answer _ => exact h
    | kill => exact h
  | @loadFails _ _ _ _ files _ _ hload =>
    have hfiles : files = s.clients.files := (congrArg Prod.snd hload).symm.trans (load_there h)
    exact fun hnone => h (hfiles ▸ hnone)
  | boot _ _ => exact h
  | saveFails _ _ => exact h
  | dies _ => exact h

end Steps

/-! ## Runs of the server -/

/-- What is known of the lists when the operations `ops` have been called. -/
structure Known (sha256HexWithPepper : String → String → String) (ops : List ClientOp)
    (s : State) : Prop where
  op : ∀ op before list reply stage, s.clients.proc = .saving op before list reply stage → op ∈ ops
  sourced : ∀ v, Peppered v s →
    Lists (fun list => Sourced sha256HexWithPepper v ops (list.map Client.credential)) s.clients
  begun : ∀ v, Peppered v s → Begun sha256HexWithPepper v s.clients

section Runs

variable {engine : Startup.UrlSafeNoPad} {configured v : String} {hash : String → String → String}
  {ops : List ClientOp} {s t : State} {e : Event} {tr : List (State × Event × State)}

theorem called_snoc : called (tr ++ [(s, e, t)]) = called tr ++ e.called := by
  simp only [called, List.flatMap_append, List.flatMap_singleton]

theorem known_init (h : Init s) : Known hash [] s := by
  refine ⟨fun _ _ _ _ _ hproc => (nomatch h.proc.symm.trans hproc), fun v _ => ?_, fun v _ => ?_⟩
  · refine ⟨?_, ?_, fun list hmain => ?_⟩
    · rw [h.proc]
      exact sourced_nil
    · rw [h.proc]
      exact sourced_nil
    · rcases h.files with hnone | hdoc
      · cases hnone.symm.trans hmain
      · cases hdoc.symm.trans hmain
        exact sourced_nil
  · exact fun _ _ _ _ _ hproc => nomatch h.proc.symm.trans hproc

theorem begun_step (h : Begun hash v s.clients) (hv : Peppered v s)
    (hs : Step engine configured hash s e t) : Begun hash v t.clients := by
  cases hs with
  | boot _ _ => exact h
  | clients _ hlast _ hclients =>
    cases hv _ (List.mem_of_getLast? hlast)
    exact begun_crash h hclients
  | saveFails _ _ => exact fun _ _ _ _ _ hproc => nomatch hproc
  | loadFails _ _ _ => exact fun _ _ _ _ _ hproc => nomatch hproc
  | dies _ => exact fun _ _ _ _ _ hproc => nomatch hproc

theorem op_step (h : ∀ op before list reply stage,
    s.clients.proc = .saving op before list reply stage → op ∈ ops)
    (hs : Step engine configured hash s e t) {op : ClientOp} {before list : List Client}
    {reply : Reply} {stage : Stage} (hproc : t.clients.proc = .saving op before list reply stage) :
    op ∈ ops ++ e.called := by
  cases hs with
  | boot _ _ => exact List.mem_append_left _ (h _ _ _ _ _ hproc)
  | clients _ _ _ hclients =>
    cases hclients with
    | refuse _ _ => exact List.mem_append_left _ (h _ _ _ _ _ hproc)
    | begin _ _ =>
      cases hproc
      exact List.mem_append_right _ (List.mem_singleton_self _)
    | disk hsaving _ =>
      cases hproc
      exact List.mem_append_left _ (h _ _ _ _ _ hsaving)
    | answer _ => cases hproc
    | kill => cases hproc
    | load _ _ => cases hproc
  | saveFails _ _ => cases hproc
  | loadFails _ _ _ => cases hproc
  | dies _ => cases hproc

theorem called_single {op : ClientOp} (h : op ∈ e.called) : e.called = [op] := by
  cases e with
  | clients e =>
    cases e with
    | refuse op' => rw [Event.called, Crash.Event.called, List.mem_singleton.mp h]
    | begin op' => rw [Event.called, Crash.Event.called, List.mem_singleton.mp h]
    | disk => cases h
    | answer _ => cases h
    | kill => cases h
    | load => cases h
  | boot _ => cases h
  | saveFails _ => cases h
  | loadFails => cases h
  | dies => cases h

theorem known_step (hsound : Sound configured s) (h : Known hash ops s)
    (hs : Step engine configured hash s e t)
    (hfresh : ((ops ++ e.called).filterMap ClientOp.drawnClient).Nodup) :
    Known hash (ops ++ e.called) t := by
  refine ⟨fun op before list reply stage hproc => op_step h.op hs hproc, fun v hv => ?_,
    fun v hv => begun_step (h.begun v (hv.before hs)) (hv.before hs) hs⟩
  have hpepper := hv.before hs
  refine lists_step hsound.staged (h.sourced v hpepper) hs (fun _ => sourced_nil)
    (fun list hlist => hlist.mono) fun p hlast op hop list hlist => ?_
  rw [called_single hop] at hfresh ⊢
  rw [hpepper p (List.mem_of_getLast? hlast), credentials_applied]
  exact sourced_onCredentials hlist hfresh

theorem sound_run {s₀ : State} (h₀ : Sound configured s₀)
    (run : Run (Step engine configured hash) s₀ tr s) : Sound configured s :=
  run.keeps (fun _ _ _ h hs => sound_step h hs) h₀

theorem known_run {s₀ : State} (hsound : Sound configured s₀) (h₀ : Known hash ops s₀)
    (run : Run (Step engine configured hash) s₀ tr s)
    (hfresh : ((ops ++ called tr).filterMap ClientOp.drawnClient).Nodup) :
    Known hash (ops ++ called tr) s := by
  induction run with
  | nil => exact (List.append_nil ops).symm ▸ h₀
  | @snoc tr s t e run hs ih =>
    rw [called_snoc, ← List.append_assoc] at hfresh ⊢
    -- ids that are drawn once in the run are drawn once before its last step
    refine known_step (sound_run hsound run) (ih ?_) hs hfresh
    rw [List.filterMap_append] at hfresh
    exact (List.nodup_append.mp hfresh).1

theorem Peppered.before_run {s₀ : State} (h : Peppered v s)
    (run : Run (Step engine configured hash) s₀ tr s) : Peppered v s₀ := by
  induction run with
  | nil => exact h
  | snoc _ hs ih => exact ih (h.before hs)

/-- **Durability.** What holds of the list that is in memory and in the file, and is kept by
all operations that are called from then on, holds of every list that a later start loads. -/
theorem lists_run {P : List Client → Prop} {s₀ : State} (hsound : Sound configured s₀)
    (h₀ : Lists P s₀.clients) (hmain : s₀.clients.files.main ≠ none)
    (run : Run (Step engine configured hash) s₀ tr s) (hv : Peppered v s)
    (hop : ∀ op ∈ called tr, ∀ list, P list → P (Crash.applied hash v list op)) :
    Lists P s.clients := by
  suffices key : Lists P s.clients ∧ s.clients.files.main ≠ none from key.1
  induction run with
  | nil => exact ⟨h₀, hmain⟩
  | @snoc tr s t e run hs ih =>
    have hpepper := hv.before hs
    rw [called_snoc] at hop
    obtain ⟨hlists, hthere⟩ := ih hpepper fun op hmem => hop op (List.mem_append_left _ hmem)
    have hstaged := (sound_run hsound run).staged
    refine ⟨lists_step hstaged hlists hs (fun hnone => absurd hnone hthere) (fun _ h => h)
      fun p hlast op hmem => ?_, main_step hstaged hthere hs⟩
    rw [hpepper p (List.mem_of_getLast? hlast)]
    exact hop op (List.mem_append_right _ hmem)

/-- The server verifies with the pepper of all starts. -/
theorem verifyToken_serves {list : List Client} {token : String} (hv : Peppered v s)
    (hidle : s.clients.proc = .idle list) (hany : s.boot.passes ≠ []) :
    s.verifyToken hash token = authenticate (hash token v) (list.map Client.credential) := by
  obtain ⟨p, hlast⟩ := Option.isSome_iff_exists.mp (List.getLast?_isSome.mpr hany)
  unfold State.verifyToken
  rw [hidle, hlast, ← hv p (List.mem_of_getLast? hlast)]
  exact verifyToken_eq _ _

theorem enabled_serves {list : List Client} {c : String} (hidle : s.clients.proc = .idle list) :
    s.enabled c = (list.map Client.credential).any fun k => k.id == c && k.enabled := by
  unfold State.enabled
  rw [hidle, List.any_map]
  rfl

theorem Sound.peppered (h : Sound configured s) (hany : s.boot.passes ≠ []) :
    ∃ v, Peppered v s := by
  obtain ⟨v, hv⟩ := h.pepper hany
  exact ⟨v, hv.passes⟩

theorem Sound.passes (h : Sound configured s) (hserves : s.Serves) : s.boot.passes ≠ [] := by
  obtain ⟨list, hidle⟩ := hserves
  refine (h.up.resolve_left ?_).2
  rintro ⟨before, after, hdown⟩
  cases hdown.symm.trans hidle

/-- When an operation answers, what it made of its list is in memory and in the file. -/
theorem lists_answer {P : List Client → Prop} {op : ClientOp} (hsound : Sound configured s)
    (hs : Step engine configured hash s (.clients (.answer op)) t)
    (h : ∀ before list reply, s.clients.proc = .saving op before list reply .saved → P list) :
    Lists P t.clients ∧ t.clients.files.main ≠ none := by
  cases hs with
  | clients _ _ _ hclients =>
    cases hclients with
    | @answer op before list reply hproc =>
      have hlist := h _ _ _ hproc
      have hmain := hsound.staged
      rw [Staged, hproc] at hmain
      refine ⟨⟨hlist, hlist, fun list' hdoc => ?_⟩, fun hnone => nomatch hmain.symm.trans hnone⟩
      cases hmain.symm.trans hdoc
      exact hlist

variable {s₀ u : State} {tr' : List (State × Event × State)} {op : ClientOp} {c token : String}

/-- **Durability.** What an operation that answers has made true of the credentials, and what
all operations that are called later keep, is true of those of every later start. -/
theorem durable {P : String → List Credential → Prop} (h₀ : Init s₀)
    (run : Run (Step engine configured hash) s₀ tr s)
    (answered : Step engine configured hash s (.clients (.answer op)) t)
    (run' : Run (Step engine configured hash) t tr' u)
    (fresh : Fresh hash (called tr ++ called tr')) (serves : u.Serves)
    (made : ∀ v before list reply, Peppered v s → Known hash (called tr) s →
      s.clients.proc = .saving op before list reply .saved → P v (list.map Client.credential))
    (kept : ∀ v, ∀ op' ∈ called tr', ∀ creds, P v creds → P v (op'.onCredentials hash v creds)) :
    ∃ v list, u.clients.proc = .idle list ∧ P v (list.map Client.credential) ∧
      Sourced hash v (called tr ++ called tr') (list.map Client.credential) ∧
      ∀ token, u.verifyToken hash token =
        authenticate (hash token v) (list.map Client.credential) := by
  have hsound₀ : Sound configured s₀ := sound_init h₀
  have hsound := sound_run hsound₀ run
  have hsoundt := sound_step hsound answered
  have hsoundu := sound_run hsoundt run'
  obtain ⟨v, hv⟩ := hsoundu.peppered (hsoundu.passes serves)
  have hvt := hv.before_run run'
  obtain ⟨list, hidle⟩ := serves
  have hfirst := fresh.first.clients
  have hknown : Known hash (called tr) s := known_run hsound₀ (known_init h₀) run hfirst
  have hknownt : Known hash (called tr) t := by
    have hnext := known_step hsound hknown answered ((List.append_nil _).symm ▸ hfirst)
    exact (List.append_nil (called tr)) ▸ hnext
  have hknownu := known_run hsoundt hknownt run' fresh.clients
  obtain ⟨hlists, hmain⟩ := lists_answer hsound answered fun before list reply hproc =>
    made v before list reply (hvt.before answered) hknown hproc
  -- what the answer made true is in memory and in the file; the rest of the run keeps it there
  have hlists' := lists_run hsoundt hlists hmain run' hv fun op' hop' list hlist => by
    rw [credentials_applied]
    exact kept v op' hop' _ hlist
  have hlist := hlists'.after
  have hsourced := (hknownu.sourced v hv).after
  rw [hidle] at hlist hsourced
  exact ⟨v, list, hidle, hlist, hsourced, fun token =>
    verifyToken_serves hv hidle (hsoundu.passes ⟨list, hidle⟩)⟩

end Runs

/-! ## Two starts -/

section TwoStarts

/-- The first pepper, in its file. -/
def exampleBoot (passes : List Startup.Secrets) : Startup.State where
  files := ((Startup.fresh.setFile .tokenPepper "").setFile .tokenPepper (Startup.prefixOf
    (Startup.genJwtSecret Startup.urlSafeNoPad Startup.random) 64)).files
  phase := .running
  passes := passes

def serving (passes : List Startup.Secrets) (list : List Client) : State where
  boot := exampleBoot passes
  clients := { proc := .idle list, files := { main := some (.doc list), tmp := none } }

def saved (passes : List Startup.Secrets) (op : ClientOp) (before list : List Client)
    (reply : Reply) : State where
  boot := exampleBoot passes
  clients :=
    { proc := .saving op before list reply .saved
      files := { main := some (.doc list), tmp := none } }

/-- A new data directory. -/
def fresh : State where
  boot := Startup.fresh
  clients := { proc := .down [] [], files := { main := none, tmp := none } }

theorem init_fresh : Init fresh := ⟨rfl, rfl, rfl, .inl rfl⟩

abbrev ExampleStep : State → Event → State → Prop :=
  Step Startup.urlSafeNoPad "jwt" fun t p => t ++ p

variable {s₀ : State} {tr : List (State × Event × State)} {passes : List Startup.Secrets}
  {p : Startup.Secrets} {before list : List Client} {op : ClientOp} {reply : Reply}

theorem run_starts : ∃ tr p, Run ExampleStep fresh tr (serving [p] []) ∧ called tr = [] := by
  have written : Run ExampleStep fresh _ _ := ((Run.nil.snoc (.boot (by nofun) (.start rfl))).snoc
    (.boot (by nofun) (.create Startup.random rfl rfl rfl))).snoc
    (.boot (by nofun) (.write 64 rfl (by decide) (Nat.le_of_eq Startup.length_random.symm)))
  have past := written.snoc (.boot (by nofun) (.written rfl Startup.length_random.symm))
  have loaded := past.snoc (e := .clients .load) (.clients rfl rfl (by nofun) (.load rfl rfl))
  exact ⟨_, _, loaded, rfl⟩

theorem run_saves (op : ClientOp) (list : List Client) (reply : Reply)
    (run : Run ExampleStep s₀ tr (serving passes before)) (hp : passes.getLast? = some p)
    (hexec : ∀ io, ClientStore.exec (fun t p => t ++ p) p.tokenPepper
      { list := before, file := { main := some (.doc before), tmp := none } } op io =
        ({ list, file := { main := some (.doc before), tmp := none } } : ClientStore).persistThen io
          reply) :
    ∃ tr', Run ExampleStep s₀ tr' (saved passes op before list reply) ∧
      called tr' = called tr ++ [op] := by
  have begun := run.snoc (.clients rfl hp (by nofun) (.begin rfl hexec))
  have opened := begun.snoc (.clients rfl hp (by nofun) (.disk rfl (.truncate .torn)))
  have written := opened.snoc (.clients rfl hp (by nofun) (.disk rfl .writeRest))
  have renamed := written.snoc (e := .clients .disk)
    (.clients rfl hp (by nofun) (.disk rfl .rename))
  refine ⟨_, renamed, ?_⟩
  simp only [called_snoc, Event.called, Crash.Event.called, List.append_nil]

theorem answers (hp : passes.getLast? = some p) :
    ExampleStep (saved passes op before list reply) (.clients (.answer op))
      (serving passes list) :=
  .clients rfl hp (by nofun) (.answer rfl)

theorem run_restarts (run : Run ExampleStep s₀ tr (serving passes list)) :
    ∃ tr' p, Run ExampleStep s₀ tr' (serving (passes ++ [p]) list) ∧ called tr' = called tr := by
  have started := (run.snoc (.dies (by nofun))).snoc (.boot (by nofun) (.start rfl))
  have past := started.snoc (.boot (by nofun) (.read rfl rfl))
  have loaded := past.snoc (e := .clients .load)
    (.clients rfl List.getLast?_concat (by nofun) (.load rfl rfl))
  refine ⟨_, _, loaded, ?_⟩
  simp only [called_snoc, Event.called, Crash.Event.called, List.append_nil]

def exampleClient (p : Startup.Secrets) (token : String) : Client :=
  newClient (fun t p => t ++ p) p.tokenPepper "a" token "client_a" 0

/-- Appending the pepper tells tokens apart. -/
theorem fresh_append {ops : List ClientOp} (tokens : (ops.filterMap ClientOp.drawnToken).Nodup)
    (clients : (ops.filterMap ClientOp.drawnClient).Nodup) : Fresh (fun t p => t ++ p) ops :=
  ⟨tokens, clients, fun pepper u _ v _ heq => by
    have hlist := congrArg String.toList heq
    rw [String.toList_append, String.toList_append] at hlist
    exact String.toList_inj.mp (List.append_cancel_right hlist)⟩

end TwoStarts

/-! ## Main results -/

section Main

variable {engine : Startup.UrlSafeNoPad} {configured : String} {hash : String → String → String}
  {s₀ s t u : State} {tr tr' : List (State × Event × State)} {op : ClientOp} {c token : String}

/-- **One pepper.** All starts of a run that get past their secrets have the same pepper. -/
theorem one_pepper (h₀ : Init s₀) (run : Run (Step engine configured hash) s₀ tr s) :
    ∃ v, ∀ p ∈ s.boot.passes, p.tokenPepper = v := by
  by_cases hany : s.boot.passes = []
  · exact ⟨"", by rw [hany]; nofun⟩
  · exact (sound_run (sound_init h₀) run).peppered hany

/-- **Tokens survive.** When the answer with a token is out, then in all later starts the token
authenticates exactly while its client is enabled, until an operation is called that deletes
the client or gives it another token. -/
theorem token_survives (h₀ : Init s₀) (run : Run (Step engine configured hash) s₀ tr s)
    (answered : Step engine configured hash s (.clients (.answer op)) t)
    (run' : Run (Step engine configured hash) t tr' u)
    (fresh : Fresh hash (called tr ++ called tr')) (granted : op.grant = some (c, token))
    (kept : ∀ op' ∈ called tr', ¬ op'.Replaces c) (serves : u.Serves) :
    u.verifyToken hash token = if u.enabled c then some (c, true) else none := by
  let Held (v : String) (creds : List Credential) : Prop :=
    (c, token) ∈ grants (called tr) ∧ ∃ k ∈ creds, k.id = c ∧ k.digest = hash token v
  obtain ⟨v, list, hidle, ⟨hgrant, hheld⟩, hsourced, hverify⟩ := durable (P := Held) h₀ run
    answered run' fresh serves
    (fun v before list reply hv hknown hproc =>
      ⟨List.mem_filterMap.mpr ⟨op, hknown.op op before list reply .saved hproc, granted⟩,
        (hknown.begun v hv op before list reply .saved hproc).2 c token granted⟩)
    fun v op' hop' creds hheld => ⟨hheld.1, onCredentials_keeps (kept op' hop') hheld.2⟩
  have hgrants : (c, token) ∈ grants (called tr ++ called tr') := by
    rw [grants, List.filterMap_append]
    exact List.mem_append_left _ hgrant
  rw [hverify, enabled_serves hidle]
  exact authenticate_of_held hsourced fresh hgrants hheld

/-- A client is created; the process dies, and the next start takes the token. -/
theorem token_survives_restarted : ∃ p q,
    (serving [p, q] [exampleClient p "mmk_1"]).verifyToken (fun t p => t ++ p) "mmk_1" =
      some ("client_a", true) := by
  obtain ⟨tr, p, started, hnone⟩ := run_starts
  obtain ⟨tr₁, run, hcalled⟩ := run_saves (.addClient "a" "mmk_1" "client_a" 0)
    [exampleClient p "mmk_1"] (.created (exampleClient p "mmk_1") "mmk_1") started rfl
    fun io => by cases io <;> rfl
  have here : Run ExampleStep (serving [p] [exampleClient p "mmk_1"]) [] _ := .nil
  obtain ⟨tr₂, q, run', hlater⟩ := run_restarts here
  have hops : called tr₁ ++ called tr₂ = [.addClient "a" "mmk_1" "client_a" 0] := by
    rw [hcalled, hnone, hlater]
    rfl
  have hlast := token_survives init_fresh run (answers rfl) run'
    (hops ▸ fresh_append (by decide) (by decide)) rfl (by rw [hlater]; nofun) ⟨_, rfl⟩
  exact ⟨p, q, hlast⟩

/-- **Revoked for good.** When the answer to a deletion or to another token is out, no earlier
token of the client authenticates in any later start. -/
theorem revoked_for_good (h₀ : Init s₀) (run : Run (Step engine configured hash) s₀ tr s)
    (answered : Step engine configured hash s (.clients (.answer op)) t)
    (run' : Run (Step engine configured hash) t tr' u)
    (fresh : Fresh hash (called tr ++ called tr')) (granted : (c, token) ∈ grants (called tr))
    (replaces : op.Replaces c) (other : op.drawnToken ≠ some token) (serves : u.Serves) :
    u.verifyToken hash token = none := by
  have htokens := fresh.tokens
  rw [List.filterMap_append] at htokens
  obtain ⟨v, list, -, hgone, -, hverify⟩ := durable
    (P := fun v creds => ∀ k ∈ creds, k.digest ≠ hash token v) h₀ run answered run' fresh serves
    (fun v before list reply hv hknown hproc => by
      have hbefore := (hknown.sourced v hv).before
      rw [hproc] at hbefore
      rw [(hknown.begun v hv op before list reply .saved hproc).1, credentials_applied]
      exact gone_of_replaces hbefore fresh.first granted replaces
        (hknown.op op before list reply .saved hproc) other)
    fun v op' hop' creds hgone => by
      -- a token that is drawn later is another one
      refine gone_onCredentials hgone fun u hu heq => ?_
      have hlater : u ∈ (called tr').filterMap ClientOp.drawnToken :=
        List.mem_filterMap.mpr ⟨op', hop', hu⟩
      have hearlier := drawn_of_grant granted
      refine (List.nodup_append.mp htokens).2.2 token hearlier u hlater
        (fresh.injective v u ?_ token ?_ heq).symm
      · rw [List.filterMap_append]
        exact List.mem_append_right _ hlater
      · rw [List.filterMap_append]
        exact List.mem_append_left _ hearlier
  rw [hverify]
  exact authenticate_of_gone hgone

/-- The token of a client is replaced; the process dies, and the next start does not take the
first token. -/
theorem revoked_for_good_restarted : ∃ p q,
    (serving [p, q] [exampleClient p "mmk_2"]).verifyToken (fun t p => t ++ p) "mmk_1" = none := by
  obtain ⟨tr, p, started, hnone⟩ := run_starts
  obtain ⟨tr₁, run, hcalled⟩ := run_saves (.addClient "a" "mmk_1" "client_a" 0)
    [exampleClient p "mmk_1"] (.created (exampleClient p "mmk_1") "mmk_1") started rfl
    fun io => by cases io <;> rfl
  obtain ⟨tr₂, replaced, hcalled'⟩ := run_saves (.regenerateToken "client_a" "mmk_2")
    [exampleClient p "mmk_2"] (.token (some "mmk_2")) (run.snoc (answers rfl)) rfl
    fun io => by cases io <;> rfl
  have here : Run ExampleStep (serving [p] [exampleClient p "mmk_2"]) [] _ := .nil
  obtain ⟨tr₃, q, run', hlater⟩ := run_restarts here
  have hops : called tr₂ =
      [.addClient "a" "mmk_1" "client_a" 0, .regenerateToken "client_a" "mmk_2"] := by
    rw [hcalled', called_snoc, hcalled, hnone]
    rfl
  have hall : called tr₂ ++ called tr₃ =
      [.addClient "a" "mmk_1" "client_a" 0, .regenerateToken "client_a" "mmk_2"] := by
    rw [hlater, hops]
    rfl
  have granted : ("client_a", "mmk_1") ∈ grants (called tr₂) := hops ▸ List.mem_cons_self
  have hlast := revoked_for_good init_fresh replaced (answers rfl) run'
    (hall ▸ fresh_append (by decide) (by decide)) granted rfl (by decide) ⟨_, rfl⟩
  exact ⟨p, q, hlast⟩

end Main

end Restarts

end MiniMask
