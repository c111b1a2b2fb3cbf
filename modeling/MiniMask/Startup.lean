import MiniMask.Tunnel.Server

/-!
# The secrets of the server (`server.rs`, `run`)

A start takes the JWT secret from the configuration or, when that is empty, from the file
`jwt_secret`, and the token pepper from the file `token_pepper`. A file that does not
exist is made with a new secret, which is written into it directly. A start can die at any
point, and then the next one finds the files as they are.

`secrets_exact`: the secrets are the same non-empty ones in all starts that get past this,
now and later, exactly if no start has died after it made a file and before it wrote the
first byte. `empty_secret` is the other case.
-/

namespace MiniMask.Startup

open Lts
open Tunnel (trim isWhitespace)

/-! ## Definitions -/

/-- The characters of `URL_SAFE_NO_PAD`, by value. -/
def alphabet : List Char :=
  "ABCDEFGHIJKLMNOPQRSTUVWXYZabcdefghijklmnopqrstuvwxyz0123456789-_".toList

/-- The encoder `URL_SAFE_NO_PAD` of the crate `base64`. -/
structure UrlSafeNoPad where
  encode : List UInt8 → String
  length_encode : ∀ bytes, (encode bytes).toList.length = (4 * bytes.length + 2) / 3
  mem_alphabet : ∀ bytes, ∀ c ∈ (encode bytes).toList, c ∈ alphabet

/-- `gen_jwt_secret` of 48 random bytes. -/
def genJwtSecret (engine : UrlSafeNoPad) (random : List UInt8) : String := engine.encode random

inductive SecretFile
  | jwtSecret
  | tokenPepper
deriving DecidableEq, Repr

/-- Where a start stands; `jwt` is `config.auth.jwt_secret`. It looks for the file, or it
has made the file and written the first `off` characters of `secret`, or it has got past
both. -/
inductive Phase
  | down
  | checking (f : SecretFile) (jwt : String)
  | writing (f : SecretFile) (jwt secret : String) (off : Nat)
  | running
deriving DecidableEq, Repr

structure Secrets where
  jwtSecret : String
  tokenPepper : String
deriving DecidableEq, Repr

def Secrets.get (p : Secrets) : SecretFile → String
  | .jwtSecret => p.jwtSecret
  | .tokenPepper => p.tokenPepper

/-- The data directory, the start, and the secrets of the starts that got past. -/
structure State where
  files : SecretFile → Option String
  phase : Phase
  passes : List Secrets

inductive Event
  | start
  | read (f : SecretFile)
  | create (f : SecretFile)
  | write (n : Nat)
  | written
  | dies
deriving DecidableEq, Repr

def State.setFile (s : State) (f : SecretFile) (content : String) : State :=
  { s with files := fun g => if g = f then some content else s.files g }

/-- The start has the value of `f` and goes on. -/
def State.obtain (s : State) (f : SecretFile) (jwt value : String) : State :=
  match f with
  | .jwtSecret => { s with phase := .checking .tokenPepper value }
  | .tokenPepper => { s with phase := .running, passes := s.passes ++ [⟨jwt, value⟩] }

/-- The first `n` characters, which are bytes. -/
def prefixOf (secret : String) (n : Nat) : String := String.ofList (secret.toList.take n)

section Model

variable (engine : UrlSafeNoPad) (configured : String)

/-- One step of a start. It dies when it is killed or when a call fails. -/
inductive Step (s : State) : Event → State → Prop
  | start :
      s.phase = .down →
      Step s .start
        { s with
          phase := .checking (if configured = "" then .jwtSecret else .tokenPepper) configured }
  | read {f : SecretFile} {jwt content : String} :
      s.phase = .checking f jwt → s.files f = some content →
      Step s (.read f) (s.obtain f jwt (trim content))
  | create {f : SecretFile} {jwt : String} (random : List UInt8) :
      s.phase = .checking f jwt → s.files f = none → random.length = 48 →
      Step s (.create f)
        { s.setFile f "" with phase := .writing f jwt (genJwtSecret engine random) 0 }
  | write {f : SecretFile} {jwt secret : String} {off : Nat} (n : Nat) :
      s.phase = .writing f jwt secret off → 0 < n → off + n ≤ secret.toList.length →
      Step s (.write n)
        { s.setFile f (prefixOf secret (off + n)) with phase := .writing f jwt secret (off + n) }
  | written {f : SecretFile} {jwt secret : String} {off : Nat} :
      s.phase = .writing f jwt secret off → off = secret.toList.length →
      Step s .written (s.obtain f jwt secret)
  | dies : s.phase ≠ .down → Step s .dies { s with phase := .down }

end Model

/-- No start has got past, and the files that exist are not blank. -/
structure Init (s : State) : Prop where
  phase : s.phase = .down
  passes : s.passes = []
  files : ∀ f content, s.files f = some content → trim content ≠ ""

/-- All starts that got past have the same secrets, and these are not empty. -/
structure Safe (s : State) : Prop where
  nonempty : ∀ p ∈ s.passes, ∀ f, p.get f ≠ ""
  same : ∀ p ∈ s.passes, ∀ q ∈ s.passes, p = q

/-- A start does not die between the creation of a file and its first byte. -/
def FirstByte (s : State) (e : Event) : Prop :=
  e = .dies → ∀ f jwt secret, s.phase ≠ .writing f jwt secret 0

/-! ## Texts -/

theorem trim_empty : trim "" = "" := by decide

theorem isWhitespace_alphabet : ∀ c ∈ alphabet, isWhitespace c = false := by
  have hall : (alphabet.all fun c => !isWhitespace c) = true := by decide
  intro c hc
  simpa using List.all_eq_true.mp hall c hc

/-- There is nothing to trim in a text without white space. -/
theorem trim_eq_self {text : String} (h : ∀ c ∈ text.toList, isWhitespace c = false) :
    trim text = text := by
  have hdrop : ∀ l : List Char, (∀ c ∈ l, isWhitespace c = false) →
      l.dropWhile isWhitespace = l := fun l hl => by
    cases l with
    | nil => rfl
    | cons c l => rw [List.dropWhile_cons_of_neg (by simp [hl c List.mem_cons_self])]
  rw [trim, hdrop _ h, hdrop _ fun c hc => h c (List.mem_reverse.mp hc), List.reverse_reverse]
  exact String.ofList_toList

theorem trim_secret {secret : String} (h : ∀ c ∈ secret.toList, c ∈ alphabet) :
    trim secret = secret :=
  trim_eq_self fun c hc => isWhitespace_alphabet c (h c hc)

theorem prefixOf_all (secret : String) : prefixOf secret secret.toList.length = secret := by
  rw [prefixOf, List.take_length, String.ofList_toList]

/-- A part of a secret that is not empty is not blank. -/
theorem trim_prefixOf {secret : String} (h : ∀ c ∈ secret.toList, c ∈ alphabet)
    (hne : secret.toList ≠ []) {n : Nat} (hn : n ≠ 0) : trim (prefixOf secret n) ≠ "" := by
  have htoList : (prefixOf secret n).toList = secret.toList.take n := String.toList_ofList
  have hsub : ∀ c ∈ (prefixOf secret n).toList, c ∈ alphabet := fun c hc =>
    h c (List.mem_of_mem_take (htoList ▸ hc))
  rw [trim_secret hsub]
  intro hempty
  have hnil : secret.toList.take n = [] := by rw [← htoList, hempty]; rfl
  exact (List.take_eq_nil_iff.mp hnil).elim hn hne

/-! ## What a start finds -/

/-- The file that a start is at. -/
def Phase.file : Phase → Option SecretFile
  | .checking f _ => some f
  | .writing f _ _ _ => some f
  | _ => none

/-- The JWT secret of a start that has it and has not got past. -/
def Phase.jwt : Phase → Option String
  | .checking .tokenPepper jwt => some jwt
  | .writing .tokenPepper jwt _ _ => some jwt
  | _ => none

def Phase.Writing (f : SecretFile) (p : Phase) : Prop := ∃ jwt secret off, p = .writing f jwt secret off

/-- What a start takes for `f`, if it is there. -/
def State.source (configured : String) (s : State) : SecretFile → Option String
  | .jwtSecret => if configured = "" then (s.files .jwtSecret).map trim else some configured
  | .tokenPepper => (s.files .tokenPepper).map trim

/-- A start looks for `jwt_secret` only without a configured secret, and what it writes is
a secret. -/
structure Sound (configured : String) (s : State) : Prop where
  first : s.phase.file = some .jwtSecret → configured = ""
  writing : ∀ f jwt secret off, s.phase = .writing f jwt secret off →
    s.files f = some (prefixOf secret off) ∧ (∀ c ∈ secret.toList, c ∈ alphabet) ∧
      secret.toList ≠ []

/-- Every start takes `v` for `f` from now on, and has done so since the first `n` that got
past. -/
structure Settled (configured : String) (f : SecretFile) (v : String) (n : Nat) (s : State) :
    Prop where
  source : s.source configured f = some v
  idle : ¬ s.phase.Writing f
  underway : f = .jwtSecret → ∀ jwt, s.phase.jwt = some jwt → jwt = v
  passes : ∀ p ∈ s.passes.drop n, p.get f = v

section Steps

variable {engine : UrlSafeNoPad} {configured v : String} {f : SecretFile} {n : Nat} {s t : State}
  {e : Event}

theorem source_of_file (h : Sound configured s) (hfile : s.phase.file = some f) :
    s.source configured f = (s.files f).map trim := by
  cases f with
  | jwtSecret => exact if_pos (h.first hfile)
  | tokenPepper => rfl

theorem sound_init (h : Init s) : Sound configured s := by
  refine ⟨fun hfile => ?_, fun f jwt secret off hwriting => ?_⟩
  · rw [h.phase] at hfile
    cases hfile
  · rw [h.phase] at hwriting
    cases hwriting

theorem sound_obtain (jwt value : String) : Sound configured (s.obtain f jwt value) := by
  cases f with
  | jwtSecret => exact ⟨nofun, nofun⟩
  | tokenPepper => exact ⟨nofun, nofun⟩

theorem sound_step (h : Sound configured s) (hs : Step engine configured s e t) :
    Sound configured t := by
  cases hs with
  | start _ =>
    refine ⟨fun hfile => ?_, nofun⟩
    by_contra hne
    rw [if_neg hne] at hfile
    cases hfile
  | read _ _ => exact sound_obtain _ _
  | @create f jwt random hphase _ hlength =>
    refine ⟨fun hfile => h.first (hphase ▸ hfile), fun g jwt' secret off hwriting => ?_⟩
    cases hwriting
    refine ⟨if_pos rfl, engine.mem_alphabet random, List.ne_nil_of_length_pos ?_⟩
    rw [genJwtSecret, engine.length_encode, hlength]
    decide
  | @write f jwt secret off n hphase _ _ =>
    refine ⟨fun hfile => h.first (hphase ▸ hfile), fun g jwt' secret' off' hwriting => ?_⟩
    cases hwriting
    exact ⟨if_pos rfl, (h.writing f jwt secret off hphase).2⟩
  | written _ _ => exact sound_obtain _ _
  | dies _ => exact ⟨nofun, nofun⟩

/-- A file that the start does not make or write keeps its content. -/
theorem source_setFile {g : SecretFile} {content : String} {phase : Phase} (hne : f ≠ g) :
    State.source configured { s.setFile g content with phase := phase } f =
      s.source configured f := by
  have hsame : (s.setFile g content).files f = s.files f := if_neg hne
  cases f with
  | jwtSecret =>
    show (if configured = "" then ((s.setFile g content).files .jwtSecret).map trim else _) = _
    rw [hsame]
    rfl
  | tokenPepper =>
    show ((s.setFile g content).files .tokenPepper).map trim = _
    rw [hsame]
    rfl

theorem settled_obtain {g : SecretFile} {jwt value : String} (h : Settled configured f v n s)
    (hvalue : f = g → value = v) (hjwt : f = .jwtSecret → g = .tokenPepper → jwt = v) :
    Settled configured f v n (s.obtain g jwt value) := by
  cases g with
  | jwtSecret =>
    refine ⟨?_, nofun, fun hf jwt' heq => ?_, h.passes⟩
    · cases f <;> exact h.source
    · cases heq
      exact hvalue hf
  | tokenPepper =>
    refine ⟨?_, nofun, fun _ _ heq => (nomatch heq), fun p hp => ?_⟩
    · cases f <;> exact h.source
    have hmem : p ∈ s.passes.drop n ∨ p = ⟨jwt, value⟩ := by
      rcases List.mem_append.mp (List.drop_append ▸ hp) with hp | hp
      · exact .inl hp
      · exact .inr (List.mem_singleton.mp (List.mem_of_mem_drop hp))
    rcases hmem with hp | rfl
    · exact h.passes p hp
    · cases f with
      | jwtSecret => exact hjwt rfl rfl
      | tokenPepper => exact hvalue rfl

/-- What is settled stays settled: a file that exists is only written by the start that
made it. -/
theorem settled_step (hsound : Sound configured s) (h : Settled configured f v n s)
    (hs : Step engine configured s e t) : Settled configured f v n t := by
  cases hs with
  | start _ =>
    refine ⟨?_, nofun, fun hf jwt heq => ?_, h.passes⟩
    · cases f <;> exact h.source
    · subst hf
      have hsource := h.source
      by_cases hempty : configured = ""
      · rw [if_pos hempty] at heq
        cases heq
      · rw [if_neg hempty] at heq
        cases heq
        rw [State.source, if_neg hempty] at hsource
        exact Option.some.inj hsource
  | @read g jwt content hphase hfile =>
    refine settled_obtain h (fun hf => ?_) fun hf hg => ?_
    · subst hf
      have hsource := h.source
      rw [source_of_file hsound (hphase ▸ rfl), hfile] at hsource
      exact Option.some.inj hsource
    · subst hg
      exact h.underway hf jwt (hphase ▸ rfl)
  | @create g jwt random hphase hnone _ =>
    have hne : f ≠ g := fun hf => by
      subst hf
      have hsource := h.source
      rw [source_of_file hsound (hphase ▸ rfl), hnone] at hsource
      cases hsource
    refine ⟨(source_setFile hne).trans h.source, ?_, fun hf jwt' heq => ?_, h.passes⟩
    · rintro ⟨_, _, _, heq⟩
      cases heq
      exact hne rfl
    · cases g with
      | jwtSecret => cases heq
      | tokenPepper =>
        cases heq
        exact h.underway hf jwt (hphase ▸ rfl)
  | @write g jwt secret off n hphase _ _ =>
    have hne : f ≠ g := fun hf => h.idle ⟨jwt, secret, off, hf ▸ hphase⟩
    refine ⟨(source_setFile hne).trans h.source, ?_, fun hf jwt' heq => ?_, h.passes⟩
    · rintro ⟨_, _, _, heq⟩
      cases heq
      exact hne rfl
    · cases g with
      | jwtSecret => cases heq
      | tokenPepper =>
        cases heq
        exact h.underway hf jwt (hphase ▸ rfl)
  | @written g jwt secret off hphase _ =>
    have hne : f ≠ g := fun hf => h.idle ⟨jwt, secret, off, hf ▸ hphase⟩
    refine settled_obtain h (fun hf => absurd hf hne) fun hf hg => ?_
    subst hg
    exact h.underway hf jwt (hphase ▸ rfl)
  | dies _ =>
    refine ⟨?_, nofun, nofun, h.passes⟩
    cases f <;> exact h.source

end Steps

/-! ## Starts that do not die too early -/

/-- No file is blank but the one that is being written, and what a start has got past with
or is about to use is settled. -/
structure Kept (configured : String) (s : State) : Prop where
  sound : Sound configured s
  notBlank : ∀ f content, s.files f = some content → ¬ s.phase.Writing f → trim content ≠ ""
  jwt : ∀ jwt, s.phase.jwt = some jwt → jwt ≠ "" ∧ Settled configured .jwtSecret jwt 0 s
  passes : s.passes ≠ [] → ∀ f, ∃ v, v ≠ "" ∧ Settled configured f v 0 s

section Steps

variable {engine : UrlSafeNoPad} {configured : String} {f : SecretFile} {s t : State} {e : Event}

theorem kept_init (h : Init s) : Kept configured s := by
  refine ⟨sound_init h, fun f content hfile _ => h.files f content hfile, fun jwt hjwt => ?_,
    fun hne => absurd h.passes hne⟩
  rw [h.phase] at hjwt
  cases hjwt

theorem Kept.safe (h : Kept configured s) : Safe s := by
  have hsettled : ∀ p ∈ s.passes, ∀ f, ∃ v, v ≠ "" ∧ ∀ q ∈ s.passes, q.get f = v := by
    intro p hp f
    obtain ⟨v, hne, hv⟩ := h.passes (List.ne_nil_of_mem hp) f
    exact ⟨v, hne, hv.passes⟩
  refine ⟨fun p hp f => ?_, fun p hp q hq => ?_⟩
  · obtain ⟨v, hne, hv⟩ := hsettled p hp f
    rw [hv p hp]
    exact hne
  · obtain ⟨_, _, hjwt⟩ := hsettled p hp .jwtSecret
    obtain ⟨_, _, hpepper⟩ := hsettled p hp .tokenPepper
    have hj : p.jwtSecret = q.jwtSecret := (hjwt p hp).trans (hjwt q hq).symm
    have hp' : p.tokenPepper = q.tokenPepper := (hpepper p hp).trans (hpepper q hq).symm
    cases p
    cases q
    cases hj
    cases hp'
    rfl

/-- What a start finds for `f` is what the earlier ones found. -/
theorem Settled.of_source {v : String} (hsource : s.source configured f = some v)
    (hidle : ¬ s.phase.Writing f)
    (hunderway : f = .jwtSecret → ∀ jwt, s.phase.jwt = some jwt → jwt = v)
    (hpasses : s.passes ≠ [] → ∃ w, w ≠ "" ∧ Settled configured f w 0 s) :
    Settled configured f v 0 s := by
  refine ⟨hsource, hidle, hunderway, fun p hp => ?_⟩
  obtain ⟨w, _, hw⟩ := hpasses (List.ne_nil_of_mem hp)
  have heq : w = v := Option.some.inj (hw.source.symm.trans hsource)
  exact heq ▸ hw.passes p hp

/-- A start that takes a file that is not blank. -/
theorem kept_obtain {g : SecretFile} {jwt value content : String} (h : Kept configured s)
    (hs : Step engine configured s e (s.obtain g jwt value)) (hat : s.phase.file = some g)
    (hjwt : g = .tokenPepper → s.phase.jwt = some jwt) (hfile : s.files g = some content)
    (hvalue : trim content = value) (hne : value ≠ "") :
    Kept configured (s.obtain g jwt value) := by
  have hkeep : ∀ {f v}, Settled configured f v 0 s →
      Settled configured f v 0 (s.obtain g jwt value) := fun hset => settled_step h.sound hset hs
  have hsource : s.source configured g = some value := by
    rw [source_of_file h.sound hat, hfile, Option.map_some, hvalue]
  have hblank : ∀ f content', s.files f = some content' → trim content' ≠ "" := by
    intro f content' hf
    rcases eq_or_ne f g with rfl | hother
    · cases hfile.symm.trans hf
      rwa [hvalue]
    · refine h.notBlank f content' hf ?_
      rintro ⟨_, _, _, hwriting⟩
      rw [hwriting] at hat
      exact hother (Option.some.inj hat)
  have hsound := sound_step h.sound hs
  cases g with
  | jwtSecret =>
    have hpasses : s.passes ≠ [] → ∀ f, ∃ v, v ≠ "" ∧
        Settled configured f v 0 (s.obtain .jwtSecret jwt value) := fun hany f => by
      obtain ⟨v, hv, hset⟩ := h.passes hany f
      exact ⟨v, hv, hkeep hset⟩
    refine ⟨hsound, fun f content' hf _ => hblank f content' hf, fun jwt' heq => ?_, hpasses⟩
    cases heq
    exact ⟨hne, .of_source hsource nofun (fun _ _ heq => (Option.some.inj heq).symm)
      fun hany => hpasses hany _⟩
  | tokenPepper =>
    refine ⟨hsound, fun f content' hf _ => hblank f content' hf, nofun, fun _ f => ?_⟩
    obtain ⟨hjwtne, hjwtset⟩ := h.jwt jwt (hjwt rfl)
    cases f with
    | jwtSecret => exact ⟨jwt, hjwtne, hkeep hjwtset⟩
    | tokenPepper =>
      refine ⟨value, hne, hsource, nofun, nofun, fun p hp => ?_⟩
      rcases List.mem_append.mp hp with hp | hp
      · obtain ⟨w, _, hw⟩ := h.passes (List.ne_nil_of_mem hp) .tokenPepper
        have heq : w = value := Option.some.inj (hw.source.symm.trans hsource)
        exact heq ▸ hw.passes p hp
      · rw [List.mem_singleton.mp hp]
        rfl

/-- A start that makes or writes a file. -/
theorem kept_writing {g : SecretFile} {jwt secret content : String} {off : Nat}
    (h : Kept configured s) (hat : s.phase.file = some g)
    (hjwt : (Phase.writing g jwt secret off).jwt = s.phase.jwt)
    (hs : Step engine configured s e
      { s.setFile g content with phase := .writing g jwt secret off }) :
    Kept configured { s.setFile g content with phase := .writing g jwt secret off } := by
  refine ⟨sound_step h.sound hs, fun f content' hf hidle => ?_, fun jwt' heq => ?_, fun hany f => ?_⟩
  · have hne : f ≠ g := fun hfg => hidle ⟨jwt, secret, off, by rw [hfg]⟩
    have hsame : s.files f = some content' := (if_neg hne).symm.trans hf
    refine h.notBlank f content' hsame ?_
    rintro ⟨_, _, _, hwriting⟩
    rw [hwriting] at hat
    exact hne (Option.some.inj hat)
  · obtain ⟨hne, hset⟩ := h.jwt jwt' (hjwt ▸ heq)
    exact ⟨hne, settled_step h.sound hset hs⟩
  · obtain ⟨v, hv, hset⟩ := h.passes hany f
    exact ⟨v, hv, settled_step h.sound hset hs⟩

theorem kept_step (h : Kept configured s) (hs : Step engine configured s e t)
    (hok : FirstByte s e) : Kept configured t := by
  have hpasses : t.passes = s.passes → t.passes ≠ [] → ∀ f, ∃ v, v ≠ "" ∧
      Settled configured f v 0 t := fun hsame hany f => by
    obtain ⟨v, hv, hset⟩ := h.passes (hsame ▸ hany) f
    exact ⟨v, hv, settled_step h.sound hset hs⟩
  have hsound := sound_step h.sound hs
  cases hs with
  | start hphase =>
    refine ⟨hsound, fun f content hf _ => ?_, fun jwt heq => ?_, hpasses rfl⟩
    · exact h.notBlank f content hf fun ⟨_, _, _, hwriting⟩ => nomatch hphase.symm.trans hwriting
    · by_cases hempty : configured = ""
      · rw [if_pos hempty] at heq
        cases heq
      · rw [if_neg hempty] at heq
        cases heq
        refine ⟨hempty, .of_source (if_neg hempty) nofun (fun _ jwt' heq' => ?_)
          fun hany => hpasses rfl hany _⟩
        rw [if_neg hempty] at heq'
        exact (Option.some.inj heq').symm
  | @read f jwt content hphase hfile =>
    have hread : Step engine configured s (.read f) (s.obtain f jwt (trim content)) :=
      .read hphase hfile
    refine kept_obtain h hread (hphase ▸ rfl) (fun hf => hphase ▸ hf ▸ rfl) hfile rfl
      (h.notBlank f content hfile ?_)
    exact fun ⟨_, _, _, hwriting⟩ => nomatch hphase.symm.trans hwriting
  | @create f jwt random hphase hnone hlength =>
    have hcreate := @Step.create engine configured s f jwt random hphase hnone hlength
    refine kept_writing h (hphase ▸ rfl) ?_ hcreate
    rw [hphase]
    cases f <;> rfl
  | @write f jwt secret off n hphase hpos hle =>
    have hwrite := @Step.write engine configured s f jwt secret off n hphase hpos hle
    refine kept_writing h (hphase ▸ rfl) ?_ hwrite
    rw [hphase]
    cases f <;> rfl
  | @written f jwt secret off hphase hoff =>
    obtain ⟨hfile, halphabet, hne⟩ := h.sound.writing f jwt secret off hphase
    rw [hoff, prefixOf_all] at hfile
    have hwritten := @Step.written engine configured s f jwt secret off hphase hoff
    refine kept_obtain h hwritten (hphase ▸ rfl) (fun hf => hphase ▸ hf ▸ rfl) hfile
      (trim_secret halphabet) fun hempty => ?_
    rw [hempty] at hne
    exact hne rfl
  | dies _ =>
    refine ⟨hsound, fun f content hf _ => ?_, nofun, hpasses rfl⟩
    by_cases hwriting : s.phase.Writing f
    · obtain ⟨jwt, secret, off, hphase⟩ := hwriting
      obtain ⟨hfile, halphabet, hne⟩ := h.sound.writing f jwt secret off hphase
      cases hfile.symm.trans hf
      exact trim_prefixOf halphabet hne fun hzero => hok rfl f jwt secret (hzero ▸ hphase)
    · exact h.notBlank f content hf hwriting

end Steps

/-! ## Starts that die too early -/

section Starts

variable {engine : UrlSafeNoPad} {configured v : String} {f : SecretFile} {n : Nat} {s t : State}
  {e : Event} {tr : List (State × Event × State)}

/-- A start that dies with an empty file settles the secret: it is the empty text. -/
theorem settled_empty (h : Sound configured s) (hs : Step engine configured s .dies t)
    {jwt secret : String} (hphase : s.phase = .writing f jwt secret 0) :
    Settled configured f "" s.passes.length t := by
  cases hs with
  | dies _ =>
    refine ⟨?_, nofun, nofun, fun p hp => ?_⟩
    · have hfile : s.files f = some "" := (h.writing f jwt secret 0 hphase).1
      have hsource : s.source configured f = some "" := by
        rw [source_of_file h (hphase ▸ rfl), hfile, Option.map_some, trim_empty]
      cases f <;> exact hsource
    · rw [List.drop_length] at hp
      cases hp

/-- The starts that got past are not forgotten. -/
theorem passes_length_step (hs : Step engine configured s e t) :
    s.passes.length ≤ t.passes.length := by
  have hobtain : ∀ f jwt value, s.passes.length ≤ (s.obtain f jwt value).passes.length :=
    fun f jwt value => by
      cases f with
      | jwtSecret => exact Nat.le_refl _
      | tokenPepper => exact (List.prefix_append _ _).length_le
  cases hs with
  | read _ _ => exact hobtain _ _ _
  | written _ _ => exact hobtain _ _ _
  | start _ => exact Nat.le_refl _
  | create _ _ _ _ => exact Nat.le_refl _
  | write _ _ _ _ => exact Nat.le_refl _
  | dies _ => exact Nat.le_refl _

/-- Once a start has died too early, every later one that gets past has an empty secret. -/
theorem settled_of_dead {s₀ : State} (h₀ : Init s₀) (run : Run (Step engine configured) s₀ tr s)
    (hdead : ∃ x ∈ tr, ¬ FirstByte x.1 x.2.1) :
    ∃ f n, n ≤ s.passes.length ∧ Settled configured f "" n s := by
  induction run with
  | nil => obtain ⟨x, hx, _⟩ := hdead; cases hx
  | @snoc tr s t e run hs ih =>
    have hsound : Sound configured s := run.keeps (fun _ _ _ h hs => sound_step h hs) (sound_init h₀)
    by_cases hlast : FirstByte s e
    · have hbefore : ∃ x ∈ tr, ¬ FirstByte x.1 x.2.1 := by
        obtain ⟨x, hx, hearly⟩ := hdead
        rcases List.mem_append.mp hx with hx | hx
        · exact ⟨x, hx, hearly⟩
        · rw [List.mem_singleton.mp hx] at hearly
          exact absurd hlast hearly
      obtain ⟨f, n, hn, hset⟩ := ih hbefore
      exact ⟨f, n, Nat.le_trans hn (passes_length_step hs), settled_step hsound hset hs⟩
    · obtain ⟨rfl, hphase⟩ := Classical.not_imp.mp hlast
      simp only [not_forall, not_not] at hphase
      obtain ⟨f, jwt, secret, hphase⟩ := hphase
      exact ⟨f, _, passes_length_step hs, settled_empty hsound hs hphase⟩

/-- The states that the starts reach from `s` when none dies too early. -/
def Reaches (engine : UrlSafeNoPad) (configured : String) (s : State) : State → Prop :=
  Reachable (Guarded (Step engine configured) FirstByte) fun s₀ => s₀ = s

theorem Reaches.next {s₀ : State} (h : Reaches engine configured s₀ s)
    (hs : Step engine configured s e t) (hok : e ≠ .dies) : Reaches engine configured s₀ t :=
  .step h ⟨hs, fun heq => absurd heq hok⟩

/-- A start that looks for `f` can get it. -/
theorem Reaches.obtains {s₀ : State} {jwt : String} (h : Reaches engine configured s₀ s)
    (hphase : s.phase = .checking f jwt) :
    ∃ files value, Reaches engine configured s₀ ({ s with files := files }.obtain f jwt value) := by
  cases hfile : s.files f with
  | some content => exact ⟨s.files, trim content, h.next (.read hphase hfile) nofun⟩
  | none =>
    let secret := genJwtSecret engine (List.replicate 48 0)
    have hlength : secret.toList.length = 64 := engine.length_encode _
    have created := h.next (.create (List.replicate 48 0) hphase hfile rfl) nofun
    have written := created.next (.write 64 rfl (by decide) (Nat.le_of_eq hlength.symm)) nofun
    have got := written.next (.written rfl hlength.symm) nofun
    refine ⟨((s.setFile f "").setFile f (prefixOf secret 64)).files, secret, ?_⟩
    cases f with
    | jwtSecret => exact got
    | tokenPepper => exact got

theorem Reaches.gets_past {s₀ : State} (h : Reaches engine configured s₀ s)
    (hdown : s.phase = .down) :
    ∃ t p, Reaches engine configured s₀ t ∧ t.passes = s.passes ++ [p] := by
  have started := h.next (.start hdown) nofun
  by_cases hempty : configured = ""
  · rw [if_pos hempty] at started
    obtain ⟨_, jwt, got⟩ := started.obtains rfl
    obtain ⟨_, pepper, past⟩ := got.obtains rfl
    exact ⟨_, ⟨jwt, pepper⟩, past, rfl⟩
  · rw [if_neg hempty] at started
    obtain ⟨_, pepper, past⟩ := started.obtains rfl
    exact ⟨_, ⟨configured, pepper⟩, past, rfl⟩

/-- Every start can die, and not too early. -/
theorem reaches_down (h : Sound configured s) :
    ∃ t, Reaches engine configured s t ∧ t.phase = .down ∧ t.passes = s.passes := by
  have here : Reaches engine configured s s := .init rfl
  by_cases hdown : s.phase = .down
  · exact ⟨s, here, hdown, rfl⟩
  by_cases hearly : ∃ f jwt secret, s.phase = .writing f jwt secret 0
  · obtain ⟨f, jwt, secret, hphase⟩ := hearly
    have hpos := List.length_pos_iff.mpr (h.writing f jwt secret 0 hphase).2.2
    have written := here.next (.write 1 hphase Nat.one_pos (by omega)) nofun
    exact ⟨_, .step written ⟨.dies nofun, fun _ _ _ _ heq => nomatch heq⟩, rfl, rfl⟩
  · exact ⟨_, .step here ⟨.dies hdown, fun _ f jwt secret heq => hearly ⟨f, jwt, secret, heq⟩⟩, rfl,
      rfl⟩

end Starts

/-- However the server is started from now on, if no start dies too early then all that
get past have the same secrets, and no empty one: exactly if no start has died too early so
far. -/
theorem secrets_exact {engine : UrlSafeNoPad} {configured : String} {s₀ s : State}
    {tr : List (State × Event × State)} (h₀ : Init s₀)
    (run : Run (Step engine configured) s₀ tr s) :
    (∀ t, Reaches engine configured s t → Safe t) ↔ ∀ x ∈ tr, FirstByte x.1 x.2.1 := by
  constructor
  · intro hsafe
    by_contra hdead
    simp only [not_forall] at hdead
    obtain ⟨x, hmem, hx⟩ := hdead
    obtain ⟨f, n, hn, hset⟩ := settled_of_dead h₀ run ⟨x, hmem, hx⟩
    have hsound : Sound configured s := run.keeps (fun _ _ _ h hs => sound_step h hs) (sound_init h₀)
    obtain ⟨d, hdown, hphase, hsame⟩ := @reaches_down engine configured s hsound
    obtain ⟨t, p, hreach, hpasses⟩ := hdown.gets_past hphase
    rw [hsame] at hpasses
    have hkeep : ∀ s e t, Sound configured s ∧ Settled configured f "" n s →
        Guarded (Step engine configured) FirstByte s e t →
        Sound configured t ∧ Settled configured f "" n t := fun _ _ _ h hs =>
      ⟨sound_step h.1 hs.1, settled_step h.1 h.2 hs.1⟩
    have hlate := (hreach.invariant (fun _ heq => heq ▸ ⟨hsound, hset⟩) hkeep).2
    have hmem : p ∈ t.passes.drop n := by
      rw [hpasses, List.drop_append_of_le_length hn]
      exact List.mem_append_right _ (List.mem_singleton_self p)
    exact (hsafe t hreach).nonempty p (List.mem_of_mem_drop hmem) f (hlate.passes p hmem)
  · intro hok t hreach
    have hkeep : ∀ s e t, Kept configured s → Step engine configured s e t → FirstByte s e →
        Kept configured t := fun _ _ _ h hs hfirst => kept_step h hs hfirst
    have hkept : Kept configured s := (run.keeps_guarded hkeep hok (kept_init h₀)).1
    have hstart : ∀ s₁, s₁ = s → Kept configured s₁ := fun _ heq => heq ▸ hkept
    have hlate := hreach.invariant hstart fun _ _ _ h hs => hkeep _ _ _ h hs.1 hs.2
    exact hlate.safe

/-! ## Two runs on a new data directory -/

def sextet (i : Nat) : Char := alphabet.getD i 'A'

/-- Three bytes are four characters, and there is no padding. -/
def encodeUrlSafe : List UInt8 → List Char
  | a :: b :: c :: rest =>
    sextet (a.toNat / 4) :: sextet (a.toNat % 4 * 16 + b.toNat / 16) ::
      sextet (b.toNat % 16 * 4 + c.toNat / 64) :: sextet (c.toNat % 64) :: encodeUrlSafe rest
  | [a, b] =>
    [sextet (a.toNat / 4), sextet (a.toNat % 4 * 16 + b.toNat / 16), sextet (b.toNat % 16 * 4)]
  | [a] => [sextet (a.toNat / 4), sextet (a.toNat % 4 * 16)]
  | [] => []

theorem sextet_mem (i : Nat) : sextet i ∈ alphabet := by
  rw [sextet, List.getD_eq_getElem?_getD]
  cases hi : alphabet[i]? with
  | none => decide
  | some c => exact List.mem_of_getElem? hi

def urlSafeNoPad : UrlSafeNoPad where
  encode bytes := String.ofList (encodeUrlSafe bytes)
  length_encode bytes := by
    rw [String.toList_ofList]
    induction bytes using encodeUrlSafe.induct with
    | case1 a b c rest ih => simp only [encodeUrlSafe, List.length_cons, ih]; omega
    | case2 a b => simp [encodeUrlSafe]
    | case3 a => simp [encodeUrlSafe]
    | case4 => rfl
  mem_alphabet bytes := by
    rw [String.toList_ofList]
    induction bytes using encodeUrlSafe.induct with
    | case1 a b c rest ih =>
      simp only [encodeUrlSafe, List.forall_mem_cons]
      exact ⟨sextet_mem _, sextet_mem _, sextet_mem _, sextet_mem _, ih⟩
    | case2 a b => simp [encodeUrlSafe, sextet_mem]
    | case3 a => simp [encodeUrlSafe, sextet_mem]
    | case4 => nofun

example : encodeUrlSafe [255, 239, 190, 1] = ['_', '-', '-', '-', 'A', 'Q'] := by decide

/-- A new data directory. -/
def fresh : State := { files := fun _ => none, phase := .down, passes := [] }

theorem init_fresh : Init fresh := ⟨rfl, rfl, nofun⟩

/-- 48 random bytes. -/
def random : List UInt8 := List.replicate 48 7

theorem length_random : (genJwtSecret urlSafeNoPad random).toList.length = 64 :=
  urlSafeNoPad.length_encode random

/-- The first start is killed when it has written its JWT secret; the next two get past,
with the same secrets. -/
theorem secrets_exact_restarted :
    ∃ tr s, Run (Step urlSafeNoPad "") fresh tr s ∧ s.passes.length = 2 ∧ Safe s := by
  have made := ((Run.nil.snoc (@Step.start urlSafeNoPad "" fresh rfl)).snoc
    (.create random rfl rfl rfl)).snoc (.write 64 rfl (by decide) (Nat.le_of_eq length_random.symm))
  have killed := made.snoc (.dies nofun)
  have pepper := (((killed.snoc (.start rfl)).snoc (.read rfl rfl)).snoc
    (.create random rfl rfl rfl)).snoc (.write 64 rfl (by decide) (Nat.le_of_eq length_random.symm))
  have past := (pepper.snoc (.written rfl length_random.symm)).snoc (.dies nofun)
  have again := ((past.snoc (.start rfl)).snoc (.read rfl rfl)).snoc (.read rfl rfl)
  refine ⟨_, _, again, rfl, (secrets_exact init_fresh again).mpr ?_ _ (.init rfl)⟩
  simp only [List.forall_mem_append, List.forall_mem_singleton, List.not_mem_nil, FirstByte,
    reduceCtorEq, false_implies, implies_true, and_true, true_and]
  refine ⟨fun _ _ _ _ heq => ?_, fun _ _ _ _ heq => ?_⟩
  · cases heq
  · cases heq

/-- The first start is killed when it has made `jwt_secret`: the next one signs its tokens
with the empty secret. -/
theorem empty_secret :
    ∃ tr s p, Run (Step urlSafeNoPad "") fresh tr s ∧ s.passes = [p] ∧ p.jwtSecret = "" ∧
      ¬ Safe s := by
  have killed := ((Run.nil.snoc (@Step.start urlSafeNoPad "" fresh rfl)).snoc
    (.create random rfl rfl rfl)).snoc (.dies nofun)
  have pepper := (((killed.snoc (.start rfl)).snoc (.read rfl rfl)).snoc
    (.create random rfl rfl rfl)).snoc (.write 64 rfl (by decide) (Nat.le_of_eq length_random.symm))
  have past := pepper.snoc (.written rfl length_random.symm)
  exact ⟨_, _, _, past, rfl, trim_empty, fun h =>
    h.nonempty _ (List.mem_singleton_self _) .jwtSecret trim_empty⟩

end MiniMask.Startup
