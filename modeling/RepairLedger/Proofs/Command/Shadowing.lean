import RepairLedger.Proofs.Command.Likeness
import RepairLedger.Proofs.Host.Goals

/-!
# Tokens that are overridden

A token is taken from the first place that has one.  Two worlds that differ in tokens at places
behind it (`Host.World.SameButTokens`, `Settings.Overrides`) give the same settings, and so the same
requests are made in both (`Invocation.requests_eq_of_overrides`).

Until a command changes the ledger it only looks at the worlds, which stay as they are, so that it
is known what it gets to see (`Host.World.glance`).  From then on it has the settings, and files
that still differ are of no use to it.
-/

namespace RepairLedger

open Host Attempt

/-! ### Worlds that differ in tokens -/

/-- Both are texts of settings, which are the same but for the token. -/
def FileSettings.SayAlike (b b' : Bytes) : Prop :=
  ∃ s s', ofBytes? b = some s ∧ ofBytes? b' = some s' ∧ s.anonymous = s'.anonymous

/-- The second world is the first but for the tokens in settings files and in the environment. -/
structure Host.World.SameButTokens (w w' : World) : Prop where
  files : FileTree.Like FileSettings.SayAlike w.files w'.files
  environment : ∀ name, name ≠ Contrast.variableName →
    w.environment.lookup name = w'.environment.lookup name
  rest : w' = { w with files := w'.files, environment := w'.environment }

/-- One and the same token comes first in both worlds: that of the command line, else that of the
environment, else that of the project's file. -/
inductive Settings.Overrides (token : Option String) (w w' : World) : Prop
  | byCommandLine (h : token.isSome)
  | byEnvironment {t : String} (ht : ¬ Text.isBlankText t)
    (h : w.environment.lookup Contrast.variableName = some t)
    (h' : w'.environment.lookup Contrast.variableName = some t)
  | byProject {t : String} {bytes bytes' : Bytes} {s s' : FileSettings}
    (he : w.environment.lookup Contrast.variableName =
      w'.environment.lookup Contrast.variableName)
    (h : w.files.read w.base ((World.pathOf w.base).join projectFileName) = .ok bytes)
    (hs : FileSettings.ofBytes? bytes = some s) (ht : s.token = some t)
    (h' : w'.files.read w'.base ((World.pathOf w'.base).join projectFileName) = .ok bytes')
    (hs' : FileSettings.ofBytes? bytes' = some s') (ht' : s'.token = some t)

/-- Runs that send the same along, and see other tokens elsewhere. -/
def Contrast.shadowed : Contrast where
  first := ""
  second := ""
  environment _ _ := True
  content := FileSettings.SayAlike
  strict := False

theorem Contrast.isSound_shadowed : shadowed.IsSound where
  first := by decide
  second := by decide
  content _ _ h := ⟨id, h⟩

section Worlds

variable {w w' : World}

theorem Host.World.SameButTokens.like (h : w.SameButTokens w') (text : String) :
    ({ w with complaints := text } : World).Like .shadowed { w' with complaints := text } := by
  obtain ⟨hfiles, henv, hrest⟩ := h
  refine ⟨hfiles, ?_, ?_, fun name => ?_, ?_, ?_, rfl⟩
  · rw [hrest]
  · rw [hrest]
  · show (if name = Contrast.variableName then True else _)
    split
    · trivial
    · exact henv name ‹_›
  · rw [hrest]
    exact List.forall₂_same.2 fun _ _ => .inl rfl
  · rw [hrest]

/-! ### Glances -/

/-- The operations that look at a world or complain. -/
def Host.Program.Watches : Op → Prop
  | .complain _ => True
  | op => Program.Looks op

theorem Host.Program.Looks.watches {op : Op} (h : Program.Looks op) : Program.Watches op := by
  cases op with
  | complain => trivial
  | _ => exact h

/-- What can be seen of two worlds by programs that only look at them. -/
def Host.World.glance (w w' : World) : View where
  permits := Program.Watches
  replies
    | .now, x, y => x = y
    | op, x, y => x = (w.perform op).1 ∧ y = (w'.perform op).1
  requests _ _ := False
  strict := False

/-- What is known of the results of programs that are alike at a glance; the worlds stay as they are
but for complaints. -/
theorem Host.World.run_glance {α β σ : Type} {R : α → β → Prop} {p : Program α} {p' : Program β}
    (h : Program.Alike (w.glance w') R p p') (o : Outside σ) (s : σ)
    (hc : w.complaints = w'.complaints) :
    ∃ text s', R (p.runAmid o (w, s)).1 (p'.runAmid o (w', s)).1 ∧
      (p.runAmid o (w, s)).2 = ({ w with complaints := text }, s') ∧
      (p'.runAmid o (w', s)).2 = ({ w' with complaints := text }, s') := by
  have hstart : ∃ text s', (w, s) = ({ w with complaints := text }, s') ∧
      (w', s) = ({ w' with complaints := text }, s') := ⟨w.complaints, s, rfl, by rw [hc]⟩
  have hrun := h.runAmid (o := o)
    (I := fun x x' => ∃ text s', x = ({ w with complaints := text }, s') ∧
      x' = ({ w' with complaints := text }, s')) ?_ (by rintro r r' ⟨⟩) hstart
  · obtain ⟨hresult, text, s', hx, hx'⟩ := hrun
    exact ⟨text, s', hresult, hx, hx'⟩
  · rintro op hop x x' ⟨text, s', rfl, rfl⟩
    cases op with
    | now => exact ⟨rfl, text, (o.time s').2, rfl, rfl⟩
    | read | kind | environment | workingDirectory | log =>
      exact ⟨⟨rfl, rfl⟩, text, s', rfl, rfl⟩
    | complain more => exact ⟨⟨rfl, rfl⟩, text ++ more, s', rfl, rfl⟩
    | _ => exact hop.elim

/-- What only looks at the worlds is alike at a glance if it is alike under the contrast. -/
theorem Host.Program.Alike.glance {α β : Type} {R : α → β → Prop} (hw : w.SameButTokens w')
    {p : Program α} {p' : Program β} (h : Program.Alike Contrast.shadowed.view R p p')
    (hp : p.Asks Program.Looks) : Program.Alike (w.glance w') R p p' := by
  refine h.restrict hp (fun op hop => ⟨hop.watches, fun x y hxy => ?_⟩) fun _ => id
  have hreply := ((hw.like "").perform w.outside 0 hop.isLocal).1
  cases op with
  | now => exact hxy
  | read | kind | environment | workingDirectory | log =>
    obtain ⟨rfl, rfl⟩ := hxy
    exact hreply
  | _ => exact hop.elim

/-! ### Settings at a glance -/

namespace Settings

variable {path : Path} {bytes bytes' : Bytes} {s s' : FileSettings}

/-- What is said by settings files that are there. -/
theorem glance_loadFile (h : w.files.read w.base path = .ok bytes)
    (hs : FileSettings.ofBytes? bytes = some s) (h' : w'.files.read w'.base path = .ok bytes')
    (hs' : FileSettings.ofBytes? bytes' = some s') :
    Attempt.Alike (w.glance w') (fun x y => x = s ∧ y = s') (loadFile path) (loadFile path) := by
  obtain ⟨text, htext, hread⟩ := Option.bind_eq_some_iff.1 hs
  obtain ⟨text', htext', hread'⟩ := Option.bind_eq_some_iff.1 hs'
  refine .bind (.ask trivial) fun kind kind' hkind => ?_
  obtain ⟨rfl, rfl⟩ := hkind
  have hkind : (w.perform (.kind path)).1 = some .file := FileTree.kind?_of_read h
  have hkind' : (w'.perform (.kind path)).1 = some .file := FileTree.kind?_of_read h'
  rw [hkind, hkind']
  refine .bind (.ask trivial) fun reply reply' hreply => ?_
  obtain ⟨rfl, rfl⟩ := hreply
  have hreply : (w.perform (.read path)).1 = .ok bytes := h
  have hreply' : (w'.perform (.read path)).1 = .ok bytes' := h'
  rw [hreply, hreply']
  dsimp only
  rw [htext, htext']
  dsimp only
  rw [hread, hread']
  exact .pure ⟨rfl, rfl⟩

/-- The settings of the project, which say the same but for the token, and have the token that comes
first. -/
theorem glance_loadProject (hw : w.SameButTokens w') :
    Attempt.Alike (w.glance w') (fun s s' => s.anonymous = s'.anonymous)
      (loadProject (World.pathOf w.base)) (loadProject (World.pathOf w.base)) :=
  Program.Alike.glance hw ((alike_loadFile Contrast.isSound_shadowed _).mono fun _ _ h => h.1)
    (looks_loadFile _)

theorem glance_loadUser (hw : w.SameButTokens w') :
    Attempt.Alike (w.glance w') (fun s s' => s.anonymous = s'.anonymous) loadUser loadUser :=
  Program.Alike.glance hw ((alike_loadUser Contrast.isSound_shadowed).mono fun _ _ h => h.1)
    looks_loadUser

theorem glance_value? (name : String) :
    Program.Alike (w.glance w') (fun x y =>
        x = (w.environment.lookup name).filter (!Text.isBlankText ·) ∧
          y = (w'.environment.lookup name).filter (!Text.isBlankText ·))
      (value? name) (value? name) := by
  refine .bind (.request trivial) fun x y hxy => ?_
  obtain ⟨rfl, rfl⟩ := hxy
  exact .pure ⟨rfl, rfl⟩

/-- The token that the environment of a world gives. -/
def tokenIn (w : World) : Option String :=
  (w.environment.lookup Contrast.variableName).filter (!Text.isBlankText ·)

theorem glance_loadEnvironment (hw : w.SameButTokens w') :
    Program.Alike (w.glance w') (fun e e' => e.token = tokenIn w ∧ e'.token = tokenIn w' ∧
      e.apiUrl = e'.apiUrl) loadEnvironment loadEnvironment := by
  refine .bind (glance_value? _) fun token token' htoken => ?_
  refine .bind (glance_value? _) fun url url' hurl => ?_
  refine .pure ⟨htoken.1, htoken.2, ?_⟩
  rw [hurl.1, hurl.2, hw.environment _ (by decide)]

/-- Layers that differ in tokens are the same settings if the token that comes first is the same. -/
theorem layer_eq {ledgerPath : Option Path} {token : Option String} {e e' : EnvironmentSettings}
    {p p' u u' : FileSettings} (he : e.apiUrl = e'.apiUrl) (hp : p.anonymous = p'.anonymous)
    (hu : u.anonymous = u'.anonymous)
    (ht : ((token.or e.token).or p.token).or u.token =
      ((token.or e'.token).or p'.token).or u'.token) :
    layer ⟨ledgerPath, token⟩ e p u = layer ⟨ledgerPath, token⟩ e' p' u' := by
  obtain ⟨_, _, _, _⟩ := p
  obtain ⟨_, _, _, _⟩ := p'
  obtain ⟨_, _, _, _⟩ := u
  obtain ⟨_, _, _, _⟩ := u'
  obtain ⟨rfl, rfl, rfl, -⟩ := FileSettings.mk.inj hp
  obtain ⟨rfl, rfl, rfl, -⟩ := FileSettings.mk.inj hu
  unfold layer
  rw [he, ht]

/-- It is enough to know what the project's file says in either world: the settings are the same if
the token that comes first is, whatever the user's file says. -/
theorem glance_resolve_of_project (hw : w.SameButTokens w') {token : Option String}
    {Q : FileSettings → FileSettings → Prop}
    (hproject : Attempt.Alike (w.glance w') Q (loadProject (World.pathOf w.base))
      (loadProject (World.pathOf w.base)))
    (hQ : ∀ p p', Q p p' → p.anonymous = p'.anonymous ∧ ∀ u u' : Option String,
      ((token.or (tokenIn w)).or p.token).or u = ((token.or (tokenIn w')).or p'.token).or u')
    (ledgerPath : Option Path) :
    Attempt.Alike (w.glance w') Eq (resolve (World.pathOf w.base) ⟨ledgerPath, token⟩)
      (resolve (World.pathOf w.base) ⟨ledgerPath, token⟩) := by
  refine .bind hproject fun p p' hp => .bind (glance_loadUser hw) fun u u' hu => ?_
  refine .bind (.lift (glance_loadEnvironment hw)) fun e e' he => .pure ?_
  refine layer_eq he.2.2 (hQ p p' hp).1 hu ?_
  rw [he.1, he.2.1]
  exact (hQ p p' hp).2 _ _

/-- The settings are the same in both worlds. -/
theorem glance_resolve (hw : w.SameButTokens w') {token : Option String}
    (ho : Overrides token w w') (ledgerPath : Option Path) :
    Attempt.Alike (w.glance w') Eq (resolve (World.pathOf w.base) ⟨ledgerPath, token⟩)
      (resolve (World.pathOf w.base) ⟨ledgerPath, token⟩) := by
  cases ho with
  | byCommandLine h =>
    obtain ⟨t, rfl⟩ := Option.isSome_iff_exists.1 h
    exact glance_resolve_of_project hw (glance_loadProject hw)
      (fun p p' hp => ⟨hp, fun _ _ => rfl⟩) ledgerPath
  | @byEnvironment t ht h h' =>
    have htoken : tokenIn w = some t := by simp [tokenIn, h, Option.filter, ht]
    have htoken' : tokenIn w' = some t := by simp [tokenIn, h', Option.filter, ht]
    refine glance_resolve_of_project hw (glance_loadProject hw)
      (fun p p' hp => ⟨hp, fun _ _ => ?_⟩) ledgerPath
    rw [htoken, htoken']
    cases token <;> rfl
  | @byProject t bytes bytes' s s' he h hs ht h' hs' ht' =>
    have hbase : w'.base = w.base := by rw [hw.rest]
    have hpath : World.pathOf w'.base = World.pathOf w.base := congrArg World.pathOf hbase
    rw [hpath] at h'
    have hproject : Attempt.Alike (w.glance w') (fun x y => x = s ∧ y = s')
        (loadProject (World.pathOf w.base)) (loadProject (World.pathOf w.base)) :=
      glance_loadFile h hs h' hs'
    refine glance_resolve_of_project hw hproject ?_ ledgerPath
    rintro p p' ⟨rfl, rfl⟩
    refine ⟨?_, fun _ _ => ?_⟩
    · have hlike := hw.files.read w.base ((World.pathOf w.base).join projectFileName)
      rw [hbase] at h'
      rw [h, h'] at hlike
      obtain rfl | ⟨q, q', hq, hq', hqq⟩ := hlike
      · rw [hs] at hs'
        cases hs'
        rfl
      · rw [hs] at hq
        rw [hs'] at hq'
        cases hq
        cases hq'
        exact hqq
    · rw [ht, ht', tokenIn, tokenIn, he]
      cases token <;> cases (w'.environment.lookup Contrast.variableName).filter _ <;> rfl

end Settings

/-! ### Commands that capture something -/

namespace Job

/-- What is done before the ledger is changed: the arguments are judged and the settings loaded. -/
def prepare {α : Type} (subject : Subject) (judge : Job α) (manner : Manner) (directory : Path) :
    Job (PullId × α × Settings) := do
  let id ← idOf subject
  let argument ← judge
  let settings ← settingsFor ⟨manner, directory⟩ subject
  return (id, argument, settings)

/-- What is done from then on. -/
def conclude {α : Type} (operation : Operation)
    (make : Settings → PullId → α → Ledger → Job Record) (manner : Manner) :
    PullId × α × Settings → Job Unit
  | (id, argument, settings) => do
    let outcome ← change settings operation id (make settings id argument)
    announce manner outcome.text

variable {α : Type} {subject : Subject} {judge : Job α} {operation : Operation}
  {make : Settings → PullId → α → Ledger → Job Record} {manner : Manner}

theorem carryOut_eq_bind (directory : Path) :
    carryOut ⟨manner, directory⟩ operation subject judge make =
      prepare subject judge manner directory >>= conclude operation make manner := by
  simp only [carryOut, prepare, conclude, bind_assoc, pure_bind]

theorem glance_prepare (hw : w.SameButTokens w') (ho : Settings.Overrides manner.token w w')
    (hj : Attempt.Alike Contrast.shadowed.view Eq judge judge) (hlooks : Asks Program.Looks judge) :
    Attempt.Alike (w.glance w') Eq (prepare subject judge manner (World.pathOf w.base))
      (prepare subject judge manner (World.pathOf w.base)) := by
  refine .bind (Program.Alike.glance hw (blunt_orRefuse _) (looks_idOf subject)) fun id _ hid => ?_
  obtain rfl := hid
  refine .bind (Program.Alike.glance hw hj hlooks) fun a _ ha => ?_
  obtain rfl := ha
  refine .bind (.adapt (Settings.glance_resolve hw ho _) _) fun settings _ hsettings => ?_
  obtain rfl := hsettings
  exact .pure rfl

/-- Files that differ in tokens are of no use once there are settings. -/
theorem alike_conclude
    (hm : ∀ S id a l, Attempt.Alike Contrast.shadowed.view Eq (make S id a l) (make S id a l))
    (x : PullId × α × Settings) :
    Attempt.Alike Contrast.shadowed.view Eq (conclude operation make manner x)
      (conclude operation make manner x) := by
  obtain ⟨id, a, S⟩ := x
  refine .bind (alike_change Contrast.isSound_shadowed ⟨S.token, rfl, .inl rfl⟩ (hm S id a))
    fun outcome _ houtcome => ?_
  obtain rfl := houtcome
  exact alike_announce manner manner.token outcome.text

end Job

/-- A command that captures something first looks at the worlds, and gets to see the same in both as
long as the token that comes first is the same; and what it does then is alike in both. -/
theorem Command.exists_prepared {command : Command} {operation : Operation} {subject : Subject}
    (hc : command.captures? = some (operation, subject)) (hw : w.SameButTokens w')
    {manner : Manner} (ho : Settings.Overrides manner.token w w') :
    ∃ (α : Type) (prepare : Path → Job α) (act : α → Job Unit),
      (∀ directory, command.job ⟨manner, directory⟩ = prepare directory >>= act) ∧
      Attempt.Alike (w.glance w') Eq (prepare (World.pathOf w.base))
        (prepare (World.pathOf w.base)) ∧
      ∀ a, Attempt.Alike Contrast.shadowed.view Eq (act a) (act a) := by
  have hsame : ∀ S : Settings, Settings.Like .shadowed S S := fun S => ⟨S.token, rfl, .inl rfl⟩
  cases command with
  | createInitial subject statistics =>
    cases hc
    exact ⟨_, _, _, Job.carryOut_eq_bind,
      Job.glance_prepare hw ho (Job.alike_readStatistics Contrast.isSound_shadowed statistics)
        (Job.looks_readStatistics statistics),
      Job.alike_conclude fun S _ a l => Job.alike_begin Contrast.isSound_shadowed (hsame S) a l⟩
  | finalize subject =>
    cases hc
    exact ⟨_, _, _, Job.carryOut_eq_bind,
      Job.glance_prepare hw ho (.pure rfl) (.pure ()),
      Job.alike_conclude fun S _ _ l => Job.alike_finish Contrast.isSound_shadowed (hsame S) l⟩
  | addManualEdit | report | describe | completions => cases hc

end Worlds

/-! ### Whole runs -/

section Runs

variable {α β σ : Type} {w w' : World}

/-- A program that asks for nothing from servers makes no requests. -/
theorem Host.Program.Asks.requests_runAmid {p : Program α} (h : p.Asks Program.IsLocal)
    (o : Outside σ) (x : World × σ) : (p.runAmid o x).2.1.requests = x.1.requests := by
  induction h generalizing x with
  | done a => rfl
  | @ask op next hop _ ih =>
    have hstep : (o.perform x op).2.1.requests = x.1.requests := by
      cases op with
      | fetch => exact hop.elim
      | write | makeDirectory =>
        simp only [Outside.perform, World.perform, World.change]
        split <;> rfl
      | rename =>
        simp only [Outside.perform, World.perform, World.rename]
        split <;> rfl
      | lock =>
        simp only [Outside.perform, World.perform, World.lock]
        split
        · rfl
        · split <;> rfl
      | _ => rfl
    exact (ih _ _).trans hstep

theorem Host.Program.Asks.logging {P : Op → Prop} {p : Program α} (h : p.Asks P) (hnow : P .now)
    (hcomplain : ∀ text, P (.complain text)) (log : Log) : (p.logging log).Asks P := by
  induction h with
  | done a => exact .done a
  | @ask op next h _ ih =>
    have hother : (Program.ask op fun reply => (next reply).logging log).Asks P := .ask h ih
    cases op with
    | log event =>
      rw [Program.logging]
      split
      · exact .ask hnow fun _ => .ask (hcomplain _) fun _ => ih ()
      · exact ih ()
    | _ => exact hother

/-- Alike programs under the same tokens make the same requests. -/
theorem Contrast.requests_eq_of_shadowed {R : α → β → Prop} {p : Program α} {p' : Program β}
    (h : Program.Alike shadowed.view R p p') (o : Outside σ) (s : σ) (hw : w.Like shadowed w') :
    (p.runAmid o (w, s)).2.1.requests = (p'.runAmid o (w', s)).2.1.requests := by
  have ho : ∀ s r r', Request.SameBut shadowed.first shadowed.second r r' →
      o.answer s r = o.answer s r' := fun s r r' hr => by rw [Request.SameBut.eq hr]
  have hrequests := (run_alike ho h hw s).2.1.requests
  rw [← List.forall₂_eq_eq_eq]
  exact hrequests.imp fun _ _ hr => Request.SameBut.eq hr

namespace Invocation

/-- What is left behind the job is to say why it was refused. -/
def ended (manner : Manner) : Except Refusal Unit → Program ExitCode
  | .ok () => return .success
  | .error refusal => do
    Program.request (.complain (refusal.text manner.style))
    return .failure

theorem isLocal_ended (manner : Manner) (result : Except Refusal Unit) :
    (ended manner result).Asks Program.IsLocal := by
  rcases result with refusal | ⟨⟩
  · exact .bind (.request trivial) fun _ => .pure _
  · exact .pure _

theorem isLocal_ofEnvironment (verbose : Bool) :
    (Log.ofEnvironment verbose).Asks Program.IsLocal :=
  (looks_ofEnvironment verbose).mono fun _ => Program.Looks.isLocal

/-- Other invocations than runs of commands that capture something ask nothing of servers. -/
theorem isLocal_execute {i : Invocation}
    (h : ∀ manner command, i = run manner command → command.captures? = none) :
    i.execute.Asks Program.IsLocal := by
  cases i with
  | misuse | help | version => exact .bind (.request trivial) fun _ => .pure _
  | run manner command =>
    refine .bind (isLocal_ofEnvironment _) fun log => .logging ?_ trivial (fun _ => trivial) log
    refine .bind (.request trivial) fun directory => .bind (.request trivial) fun _ => ?_
    exact .bind (Command.isLocal_job (h manner command rfl)) fun result =>
      isLocal_ended manner result

/-- A run up to where the ledger is to be changed. -/
def begun (prepare : Path → Job α) : Program (Except Refusal α) := do
  let directory ← Program.request .workingDirectory
  Program.request (.log ⟨.debug, "prledger", "starting prledger",
    [("root", .string directory.text)]⟩)
  (prepare directory).run

/-- The log of a run, and what it has come to where the ledger is to be changed. -/
def prepared (manner : Manner) (prepare : Path → Job α) : Program (Log × Except Refusal α) := do
  let log ← Log.ofEnvironment manner.verbose
  let result ← (begun prepare).logging log
  return (log, result)

/-- A run from there on. -/
def carriedOn (manner : Manner) (act : α → Job Unit) : Except Refusal α → Program ExitCode
  | .ok a => do ended manner (← (act a).run)
  | .error refusal => ended manner (.error refusal)

variable {manner : Manner} {command : Command} {prepare : Path → Job α} {act : α → Job Unit}

theorem execute_eq_prepared
    (hjob : ∀ directory, command.job ⟨manner, directory⟩ = prepare directory >>= act) :
    (run manner command).execute =
      prepared manner prepare >>= fun x => (carriedOn manner act x.2).logging x.1 := by
  have hcommand : runCommand manner command = begun prepare >>= carriedOn manner act := by
    rw [runCommand_eq_bind, started, begun]
    simp only [bind_assoc, hjob, ExceptT.run_bind]
    refine bind_congr fun directory => bind_congr fun _ => bind_congr fun result => ?_
    rcases result with refusal | a
    · rfl
    · exact bind_congr fun result => by rcases result with refusal | ⟨⟩ <;> rfl
  show (Log.ofEnvironment manner.verbose >>= fun log => (runCommand manner command).logging log) = _
  rw [hcommand, prepared]
  simp only [Program.logging_bind, bind_assoc, pure_bind]

/-- Up to there, a run only looks at the worlds. -/
theorem glance_prepared (hw : w.SameButTokens w')
    (hprepare : Attempt.Alike (w.glance w') Eq (prepare (World.pathOf w.base))
      (prepare (World.pathOf w.base))) :
    Program.Alike (w.glance w') (fun x y => x.1 = y.1 ∧ Agree False Eq x.2 y.2)
      (prepared manner prepare) (prepared manner prepare) := by
  have hbase : w'.base = w.base := by rw [hw.rest]
  refine .bind (.glance hw (.refl (shares_ofEnvironment _)) (looks_ofEnvironment _))
    fun log _ hlog => ?_
  obtain rfl := hlog
  have hbegun : Program.Alike (w.glance w') (Agree False Eq) (begun prepare) (begun prepare) := by
    refine .bind (.request trivial) fun directory directory' hd => ?_
    obtain rfl : directory = World.pathOf w.base := hd.1
    obtain rfl : directory' = World.pathOf w.base := hd.2.trans (congrArg World.pathOf hbase)
    exact .bind (.refl (.request ⟨trivial, fun _ _ _ => rfl⟩)) fun _ _ _ => hprepare
  have hlog : ∀ event, (w.glance w').replies (.log event) () () := fun _ => ⟨rfl, rfl⟩
  have hlogged : Program.Alike (w.glance w') (Agree False Eq) ((begun prepare).logging log)
      ((begun prepare).logging log) :=
    hbegun.logging ⟨trivial, fun _ _ => id⟩ (fun _ => trivial) hlog log
  exact .bind hlogged fun x y hxy => .pure ⟨rfl, hxy⟩

/-- From there on the same requests are made, if all came to the same until then. -/
theorem requests_carriedOn (o : Outside σ) (hw : w.SameButTokens w')
    (hact : ∀ a, Attempt.Alike Contrast.shadowed.view Eq (act a) (act a))
    {x x' : Except Refusal α} (hx : Agree False Eq x x') (log : Log) (text : String) (s : σ) :
    (((carriedOn manner act x).logging log).runAmid o
        ({ w with complaints := text }, s)).2.1.requests =
      (((carriedOn manner act x').logging log).runAmid o
        ({ w' with complaints := text }, s)).2.1.requests := by
  have hend : ∀ (result : Except Refusal Unit) (x : World × σ),
      (((ended manner result).logging log).runAmid o x).2.1.requests = x.1.requests :=
    fun result x => ((isLocal_ended manner result).logging trivial
      (fun _ => trivial) log).requests_runAmid o x
  rcases x with refusal | a <;> rcases x' with refusal' | a'
  · simp only [carriedOn]
    rw [hend, hend, hw.rest]
  · exact hx.elim
  · exact hx.elim
  · obtain rfl : a = a' := hx
    simp only [carriedOn, Program.logging_bind, Program.runAmid_bind]
    rw [hend, hend]
    have hlog : ∀ event, Contrast.shadowed.view.replies (.log event) () () := fun _ => rfl
    have hacts : Program.Alike Contrast.shadowed.view (Agree False Eq) ((act a).run.logging log)
        ((act a).run.logging log) :=
      Program.Alike.logging ⟨trivial, fun _ _ => id⟩ (fun _ => trivial) hlog log (hact a)
    exact Contrast.requests_eq_of_shadowed hacts o s (hw.like text)

/-- **A token that is overridden does not matter**: the same requests are made in worlds that differ
in tokens, if the token that comes first is the same in both. -/
theorem requests_eq_of_overrides (o : Outside σ) (hw : w.SameButTokens w') {i : Invocation}
    (ho : ∀ manner command, i = run manner command → Settings.Overrides manner.token w w') (s : σ) :
    (i.execute.runAmid o (w, s)).2.1.requests = (i.execute.runAmid o (w', s)).2.1.requests := by
  by_cases hc : ∃ manner command operation subject, i = run manner command ∧
    command.captures? = some (operation, subject)
  · obtain ⟨manner, command, operation, subject, rfl, hc⟩ := hc
    obtain ⟨α, prepare, act, hjob, hprepare, hact⟩ :=
      Command.exists_prepared hc hw (ho manner command rfl)
    have hprepared : Program.Alike (w.glance w') (fun x y => x.1 = y.1 ∧ Agree False Eq x.2 y.2)
        (prepared manner prepare) (prepared manner prepare) := glance_prepared hw hprepare
    obtain ⟨text, s', ⟨hlog, hresult⟩, hx, hx'⟩ :=
      World.run_glance hprepared o s (by rw [hw.rest])
    rw [execute_eq_prepared hjob, Program.runAmid_bind, Program.runAmid_bind, hx, hx', ← hlog]
    exact requests_carriedOn o hw hact hresult _ text s'
  · have hlocal : i.execute.Asks Program.IsLocal := isLocal_execute fun manner command hi =>
      Option.eq_none_iff_forall_not_mem.2 fun x hx => hc ⟨manner, command, x.1, x.2, hi, hx⟩
    rw [hlocal.requests_runAmid, hlocal.requests_runAmid, hw.rest]

end Invocation

end Runs

end RepairLedger
