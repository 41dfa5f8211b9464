import RepairLedger.Proofs.Command.Traffic
import RepairLedger.Proofs.Hosting.Contrast
import RepairLedger.Proofs.Settings.Texts

/-!
# Commands with one token or another

What a token gets into: the settings, the requests, and nothing else.  So the steps of commands are
alike under any contrast that is sound (`Contrast.IsSound`), be it that the settings hold one token
or another (`Job.alike_change`), or that the environment does (`Settings.alike_resolve`).  So are
whole commands (`Command.alike_job`) and the runs of them (`Invocation.alike_run`).

Files whose contents may differ hold settings, so that a ledger or statistics can be read from
neither (`Ledger.alike_load`, `Job.alike_readStatistics`).
-/

namespace RepairLedger

open Host Attempt

/-- Settings without the token. -/
def FileSettings.anonymous (s : FileSettings) : FileSettings :=
  { s with token := none }

namespace Contrast

variable {c : Contrast} {ε α β : Type}

/-- Both tokens can stand in a header, and files that differ hold settings that differ in the token
alone. -/
structure IsSound (c : Contrast) : Prop where
  first : GitHub.isHeaderText (GitHub.authorization c.first)
  second : GitHub.isHeaderText (GitHub.authorization c.second)
  content : ∀ b b', c.content b b' → ¬ c.strict ∧ ∃ s s', FileSettings.ofBytes? b = some s ∧
    FileSettings.ofBytes? b' = some s' ∧ s.anonymous = s'.anonymous

/-- The one run may have the one token where the other has the other. -/
def Tokens (c : Contrast) (x y : Option String) : Prop :=
  x = y ∨ x = some c.first ∧ y = some c.second

theorem Tokens.or {x y x' y' : Option String} (h : c.Tokens x y) (h' : c.Tokens x' y') :
    c.Tokens (x.or x') (y.or y') := by
  obtain rfl | ⟨rfl, rfl⟩ := h
  · cases x with
    | none => exact h'
    | some t => exact .inl rfl
  · exact .inr ⟨rfl, rfl⟩

end Contrast

/-- The operations that show neither the contents of a file nor the environment, and ask nothing of
a server. -/
def Host.Program.IsBlunt : Op → Prop
  | .read _ | .environment _ | .fetch _ => False
  | _ => True

section Alike

variable {c : Contrast} {ε α β : Type} {R : α → α → Prop}

theorem Contrast.shares_of_isBlunt {op : Op} (h : Program.IsBlunt op) : c.view.Shares op := by
  cases op with
  | read | environment | fetch => exact h.elim
  | _ => exact ⟨trivial, fun _ _ => id⟩

theorem Contrast.shares_environment {name : String} (h : name ≠ variableName) :
    c.view.Shares (.environment name) :=
  ⟨trivial, fun _ _ hxy => (if_neg h).mp hxy⟩

theorem Attempt.Alike.blunt {p : Attempt ε α} (h : Asks Program.IsBlunt p) :
    Alike c.view Eq p p :=
  .refl (h.mono fun _ => Contrast.shares_of_isBlunt)

/-- What is done with the contents of a file is alike if it is alike for contents that differ. -/
theorem Attempt.Alike.read {path : Path} {f : Except Failure Bytes → Attempt ε α}
    (hf : ∀ reply, Alike c.view R (f reply) (f reply))
    (hcontent : ∀ b b', c.content b b' → Alike c.view R (f (.ok b)) (f (.ok b'))) :
    Alike c.view R (RepairLedger.ask (.read path) >>= f) (RepairLedger.ask (.read path) >>= f) := by
  refine .bind (@Alike.ask _ _ (.read path) trivial) fun x y hxy => ?_
  rcases x with e | b <;> rcases y with e' | b'
  · obtain rfl : e = e' := hxy trivial
    exact hf _
  · exact hxy.elim
  · exact hxy.elim
  · obtain rfl | hb := hxy
    · exact hf _
    · exact hcontent b b' hb

end Alike

variable {c : Contrast}

/-! ### Ledger files -/

section Files

variable {path : Path}

theorem blunt_createParent (path : Path) : (createParent path).Asks Program.IsBlunt :=
  asks_createParent (fun _ => trivial) fun _ _ => trivial

/-- What can be read as settings is no ledger. -/
theorem Ledger.alike_load (hc : c.IsSound) (path : Path) :
    Attempt.Alike c.view Eq (Ledger.load path) (Ledger.load path) := by
  refine .read (fun reply => .blunt ?_) fun b b' hb => ?_
  · split
    · exact .bind (.ask trivial) fun _ => .pure _
    · exact .throw _
    · split
      · exact .throw _
      · exact .bind (.ask trivial) fun _ => .pure _
  · obtain ⟨hlax, s, s', hs, hs', -⟩ := hc.content b b' hb
    obtain ⟨fault, hfault⟩ := FileSettings.not_ledger hs
    obtain ⟨fault', hfault'⟩ := FileSettings.not_ledger hs'
    dsimp only
    rw [hfault, hfault']
    exact .throw fun hstrict => absurd hstrict hlax

theorem LedgerLock.blunt_acquire (path : Path) (timeout : Span) :
    Asks Program.IsBlunt (LedgerLock.acquire path timeout) := by
  refine .bind (.attempt (blunt_createParent path) _) fun _ => ?_
  refine .bind (.ask trivial) fun reply => ?_
  split
  · exact .bind (.ask trivial) fun _ => .pure _
  · exact .throw _
  · exact .bind (.ask trivial) fun _ => .throw _

theorem LedgerFile.alike_acquire (hc : c.IsSound) (path : Path) (timeout : Span) :
    Attempt.Alike c.view Eq (acquire path timeout) (acquire path timeout) := by
  refine .bind (.blunt (LedgerLock.blunt_acquire _ _)) fun lock _ hlock => ?_
  subst hlock
  refine .bind (.releasing (Ledger.alike_load hc path) trivial) fun ledger _ hledger => ?_
  subst hledger
  exact .pure rfl

theorem LedgerFile.blunt_commit (f : LedgerFile) (id : PullId) (record : Record) :
    Asks Program.IsBlunt (f.commit id record) := by
  refine .bind (.releasing ?_ trivial) fun _ => .bind (.ask trivial) fun _ => .pure _
  exact .bind (.attempt (blunt_createParent _) _) fun _ =>
    .bind (.attempt (.request trivial) _) fun _ =>
      .bind (.attempt (.request trivial) _) fun _ => .ask trivial

end Files

/-! ### Settings -/

namespace Settings

/-- The one settings are the others but for the token. -/
def Like (c : Contrast) (S S' : Settings) : Prop :=
  ∃ token, S' = { S with token } ∧ c.Tokens S.token token

/-- A settings file says the same but for the token, and the same altogether if nothing may differ.
-/
theorem alike_loadFile (hc : c.IsSound) (path : Path) :
    Attempt.Alike c.view (fun s s' => s.anonymous = s'.anonymous ∧ (c.strict → s = s'))
      (loadFile path) (loadFile path) := by
  unfold loadFile
  refine .bind (.blunt (.ask trivial)) fun kind _ hkind => ?_
  obtain rfl := hkind
  split
  · exact .pure ⟨rfl, fun _ => rfl⟩
  · refine .read (fun reply => ?_) fun b b' hb => ?_
    · refine .mono (.blunt ?_) fun s s' (h : s = s') => ⟨congrArg _ h, fun _ => h⟩
      split
      · exact .throw _
      · split
        · exact .throw _
        · split
          · exact .throw _
          · exact .pure _
    · obtain ⟨hlax, s, s', hs, hs', hlike⟩ := hc.content b b' hb
      obtain ⟨text, htext, hread⟩ := Option.bind_eq_some_iff.1 hs
      obtain ⟨text', htext', hread'⟩ := Option.bind_eq_some_iff.1 hs'
      dsimp only
      rw [htext, htext']
      dsimp only
      rw [hread, hread']
      exact .pure ⟨hlike, fun hstrict => absurd hstrict hlax⟩

theorem shares_directory? : directory?.Asks c.view.Shares := by
  have hhome : directory?.ofHome.Asks c.view.Shares := by
    refine .bind (.request (Contrast.shares_environment (by decide))) fun reply => ?_
    split
    · exact .pure _
    · exact .pure _
  refine .bind (.request (Contrast.shares_environment (by decide))) fun reply => ?_
  split
  · split
    · exact .pure _
    · exact hhome
  · exact hhome

theorem alike_loadUser (hc : c.IsSound) :
    Attempt.Alike c.view (fun s s' => s.anonymous = s'.anonymous ∧ (c.strict → s = s'))
      loadUser loadUser := by
  refine .bind (.lift (.refl shares_directory?)) fun directory _ hdirectory => ?_
  obtain rfl := hdirectory
  cases directory with
  | none => exact .pure ⟨rfl, fun _ => rfl⟩
  | some directory => exact alike_loadFile hc _

theorem alike_loadEnvironment
    (henv : ∀ x y, c.environment x y → c.Tokens (x.filter (!Text.isBlankText ·))
      (y.filter (!Text.isBlankText ·))) :
    Program.Alike c.view (fun e e' => c.Tokens e.token e'.token ∧ e.apiUrl = e'.apiUrl)
      loadEnvironment loadEnvironment := by
  have htoken : Program.Alike c.view c.Tokens (value? "GITHUB_TOKEN") (value? "GITHUB_TOKEN") := by
    refine .bind (.request trivial) fun x y hxy => .pure (henv x y ?_)
    exact hxy
  refine .bind htoken fun token token' ht => ?_
  have hurl : (value? "PRLEDGER_GITHUB_API").Asks c.view.Shares :=
    .bind (.request (Contrast.shares_environment (by decide))) fun _ => .pure _
  refine .bind (.refl hurl) fun url _ hu => ?_
  obtain rfl := hu
  exact .pure ⟨ht, rfl⟩

/-- Whether the command line or the environment has the one token or the other, the settings are the
same but for it. -/
theorem alike_resolve (hc : c.IsSound) (hs : c.strict)
    (henv : ∀ x y, c.environment x y → c.Tokens (x.filter (!Text.isBlankText ·))
      (y.filter (!Text.isBlankText ·)))
    (directory : Path) (ledgerPath : Option Path) {token token' : Option String}
    (ht : c.Tokens token token') :
    Attempt.Alike c.view (Like c) (resolve directory ⟨ledgerPath, token⟩)
      (resolve directory ⟨ledgerPath, token'⟩) := by
  refine .bind (alike_loadFile hc _) fun project _ hproject => ?_
  obtain rfl := hproject.2 hs
  refine .bind (alike_loadUser hc) fun user _ huser => ?_
  obtain rfl := huser.2 hs
  refine .bind (.lift (alike_loadEnvironment henv)) fun e e' he => ?_
  refine .pure ⟨_, ?_, ((ht.or he.1).or (.inl rfl)).or (.inl rfl)⟩
  rw [layer, layer, he.2]

end Settings

/-! ### Requests -/

namespace GitHub

variable {S S' : Settings}

theorem alike_get (hc : c.IsSound) (h : Settings.Like c S S') (url accept : String) :
    Attempt.Alike c.view Eq (get S url accept) (get S' url accept) := by
  obtain ⟨token, rfl, ht⟩ := h
  -- The two tokens are sent in the same cases, in requests that differ in nothing else.
  have hrefused : (S.token.map authorization).filter (!isHeaderText ·) =
      (token.map authorization).filter (!isHeaderText ·) := by
    obtain rfl | ⟨h, rfl⟩ := ht
    · rfl
    · simp [h, Option.filter, hc.first, hc.second]
  have hrequest : ∀ sent, Request.SameBut c.first c.second
      ⟨sent, accept, userAgent, S.token.map authorization⟩
      ⟨sent, accept, userAgent, token.map authorization⟩ := by
    intro sent
    obtain rfl | ⟨h, rfl⟩ := ht
    · exact .inl rfl
    · exact .inr ⟨rfl, by rw [h]; rfl, rfl⟩
  unfold get
  refine .bind (.blunt (.ask trivial)) fun _ _ _ => ?_
  dsimp only
  rw [← hrefused]
  generalize (S.token.map authorization).filter (!isHeaderText ·) = refused, Url.sent? url = sent?
  cases refused with
  | some text => exact .throw fun _ => rfl
  | none =>
    cases sent? with
    | none => exact .throw fun _ => rfl
    | some sent =>
      dsimp only
      split
      · exact .throw fun _ => rfl
      · refine .bind (.fetch (hrequest sent)) fun reply _ hreply => ?_
        obtain rfl := hreply
        cases reply with
        | error failure => exact .throw fun _ => rfl
        | ok response =>
          dsimp only
          split
          · exact .throw fun _ => rfl
          · exact .pure rfl

theorem alike_fetchPull (hc : c.IsSound) (h : Settings.Like c S S') (id : PullId) :
    Attempt.Alike c.view Eq (fetchPull S id) (fetchPull S' id) := by
  have hurl : pullUrl S' id = pullUrl S id := by
    obtain ⟨token, rfl, -⟩ := h
    rfl
  unfold fetchPull
  rw [hurl]
  refine .bind (alike_get hc h _ _) fun response _ hresponse => ?_
  obtain rfl := hresponse
  refine .blunt ?_
  split
  · exact .throw _
  · exact .pure _

theorem alike_fetchDiff (hc : c.IsSound) (h : Settings.Like c S S') (url : String) :
    Attempt.Alike c.view Eq (fetchDiff S url) (fetchDiff S' url) := by
  refine .bind (alike_get hc h _ _) fun response _ hresponse => ?_
  obtain rfl := hresponse
  refine .blunt ?_
  split
  · exact .throw _
  · exact .pure _

theorem alike_capture (hc : c.IsSound) (h : Settings.Like c S S') (id : PullId) :
    Program.Alike c.view (Agree c.strict Eq) ((source S).capture id) ((source S').capture id) := by
  refine .bind (alike_fetchPull hc h id) fun x y hxy => ?_
  rcases x with e | snapshot <;> rcases y with e' | snapshot'
  · exact .pure fun hs => congrArg _ (hxy hs)
  · exact hxy.elim
  · exact hxy.elim
  · obtain rfl : snapshot = snapshot' := hxy
    refine .bind (alike_fetchDiff hc h _) fun x y hxy => ?_
    rcases x with e | diff <;> rcases y with e' | diff'
    · exact .pure fun hs => congrArg _ (hxy hs)
    · exact hxy.elim
    · exact hxy.elim
    · obtain rfl : diff = diff' := hxy
      exact .pure rfl

theorem alike_captureInitial (hc : c.IsSound) (h : Settings.Like c S S') (id : PullId)
    (statistics : Statistics) :
    Program.Alike c.view (Agree c.strict Eq) ((source S).captureInitial id statistics)
      ((source S').captureInitial id statistics) := by
  refine .bind (alike_capture hc h id) fun x y hxy => ?_
  rcases x with e | capture <;> rcases y with e' | capture'
  · exact .pure hxy
  · exact hxy.elim
  · exact hxy.elim
  · obtain rfl : capture = capture' := hxy
    exact .pure rfl

end GitHub

/-! ### Steps of commands -/

namespace Job

variable {S S' : Settings} {id : PullId}

theorem blunt_orRefuse {α : Type} (result : Except LedgerError α) :
    Attempt.Alike c.view Eq (orRefuse result) (orRefuse result) :=
  .blunt (asks_orRefuse _)

theorem alike_begin (hc : c.IsSound) (h : Settings.Like c S S') (statistics : Statistics)
    (l : Ledger) :
    Attempt.Alike c.view Eq (begin S id statistics l) (begin S' id statistics l) := by
  refine .bind (.adapt (GitHub.alike_captureInitial hc h id statistics) _)
    fun capture _ hcapture => ?_
  obtain rfl := hcapture
  exact .blunt (.bind (.ask trivial) fun _ => .bind (.ask trivial) fun _ =>
    .bind (asks_orRefuse _) fun _ => .bind (.ask trivial) fun _ => .pure _)

theorem alike_finish (hc : c.IsSound) (h : Settings.Like c S S') (l : Ledger) :
    Attempt.Alike c.view Eq (finish S id l) (finish S' id l) := by
  refine .bind (.adapt (GitHub.alike_capture hc h id) _) fun capture _ hcapture => ?_
  obtain rfl := hcapture
  refine .blunt (.bind (.ask trivial) fun _ => .bind (.ask trivial) fun _ =>
    .bind (asks_orRefuse _) fun record => ?_)
  have hlast : Asks Program.IsBlunt (do
      logRecord .info "finalized record" id []
      return record : Job Record) :=
    .bind (.ask trivial) fun _ => .pure _
  split
  · exact .bind (.ask trivial) fun _ => hlast
  · exact hlast

/-- A change of the ledger under settings that differ in the token. -/
theorem alike_change (hc : c.IsSound) (h : Settings.Like c S S') {operation : Operation}
    {make make' : Ledger → Job Record} (hm : ∀ l, Attempt.Alike c.view Eq (make l) (make' l)) :
    Attempt.Alike c.view Eq (change S operation id make) (change S' operation id make') := by
  obtain ⟨token, rfl, -⟩ := h
  refine .bind (.adapt (LedgerFile.alike_acquire hc _ _) _) fun file _ hfile => ?_
  obtain rfl := hfile
  refine .bind (.releasing (.bind (blunt_orRefuse _) fun _ _ _ => hm _) trivial)
    fun record _ hrecord => ?_
  obtain rfl := hrecord
  refine .bind (.adapt (.blunt (LedgerFile.blunt_commit _ _ _)) _) fun _ _ _ => ?_
  exact .pure rfl

/-- A text that is not the same in both runs is a text of settings in both. -/
theorem alike_readText (hc : c.IsSound) (what : String) (path : Path) :
    Attempt.Alike c.view (fun text text' => text = text' ∨ ¬ c.strict ∧
        (∃ s, FileSettings.ofText? text = some s) ∧ ∃ s, FileSettings.ofText? text' = some s)
      (readText what path) (readText what path) := by
  refine .read (fun reply => ?_) fun b b' hb => ?_
  · refine .mono (.blunt ?_) fun _ _ => .inl
    split
    · exact .throw _
    · split
      · exact .throw _
      · exact .pure _
  · obtain ⟨hlax, s, s', hs, hs', -⟩ := hc.content b b' hb
    obtain ⟨text, htext, hread⟩ := Option.bind_eq_some_iff.1 hs
    obtain ⟨text', htext', hread'⟩ := Option.bind_eq_some_iff.1 hs'
    dsimp only
    rw [htext, htext']
    exact .pure (.inr ⟨hlax, ⟨s, hread⟩, s', hread'⟩)

/-- What can be read as settings is no statistics. -/
theorem alike_readStatistics (hc : c.IsSound) (path : Option Path) :
    Attempt.Alike c.view Eq (readStatistics path) (readStatistics path) := by
  cases path with
  | none => exact .pure rfl
  | some path =>
    refine .bind (alike_readText hc _ path) fun text text' htext => ?_
    obtain rfl | ⟨hlax, ⟨s, hs⟩, s', hs'⟩ := htext
    · exact blunt_orRefuse _
    · obtain ⟨e, he⟩ := FileSettings.not_statistics path hs
      obtain ⟨e', he'⟩ := FileSettings.not_statistics path hs'
      rw [he, he']
      exact .throw fun hstrict => absurd hstrict hlax

theorem alike_announce (manner : Manner) (token : Option String) (text : Style → String) :
    Attempt.Alike c.view Eq (announce manner text) (announce { manner with token } text) :=
  .blunt (asks_announce (fun _ => trivial) manner text)

theorem alike_annotate (hc : c.IsSound) (hs : c.strict) (diffPath : Path) (reason : String)
    (moment : EditMoment) (l : Ledger) :
    Attempt.Alike c.view Eq (annotate diffPath reason id moment l)
      (annotate diffPath reason id moment l) := by
  refine .bind (alike_readText hc _ _) fun diff diff' hdiff => ?_
  obtain rfl | ⟨hlax, -⟩ := hdiff
  · exact .blunt (.bind (.ask trivial) fun _ => .bind (asks_orRefuse _) fun _ =>
      .bind (.ask trivial) fun _ => .pure _)
  · exact absurd hs hlax

end Job

theorem Report.alike_writeFile (hc : c.IsSound) (ledgerPath outputPath : Path) :
    Attempt.Alike c.view Eq (writeFile ledgerPath outputPath)
      (writeFile ledgerPath outputPath) := by
  unfold writeFile
  refine .bind (.blunt (.ask trivial)) fun kind _ hkind => ?_
  obtain rfl := hkind
  extract_lets rest
  have hrest : ∀ u, Attempt.Alike c.view Eq (rest u) (rest u) := by
    intro u
    refine .bind (.adapt (Ledger.alike_load hc _) _) fun ledger _ hledger => ?_
    obtain rfl := hledger
    refine .blunt ?_
    split
    · exact .throw _
    · exact .bind (.attempt (.request trivial) _) fun _ => .bind (.ask trivial) fun _ => .pure _
  split
  · exact .bind (.blunt (.throw _)) fun u _ hu => hu ▸ hrest u
  · exact hrest ()

/-! ### Whole commands -/

section Whole

variable (hc : c.IsSound) (hs : c.strict)
  (henv : ∀ x y, c.environment x y → c.Tokens (x.filter (!Text.isBlankText ·))
    (y.filter (!Text.isBlankText ·)))
  {manner : Manner} {token : Option String} (ht : c.Tokens manner.token token)
  {directory : Path}
include hc hs henv ht

namespace Job

theorem alike_settingsFor (subject : Subject) :
    Attempt.Alike c.view (Settings.Like c) (settingsFor ⟨manner, directory⟩ subject)
      (settingsFor ⟨{ manner with token }, directory⟩ subject) :=
  .adapt (Settings.alike_resolve hc hs henv directory subject.ledgerPath ht) _

theorem alike_carryOut {α : Type} {operation : Operation} {subject : Subject} {judge : Job α}
    {make : Settings → PullId → α → Ledger → Job Record} (hj : Attempt.Alike c.view Eq judge judge)
    (hm : ∀ S S' id a l, Settings.Like c S S' →
      Attempt.Alike c.view Eq (make S id a l) (make S' id a l)) :
    Attempt.Alike c.view Eq (carryOut ⟨manner, directory⟩ operation subject judge make)
      (carryOut ⟨{ manner with token }, directory⟩ operation subject judge make) := by
  refine .bind (blunt_orRefuse _) fun id _ hid => ?_
  obtain rfl := hid
  refine .bind hj fun a _ ha => ?_
  obtain rfl := ha
  refine .bind (alike_settingsFor hc hs henv ht subject) fun S S' hS => ?_
  refine .bind (alike_change hc hS fun l => hm S S' id a l hS) fun outcome _ houtcome => ?_
  obtain rfl := houtcome
  exact alike_announce manner token outcome.text

end Job

/-- A command does the same with the one token and with the other. -/
theorem Command.alike_job (command : Command) :
    Attempt.Alike c.view Eq (command.job ⟨manner, directory⟩)
      (command.job ⟨{ manner with token }, directory⟩) := by
  cases command with
  | createInitial subject statistics =>
    exact Job.alike_carryOut hc hs henv ht (Job.alike_readStatistics hc statistics)
      fun S S' id a l hS => Job.alike_begin hc hS a l
  | finalize subject =>
    exact Job.alike_carryOut hc hs henv ht (.pure rfl)
      fun S S' id _ l hS => Job.alike_finish hc hS l
  | addManualEdit subject diff reason moment =>
    exact Job.alike_carryOut hc hs henv ht (Job.blunt_orRefuse _)
      fun S S' id a l _ => Job.alike_annotate hc hs diff reason a l
  | report ledgerPath outputPath =>
    refine .bind (.adapt (Report.alike_writeFile hc ledgerPath outputPath) _) fun pulls _ hp => ?_
    obtain rfl := hp
    exact Job.alike_announce manner token _
  | describe subject =>
    refine .bind (Job.blunt_orRefuse _) fun id _ hid => ?_
    obtain rfl := hid
    refine .bind (Job.alike_settingsFor hc hs henv ht subject) fun S S' hS => ?_
    obtain ⟨token', rfl, -⟩ := hS
    refine .bind (.adapt (Ledger.alike_load hc _) _) fun ledger _ hledger => ?_
    obtain rfl := hledger
    exact .blunt (.bind (Job.asks_orRefuse _) fun _ => .ask trivial)
  | completions shell => exact .blunt (.ask trivial)

namespace Invocation

theorem alike_runCommand (command : Command) :
    Program.Alike c.view Eq (runCommand manner command)
      (runCommand { manner with token } command) := by
  refine .bind (.refl (.request (Contrast.shares_of_isBlunt trivial))) fun directory _ hd => ?_
  obtain rfl := hd
  refine .bind (.refl (.request (Contrast.shares_of_isBlunt trivial))) fun _ _ _ => ?_
  refine .bind (Command.alike_job hc hs henv ht command) fun result result' hresult => ?_
  rcases result with e | ⟨⟩ <;> rcases result' with e' | ⟨⟩
  · obtain rfl := hresult hs
    exact .bind (.refl (.request (Contrast.shares_of_isBlunt trivial))) fun _ _ _ => .pure rfl
  · exact hresult.elim
  · exact hresult.elim
  · exact .pure rfl

omit hc hs henv ht in
theorem shares_ofEnvironment (verbose : Bool) : (Log.ofEnvironment verbose).Asks c.view.Shares :=
  .bind (.request (Contrast.shares_environment (by decide))) fun _ =>
    .bind (.request (Contrast.shares_environment (by decide))) fun _ =>
      .bind (.request (Contrast.shares_environment (by decide))) fun _ => .pure _

/-- A whole run goes the same way with the one token and with the other. -/
theorem alike_run (command : Command) :
    Program.Alike c.view Eq (run manner command).execute
      (run { manner with token } command).execute := by
  refine .bind (.refl (shares_ofEnvironment manner.verbose)) fun log _ hlog => ?_
  obtain rfl := hlog
  exact (alike_runCommand hc hs henv ht command).logging ⟨trivial, fun _ _ => id⟩
    (fun _ => trivial) (fun _ => rfl) log

end Invocation

end Whole

end RepairLedger
