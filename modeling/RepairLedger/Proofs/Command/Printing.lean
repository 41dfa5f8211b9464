import RepairLedger.Proofs.Command.Atomicity
import RepairLedger.Proofs.Json.Printed

/-!
# What commands print as JSON

A command prints once, at its end, and only if it is not refused (`Command.printsDocument`); all
that comes before is mute.  So with `--json` and no log, what a successful command prints is one
JSON document.

A command that is refused is not read as easily.  What it prints on the channel for errors begins
with a JSON document that explains the refusal, but the error is printed a second time, in words,
behind that document (`Invocation.program_json`).
-/

namespace RepairLedger

open Host Attempt

/-! ### Documents -/

/-- A value as it is printed in JSON, with the end of its line. -/
def Output.document (v : Json.Value) : String :=
  v.text (.indented 2) ++ "\n"

namespace Json

theorem State.read_trailing (tree : Tree) (text : List Text.Symbol) :
    (trailing tree).read text = trailing tree := by
  generalize hstate : trailing tree = state
  fun_induction State.read state text with
  | case1 => rfl
  | case2 =>
    subst hstate
    rfl
  | case3 state c rest hc ih => exact ih hstate
  | case4 state c rest hc ih =>
    subst hstate
    exact ih rfl

/-- With anything but blanks behind it, a document is none any more. -/
theorem not_isDocument_append (layout : Layout) (v : Value) {more : String} {c : Char}
    {cs : List Char} (hmore : more.toList = c :: cs) (hc : isSpace c = false) :
    ¬ IsDocument (v.text layout ++ "\n" ++ more) := by
  rintro ⟨htrailing, -⟩
  have hread : (State.value []).read (Text.symbolsOf (v.text layout ++ "\n" ++ more)) =
      .trailing v.readTree := by
    rw [v.symbolsOf_text, State.read_line, Text.symbolsOf, hmore, List.map_cons,
      State.read_token hc (Prod.eta _).symm]
    exact State.read_trailing _ _
  rw [Document.ofSymbols, hread] at htrailing
  cases htrailing

end Json

/-! ### Attempts -/

namespace Attempt

variable {ε α : Type}

/-- The attempt prints one JSON document if it succeeds, and nothing if it fails. -/
def PrintsDocument (p : Attempt ε Unit) : Prop :=
  ∀ (w v : World) (r : Except ε Unit), runIn p w = (r, v) → v.complaints = w.complaints ∧
    match r with
    | .ok () => ∃ value, v.output = w.output ++ Output.document value
    | .error _ => v.output = w.output

theorem PrintsDocument.print (value : Json.Value) :
    PrintsDocument (ask (.print (Output.document value)) : Attempt ε Unit) := by
  rintro w v r h
  cases h
  exact ⟨rfl, value, rfl⟩

theorem PrintsDocument.bind {p : Attempt ε α} {f : α → Attempt ε Unit}
    (hp : Asks Program.IsMute p) (hf : ∀ a, PrintsDocument (f a)) : PrintsDocument (p >>= f) := by
  intro w v r h
  rw [runIn_bind] at h
  rcases hrun : runIn p w with ⟨e | a, u⟩
  · rw [hrun] at h
    cases h
    obtain ⟨hout, hcomplaints⟩ := hp.output_eq hrun
    exact ⟨hcomplaints, hout⟩
  · rw [hrun] at h
    obtain ⟨hout, hcomplaints⟩ := hp.output_eq hrun
    have hlast := hf a u v r h
    rwa [hout, hcomplaints] at hlast

end Attempt

/-! ### Commands -/

namespace Job

variable {α : Type} {setting : Setting} {operation : Operation} {subject : Subject}

theorem mute_change {settings : Settings} {id : PullId} {make : Ledger → Job Record}
    (hm : ∀ l, Asks Program.Inquires (make l)) :
    Asks Program.IsMute (change settings operation id make) :=
  asks_change (fun _ => Program.Looks.isMute) (fun _ => trivial) (fun _ _ => trivial)
    (fun _ => trivial) (fun _ _ => trivial) (fun _ _ => trivial)
    fun l => (hm l).mono fun _ => Program.Inquires.isMute

theorem printsDocument_announce {manner : Manner} {text : Style → String} {value : Json.Value}
    (hs : manner.style = .json) (ht : text .json = Output.document value) :
    PrintsDocument (announce manner text) := by
  unfold announce
  rw [if_pos (by simp [hs]), hs, ht]
  exact .print value

theorem printsDocument_carryOut {judge : Job α}
    {make : Settings → PullId → α → Ledger → Job Record} (hs : setting.manner.style = .json)
    (hj : Asks Program.Looks judge)
    (hm : ∀ settings id a l, Asks Program.Inquires (make settings id a l)) :
    PrintsDocument (carryOut setting operation subject judge make) := by
  have hlooks : ∀ op, Program.Looks op → Program.IsMute op := fun _ => Program.Looks.isMute
  refine .bind ((looks_idOf subject).mono hlooks) fun id => ?_
  refine .bind (hj.mono hlooks) fun a => ?_
  refine .bind ((looks_settingsFor setting subject).mono hlooks) fun settings => ?_
  exact .bind (mute_change (hm settings id a)) fun outcome => printsDocument_announce hs rfl

end Job

/-- **A command prints one document, or nothing if it is refused.** -/
theorem Command.printsDocument {setting : Setting} {command : Command}
    (hs : setting.manner.style = .json) (hc : ∀ shell, command ≠ .completions shell) :
    PrintsDocument (command.job setting) := by
  have hlooks : ∀ op, Program.Looks op → Program.IsMute op := fun _ => Program.Looks.isMute
  cases command with
  | createInitial subject statistics =>
    exact Job.printsDocument_carryOut hs (Job.looks_readStatistics statistics) Job.inquires_begin
  | finalize subject =>
    exact Job.printsDocument_carryOut hs (.pure ()) fun settings id _ =>
      Job.inquires_finish settings id
  | addManualEdit subject diff reason moment =>
    exact Job.printsDocument_carryOut hs (Job.asks_orRefuse _) fun _ =>
      Job.inquires_annotate diff reason
  | report ledger output =>
    exact .bind (.adapt (Report.asks_writeFile hlooks fun _ => trivial) _) fun pulls =>
      Job.printsDocument_announce hs rfl
  | describe subject =>
    refine .bind ((Job.looks_idOf subject).mono hlooks) fun id => ?_
    refine .bind ((Job.looks_settingsFor setting subject).mono hlooks) fun settings => ?_
    refine .bind (Job.asks_refusing ((Ledger.looks_load _).mono hlooks)) fun l => ?_
    refine .bind (Job.asks_orRefuse _) fun found => ?_
    rw [hs]
    exact .print found.json
  | completions shell => exact absurd rfl (hc shell)

/-- The words behind the document. -/
theorem Refusal.exists_text_json (r : Refusal) :
    ∃ words, r.text .json = Output.document r.diagnostic.json ++ ("Error: " ++ words) :=
  ⟨r.error ++ causesText r.causes ++ "\n", by
    simp only [text, Diagnostic.text, Output.choose, Output.document, toString,
      String.append_assoc]⟩

/-! ### Whole runs -/

/-- The log shows no event. -/
def Log.IsSilent (log : Log) : Prop :=
  ∀ event, log.filter.shows event = false

theorem Log.isSilent_off {verbose : Bool} {w : World}
    (h : w.environment.lookup "PRLEDGER_LOG" = some "off") :
    ((ofEnvironment verbose).run w).1.IsSilent := by
  have hfilter : ((ofEnvironment verbose).run w).1.filter = [⟨"", none, false⟩] := by
    simp only [ofEnvironment, Program.run_bind, Program.request, Program.run, World.perform, h]
    rfl
  intro event
  rw [hfilter, Filter.shows, Filter.limit]
  -- Whether the only directive speaks of the target or not, it shows nothing.
  cases hcovers : Directive.covers ⟨"", none, false⟩ event.target with
  | true => simp [hcovers, Filter.limit.best?]
  | false => simp [hcovers, Filter.limit.best?]

namespace Invocation

variable {manner : Manner} {command : Command} {w v : World} {code : ExitCode}

/-- Without a log, a run is that of its command. -/
theorem execute_run_of_silent (h : ((Log.ofEnvironment manner.verbose).run w).1.IsSilent) :
    (run manner command).execute.run w = (runCommand manner command).run w := by
  unfold execute
  rw [Program.run_bind, (looks_ofEnvironment manner.verbose).world_eq w]
  exact Program.run_logging_of_silent h _ w

/-- **What is printed with the option for JSON.**  If nothing is logged, a command that succeeds
prints one JSON document and no complaint.  A command that fails prints nothing but a complaint;
this begins with a document that holds the error and goes on with the error in words, so that as a
whole it is no JSON document. -/
theorem program_json {arguments : List String} (hi : ofArguments arguments = .run manner command)
    (hs : manner.style = .json) (hc : ∀ shell, command ≠ .completions shell)
    (hlog : ((Log.ofEnvironment manner.verbose).run w).1.IsSilent) (hout : w.output = "")
    (hcomplaints : w.complaints = "") (h : (program arguments).run w = (code, v)) :
    (code = .success → v.complaints = "" ∧ Json.IsDocument v.output ∧
      ∃ value, v.output = Output.document value) ∧
    (code ≠ .success → v.output = "" ∧ ¬ Json.IsDocument v.complaints ∧
      ∃ members words, v.complaints =
        Output.document (.object [("error", .object members)]) ++ ("Error: " ++ words)) := by
  rw [program, hi, execute_run_of_silent hlog] at h
  have hprints : PrintsDocument (command.job ⟨manner, World.pathOf w.base⟩) :=
    Command.printsDocument hs hc
  rcases hjob : runIn (command.job ⟨manner, World.pathOf w.base⟩) w with ⟨refusal | ⟨⟩, u⟩
  · obtain ⟨hsame, hnothing⟩ := hprints _ _ _ hjob
    obtain ⟨words, hwords⟩ := refusal.exists_text_json
    rw [runCommand_error hjob, hsame, hcomplaints, String.empty_append, hs, hwords] at h
    cases h
    refine ⟨fun h => absurd h ExitCode.failure_ne_success, fun _ => ⟨hnothing.trans hout, ?_⟩⟩
    exact ⟨Json.not_isDocument_append _ _ (c := 'E') (by rw [String.toList_append]; rfl)
      (by decide), _, words, rfl⟩
  · obtain ⟨hsame, value, hvalue⟩ := hprints _ _ _ hjob
    rw [runCommand_ok hjob] at h
    cases h
    rw [hout, String.empty_append] at hvalue
    refine ⟨fun _ => ⟨hsame.trans hcomplaints, ?_, value, hvalue⟩, fun h => absurd rfl h⟩
    rw [hvalue]
    exact Json.isDocument_text _ value

/-- There is no ledger, so the record that is to be shown is not found. -/
theorem program_json_missing :
    let arguments := ["show", "-o", "acme", "-r", "widget", "-p", "42", "--json"]
    let w : World := { World.empty .epoch [] with environment := [("PRLEDGER_LOG", "off")] }
    ∃ v, (program arguments).run w = (.failure, v) ∧ v.output = "" ∧
      ¬ Json.IsDocument v.complaints ∧ ∃ members words, v.complaints =
        Output.document (.object [("error", .object members)]) ++ ("Error: " ++ words) := by
  intro arguments w
  have hi : ofArguments arguments = .run ⟨false, .json, false, none⟩
      (.describe ⟨"acme", "widget", 42, none⟩) := by decide +kernel
  have hcode : ((program arguments).run w).1 = .failure := by decide +kernel
  rcases hrun : (program arguments).run w with ⟨code, v⟩
  rw [hrun] at hcode
  obtain rfl : code = .failure := hcode
  have hjson := program_json hi rfl (by rintro _ ⟨⟩) (Log.isSilent_off rfl) rfl rfl hrun
  exact ⟨v, rfl, hjson.2 ExitCode.failure_ne_success⟩

end Invocation

end RepairLedger
