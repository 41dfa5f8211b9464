import RepairLedger.Host.Program
import RepairLedger.Ledger.File
import RepairLedger.Settings.Layers
import RepairLedger.Toml.Document

/-!
# Loading settings

The project's settings file is looked for in the working directory, and the user's in the directory
for the settings of programs.  A missing file says nothing; one that cannot be read or understood
is an error, the project's before the user's.
-/

namespace RepairLedger

open Host Toml

/-! ### Settings files -/

namespace FileSettings

/-- The text that an optional item is. -/
def text? : Option Item → Option (Option String)
  | none => some none
  | some (.string s) => some (some s)
  | some _ => none

/-- The natural number that an optional item is. -/
def natural? : Option Item → Option (Option UInt64)
  | none => some none
  | some (.integer i) => if 0 ≤ i then some (some (.ofNat i.toNat)) else none
  | some _ => none

/-- The URL and the token that the item for the hosting service gives: by name, or as the first
items of an array. -/
def service? : Option Item → Option (Option String × Option String)
  | none | some .moment => some (none, none)
  | some (.table _ entries) => do
    some (← text? (Entries.get? "api_url" entries), ← text? (Entries.get? "token" entries))
  | some (.array items) => do
    some (← text? items[0]?, ← text? items[1]?)
  | some _ => none

/-- The settings in a document; what it says beyond them does not matter. -/
def ofEntries? (entries : Entries) : Option FileSettings := do
  let ledgerPath ← text? (Entries.get? "ledger_path" entries)
  let lockTimeoutMs ← natural? (Entries.get? "lock_timeout_ms" entries)
  let (apiUrl, token) ← service? (Entries.get? "github" entries)
  some ⟨ledgerPath.map Host.Path.mk, lockTimeoutMs, apiUrl, token⟩

/-- Reads the text of a settings file. -/
def ofText? (text : String) : Option FileSettings :=
  (Document.read? text.toList).bind ofEntries?

end FileSettings

/-- Why settings could not be loaded. -/
inductive SettingsError where
  | unreadable (path : Path) (cause : Failure)
  | malformed (path : Path)
deriving DecidableEq, Repr

/-- The text of an error. -/
def SettingsError.message : SettingsError → String
  | .unreadable path _ => s!"Failed to read {path.text}"
  | .malformed path => s!"Failed to parse {path.text}"

/-- The text of what lies behind an error.  Of a malformed file it is only the first words: the
place in the file, its line and what was expected there are left out. -/
def SettingsError.cause? : SettingsError → Option String
  | .unreadable _ cause => some cause.message
  | .malformed _ => some "TOML parse error"

/-! ### Loading -/

namespace Settings

/-- The name of the project's settings file. -/
def projectFileName : String := "prledger.toml"

/-- Where the user's settings file is in the directory for settings. -/
def userFileName : String := "prledger/config.toml"

/-- Loads a settings file. -/
def loadFile (path : Path) : Attempt SettingsError FileSettings := do
  if (← ask (.kind path)).isNone then return .empty
  match ← ask (.read path) with
  | .error cause => throw (.unreadable path cause)
  | .ok bytes =>
    match Text.decode? bytes with
    | none => throw (.unreadable path .notText)
    | some text =>
      match FileSettings.ofText? text with
      | none => throw (.malformed path)
      | some settings => return settings

/-- Loads the project's settings file from a directory. -/
def loadProject (directory : Path) : Attempt SettingsError FileSettings :=
  loadFile (directory.join projectFileName)

/-- The directory for the settings of programs. -/
def directory? : Program (Option Path) := do
  match ← Program.request (.environment "XDG_CONFIG_HOME") with
  | some text => if Path.isAbsolute ⟨text⟩ then return some ⟨text⟩ else ofHome
  | none => ofHome
where
  /-- The directory in the user's own directory. -/
  ofHome : Program (Option Path) := do
    match ← Program.request (.environment "HOME") with
    | some home => return if home.isEmpty then none else some (Path.join ⟨home⟩ ".config")
    | none => return none

/-- Loads the user's settings file. -/
def loadUser : Attempt SettingsError FileSettings := do
  match ← ExceptT.lift directory? with
  | none => return .empty
  | some directory => loadFile (directory.join userFileName)

/-- The value of an environment variable, unless it is blank. -/
def value? (name : String) : Program (Option String) := do
  let value ← Program.request (.environment name)
  return value.filter (!Text.isBlankText ·)

/-- What the environment says. -/
def loadEnvironment : Program EnvironmentSettings := do
  let token ← value? "GITHUB_TOKEN"
  let apiUrl ← value? "PRLEDGER_GITHUB_API"
  return ⟨token, apiUrl⟩

/-- The settings in force for a command that is run in a directory. -/
def resolve (directory : Path) (command : CommandSettings) : Attempt SettingsError Settings := do
  let project ← loadProject directory
  let user ← loadUser
  let environment ← ExceptT.lift loadEnvironment
  return layer command environment project user

end Settings

end RepairLedger
