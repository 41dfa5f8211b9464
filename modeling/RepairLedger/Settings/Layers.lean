import RepairLedger.Host.Path
import RepairLedger.Text.Blank

/-!
# Layers of settings

A setting is taken from the first of these places that has it: the command line, the environment,
the project's file, the user's file, and at last the defaults.  Not every place may set
everything: the ledger path is no matter of the environment, and the lock timeout is a matter of the
files alone.
-/

namespace RepairLedger

open Host

/-- What a settings file says. -/
structure FileSettings where
  ledgerPath : Option Path
  lockTimeoutMs : Option UInt64
  apiUrl : Option String
  token : Option String
deriving DecidableEq

/-- A file that says nothing. -/
def FileSettings.empty : FileSettings := ⟨none, none, none, none⟩

/-- What the environment says. -/
structure EnvironmentSettings where
  token : Option String
  apiUrl : Option String
deriving DecidableEq

/-- What the command line says. -/
structure CommandSettings where
  ledgerPath : Option Path
  token : Option String
deriving DecidableEq

/-- The settings that are in force. -/
structure Settings where
  ledgerPath : Path
  /-- Where the hosting service is; it does not end with a slash. -/
  apiUrl : String
  token : Option String
  lockTimeoutMs : UInt64
deriving DecidableEq

namespace Settings

def defaultLedgerPath : Path := ⟨"prs.json"⟩

def defaultApiUrl : String := "https://api.github.com"

def defaultLockTimeoutMs : UInt64 := 2000

/-- A text without the slashes it ends with. -/
def withoutSlashes (url : String) : String :=
  String.ofList (Text.trimRightOf '/' url.toList)

/-- Lays the places over each other. -/
def layer (command : CommandSettings) (environment : EnvironmentSettings)
    (project user : FileSettings) : Settings where
  ledgerPath :=
    ((command.ledgerPath.or project.ledgerPath).or user.ledgerPath).getD defaultLedgerPath
  apiUrl :=
    withoutSlashes <|
      ((environment.apiUrl.or project.apiUrl).or user.apiUrl).getD defaultApiUrl
  token := ((command.token.or environment.token).or project.token).or user.token
  lockTimeoutMs := (project.lockTimeoutMs.or user.lockTimeoutMs).getD defaultLockTimeoutMs

end Settings

end RepairLedger
