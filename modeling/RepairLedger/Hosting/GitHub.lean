import RepairLedger.Ledger.File
import RepairLedger.Host.Url
import RepairLedger.Ledger.Lifecycle
import RepairLedger.Settings.Layers

/-!
# GitHub

Pull requests and their diffs as the REST interface of GitHub gives them.  A pull request is fetched
from a URL that is made of its id; its diff from a URL that the answer names.
-/

namespace RepairLedger.GitHub

open Host

/-- The version of the program, by which it makes itself known. -/
def version : String := "0.3.0"

/-- The name by which the program makes itself known to servers. -/
def userAgent : String := s!"prledger/{version}"

/-- The part of the program that speaks in the log. -/
def target : String := "prledger::github"

/-! ### Pull requests -/

/-- What GitHub says of a pull request. -/
structure Pull where
  number : UInt64
  url : String
  diffUrl : String
  state : String
  createdAt : Instant
  closedAt : Option Instant
  mergedAt : Option Instant
  merged : Option Bool
deriving DecidableEq

namespace Pull

open Json in
/-- Reads a pull request from JSON. -/
def decoder : Decoder Pull :=
  Fields.decoder "GitHubPull"
    (.cons (.required "number" .natural) <|
      .cons (.required "html_url" .string) <|
      .cons (.required "diff_url" .string) <|
      .cons (.required "state" .string) <|
      .cons (.required "created_at" Instant.decoder) <|
      .cons (.withDefault "closed_at" (.optional Instant.decoder) none) <|
      .cons (.withDefault "merged_at" (.optional Instant.decoder) none) <|
      .cons (.withDefault "merged" (.optional .bool) none) .nil)
    fun (number, url, diffUrl, state, createdAt, closedAt, mergedAt, merged, ()) =>
      ⟨number, url, diffUrl, state, createdAt, closedAt, mergedAt, merged⟩

/-- Has the pull request been merged?  If GitHub does not say so, it has been if it says when. -/
def isMerged (p : Pull) : Bool :=
  p.merged.getD p.mergedAt.isSome

/-- The snapshot of a pull request. -/
def snapshot (p : Pull) : Snapshot where
  state := ⟨p.url, p.createdAt, p.closedAt, p.mergedAt, p.state, p.isMerged, p.number⟩
  diffUrl := p.diffUrl

end Pull

/-! ### Requests -/

/-- Where a pull request is found. -/
def pullUrl (settings : Settings) (id : PullId) : String :=
  s!"{settings.apiUrl}/repos/{id.owner}/{id.repo}/pulls/{Numeral.textOf id.number.toNat}"

/-- What stands in the header that gives the token. -/
def authorization (token : String) : String :=
  s!"Bearer {token}"

/-- May the text stand in a header? -/
def isHeaderText (text : String) : Bool :=
  text.toList.all fun c => c = '\t' || (0x20 ≤ c.toNat && c.toNat < 0x7F)

/-- The schemes of the URLs that can be asked for. -/
def schemes : List String := ["http", "https"]

/-- Asks for what is at a URL, and refuses answers that say that it is not there. -/
def get (settings : Settings) (url accept : String) : Attempt String Response := do
  let credentials := settings.token.map authorization
  ask (.log ⟨.debug, target, "GitHub request", [("url", .string url)]⟩)
  let fail (reason : String) : Attempt String Response :=
    throw s!"GitHub request failed for {url}: {reason}"
  match credentials.filter (!isHeaderText ·), Url.sent? url with
  | some text, _ => fail s!"Bad Header: invalid header 'Authorization: {text}'"
  | none, none =>
    fail "Bad URL: failed to parse URL: RelativeUrlWithoutBase: relative URL without a base"
  | none, some sent =>
    if !schemes.contains (Url.scheme sent) then
      fail s!"{sent}: Unknown Scheme: unknown scheme '{Url.scheme sent}'"
    else
      match ← ask (.fetch ⟨sent, accept, userAgent, credentials⟩) with
      | .error failure => fail s!"{sent}: {failure.message}"
      | .ok response =>
        if 400 ≤ response.status then
          fail s!"{sent}: status code {Numeral.textOf response.status}"
        else return response

/-- Fetches a pull request. -/
def fetchPull (settings : Settings) (id : PullId) : Attempt String Snapshot := do
  let url := pullUrl settings id
  let response ← get settings url "application/vnd.github+json"
  match Pull.decoder.run (Text.symbols response.body) with
  | .error fault => throw s!"failed to decode {url}: Failed to read JSON: {fault.message}"
  | .ok pull => return pull.snapshot

/-- The greatest number of bytes of a diff. -/
def diffLimit : Nat := 10485760

/-- Fetches a diff.  Bytes of it that belong to no character are replaced. -/
def fetchDiff (settings : Settings) (url : String) : Attempt String String := do
  let response ← get settings url "application/vnd.github.diff"
  if diffLimit < response.body.length then
    throw s!"failed to read diff from {url}: response too big for into_string"
  else return Text.decodeLossy response.body

/-- GitHub as a source of pull requests. -/
def source (settings : Settings) : Source Program where
  pull id := (fetchPull settings id).run
  diff url := (fetchDiff settings url).run

end RepairLedger.GitHub
