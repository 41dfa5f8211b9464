import RepairLedger.Hosting.GitHub
import RepairLedger.Proofs.Host.Deeds

/-!
# Fetching pull requests

What is asked of a server when a pull request is captured, and what comes of each answer.  There are
five courses (`GitHub.Course`).  The pull request is asked for, unless its URL cannot be sent; only
if the answer describes a pull request is the diff asked for, at the URL that the answer names,
unless that cannot be sent; and only if the second answer carries a diff is anything captured
(`GitHub.goes_capture`).
-/

namespace RepairLedger

open Host Attempt

namespace GitHub

variable {settings : Settings} {w v : World} {ds : List Deed}

/-- An answer of a server, or why there is none. -/
abbrev Answer := Except ConnectionFailure Response

/-- The content of an answer that does not say that there is none. -/
def content? : Answer → Option Bytes
  | .ok response => if 400 ≤ response.status then none else some response.body
  | .error _ => none

/-- The pull request that an answer describes. -/
def pull? (answer : Answer) : Option Pull :=
  (content? answer).bind fun body => (Pull.decoder.run (Text.symbols body)).toOption

/-- The diff that an answer carries. -/
def diff? (answer : Answer) : Option String :=
  (content? answer).bind fun body =>
    if diffLimit < body.length then none else some (Text.decodeLossy body)

/-- A diff is carried by an answer that is not too long, and is made of all bytes of it. -/
theorem diff?_eq_some {answer : Answer} {diff : String} :
    diff? answer = some diff ↔ ∃ response, answer = .ok response ∧ response.status < 400 ∧
      response.body.length ≤ diffLimit ∧ Text.decodeLossy response.body = diff := by
  cases answer with
  | error failure => simp [diff?, content?]
  | ok response =>
    by_cases hs : 400 ≤ response.status
    · simp [diff?, content?, hs, Nat.not_lt.2 hs]
    · by_cases hb : diffLimit < response.body.length
      · simp [diff?, content?, hs, hb, Nat.not_le.2 hb]
      · simp [diff?, content?, hs, hb, Nat.not_le.1 hs, Nat.not_lt.1 hb]

/-- The kind of content that describes a pull request. -/
def pullKind : String := "application/vnd.github+json"

/-- The kind of content that is a diff. -/
def diffKind : String := "application/vnd.github.diff"

/-- The request for what is at a URL, which stands there as it is sent. -/
def requestFor (settings : Settings) (sent accept : String) : Request :=
  ⟨sent, accept, userAgent, settings.token.map authorization⟩

/-! ### One request -/

/-- What comes of asking for what is at a URL. -/
inductive Got (settings : Settings) (url accept : String) :
    Except String Response → List Deed → Prop
  /-- The request cannot be sent. -/
  | unsent (message : String) : Got settings url accept (.error message) []
  | refused {sent : String} {answer : Answer} (message : String) (hs : Url.sent? url = some sent)
      (h : content? answer = none) :
    Got settings url accept (.error message) [.fetch (requestFor settings sent accept) answer]
  | answered {sent : String} {response : Response} (hs : Url.sent? url = some sent)
      (h : content? (.ok response) = some response.body) :
    Got settings url accept (.ok response)
      [.fetch (requestFor settings sent accept) (.ok response)]

theorem goes_get {url accept : String} {r : Except String Response}
    (h : Goes (get settings url accept) w r v ds) : Got settings url accept r ds := by
  unfold get at h
  obtain ⟨e, rfl, hlog⟩ | ⟨_, _, _, ds₂, hlog, hsend, rfl⟩ := goes_bind.1 h
  · cases (goes_ask.1 hlog).1
  obtain ⟨-, -, rfl⟩ := goes_ask.1 hlog
  dsimp only at hsend
  split at hsend
  · obtain ⟨rfl, -, rfl⟩ := goes_throw.1 hsend
    exact .unsent _
  · obtain ⟨rfl, -, rfl⟩ := goes_throw.1 hsend
    exact .unsent _
  rename_i sent _ hsent
  split at hsend
  · obtain ⟨rfl, -, rfl⟩ := goes_throw.1 hsend
    exact .unsent _
  -- Now the request is sent.
  obtain ⟨e, rfl, hask⟩ | ⟨answer, _, _, ds₃, hask, hlast, rfl⟩ := goes_bind.1 hsend
  · cases (goes_ask.1 hask).1
  obtain ⟨hanswer, -, rfl⟩ := goes_ask.1 hask
  rw [← Except.ok.inj hanswer]
  split at hlast
  · obtain ⟨rfl, -, rfl⟩ := goes_throw.1 hlast
    exact .refused _ hsent rfl
  · split at hlast
    · rename_i hstatus
      obtain ⟨rfl, -, rfl⟩ := goes_throw.1 hlast
      exact .refused _ hsent (if_pos hstatus)
    · rename_i hstatus
      obtain ⟨rfl, -, rfl⟩ := goes_pure.1 hlast
      exact .answered hsent (if_neg hstatus)

/-! ### Pull requests and diffs -/

/-- What comes of fetching a pull request. -/
inductive PullCourse (settings : Settings) (id : PullId) :
    Except String Snapshot → List Deed → Prop
  | unsent (message : String) : PullCourse settings id (.error message) []
  | refused {sent : String} {answer : Answer} (message : String)
      (hs : Url.sent? (pullUrl settings id) = some sent) (h : pull? answer = none) :
    PullCourse settings id (.error message) [.fetch (requestFor settings sent pullKind) answer]
  | fetched {sent : String} {answer : Answer} {pull : Pull}
      (hs : Url.sent? (pullUrl settings id) = some sent) (h : pull? answer = some pull) :
    PullCourse settings id (.ok pull.snapshot)
      [.fetch (requestFor settings sent pullKind) answer]

theorem goes_fetchPull {id : PullId} {r : Except String Snapshot}
    (h : Goes (fetchPull settings id) w r v ds) : PullCourse settings id r ds := by
  obtain ⟨message, rfl, hget⟩ | ⟨response, _, _, _, hget, hread, rfl⟩ := goes_bind.1 h
  · cases goes_get hget with
    | unsent => exact .unsent _
    | refused _ hs hc => exact .refused _ hs (by rw [pull?, hc]; rfl)
  · cases goes_get hget with
    | answered hs hc =>
      split at hread
      · rename_i fault hdecode
        obtain ⟨rfl, -, rfl⟩ := goes_throw.1 hread
        exact .refused _ hs (by rw [pull?, hc, Option.bind_some, hdecode]; rfl)
      · rename_i pull hdecode
        obtain ⟨rfl, -, rfl⟩ := goes_pure.1 hread
        exact .fetched hs (by rw [pull?, hc, Option.bind_some, hdecode]; rfl)

/-- What comes of fetching a diff. -/
inductive DiffCourse (settings : Settings) (url : String) : Except String String → List Deed → Prop
  | unsent (message : String) : DiffCourse settings url (.error message) []
  | refused {sent : String} {answer : Answer} (message : String) (hs : Url.sent? url = some sent)
      (h : diff? answer = none) :
    DiffCourse settings url (.error message) [.fetch (requestFor settings sent diffKind) answer]
  | fetched {sent diff : String} {answer : Answer} (hs : Url.sent? url = some sent)
      (h : diff? answer = some diff) :
    DiffCourse settings url (.ok diff) [.fetch (requestFor settings sent diffKind) answer]

theorem goes_fetchDiff {url : String} {r : Except String String}
    (h : Goes (fetchDiff settings url) w r v ds) : DiffCourse settings url r ds := by
  obtain ⟨message, rfl, hget⟩ | ⟨response, _, _, _, hget, hread, rfl⟩ := goes_bind.1 h
  · cases goes_get hget with
    | unsent => exact .unsent _
    | refused _ hs hc => exact .refused _ hs (by rw [diff?, hc]; rfl)
  · cases goes_get hget with
    | answered hs hc =>
      split at hread
      · rename_i hbig
        obtain ⟨rfl, -, rfl⟩ := goes_throw.1 hread
        exact .refused _ hs (by rw [diff?, hc, Option.bind_some, if_pos hbig])
      · rename_i hbig
        obtain ⟨rfl, -, rfl⟩ := goes_pure.1 hread
        exact .fetched hs (by rw [diff?, hc, Option.bind_some, if_neg hbig])

/-! ### Captures -/

/-- What comes of a capture, and what has been asked of servers for it. -/
inductive Course (settings : Settings) (id : PullId) :
    Except LedgerError FinalCapture → List Deed → Prop
  | pullUnsent (message : String) :
    Course settings id (.error (Source.failure id .metadata message)) []
  | pullRefused {sent : String} {answer : Answer} (message : String)
      (hs : Url.sent? (pullUrl settings id) = some sent) (h : pull? answer = none) :
    Course settings id (.error (Source.failure id .metadata message))
      [.fetch (requestFor settings sent pullKind) answer]
  | diffUnsent {sent : String} {answer : Answer} {pull : Pull} (message : String)
      (hs : Url.sent? (pullUrl settings id) = some sent) (h : pull? answer = some pull) :
    Course settings id (.error (Source.failure id .diff message))
      [.fetch (requestFor settings sent pullKind) answer]
  | diffRefused {sent sent' : String} {answer answer' : Answer} {pull : Pull} (message : String)
      (hs : Url.sent? (pullUrl settings id) = some sent) (h : pull? answer = some pull)
      (hs' : Url.sent? pull.diffUrl = some sent') (h' : diff? answer' = none) :
    Course settings id (.error (Source.failure id .diff message))
      [.fetch (requestFor settings sent pullKind) answer,
        .fetch (requestFor settings sent' diffKind) answer']
  | fetched {sent sent' diff : String} {answer answer' : Answer} {pull : Pull}
      (hs : Url.sent? (pullUrl settings id) = some sent) (h : pull? answer = some pull)
      (hs' : Url.sent? pull.diffUrl = some sent') (h' : diff? answer' = some diff) :
    Course settings id (.ok ⟨pull.snapshot.state, diff⟩)
      [.fetch (requestFor settings sent pullKind) answer,
        .fetch (requestFor settings sent' diffKind) answer']

/-- A failure names the pull request and what could not be fetched. -/
theorem Course.failed {id : PullId} {e : LedgerError} (h : Course settings id (.error e) ds) :
    ∃ (what : Fetched) (message : String), e = Source.failure id what message ∧
      e.code.text = "E6001" ∧
      e.message = s!"failed to fetch {what.name} for {id.text}: {message}" := by
  cases h with
  | pullUnsent message | pullRefused message => exact ⟨.metadata, message, rfl, rfl, rfl⟩
  | diffUnsent message | diffRefused message => exact ⟨.diff, message, rfl, rfl, rfl⟩

/-- A capture as an attempt: first the pull request, then the diff from where it says. -/
theorem goes_capture {id : PullId} {r : Except LedgerError FinalCapture}
    (h : Goes (ExceptT.mk ((source settings).capture id)) w r v ds) : Course settings id r ds := by
  -- The two steps are attempts whose errors are put in other words.
  have hsteps : (ExceptT.mk ((source settings).capture id) : Attempt LedgerError FinalCapture) =
      (do
        let snapshot ← ExceptT.adapt (Source.failure id .metadata) (fetchPull settings id)
        let diff ← ExceptT.adapt (Source.failure id .diff) (fetchDiff settings snapshot.diffUrl)
        return ⟨snapshot.state, diff⟩) := by
    have hadapt : ∀ {κ ε α : Type} (f : κ → ε) (p : Attempt κ α),
        ExceptT.run (ExceptT.adapt f p) = ExceptT.run p >>= fun result =>
          pure (result.mapError f) := fun _ _ => rfl
    refine ExceptT.ext ?_
    rw [ExceptT.run_bind, hadapt, bind_assoc]
    refine bind_congr fun result => ?_
    cases result with
    | error message => rfl
    | ok snapshot =>
      rw [pure_bind]
      dsimp only [Except.mapError]
      rw [ExceptT.run_bind, hadapt, bind_assoc]
      refine bind_congr fun result => ?_
      cases result <;> rfl
  rw [hsteps] at h
  obtain ⟨e, rfl, hpull⟩ | ⟨snapshot, _, ds₁, _, hpull, hrest, rfl⟩ := goes_bind.1 h
  · obtain ⟨result, hpull, hr⟩ := goes_adapt.1 hpull
    cases goes_fetchPull hpull with
    | unsent =>
      cases hr
      exact .pullUnsent _
    | refused _ hs hp =>
      cases hr
      exact .pullRefused _ hs hp
    | fetched => cases hr
  obtain ⟨result, hpull, hr⟩ := goes_adapt.1 hpull
  cases goes_fetchPull hpull with
  | unsent => cases hr
  | refused => cases hr
  | fetched hs hp =>
  cases hr
  obtain ⟨e, rfl, hdiff⟩ | ⟨diff, _, _, _, hdiff, hlast, rfl⟩ := goes_bind.1 hrest
  · obtain ⟨result, hdiff, hr⟩ := goes_adapt.1 hdiff
    cases goes_fetchDiff hdiff with
    | unsent =>
      cases hr
      exact .diffUnsent _ hs hp
    | refused _ hs' hd =>
      cases hr
      exact .diffRefused _ hs hp hs' hd
    | fetched => cases hr
  · obtain ⟨rfl, -, rfl⟩ := goes_pure.1 hlast
    obtain ⟨result, hdiff, hr⟩ := goes_adapt.1 hdiff
    cases goes_fetchDiff hdiff with
    | unsent => cases hr
    | refused => cases hr
    | fetched hs' hd =>
      cases hr
      exact .fetched hs hp hs' hd

/-- The first capture is a capture with statistics beside it. -/
theorem goes_captureInitial {id : PullId} {statistics : Statistics}
    {r : Except LedgerError InitialCapture}
    (h : Goes (ExceptT.mk ((source settings).captureInitial id statistics)) w r v ds) :
    ∃ result : Except LedgerError FinalCapture, Course settings id result ds ∧
      r = result.map fun capture => ⟨capture.state, capture.diff, statistics⟩ := by
  have hsteps : (ExceptT.mk ((source settings).captureInitial id statistics) :
      Attempt LedgerError InitialCapture) = (do
        let capture ← ExceptT.mk ((source settings).capture id)
        return ⟨capture.state, capture.diff, statistics⟩) := by
    refine ExceptT.ext ?_
    rw [ExceptT.run_bind]
    refine bind_congr fun result => ?_
    cases result <;> rfl
  rw [hsteps] at h
  obtain ⟨e, rfl, hcapture⟩ | ⟨capture, _, _, _, hcapture, hlast, rfl⟩ := goes_bind.1 h
  · exact ⟨.error e, goes_capture hcapture, rfl⟩
  · obtain ⟨rfl, -, rfl⟩ := goes_pure.1 hlast
    rw [List.append_nil]
    exact ⟨.ok capture, goes_capture hcapture, rfl⟩

end GitHub

end RepairLedger
