import Mathlib.Tactic.TFAE
import RepairLedger.Proofs.Hosting.Fetching
import RepairLedger.Proofs.Pull.Text
import RepairLedger.Proofs.Text.Spelling

/-!
# Where pull requests are found

A pull request goes by three names: the text of its id, under which it stands in the ledger; its
repository together with its number; and the URL that it is fetched from.  Each is made of parts
that are put one behind the other, and would fit several pull requests if a part could hold a
separator.  No name of an owner or a repository does, so that each of the three says which pull
request is meant (`GitHub.addressing_faithful`).

The URL begins with that of the hosting service.  This is the one that the first place of the
settings gives that has one (`Settings.Places.GivesApiUrl`), without the slashes at its end, so it
does not matter how many of them there are.  What a server is asked for first in a capture depends
on the URL and the token alone, and not on the world (`GitHub.firstRequest?_eq`).
-/

namespace RepairLedger

open Host Attempt

/-! ### The URL of the hosting service -/

namespace Settings

/-- The places that settings are taken from. -/
structure Places where
  command : CommandSettings
  environment : EnvironmentSettings
  project : FileSettings
  user : FileSettings

namespace Places

variable {p : Places} {given : String}

/-- The settings in force. -/
def settings (p : Places) : Settings :=
  layer p.command p.environment p.project p.user

/-- The first place that gives a URL of the hosting service gives this one. -/
inductive GivesApiUrl (p : Places) : String → Prop
  | byEnvironment {given : String} (h : p.environment.apiUrl = some given) : GivesApiUrl p given
  | byProject {given : String} (he : p.environment.apiUrl = none)
      (h : p.project.apiUrl = some given) : GivesApiUrl p given
  | byUser {given : String} (he : p.environment.apiUrl = none) (hp : p.project.apiUrl = none)
      (h : p.user.apiUrl = some given) : GivesApiUrl p given
  | byDefault (he : p.environment.apiUrl = none) (hp : p.project.apiUrl = none)
      (hu : p.user.apiUrl = none) : GivesApiUrl p "https://api.github.com"

theorem exists_givesApiUrl (p : Places) : ∃ given, p.GivesApiUrl given := by
  rcases he : p.environment.apiUrl with _ | given
  · rcases hp : p.project.apiUrl with _ | given
    · rcases hu : p.user.apiUrl with _ | given
      · exact ⟨_, .byDefault he hp hu⟩
      · exact ⟨given, .byUser he hp hu⟩
    · exact ⟨given, .byProject he hp⟩
  · exact ⟨given, .byEnvironment he⟩

theorem apiUrl_settings (h : p.GivesApiUrl given) :
    p.settings.apiUrl = withoutSlashes given := by
  cases h with
  | byEnvironment h => simp [settings, layer, h]
  | byProject he h => simp [settings, layer, he, h]
  | byUser he hp h => simp [settings, layer, he, hp, h]
  | byDefault he hp hu => simp [settings, layer, he, hp, hu, defaultApiUrl]

theorem sheds_apiUrl (h : p.GivesApiUrl given) :
    Text.Sheds '/' given.toList p.settings.apiUrl.toList := by
  rw [apiUrl_settings h, withoutSlashes, String.toList_ofList]
  exact Text.trimRightOf_eq_iff.1 rfl

/-- Places whose URLs differ in nothing but slashes at the end come to one URL. -/
theorem apiUrl_settings_eq {q : Places} {core : List Char} {m n : Nat}
    (hp : p.GivesApiUrl (String.ofList (core ++ List.replicate m '/')))
    (hq : q.GivesApiUrl (String.ofList (core ++ List.replicate n '/'))) :
    p.settings.apiUrl = q.settings.apiUrl := by
  rw [apiUrl_settings hp, apiUrl_settings hq, withoutSlashes, withoutSlashes, String.toList_ofList,
    String.toList_ofList, Text.trimRightOf_append_replicate, Text.trimRightOf_append_replicate]

end Places

end Settings

namespace GitHub

variable {settings : Settings} {a b : PullId} {request : Request}

/-! ### URLs of pull requests -/

theorem pullUrl_eq (settings : Settings) (id : PullId) :
    pullUrl settings id = settings.apiUrl ++ "/repos/" ++ id.owner ++ "/" ++ id.repo ++ "/pulls/" ++
      toString id.number := by
  have hnumber : toString id.number = Numeral.textOf id.number.toNat :=
    (Numeral.textOf_eq_toString id.number.toNat).symm
  rw [hnumber]
  simp [pullUrl, toString]

/-- **No two valid ids have one URL.** -/
theorem pullUrl_injective (ha : a.IsValid) (hb : b.IsValid)
    (h : pullUrl settings a = pullUrl settings b) : a = b := by
  have hchars : ∀ id : PullId, (pullUrl settings id).toList =
      (settings.apiUrl ++ "/repos/").toList ++ (id.owner.toList ++ '/' :: (id.repo.toList ++
        '/' :: ("pulls/".toList ++ Numeral.digits id.number.toNat))) := by
    intro id
    rw [← Numeral.toList_textOf]
    simp [pullUrl, toString]
  have hslash : ∀ {name : String}, PullId.isName name = true → '/' ∉ name.toList :=
    PullId.not_mem_name (by decide)
  have h := congrArg String.toList h
  rw [hchars, hchars, List.append_cancel_left_eq] at h
  -- The first slash ends the owner, and the second the repository.
  obtain ⟨howner, h⟩ := Text.cut_injective (hslash ha.1) (hslash hb.1) h
  obtain ⟨hrepo, h⟩ := Text.cut_injective (hslash ha.2.1) (hslash hb.2.1) h
  have hnumber := Numeral.digits_injective (List.append_cancel_left h)
  exact PullId.eq_of_toList howner hrepo (UInt64.toNat_inj.1 hnumber)

/-- What is sent says less than the URL, for a backslash is sent as a slash. -/
example :
    let settings : Settings := ⟨⟨"prs.json"⟩, "http://h", none, 0⟩
    Url.sent? (pullUrl settings ⟨"a\\b", "c", 1⟩) =
      Url.sent? (pullUrl settings ⟨"a", "b\\c", 1⟩) := by
  decide +kernel

/-! ### Requests for pull requests -/

/-- The request for what is at a URL.  There is none if the token cannot stand in a header, if the
URL does not say how to reach the server, or if nothing can be asked for under its scheme. -/
def requestAt? (settings : Settings) (url accept : String) : Option Request :=
  if (settings.token.map authorization).all isHeaderText then
    ((Url.sent? url).filter fun sent => schemes.contains (Url.scheme sent)).map
      (requestFor settings · accept)
  else none

theorem sent?_of_mem_requestAt? {url accept : String}
    (h : request ∈ requestAt? settings url accept) : Url.sent? url = some request.url := by
  unfold requestAt? at h
  split at h
  · obtain ⟨sent, hsent, rfl⟩ := Option.map_eq_some_iff.1 h
    exact (Option.filter_eq_some_iff.1 hsent).1
  · cases h

/-- Nothing else is done to get what is at a URL. -/
theorem deedsIn_get (settings : Settings) (url accept : String) (w : World) :
    deedsIn (get settings url accept) w =
      (requestAt? settings url accept).toList.map fun request =>
        .fetch request (w.perform (.fetch request)).1 := by
  unfold get requestAt?
  rw [deedsIn_bind, runIn_ask]
  dsimp only
  rcases hbad : (settings.token.map authorization).filter (!isHeaderText ·) with _ | text
  · have hclear : (settings.token.map authorization).all isHeaderText = true := by
      rw [Option.filter_eq_none_iff] at hbad
      rw [Option.all_eq_true]
      exact fun text htext => by simpa using hbad text htext
    rw [if_pos hclear]
    rcases hsent : Url.sent? url with _ | sent
    · rfl
    dsimp only
    by_cases hscheme : schemes.contains (Url.scheme sent) = true
    · rw [if_neg (by simpa using hscheme), Option.filter_some, if_pos hscheme, deedsIn_bind,
        runIn_ask]
      dsimp only
      -- What is made of the answer is no deed.
      split
      · rfl
      · split <;> rfl
    · rw [if_pos (by simpa using hscheme), Option.filter_some, if_neg hscheme]
      rfl
  · have hunclear : (settings.token.map authorization).all isHeaderText = false := by
      obtain ⟨hmem, hno⟩ := Option.filter_eq_some_iff.1 hbad
      rw [hmem]
      simpa using hno
    rw [hunclear]
    rfl

/-- What a capture asks a server for first. -/
def firstRequest? (settings : Settings) (id : PullId) (w : World) : Option Request :=
  (((source settings).capture id).fetches w).head?.map Prod.fst

/-- **The pull request is asked for first,** at its URL, whatever the world is like. -/
theorem firstRequest?_eq (settings : Settings) (id : PullId) (w : World) :
    firstRequest? settings id w = requestAt? settings (pullUrl settings id) pullKind := by
  have hdeeds := deedsIn_get settings (pullUrl settings id) pullKind w
  have hcapture : ((source settings).capture id).deeds w =
      deedsIn (fetchPull settings id) w ++ _ := Program.deeds_bind _ _ w
  rw [firstRequest?, Program.fetches, hcapture]
  rcases hrequest : requestAt? settings (pullUrl settings id) pullKind with _ | request
  · -- Nothing is asked for, so there is no answer, and the capture ends here.
    rw [hrequest] at hdeeds
    rcases hget : runIn (get settings (pullUrl settings id) pullKind) w with ⟨r, v⟩
    have hgot : Goes (get settings (pullUrl settings id) pullKind) w r v [] := ⟨hget, hdeeds⟩
    cases goes_get hgot with
    | unsent message =>
      obtain ⟨hrun, hnothing⟩ : Goes (fetchPull settings id) w (.error message) v [] :=
        goes_bind.2 (.inl ⟨message, rfl, hgot⟩)
      have hpull : ((source settings).pull id).run w = (.error message, v) := hrun
      rw [hnothing, hpull]
      rfl
  · have hpull : deedsIn (fetchPull settings id) w =
        deedsIn (get settings (pullUrl settings id) pullKind) w ++ _ := deedsIn_bind _ _
    rw [hpull, hdeeds, hrequest]
    rfl

/-! ### Names of pull requests -/

/-- **Each name says which pull request is meant.**  Two ids that have been accepted are the same
exactly if their texts are, if their repositories and numbers are, and if their URLs are, be it
under all settings or under any settings at all.  The URL of a pull request is that of the hosting
service as it is given, without the slashes at its end, and then `/repos/owner/repo/pulls/number`,
and this is what a server is asked for first.  Places that give the URL of the hosting service with
more slashes at its end or fewer make no difference to this. -/
theorem addressing_faithful (ha : a.IsAccepted) (hb : b.IsAccepted) :
    [a = b, a.text = b.text, (a.slug, a.number) = (b.slug, b.number),
      ∀ p : Settings.Places, pullUrl p.settings a = pullUrl p.settings b,
      ∃ p : Settings.Places, pullUrl p.settings a = pullUrl p.settings b].TFAE ∧
    (∀ p : Settings.Places, ∃ given : String, p.GivesApiUrl given ∧
      Text.Sheds '/' given.toList p.settings.apiUrl.toList ∧
      ∀ id : PullId,
        pullUrl p.settings id = p.settings.apiUrl ++ "/repos/" ++ id.owner ++ "/" ++ id.repo ++
          "/pulls/" ++ toString id.number ∧
        ∀ w, firstRequest? p.settings id w =
          requestAt? p.settings (pullUrl p.settings id) pullKind) ∧
    ∀ (p q : Settings.Places) (core : List Char) (m n : Nat),
      p.GivesApiUrl (String.ofList (core ++ List.replicate m '/')) →
      q.GivesApiUrl (String.ofList (core ++ List.replicate n '/')) →
      ∀ id : PullId, pullUrl p.settings id = pullUrl q.settings id ∧
        ∀ v w, ∀ request ∈ firstRequest? p.settings id v,
          ∀ request' ∈ firstRequest? q.settings id w, request.url = request'.url := by
  rw [PullId.isAccepted_iff] at ha hb
  refine ⟨?_, fun p => ?_, fun p q core m n hp hq id => ?_⟩
  · tfae_have 1 → 2 := congrArg PullId.text
    tfae_have 2 → 1 := PullId.text_injective ha hb
    tfae_have 1 → 3 := congrArg fun id : PullId => (id.slug, id.number)
    tfae_have 3 → 1 := fun h => PullId.slug_injective ha hb (Prod.mk.inj h).1 (Prod.mk.inj h).2
    tfae_have 1 → 4 := fun h p => congrArg (pullUrl p.settings) h
    tfae_have 4 → 5 := fun h => ⟨⟨⟨none, none⟩, ⟨none, none⟩, .empty, .empty⟩, h _⟩
    tfae_have 5 → 1 := fun ⟨_, h⟩ => pullUrl_injective ha hb h
    tfae_finish
  · obtain ⟨given, hgiven⟩ := p.exists_givesApiUrl
    exact ⟨given, hgiven, Settings.Places.sheds_apiUrl hgiven, fun id =>
      ⟨pullUrl_eq p.settings id, firstRequest?_eq p.settings id⟩⟩
  · have hurl : pullUrl p.settings id = pullUrl q.settings id := by
      rw [pullUrl_eq, pullUrl_eq, Settings.Places.apiUrl_settings_eq hp hq]
    refine ⟨hurl, fun v w request hr request' hr' => Option.some.inj ?_⟩
    rw [firstRequest?_eq] at hr hr'
    rw [← sent?_of_mem_requestAt? hr, ← sent?_of_mem_requestAt? hr', hurl]

/-- A digit that changes sides makes another pull request, under settings that are given in two
ways. -/
theorem addressing_faithful_regrouped :
    let a : PullId := ⟨"acme", "wid", 42⟩
    let b : PullId := ⟨"acme", "wid4", 2⟩
    let p : Settings.Places := ⟨⟨none, none⟩, ⟨some "t", some "http://ghe.example/api//"⟩,
      ⟨none, none, some "http://other.example", none⟩, .empty⟩
    let q : Settings.Places := ⟨⟨none, none⟩, ⟨none, none⟩, .empty,
      ⟨none, none, some "http://ghe.example/api", none⟩⟩
    PullId.parse "\tacme/wid#+042 " = .ok a ∧ PullId.ofParts "acme" "wid4" 2 = .ok b ∧
      a.text ≠ b.text ∧ (a.slug, a.number) ≠ (b.slug, b.number) ∧
      (∀ r : Settings.Places, pullUrl r.settings a ≠ pullUrl r.settings b) ∧
      pullUrl p.settings a = "http://ghe.example/api/repos/acme/wid/pulls/42" ∧
      pullUrl q.settings a = pullUrl p.settings a ∧
      ∀ w, (firstRequest? p.settings a w).map Request.url = some (pullUrl p.settings a) := by
  intro a b p q
  have ha : PullId.parse "\tacme/wid#+042 " = .ok a := eq_ok_of_toOption (by decide +kernel)
  have hb : PullId.ofParts "acme" "wid4" 2 = .ok b := eq_ok_of_toOption (by decide +kernel)
  have hne : a ≠ b := by decide
  obtain ⟨htfae, hurl, hslashes⟩ := addressing_faithful (.read ha) (.made hb)
  have htold : (∃ r : Settings.Places, pullUrl r.settings a = pullUrl r.settings b) ↔ a = b :=
    htfae.out 4 0
  obtain ⟨given, -, -, hurl⟩ := hurl p
  have hp : p.GivesApiUrl
      (String.ofList ("http://ghe.example/api".toList ++ List.replicate 2 '/')) :=
    .byEnvironment (by decide +kernel)
  have hq : q.GivesApiUrl
      (String.ofList ("http://ghe.example/api".toList ++ List.replicate 0 '/')) :=
    .byUser rfl rfl (by decide +kernel)
  refine ⟨ha, hb, fun h => hne ((htfae.out 1 0).1 h), fun h => hne ((htfae.out 2 0).1 h),
    fun r h => hne (htold.1 ⟨r, h⟩), (hurl a).1.trans (by decide +kernel),
    (hslashes p q _ 2 0 hp hq a).1.symm, fun w => ?_⟩
  rw [(hurl a).2 w]
  decide +kernel

end GitHub

end RepairLedger
