import FilterQuery.Proofs.CommandLine.Compile

/-!
# Where the settings come from

The settings have one source, or none at all (`Settings.Source`). What is loaded is the answer of
this source alone (`Source.answers_load`): the settings that its text holds, or an error if it
cannot be read or its text is none of settings (`Settings.Answers`). Other places are at most looked
at to see that they hold nothing, and what else they hold does not matter (`Source.of_agree`).

A run that makes a query loads the settings after it has put the criteria together
(`Queries.run_eq`). An error of the source ends it, even if the page size that the settings are
loaded for is overruled.
-/

namespace FilterQuery

open Text

namespace Settings

/-! ## Sources -/

/-- The file in the user's directory for settings. -/
def userFile (directory : String) : String := directory ++ "/dafi/config.toml"

/-- The path of the file that the settings come from, `none` if they are the defaults, with the
places in front of it that are passed over because they hold nothing. -/
inductive Source (fs : FileSystem) (userDirectory : Option String) :
    Option String → List String → Option String → Prop where
  /-- The file that is asked for, even if it is not there. -/
  | asked (path : String) : Source fs userDirectory (some path) [] (some path)
  | working (h : fs.holds fileName = true) : Source fs userDirectory none [] (some fileName)
  | user (directory : String) (hdirectory : userDirectory = some directory)
      (hworking : fs.holds fileName = false) (h : fs.holds (userFile directory) = true) :
      Source fs userDirectory none [fileName] (some (userFile directory))
  | defaults (hworking : fs.holds fileName = false)
      (h : ∀ directory ∈ userDirectory, fs.holds (userFile directory) = false) :
      Source fs userDirectory none (fileName :: (userDirectory.map userFile).toList) none

/-- What a source answers. -/
inductive Answers (fs : FileSystem) : Option String → Except Error Settings → Prop where
  | defaults : Answers fs none (.ok { maxPageSize := 0 })
  | unreadable {path : String} {reason : FileError} (hfile : fs path = .error reason) :
      Answers fs (some path) (.error (.unreadableFile reason))
  | readable {path text : String} (hfile : fs path = .ok text) :
      Answers fs (some path) (ofText text)

variable {fs fs' : FileSystem} {userDirectory explicit source : Option String}
  {passed : List String}

/-- A text of no settings has one error, whatever is wrong with it. -/
theorem ofText_eq_error {text : String} {e : Error} (h : ofText text = .error e) :
    e = .badSettings := by
  unfold ofText at h
  simp only at h
  split at h
  · cases h
  · exact (Except.error.inj h).symm

/-- The first of the usual places that holds anything: the working directory comes before the
user's. -/
theorem find?_usualPlaces (fs : FileSystem) (userDirectory : Option String) :
    (usualPlaces userDirectory).find? fs.holds =
      if fs.holds fileName then some fileName
      else userDirectory.bind fun directory =>
        if fs.holds (userFile directory) then some (userFile directory) else none := by
  unfold usualPlaces
  rw [List.find?_cons]
  cases fs.holds fileName with
  | true => rfl
  | false =>
    cases userDirectory with
    | none => rfl
    | some directory =>
      show List.find? fs.holds [userFile directory] = _
      rw [List.find?_singleton]
      rfl

/-- There is always a source, if only the defaults. -/
theorem exists_source (fs : FileSystem) (userDirectory explicit : Option String) :
    ∃ passed source, Source fs userDirectory explicit passed source := by
  cases explicit with
  -- what is asked for is taken without a look at it
  | some path => exact ⟨_, _, .asked path⟩
  | none =>
    cases hworking : fs.holds fileName with
    | true => exact ⟨_, _, .working hworking⟩
    | false =>
      cases userDirectory with
      | none => exact ⟨_, _, .defaults hworking nofun⟩
      | some directory =>
        cases huser : fs.holds (userFile directory) with
        | true => exact ⟨_, _, .user directory rfl hworking huser⟩
        | false =>
          refine ⟨_, _, .defaults hworking ?_⟩
          intro directory' hdirectory
          obtain rfl := Option.some.inj hdirectory
          exact huser

/-- What a file answers is there iff it can be read. -/
theorem answers_ofFile (fs : FileSystem) (path : String) :
    Answers fs (some path) (ofFile fs path) := by
  unfold ofFile
  cases hfile : fs path with
  | ok text => exact .readable hfile
  | error reason => exact .unreadable hfile

/-- A source has one answer only. -/
theorem Answers.unique {answer answer' : Except Error Settings} (h : Answers fs source answer)
    (h' : Answers fs source answer') : answer' = answer := by
  cases h with
  | defaults =>
    cases h'
    rfl
  | unreadable hfile =>
    cases h' with
    | unreadable hfile' => rw [Except.error.inj (hfile'.symm.trans hfile)]
    | readable hfile' => cases hfile'.symm.trans hfile
  | readable hfile =>
    cases h' with
    -- a file cannot be read and be unreadable at once
    | unreadable hfile' => cases hfile'.symm.trans hfile
    | readable hfile' => rw [Except.ok.inj (hfile'.symm.trans hfile)]

/-- The answer depends on the source alone. -/
theorem Answers.of_agree {answer : Except Error Settings} (h : Answers fs source answer)
    (hsource : ∀ path ∈ source, fs' path = fs path) : Answers fs' source answer := by
  cases h with
  | defaults => exact .defaults
  | unreadable hfile => exact .unreadable ((hsource _ rfl).trans hfile)
  | readable hfile => exact .readable ((hsource _ rfl).trans hfile)

/-- Loading goes wrong in two ways only. -/
theorem Answers.eq_of_error {e : Error} (h : Answers fs source (.error e)) :
    e = .badSettings ∨ ∃ reason, e = .unreadableFile reason := by
  -- the answer is generalized because that of a file is not yet an error
  generalize hanswer : Except.error e = answer at h
  cases h with
  | defaults => cases hanswer
  | unreadable => exact .inr ⟨_, Except.error.inj hanswer⟩
  | readable => exact .inl (ofText_eq_error hanswer.symm)

/-- **What is loaded is the answer of the source.** -/
theorem Source.answers_load (h : Source fs userDirectory explicit passed source) :
    Answers fs source (load fs userDirectory explicit) := by
  have hload : ∀ source, (usualPlaces userDirectory).find? fs.holds = source →
      Answers fs source (load fs userDirectory none) := by
    rintro _ rfl
    unfold load
    cases (usualPlaces userDirectory).find? fs.holds with
    | none => exact .defaults
    | some path => exact answers_ofFile fs path
  -- without a file that is asked for, the source is the first of the usual places
  cases h with
  | asked path => exact answers_ofFile fs path
  | working h =>
    refine hload _ ?_
    rw [find?_usualPlaces, h]
    rfl
  | user directory hdirectory hworking h =>
    refine hload _ ?_
    rw [find?_usualPlaces, hworking, hdirectory]
    exact if_pos h
  | defaults hworking h =>
    refine hload _ ?_
    rw [find?_usualPlaces, hworking]
    cases userDirectory with
    | none => rfl
    | some directory => exact if_neg (Bool.eq_false_iff.mp (h directory rfl))

/-- There is one source only. -/
theorem Source.unique {passed' : List String} {source' : Option String}
    (h : Source fs userDirectory explicit passed source)
    (h' : Source fs userDirectory explicit passed' source') :
    passed' = passed ∧ source' = source := by
  have hne : ∀ {path : String}, fs.holds path = true → fs.holds path ≠ false := by
    intro path hpath
    rw [hpath]
    exact Bool.noConfusion
  -- two sources of different kinds would have one place hold something and nothing
  cases h with
  | asked path =>
    cases h'
    exact ⟨rfl, rfl⟩
  | working hworking =>
    cases h' with
    | working => exact ⟨rfl, rfl⟩
    | user _ _ hnot => exact absurd hnot (hne hworking)
    | defaults hnot => exact absurd hnot (hne hworking)
  | user directory hdirectory hnot huser =>
    cases h' with
    | working hworking => exact absurd hnot (hne hworking)
    | user directory' hdirectory' =>
      obtain rfl := Option.some.inj (hdirectory.symm.trans hdirectory')
      exact ⟨rfl, rfl⟩
    | defaults _ hdefaults => exact absurd (hdefaults directory hdirectory) (hne huser)
  | defaults hnot hdefaults =>
    cases h' with
    | working hworking => exact absurd hnot (hne hworking)
    | user directory hdirectory _ huser => exact absurd (hdefaults directory hdirectory) (hne huser)
    | defaults => exact ⟨rfl, rfl⟩

theorem holds_congr {path : String} (h : fs' path = fs path) : fs'.holds path = fs.holds path := by
  unfold FileSystem.holds
  rw [h]

/-- **Other files do not matter.** A file system with the same file at the source, and still nothing
at the places passed over, has the same source. -/
theorem Source.of_agree (h : Source fs userDirectory explicit passed source)
    (hsource : ∀ path ∈ source, fs' path = fs path)
    (hpassed : ∀ path ∈ passed, fs'.holds path = false) :
    Source fs' userDirectory explicit passed source := by
  cases h with
  | asked path => exact .asked path
  | working h => exact .working ((holds_congr (hsource _ rfl)).trans h)
  | user directory hdirectory _ h =>
    exact .user directory hdirectory (hpassed _ List.mem_cons_self)
      ((holds_congr (hsource _ rfl)).trans h)
  -- both places were passed over, so both still hold nothing
  | defaults =>
    refine .defaults (hpassed _ List.mem_cons_self) ?_
    intro directory hdirectory
    obtain rfl := hdirectory
    exact hpassed _ (List.mem_cons_of_mem _ List.mem_cons_self)

end Settings

namespace CommandLine

open Settings (Answers Source)

/-! ## Runs -/

variable {env : Environment} {a : Arguments} {arguments : List String} {c : Criteria}
  {format : Format} {printed : Listing}

/-- The run makes a query of the criteria, to be printed in the format, and this is what it prints
before it. -/
inductive Queries (files : FileSystem) (a : Arguments) : Criteria → Format → Listing → Prop where
  | compile {c : Criteria} (hcommand : a.command = .compile)
      (hgiven : a.criteria ≠ none ∨ a.lines ≠ [] ∨ a.sort.getD "" ≠ "")
      (hcriteria : criteriaOf files a a.lines = .ok c) :
      Queries files a c (a.format.getD .text) []
  | explain {c : Criteria} {lines : List String} (hcommand : a.command = .explain lines)
      (hcriteria : criteriaOf files a lines = .ok c) :
      Queries files a c .text (explanationHeading ++ criteriaListing c)

theorem after_after (printed printed' : Listing) (o : Outcome) :
    Outcome.after printed (.after printed' o) = .after (printed ++ printed') o := by
  unfold Outcome.after
  simp only [List.append_assoc]

/-- The settings are loaded even if their page size is overruled. -/
theorem queryOf_eq (env : Environment) (a : Arguments) (c : Criteria) :
    queryOf env a c =
      ((Settings.load env.files env.userDirectory a.settings).mapError .settings >>= fun settings =>
        (Query.ofCriteria (a.maxPageSize.getD settings.maxPageSize) c).mapError .refused) := by
  unfold queryOf maxPageSizeOf
  cases Settings.load env.files env.userDirectory a.settings <;> rfl

/-- The settings are loaded behind the criteria, for the query. -/
theorem Queries.run_eq (h : Queries env.files a c format printed) :
    run env a = .after printed (.ofExcept (printQuery (some format) <$> queryOf env a c)) := by
  cases h with
  | compile hcommand hgiven hcriteria =>
    -- without a format it is text that is printed
    have hformat : printQuery (some (a.format.getD .text)) = printQuery a.format := by
      cases a.format <;> rfl
    unfold run
    rw [hcommand, hformat]
    simp only
    unfold CommandLine.compile
    rw [isIdle_eq_false hgiven, if_neg Bool.false_ne_true, hcriteria]
    rfl
  | explain hcommand hcriteria =>
    unfold run
    rw [hcommand]
    -- what is explained stands before the query, and stays if there is none
    simp only
    unfold CommandLine.explain
    rw [hcriteria, ← after_after]
    rfl

/-- The page size that overrules the settings is that of the option, else that of the
environment. -/
theorem exists_read_of_ofArguments {value : Option String}
    (h : Request.ofArguments arguments value = .run a) :
    ∃ b, read {} .ready arguments = .run b ∧
      a.maxPageSize = (b.maxPageSize <|> value.bind fun text => unsigned64? text.toList) := by
  unfold Request.ofArguments at h
  cases hread : read {} .ready arguments with
  | help | version | misuse =>
    rw [hread] at h
    cases h
  | run b =>
    refine ⟨b, rfl, ?_⟩
    rw [hread] at h
    simp only at h
    cases hoption : b.maxPageSize with
    -- with the option, the environment is not looked at
    | some n =>
      rw [hoption] at h
      obtain rfl := Request.run.inj h
      exact hoption
    -- without a value in the environment there is nothing to overrule the settings
    | none =>
      rw [hoption] at h
      cases value with
      | none =>
        obtain rfl := Request.run.inj h
        exact hoption
      | some text =>
        simp only at h
        cases hvalue : unsigned64? text.toList with
        | none =>
          rw [hvalue] at h
          cases h
        | some n =>
          rw [hvalue] at h
          obtain rfl := Request.run.inj h
          exact hvalue.symm

/-- **The settings have one source, and it decides.** Of the file that is asked for, the one in the
working directory and the one in the user's directory, one is the source, or none is and the page
size is zero. What is loaded is what the source answers: what its text holds, or an error. Other
files may change as they like, as long as nothing appears in front of the source.

A run that makes a query ends with the error of the source, even if the page size is overruled.
Otherwise the query is made with the page size of the option or the environment, and without one
with that of the source. -/
theorem exists_source_outcome (env : Environment) (a : Arguments) :
    ∃ passed source answer, Source env.files env.userDirectory a.settings passed source ∧
      (∀ passed' source', Source env.files env.userDirectory a.settings passed' source' →
        passed' = passed ∧ source' = source) ∧
      Answers env.files source answer ∧
      (∀ answer', Answers env.files source answer' → answer' = answer) ∧
      Settings.load env.files env.userDirectory a.settings = answer ∧
      (∀ e, answer = .error e → e = .badSettings ∨ ∃ reason, e = .unreadableFile reason) ∧
      (∀ files' : FileSystem, (∀ path ∈ source, files' path = env.files path) →
        (∀ path ∈ passed, files'.holds path = false) →
        Settings.load files' env.userDirectory a.settings = answer) ∧
      ∀ arguments, Request.ofArguments arguments env.maxPageSize = .run a →
        (∃ b, read {} .ready arguments = .run b ∧ a.maxPageSize =
          (b.maxPageSize <|> env.maxPageSize.bind fun text => unsigned64? text.toList)) ∧
        ∀ c format printed, Queries env.files a c format printed →
          ∃ o, outcome env arguments = some o ∧
            (∀ e, answer = .error e →
              o.printed = printed ∧ o.failure = some (.settings e) ∧ o.exitCode = 1) ∧
            ∀ settings, answer = .ok settings →
              o = .after printed (.ofExcept (printQuery (some format) <$>
                (Query.ofCriteria (a.maxPageSize.getD settings.maxPageSize) c).mapError
                  .refused)) := by
  obtain ⟨passed, source, hsource⟩ :=
    Settings.exists_source env.files env.userDirectory a.settings
  have hanswers := hsource.answers_load
  refine ⟨passed, source, _, hsource, fun _ _ h => hsource.unique h, hanswers,
    fun _ h => hanswers.unique h, rfl, fun _ he => (he ▸ hanswers).eq_of_error, ?_,
    fun arguments hrequest => ⟨exists_read_of_ofArguments hrequest, ?_⟩⟩
  · intro files' hagree hpassed
    exact (hanswers.of_agree hagree).unique (hsource.of_agree hagree hpassed).answers_load
  · intro c format printed hqueries
    have houtcome : outcome env arguments = some (run env a) := by
      unfold outcome
      rw [hrequest]
    have hrun := hqueries.run_eq
    rw [queryOf_eq] at hrun
    refine ⟨_, houtcome, fun e he => ?_, fun settings hsettings => ?_⟩
    · have hfails : run env a = { printed, failure := some (.settings e) } := by
        rw [hrun, he]
        show Outcome.mk (printed ++ []) _ = _
        rw [List.append_nil]
        rfl
      rw [hfails]
      exact ⟨rfl, rfl, rfl⟩
    · rw [hrun, hsettings]
      rfl

/-- What the file in the working directory decides, whatever the user's directory has to offer. With
settings it gives the page size; without, it ends the run; and when it is a directory, not even the
option helps. -/
theorem exists_source_outcome_of_working :
    let env (working : Except FileError String) : Environment :=
      { files := fun path =>
          if path = "dafi.toml" then working
          else if path = "xdg/dafi/config.toml" then .ok "[converter]\nmax_page_size = 7\n"
          else .error .notFound
        userDirectory := some "xdg", maxPageSize := none }
    (∃ o, outcome (env (.ok "[converter]\nmax_page_size = 50\n")) ["@a = [1]"] = some o ∧
      o.printed = ["Generated SQL:".toList, "  WHERE a = $1 LIMIT 50 OFFSET 0".toList, [],
        "Arguments:".toList, "  $1 = '1'".toList] ∧ o.failure = none) ∧
    (∃ o, outcome (env (.ok "[converter]\nmax_page_size = \"50\"\n")) ["@a = [1]"] = some o ∧
      o.printed = [] ∧ o.failure = some (.settings .badSettings)) ∧
    ∃ o, outcome (env (.error .isDirectory)) ["@a = [1]", "--max-page-size=7"] = some o ∧
      o.printed = [] ∧ o.failure = some (.settings (.unreadableFile .isDirectory)) := by
  intro env
  let c : Criteria := { filters := [{ field := "a", operator := .equal, value := .string "1" }] }
  have hlines : (Criteria.ofText ["@a = [1]"] "" (Page.partsOf none none)).mapError
      Failure.refused = .ok c := by decide +kernel
  -- in all three runs the working directory has something, so that it is the source
  have hruns : ∀ working arguments maxPageSize answer,
      Request.ofArguments arguments none = .run { lines := ["@a = [1]"], maxPageSize } →
      (env working).files.holds Settings.fileName = true →
      Answers (env working).files (some Settings.fileName) answer →
      ∃ o, outcome (env working) arguments = some o ∧
        (∀ e, answer = .error e → o.printed = [] ∧ o.failure = some (.settings e)) ∧
        ∀ settings, answer = .ok settings → o = .after [] (.ofExcept (printQuery (some .text) <$>
          (Query.ofCriteria (maxPageSize.getD settings.maxPageSize) c).mapError .refused)) := by
    intro working arguments maxPageSize answer hrequest hholds hanswer
    let a : Arguments := { lines := ["@a = [1]"], maxPageSize }
    have hgiven : a.lines ≠ [] := List.cons_ne_nil _ _
    have hqueries : Queries (env working).files a c .text [] :=
      .compile rfl (.inr (.inl hgiven)) ((criteriaOf_eq_of_lines rfl).trans hlines)
    obtain ⟨passed, source, answer', -, hsource, -, hunique, -, -, -, hruns⟩ :=
      exists_source_outcome (env working) a
    obtain ⟨-, rfl⟩ := hsource _ _ (.working hholds)
    obtain rfl := hunique answer hanswer
    obtain ⟨o, ho, hfails, hquery⟩ := (hruns arguments hrequest).2 _ _ _ hqueries
    refine ⟨o, ho, fun e he => ?_, hquery⟩
    obtain ⟨hprinted, hfailure, -⟩ := hfails e he
    exact ⟨hprinted, hfailure⟩
  have hrequest : Request.ofArguments ["@a = [1]"] none = .run { lines := ["@a = [1]"] } := by
    decide +kernel
  refine ⟨?_, ?_, ?_⟩
  · let text := "[converter]\nmax_page_size = 50\n"
    have hsettings : Settings.ofText text = .ok { maxPageSize := 50 } := by decide +kernel
    have hanswer : Answers (env (.ok text)).files (some Settings.fileName)
        (.ok { maxPageSize := 50 }) := hsettings ▸ .readable rfl
    obtain ⟨o, ho, -, hquery⟩ := hruns _ _ none _ hrequest rfl hanswer
    have hprinted := hquery _ rfl
    exact ⟨o, ho, hprinted ▸ by decide +kernel, hprinted ▸ by decide +kernel⟩
  · let text := "[converter]\nmax_page_size = \"50\"\n"
    have hbad : Settings.ofText text = .error .badSettings := by decide +kernel
    have hanswer : Answers (env (.ok text)).files (some Settings.fileName)
        (.error .badSettings) := hbad ▸ .readable rfl
    obtain ⟨o, ho, hfails, -⟩ := hruns _ _ none _ hrequest rfl hanswer
    obtain ⟨hprinted, hfailure⟩ := hfails _ rfl
    exact ⟨o, ho, hprinted, hfailure⟩
  · have hoption : Request.ofArguments ["@a = [1]", "--max-page-size=7"] none =
        .run { lines := ["@a = [1]"], maxPageSize := some 7 } := by decide +kernel
    have hanswer : Answers (env (.error .isDirectory)).files (some Settings.fileName)
        (.error (.unreadableFile .isDirectory)) := .unreadable rfl
    obtain ⟨o, ho, hfails, -⟩ := hruns _ _ (some 7) _ hoption rfl hanswer
    obtain ⟨hprinted, hfailure⟩ := hfails _ rfl
    exact ⟨o, ho, hprinted, hfailure⟩

end CommandLine

end FilterQuery
