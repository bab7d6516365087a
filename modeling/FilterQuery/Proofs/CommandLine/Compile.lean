import FilterQuery.CommandLine.Run
import FilterQuery.Proofs.Json.Denotation
import FilterQuery.Proofs.Page.Parts

/-!
# Compiling from the command line

The program and the library put criteria together in ways of their own. The library reads a page
from its parts, the program has the size and the number as options and may start from a document.
`Asked` says which criteria are meant, `DocumentAt` which document. That both come to the same is
shown in three steps:

* a size and a number are what the library reads from the parts that ask for them
  (`Page.ofParts_partsOf`), so that the criteria are those that are asked for
  (`Asked.criteriaOf_eq`);
* what is printed shows the query, as lines or as a JSON text that denotes it and nothing else
  (`shows_printQuery`);
* a run goes from the criteria over the settings to the query, and the first of them that goes wrong
  ends it (`outcome_compile`).
-/

namespace FilterQuery

open Text

namespace CommandLine

/-! ## The criteria -/

/-- What becomes of criteria that are a document in the file at the path: the criteria that are
written there, or why they cannot be had. -/
inductive DocumentAt (files : FileSystem) (path : String) : Except Failure Criteria → Prop where
  | unreadable {reason : FileError} (hfile : files path = .error reason) :
      DocumentAt files path (.error (.unreadableCriteria path reason))
  | malformed {text : String} (hfile : files path = .ok text)
      (hdecode : Json.decode Criteria.decoder text = .error .malformed) :
      DocumentAt files path (.error (.malformedCriteria path))
  /-- The text is JSON, or JSON up to the place where it does not fit. -/
  | mismatch {text : String} {m : Json.Mismatch} (hfile : files path = .ok text)
      (hdecode : Json.decode Criteria.decoder text = .error (.mismatch m)) :
      DocumentAt files path
        (.error (.badCriteria path m (.ofMismatch Criteria.decoder text m)))
  | read {text : String} {c : Criteria} (hfile : files path = .ok text)
      (hdecode : Json.decode Criteria.decoder text = .ok c) : DocumentAt files path (.ok c)

/-- The criteria that the arguments ask for, or what goes wrong with them first. Without a document
they are what the library makes of the lines, the sort expression and the parts of the page. A
document takes the place of the lines: sort keys are added behind its own, and a size and a number
replace its own, each for itself. -/
inductive Asked (files : FileSystem) (a : Arguments) : Except Failure Criteria → Prop where
  | lines (hcriteria : a.criteria = none) :
      Asked files a
        ((Criteria.ofText a.lines (a.sort.getD "") (Page.partsOf a.limit a.page)).mapError .refused)
  | noDocument {path : String} {failure : Failure} (hcriteria : a.criteria = some path)
      (hdocument : DocumentAt files path (.error failure)) : Asked files a (.error failure)
  | badSort {path : String} {c : Criteria} {e : Error} (hcriteria : a.criteria = some path)
      (hdocument : DocumentAt files path (.ok c))
      (hsort : SortKey.ofExpression (a.sort.getD "") = .error e) :
      Asked files a (.error (.refused e))
  | document {path : String} {c : Criteria} {sorts : List SortKey}
      (hcriteria : a.criteria = some path) (hdocument : DocumentAt files path (.ok c))
      (hsort : SortKey.ofExpression (a.sort.getD "") = .ok sorts) :
      Asked files a (.ok
        { filters := c.filters
          sorts := c.sorts ++ sorts
          page := { size := a.limit.getD c.page.size, number := a.page.getD c.page.number } })

variable {files : FileSystem} {path : String} {a : Arguments}

/-- What is loaded is the document. -/
theorem documentAt_loadCriteria (files : FileSystem) (path : String) :
    DocumentAt files path (loadCriteria files path) := by
  unfold loadCriteria
  cases hfile : files path with
  | error reason => exact .unreadable hfile
  | ok text =>
    -- the file can be read, and the answer is up to its text
    simp only
    cases hdecode : Json.decode Criteria.decoder text with
    | ok c => exact .read hfile hdecode
    | error problem =>
      cases problem with
      | malformed => exact .malformed hfile hdecode
      | mismatch m => exact .mismatch hfile hdecode

theorem DocumentAt.loadCriteria_eq {document : Except Failure Criteria}
    (h : DocumentAt files path document) : loadCriteria files path = document := by
  unfold loadCriteria
  cases h with
  | unreadable hfile => rw [hfile]
  | malformed hfile hdecode | mismatch hfile hdecode | read hfile hdecode =>
    rw [hfile]
    simp only
    rw [hdecode]

/-- The lines are read before the sort expression and the page, and a size and a number are parts
that the page is read from. -/
theorem criteriaOf_eq_of_lines (hcriteria : a.criteria = none) :
    criteriaOf files a a.lines =
      (Criteria.ofText a.lines (a.sort.getD "") (Page.partsOf a.limit a.page)).mapError
        .refused := by
  unfold criteriaOf Criteria.ofText
  rw [hcriteria, Page.ofParts_partsOf]
  -- both read the lines first and then the sort expression, and stop at the same error
  cases Filter.ofLines a.lines with
  | error e => rfl
  | ok filters =>
    cases SortKey.ofExpression (a.sort.getD "") with
    | error e => rfl
    | ok sorts => rfl

/-- A document is loaded before the sort expression is read, and the lines are not looked at. -/
theorem criteriaOf_eq_of_document (hcriteria : a.criteria = some path) :
    criteriaOf files a a.lines = do
      let c ← loadCriteria files path
      let sorts ← (SortKey.ofExpression (a.sort.getD "")).mapError .refused
      return extend c sorts a.limit a.page := by
  unfold criteriaOf
  rw [hcriteria]

/-- **The criteria are those that are asked for.** -/
theorem Asked.criteriaOf_eq {asked : Except Failure Criteria} (h : Asked files a asked) :
    criteriaOf files a a.lines = asked := by
  cases h with
  | lines hcriteria => exact criteriaOf_eq_of_lines hcriteria
  -- the document comes before the sort expression, so its failure hides that of the other
  | noDocument hcriteria hdocument =>
    rw [criteriaOf_eq_of_document hcriteria, hdocument.loadCriteria_eq]
    rfl
  | badSort hcriteria hdocument hsort | document hcriteria hdocument hsort =>
    rw [criteriaOf_eq_of_document hcriteria, hdocument.loadCriteria_eq, hsort]
    rfl

/-- Some criteria are always asked for, or something is wrong with them. -/
theorem exists_asked (files : FileSystem) (a : Arguments) : ∃ asked, Asked files a asked := by
  cases hcriteria : a.criteria with
  | none => exact ⟨_, .lines hcriteria⟩
  | some path =>
    have hdocument := documentAt_loadCriteria files path
    cases hload : loadCriteria files path with
    | error failure => exact ⟨_, .noDocument hcriteria (hload ▸ hdocument)⟩
    | ok c =>
      cases hsort : SortKey.ofExpression (a.sort.getD "") with
      | error e => exact ⟨_, .badSort hcriteria (hload ▸ hdocument) hsort⟩
      | ok sorts => exact ⟨_, .document hcriteria (hload ▸ hdocument) hsort⟩

/-! ## What is printed -/

/-- The line of an argument has its number, counted from the first. -/
theorem argumentLines_eq (first : Nat) (vs : List Value) :
    argumentLines first vs =
      vs.mapIdx fun i v => "  $".toList ++ decimal (first + i) ++ " = ".toList ++ v.text := by
  -- every line counts on from the one before, so the first number is left open
  induction vs generalizing first with
  | nil => rfl
  | cons v vs ih =>
    rw [argumentLines, ih, List.mapIdx_cons]
    simp [placeholder, Nat.add_assoc, Nat.add_comm 1]

/-- The lines show the query in the format: as text, with a line for each argument in order, or as
JSON that denotes the query and nothing else. -/
def Listing.Shows (lines : Listing) (q : Query) : Format → Prop
  | .text =>
    lines = ["Generated SQL:".toList,
      "  ".toList ++ if q.sql = "" then "(empty)".toList else q.sql.toList] ++
      if q.arguments = [] then []
      else [[], "Arguments:".toList] ++ q.arguments.mapIdx fun i v =>
        "  $".toList ++ decimal (i + 1) ++ " = ".toList ++ v.text
  | .json => ∀ j, Json.Denotes lines.text j ↔ j = .object
      [("sql", .string q.sql), ("args", .array (q.arguments.map fun v => v.json.finite))]

theorem queryListing_eq (q : Query) :
    queryListing q = ["Generated SQL:".toList,
      "  ".toList ++ if q.sql = "" then "(empty)".toList else q.sql.toList] ++
      if q.arguments = [] then []
      else [[], "Arguments:".toList] ++ q.arguments.mapIdx fun i v =>
        "  $".toList ++ decimal (i + 1) ++ " = ".toList ++ v.text := by
  unfold queryListing
  rw [argumentLines_eq]
  simp only [String.isEmpty_iff, List.isEmpty_iff, Nat.add_comm 1]
  rfl

theorem finite_json (q : Query) :
    q.json.finite = .object
      [("sql", .string q.sql), ("args", .array (q.arguments.map fun v => v.json.finite))] := by
  unfold Query.json
  simp only [Json.finite, Json.finiteMembers, Json.finiteItems_eq, List.map_map]
  rfl

/-- The JSON text denotes the query and nothing else. -/
theorem denotes_queryDocument_iff (q : Query) (j : Json) :
    Json.Denotes (queryDocument q).text j ↔ j = .object
      [("sql", .string q.sql), ("args", .array (q.arguments.map fun v => v.json.finite))] := by
  have htext : (queryDocument q).text = q.json.pretty 0 ++ ['\n'] := by
    simp [queryDocument, Listing.text]
  -- the line break at the end is spacing
  rw [htext, Json.denotes_pretty_iff q.json (List.forall_mem_singleton.mpr rfl), finite_json]

theorem shows_printQuery (format : Option Format) (q : Query) :
    (printQuery format q).Shows q (format.getD .text) := by
  unfold printQuery Listing.Shows
  cases format.getD .text with
  | text => exact queryListing_eq q
  | json => exact denotes_queryDocument_iff q

/-! ## The run -/

/-- The run ends early with the failure, and prints nothing. -/
structure Outcome.EndsWith (o : Outcome) (failure : Failure) : Prop where
  printed : o.printed.text = []
  failure : o.failure = some failure
  exitCode : o.exitCode = 1

/-- The run prints the query in the format. -/
structure Outcome.Answers (o : Outcome) (q : Query) (format : Format) : Prop where
  shows : o.printed.Shows q format
  failure : o.failure = none
  exitCode : o.exitCode = 0

theorem endsWith_ofExcept (failure : Failure) :
    (Outcome.ofExcept (.error failure)).EndsWith failure where
  printed := rfl
  failure := rfl
  exitCode := rfl

theorem answers_ofExcept (format : Option Format) (q : Query) :
    (Outcome.ofExcept (.ok (printQuery format q))).Answers q (format.getD .text) where
  shows := shows_printQuery format q
  failure := rfl
  exitCode := rfl

/-- With something to do, the banner is not what is printed. -/
theorem isIdle_eq_false {a : Arguments}
    (hgiven : a.criteria ≠ none ∨ a.lines ≠ [] ∨ a.sort.getD "" ≠ "") :
    (a.lines.isEmpty && a.criteria.isNone && (a.sort.getD "").isEmpty) = false := by
  refine Bool.eq_false_iff.mpr fun hall => ?_
  simp only [Bool.and_eq_true, List.isEmpty_iff, Option.isNone_iff_eq_none,
    String.isEmpty_iff] at hall
  -- the banner wants all three to be missing
  rcases hgiven with h | h | h
  · exact h hall.1.2
  · exact h hall.1.1
  · exact h hall.2

/-- With something to do, the run prints the query of the criteria. -/
theorem outcome_eq {env : Environment} {arguments : List String} {a : Arguments}
    (hrequest : Request.ofArguments arguments env.maxPageSize = .run a)
    (hcommand : a.command = .compile)
    (hgiven : a.criteria ≠ none ∨ a.lines ≠ [] ∨ a.sort.getD "" ≠ "") :
    outcome env arguments = some (.ofExcept do
      let c ← criteriaOf env.files a a.lines
      let settings ← (Settings.load env.files env.userDirectory a.settings).mapError .settings
      let q ← (Query.ofCriteria (a.maxPageSize.getD settings.maxPageSize) c).mapError .refused
      return printQuery a.format q) := by
  unfold outcome
  rw [hrequest]
  simp only
  unfold run
  rw [hcommand]
  simp only
  unfold compile
  rw [isIdle_eq_false hgiven, if_neg Bool.false_ne_true]
  unfold queryOf maxPageSizeOf
  -- the program stops where the chain of binds does
  cases criteriaOf env.files a a.lines with
  | error failure => rfl
  | ok c =>
    cases Settings.load env.files env.userDirectory a.settings with
    | error e => rfl
    | ok settings => rfl

/-- **The program answers what the library answers.** The criteria that are asked for come first,
then the settings, then the query, and the first of them that goes wrong ends the run. -/
theorem outcome_compile {env : Environment} {arguments : List String} {a : Arguments}
    (hrequest : Request.ofArguments arguments env.maxPageSize = .run a)
    (hcommand : a.command = .compile)
    (hgiven : a.criteria ≠ none ∨ a.lines ≠ [] ∨ a.sort.getD "" ≠ "") :
    ∃ o, outcome env arguments = some o ∧
      (∃ asked, Asked env.files a asked) ∧
      (∀ failure, Asked env.files a (.error failure) → o.EndsWith failure) ∧
      ∀ c, Asked env.files a (.ok c) →
        (∀ e, Settings.load env.files env.userDirectory a.settings = .error e →
          o.EndsWith (.settings e)) ∧
        ∀ settings, Settings.load env.files env.userDirectory a.settings = .ok settings →
          (∀ e, Query.ofCriteria (a.maxPageSize.getD settings.maxPageSize) c = .error e →
            o.EndsWith (.refused e)) ∧
          ∀ q, Query.ofCriteria (a.maxPageSize.getD settings.maxPageSize) c = .ok q →
            o.Answers q (a.format.getD .text) := by
  -- the outcome is that of one chain of binds, which is followed from the criteria on
  refine ⟨_, outcome_eq hrequest hcommand hgiven, exists_asked env.files a, ?_, ?_⟩
  · intro failure hasked
    rw [hasked.criteriaOf_eq]
    exact endsWith_ofExcept failure
  intro c hasked
  rw [hasked.criteriaOf_eq]
  refine ⟨?_, ?_⟩
  · intro e he
    rw [he]
    exact endsWith_ofExcept (.settings e)
  intro settings hsettings
  rw [hsettings]
  -- the criteria are there, and the settings come next
  refine ⟨?_, ?_⟩
  · intro e he
    show Outcome.EndsWith (.ofExcept ((Query.ofCriteria _ c).mapError Failure.refused >>= _)) _
    rw [he]
    exact endsWith_ofExcept (.refused e)
  · intro q hq
    show Outcome.Answers (.ofExcept ((Query.ofCriteria _ c).mapError Failure.refused >>= _)) _ _
    rw [hq]
    exact answers_ofExcept a.format q

/-- Two runs in one directory. One has filter lines, a sort expression and a limit. The other has a
document with a sort key and a page of its own, and a line that is never looked at. -/
theorem outcome_compile_of_lines_of_document :
    let document :=
      "\x7b\"filters\": [\x7b\"field\": \"a\", \"operator\": \">=\", \"value\": 2\x7d], " ++
      "\"sorts\": [\x7b\"field\": \"y\"\x7d], " ++
      "\"pagination\": \x7b\"page_size\": 9, \"page_number\": 3\x7d\x7d"
    let env : Environment :=
      { files := fun path => if path = "c.json" then .ok document else .error .notFound
        userDirectory := none, maxPageSize := some "20" }
    (∃ o, outcome env ["@a = [1] AND", "@b IN [1.5, 2]", "--sort=x-", "-l5", "--format", "json"] =
        some o ∧ o.exitCode = 0 ∧
      ∀ j, Json.Denotes o.printed.text j ↔ j = .object
        [("sql", .string "WHERE a = $1 AND b IN ($2, $3) ORDER BY x DESC LIMIT 5 OFFSET 0"),
          ("args", .array [.string "1", .number (.float (.ofBits 0x3FF8000000000000)),
            .number (.float (.ofBits 0x4000000000000000))])]) ∧
    ∃ o, outcome env ["--criteria=c.json", "@", "--sort=x-", "-l5"] = some o ∧ o.exitCode = 0 ∧
      o.printed = ["Generated SQL:".toList,
        "  WHERE a >= $1 ORDER BY y, x DESC LIMIT 5 OFFSET 10".toList, [], "Arguments:".toList,
        "  $1 = 2".toList] := by
  intro document env
  constructor
  · let arguments := ["@a = [1] AND", "@b IN [1.5, 2]", "--sort=x-", "-l5", "--format", "json"]
    let a : Arguments :=
      { lines := ["@a = [1] AND", "@b IN [1.5, 2]"], sort := some "x-", limit := some 5,
        maxPageSize := some 20, format := some .json }
    let c : Criteria :=
      { filters :=
          [{ field := "a", operator := .equal, value := .string "1", key := some .and },
            { field := "b", operator := .isIn,
              value := .list (.floats [.ofBits 0x3FF8000000000000, .ofBits 0x4000000000000000]) }],
        sorts := [{ field := "x", direction := some .desc }], page := { size := 5 } }
    let q : Query :=
      { sql := "WHERE a = $1 AND b IN ($2, $3) ORDER BY x DESC LIMIT 5 OFFSET 0",
        arguments := [.string "1", .float (.ofBits 0x3FF8000000000000),
          .float (.ofBits 0x4000000000000000)] }
    have hrequest : Request.ofArguments arguments env.maxPageSize = .run a := by decide +kernel
    have hcriteria : (Criteria.ofText a.lines (a.sort.getD "")
        (Page.partsOf a.limit a.page)).mapError Failure.refused = .ok c := by decide +kernel
    have hasked : Asked env.files a (.ok c) := hcriteria ▸ .lines rfl
    have hquery : Query.ofCriteria 20 c = .ok q := by decide +kernel
    have hgiven : a.lines ≠ [] := List.cons_ne_nil _ _
    obtain ⟨o, ho, -, -, hrun⟩ := outcome_compile hrequest rfl (.inr (.inl hgiven))
    have hanswers := ((hrun c hasked).2 {} rfl).2 q hquery
    exact ⟨o, ho, hanswers.exitCode, hanswers.shows⟩
  · let arguments := ["--criteria=c.json", "@", "--sort=x-", "-l5"]
    let a : Arguments :=
      { lines := ["@"], criteria := some "c.json", sort := some "x-", limit := some 5,
        maxPageSize := some 20 }
    let c : Criteria :=
      { filters := [{ field := "a", operator := .greaterOrEqual, value := .int 2 }],
        sorts := [{ field := "y" }], page := { size := 9, number := 3 } }
    let c' : Criteria :=
      { c with
        sorts := [{ field := "y" }, { field := "x", direction := some .desc }]
        page := { size := 5, number := 3 } }
    let q : Query :=
      { sql := "WHERE a >= $1 ORDER BY y, x DESC LIMIT 5 OFFSET 10", arguments := [.int 2] }
    have hrequest : Request.ofArguments arguments env.maxPageSize = .run a := by decide +kernel
    have hdecode : Json.decode Criteria.decoder document = .ok c := by decide +kernel
    have hsort : SortKey.ofExpression "x-" = .ok [{ field := "x", direction := some .desc }] := by
      decide +kernel
    have hasked : Asked env.files a (.ok c') := .document rfl (.read rfl hdecode) hsort
    have hquery : Query.ofCriteria 20 c' = .ok q := by decide +kernel
    obtain ⟨o, ho, -, -, hrun⟩ := outcome_compile hrequest rfl (.inl nofun)
    have hanswers := ((hrun c' hasked).2 {} rfl).2 q hquery
    exact ⟨o, ho, hanswers.exitCode, hanswers.shows.trans (by decide +kernel)⟩

end CommandLine

end FilterQuery
