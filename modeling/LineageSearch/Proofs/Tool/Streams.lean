import LineageSearch.Proofs.Query.Lossless
import LineageSearch.Proofs.Text.ByteLines
import LineageSearch.Proofs.Tool.Reports
import LineageSearch.Tool.Run

/-!
# A stream of queries

Without words on its command line the tool searches for every line of its input.  All of these
searches share one environment, and yet each line is answered as if it stood alone
(`Tool.search_stream`):

| a line that            | prints                                           |
|------------------------|--------------------------------------------------|
| is no text             | nothing, and the run fails at it                 |
| is blank               | nothing                                          |
| is anything else       | one report of a search for that line alone       |

What a report says is said by reading it (`Tells`): the printed text is one object, and it gives
back the result of the search and the environment that the search left.  Words on the command line
are one more query: the run prints what it would print if their line were its input.

## Strategy

The environment is reset before each search, so an answer does not depend on what earlier searches
left (`answer_fst`).  That is the step; a run over many lines follows by induction on the lines, for
every environment (`answerLines_eq`).  Only blank texts are refused, and blank lines are skipped
before that, so skipping a line and refusing it print the same.

Lines are cut from bytes, and the cut is followed in the same way: one line in front of any stream
prints what it prints alone (`streamOutcome_line_append`), and so do many, one behind the other
(`streamOutcome_lines_append`).
-/

namespace LineageSearch

open Text

namespace Tool

/-! ## One query -/

/-- What a search for a query prints that stands alone: a report, or nothing if it is refused. -/
def printedAlone (engine : Engine) (query : Text) : Text :=
  match engine.search query with
  | .ok (found, left) => (report found left).pretty ++ ['\n']
  | .error _ => []

/-- What is printed for a query does not depend on what earlier searches left. -/
theorem answer_fst (engine : Engine) (env : Environment) (query : Text) :
    (answer engine env query).1 = printedAlone engine query := by
  have hreset : env.reset = .fresh := rfl
  rw [answer, printedAlone, Engine.search, hreset]
  rcases engine.searchIn query .fresh with ⟨_ | _, _⟩ <;> rfl

/-- Only blank queries are refused. -/
theorem search_eq_error_iff {engine : Engine} {query : Text} :
    engine.search query = .error .emptyQuery ↔ isBlankText query = true := by
  rw [← engine.grammar.expression?_eq_none_iff]
  unfold Engine.search Engine.searchIn
  cases engine.grammar.expression? query with
  | none => simp
  | some expression => simp

theorem printedAlone_of_blank (engine : Engine) {query : Text} (h : isBlankText query = true) :
    printedAlone engine query = [] := by
  rw [printedAlone, search_eq_error_iff.mpr h]

theorem exists_printedAlone (engine : Engine) {query : Text} (h : isBlankText query = false) :
    ∃ found left, engine.search query = .ok (found, left) ∧
      printedAlone engine query = (report found left).pretty ++ ['\n'] ∧
      Tells (printedAlone engine query) found left := by
  cases hsearch : engine.search query with
  | error reason =>
    cases reason with
    | emptyQuery =>
      rw [search_eq_error_iff.mp hsearch] at h
      cases h
  | ok answer =>
    obtain ⟨found, left⟩ := answer
    have hprinted : printedAlone engine query = (report found left).pretty ++ ['\n'] := by
      rw [printedAlone, hsearch]
    exact ⟨found, left, rfl, hprinted, hprinted ▸ tells_report found left⟩

/-! ## Many lines -/

/-- The texts of the lines in front of the first one that is no text. -/
def leadingTexts (lines : List (List UInt8)) : List Text :=
  (lines.takeWhile fun line => (ofUtf8? line).isSome).filterMap ofUtf8?

/-- What lines print one by one, until one is no text. -/
theorem answerLines_eq (engine : Engine) (env : Environment) (lines : List (List UInt8)) :
    answerLines engine env lines =
      { output := (leadingTexts lines).flatMap (printedAlone engine)
        complete := lines.all fun line => (ofUtf8? line).isSome } := by
  induction lines generalizing env with
  | nil => rfl
  | cons line rest ih =>
    rw [answerLines]
    cases hline : ofUtf8? line with
    | none => simp [leadingTexts, hline]
    | some text =>
      have hleading : leadingTexts (line :: rest) = text :: leadingTexts rest := by
        simp [leadingTexts, hline]
      rw [hleading, List.flatMap_cons, List.all_cons, hline]
      by_cases hblank : isBlankText text = true
      · simp only [hblank, if_true, ih env, printedAlone_of_blank engine hblank]
        rfl
      · simp only [hblank, ih, answer_fst]
        rfl

/-- How a run over a stream ends: with what its lines print, and with a failure exactly if one of
them is no text. -/
def streamOutcome (engine : Engine) (input : List UInt8) : Outcome :=
  let lines := byteLines input
  let output := (leadingTexts lines).flatMap (printedAlone engine)
  if lines.all fun line => (ofUtf8? line).isSome then { output := output }
  else
    { code := 1
      output := output
      errors := (ToolError.graph "the input is not valid UTF-8".toList).message ++ ['\n'] }

theorem answerInput_eq_streamOutcome (engine : Engine) (input : List UInt8) :
    answerInput engine input = streamOutcome engine input := by
  unfold answerInput streamOutcome
  rw [answerLines_eq]

theorem streamOutcome_output (engine : Engine) (input : List UInt8) :
    (streamOutcome engine input).output =
      (leadingTexts (byteLines input)).flatMap (printedAlone engine) := by
  dsimp only [streamOutcome]
  split <;> rfl

theorem streamOutcome_code_ne_zero_iff {engine : Engine} {input : List UInt8} :
    (streamOutcome engine input).code ≠ 0 ↔ ∃ line ∈ byteLines input, ofUtf8? line = none := by
  dsimp only [streamOutcome]
  split
  · next hall =>
    simp only [List.all_eq_true, Option.isSome_iff_ne_none] at hall
    simpa using hall
  · next hsome =>
    simp only [List.all_eq_true, Option.isSome_iff_ne_none, not_forall, not_not] at hsome
    obtain ⟨line, hline, hnone⟩ := hsome
    exact iff_of_true Nat.one_ne_zero ⟨line, hline, hnone⟩

/-- A text without line feeds is one query. -/
theorem streamOutcome_toUtf8 (engine : Engine) {query : Text} (h : '\n' ∉ query) :
    streamOutcome engine query.toUtf8 = { output := printedAlone engine query } := by
  by_cases hempty : query = []
  · subst hempty
    rw [printedAlone_of_blank engine isBlankText_nil]
    rfl
  · simp [streamOutcome, byteLines_toUtf8 hempty h, leadingTexts, ofUtf8?_toUtf8]

/-- A line in front of a stream prints what it prints alone, in front of what the stream prints. -/
theorem streamOutcome_line_append (engine : Engine) {query ending : Text} (h : IsLine query ending)
    (rest : List UInt8) :
    streamOutcome engine ((query ++ ending).toUtf8 ++ rest) =
      { streamOutcome engine rest with
        output := printedAlone engine query ++ (streamOutcome engine rest).output } := by
  have hleading : leadingTexts (query.toUtf8 :: byteLines rest) =
      query :: leadingTexts (byteLines rest) := by
    simp [leadingTexts, ofUtf8?_toUtf8]
  rw [streamOutcome_output]
  dsimp only [streamOutcome]
  rw [byteLines_line_append h, hleading, List.flatMap_cons, List.all_cons, ofUtf8?_toUtf8,
    Option.isSome_some, Bool.true_and]
  split <;> rfl

/-- Lines in front of a stream print what they print alone, one behind the other. -/
theorem streamOutcome_lines_append (engine : Engine) {lines : List (Text × Text)}
    (h : ∀ line ∈ lines, IsLine line.1 line.2) (rest : List UInt8) :
    streamOutcome engine (toUtf8 (lines.flatMap fun line => line.1 ++ line.2) ++ rest) =
      { streamOutcome engine rest with
        output :=
          lines.flatMap (printedAlone engine ·.1) ++ (streamOutcome engine rest).output } := by
  induction lines with
  | nil => rfl
  | cons line others ih =>
    have hothers := ih fun other hother => h other (List.mem_cons_of_mem _ hother)
    rw [List.flatMap_cons, toUtf8_append, List.append_assoc,
      streamOutcome_line_append engine (h line (List.mem_cons_self ..)), hothers,
      List.flatMap_cons, List.append_assoc]

/-! ## Runs -/

variable {m : Type → Type} [Monad m]

/-- Loading does not touch the input, nor the words. -/
theorem loadEngine_eq (host : Host m) (input : m (List UInt8)) (environ : List (Text × Text))
    (arguments : Arguments) (words : List Text) :
    loadEngine { host with inputBytes := input } environ { arguments with words := words } =
      loadEngine host environ arguments := rfl

/-- Words without line feeds make up a line. -/
theorem lineFeed_notMem_unwords {words : List Text} (h : ∀ w ∈ words, '\n' ∉ w) :
    '\n' ∉ unwords words := by
  induction words with
  | nil => simp [unwords, joinWith]
  | cons w rest ih =>
    have hw := h w (List.mem_cons_self ..)
    have hrest := ih fun other hother => h other (List.mem_cons_of_mem _ hother)
    cases rest with
    | nil => exact hw
    | cons next others =>
      rw [unwords, joinWith, List.mem_append, List.mem_append]
      · rintro ((hmem | hmem) | hmem)
        · exact hw hmem
        · exact absurd hmem (by decide)
        · exact hrest hmem
      · simp

/-- **A stream of queries is answered line by line**, each line as if it stood alone, up to the
first line that is no text.  Blank lines print nothing.  Any other line prints one report, and
whoever reads that gets the result of the search and its environment.  So lines in front of a stream
print what they print alone, however they are ended, and a last line needs no ending.  A run with
words prints what it prints without words for the line that these make up. -/
theorem search_stream [LawfulMonad m] (host : Host m) (environ : List (Text × Text))
    (arguments : Arguments) :
    (arguments.words = [] →
      search host environ arguments = do
        match ← loadEngine host environ arguments with
        | .error reason => return { code := 1, errors := reason.message ++ ['\n'] }
        | .ok engine => return streamOutcome engine (← host.inputBytes)) ∧
    (∀ engine line, isBlankText line = true → printedAlone engine line = []) ∧
    (∀ engine line, isBlankText line = false →
      ∃ found left, engine.search line = .ok (found, left) ∧
        printedAlone engine line = (report found left).pretty ++ ['\n'] ∧
        Tells (printedAlone engine line) found left) ∧
    (∀ engine input, (streamOutcome engine input).code ≠ 0 ↔
      ∃ line ∈ byteLines input, ofUtf8? line = none) ∧
    (∀ engine (lines : List (Text × Text)), (∀ line ∈ lines, IsLine line.1 line.2) → ∀ rest,
      streamOutcome engine (toUtf8 (lines.flatMap fun line => line.1 ++ line.2) ++ rest) =
        { streamOutcome engine rest with
          output := lines.flatMap (printedAlone engine ·.1) ++
            (streamOutcome engine rest).output }) ∧
    (∀ engine (last : Text), '\n' ∉ last →
      streamOutcome engine last.toUtf8 = { output := printedAlone engine last }) ∧
    (arguments.words ≠ [] → (∀ w ∈ arguments.words, '\n' ∉ w) →
      search host environ arguments =
        search { host with inputBytes := pure (unwords arguments.words).toUtf8 } environ
          { arguments with words := [] }) := by
  refine ⟨?_, fun engine _ => printedAlone_of_blank engine,
    fun engine _ => exists_printedAlone engine, fun _ _ => streamOutcome_code_ne_zero_iff,
    fun engine _ => streamOutcome_lines_append engine, fun engine _ => streamOutcome_toUtf8 engine,
    ?_⟩
  · intro hwords
    unfold search
    refine congrArg _ (funext fun loaded => ?_)
    cases loaded with
    | error reason => rfl
    | ok engine =>
      simp only [Arguments.query?, hwords, List.isEmpty_nil, if_true, answerInput_eq_streamOutcome]
  · intro hwords hlines
    have hquery : arguments.query? = some (unwords arguments.words) :=
      if_neg (by simpa using hwords)
    unfold search
    rw [loadEngine_eq]
    refine congrArg _ (funext fun loaded => ?_)
    cases loaded with
    | error reason => rfl
    | ok engine =>
      have hline := streamOutcome_toUtf8 engine (lineFeed_notMem_unwords hlines)
      rw [hquery]
      simp only [Arguments.query?, List.isEmpty_nil, if_true, pure_bind,
        answerInput_eq_streamOutcome, hline, answer_fst]

/-- A query, a blank line, and another query, with their endings. -/
def streamLines : List (Text × Text) :=
  [("credit alice".toList, "\r\n".toList), ([], "\n".toList),
    ("babies 2019".toList, "\n".toList)]

/-- A host with one file, an export of one panda.  Behind the lines of its input stands one that is
no text. -/
def streamHost : Host Id where
  fileBytes path :=
    if path = "den.json".toList then
      some (toUtf8 ("\x7b\"pandas\": [\x7b\"id\": 7, \"birthday\": \"2019-06-20\", " ++
        "\"photos\": [\x7b\"url\": \"u\", \"author\": \"Alice\"\x7d]\x7d]\x7d").toList)
    else none
  inputBytes := toUtf8 (streamLines.flatMap fun line => line.1 ++ line.2) ++ [255, 10]

/-- What is printed for the photos of Alice. -/
def reportOfAlice : Text :=
  ["\x7b",
    "  \"query\": \"credit alice\",",
    "  \"parsed\": \"typeExpression\",",
    "  \"hits\": [",
    "    \x7b",
    "      \"photo\": \x7b",
    "        \"owner\": \x7b",
    "          \"kind\": \"panda\",",
    "          \"id\": 7",
    "        \x7d,",
    "        \"index\": 0",
    "      \x7d",
    "    \x7d",
    "  ],",
    "  \"keyword\": \"credit\",",
    "  \"resolved\": \"credit\",",
    "  \"environment\": \x7b",
    "    \"output\": \"photos\",",
    "    \"credit\": \"alice\",",
    "    \"preserve_case\": true,",
    "    \"specific\": null,",
    "    \"terms\": [",
    "      \"credit\",",
    "      \"alice\"",
    "    ]",
    "  \x7d",
    "\x7d"].flatMap fun line => line.toList ++ ['\n']

/-- The queries are answered one behind the other, and the first report tells of the photo that was
found and of the notes of its own search. -/
theorem search_stream_credit_alice :
    let arguments : Arguments := { graph := some "den.json".toList }
    let found : SearchResult :=
      { query := "credit alice".toList, parsed := .typeExpression, hits := [.photo (.panda 7) 0],
        keyword := some "credit".toList, resolved := some .credit }
    let left : Environment :=
      { output := .photos, credit := some "alice".toList, preserveCase := true,
        terms := ["credit".toList, "alice".toList] }
    ∃ engine, loadEngine streamHost [] arguments = .ok engine ∧
      search streamHost [] arguments = streamOutcome engine streamHost.inputBytes ∧
      (streamOutcome engine streamHost.inputBytes).code ≠ 0 ∧
      (streamOutcome engine streamHost.inputBytes).output =
        reportOfAlice ++ printedAlone engine "babies 2019".toList ∧
      engine.search "credit alice".toList = .ok (found, left) ∧
      printedAlone engine "credit alice".toList = reportOfAlice ∧
      Tells reportOfAlice found left ∧
      search streamHost [] { arguments with words := ["credit".toList, "alice".toList] } =
        search { streamHost with inputBytes := pure (toUtf8 "credit alice".toList) } []
          arguments := by
  intro arguments found left
  have hrun : (loadEngine streamHost [] arguments).toOption.map
      (fun engine => ((engine.search "credit alice".toList).toOption,
        printedAlone engine "credit alice".toList)) = some (some (found, left), reportOfAlice) := by
    decide +kernel
  cases hengine : loadEngine streamHost [] arguments with
  | error reason =>
    rw [hengine] at hrun
    cases hrun
  | ok engine =>
    rw [hengine] at hrun
    obtain ⟨hsearch, hprinted⟩ := Prod.mk.inj (Option.some_inj.mp hrun)
    obtain ⟨hstream, hblank, hreport, hcode, hlines, -, -⟩ := search_stream streamHost [] arguments
    obtain ⟨-, -, -, -, -, -, hwords⟩ := search_stream streamHost []
      { arguments with words := ["credit".toList, "alice".toList] }
    obtain ⟨other, notes, hfound, -, htells⟩ := hreport engine "credit alice".toList (by decide)
    rw [hfound] at hsearch
    obtain ⟨rfl, rfl⟩ := Prod.mk.inj (Option.some_inj.mp hsearch)
    refine ⟨engine, rfl, ?_, ?_, ?_, hfound, hprinted, hprinted ▸ htells,
      hwords (by simp) (by decide)⟩
    · rw [hstream rfl, hengine]
      rfl
    · rw [hcode]
      decide +kernel
    · have hend : (streamOutcome engine [255, 10]).output = [] := by
        have hnone : leadingTexts (byteLines [255, 10]) = [] := by decide +kernel
        rw [streamOutcome_output, hnone, List.flatMap_nil]
      have hskipped : printedAlone engine [] = [] := hblank engine [] rfl
      calc (streamOutcome engine streamHost.inputBytes).output
          = streamLines.flatMap (printedAlone engine ·.1) ++
              (streamOutcome engine [255, 10]).output :=
            congrArg Outcome.output (hlines engine streamLines (by decide +kernel) [255, 10])
        _ = reportOfAlice ++ printedAlone engine "babies 2019".toList := by
            simp only [streamLines, hend, List.append_nil, List.flatMap_cons, List.flatMap_nil,
              hprinted, hskipped, List.nil_append]

end Tool

end LineageSearch
