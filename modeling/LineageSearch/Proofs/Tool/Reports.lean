import LineageSearch.Lineage.Document
import LineageSearch.Proofs.Json.ReadBack
import LineageSearch.Tool.Report

/-!
# Reports say what was found

A report is printed for whoever reads the output of the tool.  Such a reader knows the names of the
fields and what stands under each of them; here that is `reportOf?`, which is written from the form
of reports and not from `report`.  Reading a printed report gives one object, and from it the result
of the search and the environment that it left, with nothing lost (`tells_report`).

| under             | stands                                                            |
|-------------------|-------------------------------------------------------------------|
| `query`           | a text                                                            |
| `parsed`          | the name of an alternative                                        |
| `hits`            | a list of pandas and zoos by id, and of photos by owner and place |
| `keyword`         | a text, if the result has a keyword                               |
| `resolved`        | the name of a type operator, if the result was resolved           |
| `candidates`      | hits under `panda`, `zoo` and `credit`, if the search was bare    |
| `environment`     | the notes of the search, where `null` stands for nothing          |
-/

namespace LineageSearch

/-! ## Reading reports -/

/-- What a name stands for in a table. -/
def named? {α : Type} (table : List (String × α)) (name : Text) : Option α :=
  (table.find? fun entry => entry.1.toList == name).map Prod.snd

def Alternative.names : List (String × Alternative) :=
  [("zeroaryExpression", .zeroaryExpression), ("typeExpression", .typeExpression),
    ("tagExpression", .tagExpression), ("subjectTerm", .subjectTerm)]

def TypeOperator.names : List (String × TypeOperator) :=
  [("baby", .baby), ("credit", .credit), ("dead", .dead), ("panda", .panda), ("zoo", .zoo)]

def OutputMode.names : List (String × OutputMode) := [("entities", .entities), ("photos", .photos)]

namespace Json

def name? {α : Type} (table : List (String × α)) (document : Json) : Option α :=
  document.text?.bind (named? table)

def nat? : Json → Option Nat
  | number value => value.natural?
  | _ => none

def truth? : Json → Option Bool
  | bool value => some value
  | _ => none

/-- The values of an object under the names of a form. -/
def valuesOf? (form : List String) (document : Json) : Option (List (Option Json)) :=
  document.record? (form.map String.toList)

end Json

def Entity.ofJson? (document : Json) : Option Entity := do
  match ← document.valuesOf? ["kind", "id"] with
  | [kind, id] =>
    let entity ← (← kind).name? [("panda", Entity.panda), ("zoo", Entity.zoo)]
    return entity (← entityIdOfJson? (← id))
  | _ => none

def Hit.photoOfJson? (document : Json) : Option Hit := do
  match ← document.valuesOf? ["owner", "index"] with
  | [owner, index] => return .photo (← Entity.ofJson? (← owner)) (← (← index).nat?)
  | _ => none

/-- A hit is an object of one field. -/
def Hit.ofJson? : Json → Option Hit
  | .object [(some name, value)] => do
    let read ← named? [("panda", fun id => (entityIdOfJson? id).map Hit.panda),
      ("zoo", fun id => (entityIdOfJson? id).map Hit.zoo), ("photo", photoOfJson?)] name
    read value
  | _ => none

def Candidates.ofJson? (document : Json) : Option Candidates := do
  match ← document.valuesOf? ["panda", "zoo", "credit"] with
  | [panda, zoo, credit] =>
    return {
      panda := ← (← panda).listOf? Hit.ofJson?
      zoo := ← (← zoo).listOf? Hit.ofJson?
      credit := ← (← credit).listOf? Hit.ofJson? }
  | _ => none

def Environment.ofJson? (document : Json) : Option Environment := do
  match ← document.valuesOf? ["output", "credit", "preserve_case", "specific", "terms"] with
  | [output, credit, preserveCase, specific, terms] =>
    return {
      output := ← (← output).name? OutputMode.names
      credit := ← (← credit).optional? Json.text?
      preserveCase := ← (← preserveCase).truth?
      specific := ← (← specific).optional? entityIdOfJson?
      terms := ← (← terms).listOf? Json.text? }
  | _ => none

/-- The result and the environment that a report tells. -/
def reportOf? (document : Json) : Option (SearchResult × Environment) := do
  match ← document.valuesOf? ["query", "parsed", "hits", "keyword", "resolved", "candidates",
    "environment"] with
  | [query, parsed, hits, keyword, resolved, candidates, environment] =>
    let found : SearchResult := {
      query := ← (← query).text?
      parsed := ← (← parsed).name? Alternative.names
      hits := ← (← hits).listOf? Hit.ofJson?
      keyword := ← keyword.mapM Json.text?
      resolved := ← resolved.mapM (Json.name? TypeOperator.names)
      candidates := ← candidates.mapM Candidates.ofJson? }
    return (found, ← Environment.ofJson? (← environment))
  | _ => none

/-- The names of the fields of a report, in their order. -/
def reportNames (found : SearchResult) : List String :=
  ["query", "parsed", "hits"] ++ (if found.keyword.isSome then ["keyword"] else [])
    ++ (if found.resolved.isSome then ["resolved"] else [])
    ++ (if found.candidates.isSome then ["candidates"] else []) ++ ["environment"]

/-- Whether a text is one object, with the fields of a report in their order, and tells a result and
an environment. -/
def Tells (printed : Text) (found : SearchResult) (left : Environment) : Prop :=
  ∃ fields, Json.ofText? printed = some (.object fields) ∧
    fields.map Prod.fst = (reportNames found).map (some ·.toList) ∧
    reportOf? (.object fields) = some (found, left)

/-! ## What is written is read -/

section Values

variable {α : Type} {write : α → Json} {read : Json → Option α}

theorem listOf?_map (h : ∀ value, read (write value) = some value) (values : List α) :
    (Json.array (values.map write)).listOf? read = some values := by
  show (values.map write).mapM read = some values
  induction values with
  | nil => rfl
  | cons value values ih =>
    rw [List.map_cons, List.mapM_cons, h, ih]
    rfl

theorem optional?_getD (h : ∀ value, read (write value) = some value)
    (hnull : ∀ value, write value ≠ .null) (value : Option α) :
    ((value.map write).getD .null).optional? read = some value := by
  cases value with
  | none => rfl
  | some value =>
    show (write value).optional? read = some (some value)
    unfold Json.optional?
    split
    · next hwrite => exact absurd hwrite (hnull value)
    · rw [h, Option.map_some]

theorem mapM_map (h : ∀ value, read (write value) = some value) (value : Option α) :
    (value.map write).mapM read = some value := by
  cases value with
  | none => rfl
  | some value =>
    show (read (write value)).map some = some (some value)
    rw [h, Option.map_some]

end Values

theorem nat?_ofNat (n : Nat) : (Json.ofNat n).nat? = some n := by
  show some (Text.decimalValue (Text.ofNat n)) = some n
  rw [Text.decimalValue_ofNat]

theorem text?_ofText (text : Text) : (Json.ofText text).text? = some text := rfl

theorem entityIdOfJson?_toJson (id : EntityId) : entityIdOfJson? id.toJson = some id := by
  have hnatural : (JsonNumber.ofNat id.toNat).natural? = some id.toNat := nat?_ofNat id.toNat
  simp only [EntityId.toJson, Json.ofNat, entityIdOfJson?, hnatural, Option.bind_eq_bind,
    Option.bind_some, if_pos id.toNat_lt_size, UInt64.ofNat_toNat]

theorem Entity.ofJson?_toJson (owner : Entity) : ofJson? owner.toJson = some owner := by
  cases owner with
  | panda id =>
    show (entityIdOfJson? id.toJson).bind (fun read => some (Entity.panda read)) = some (.panda id)
    rw [entityIdOfJson?_toJson, Option.bind_some]
  | zoo id =>
    show (entityIdOfJson? id.toJson).bind (fun read => some (Entity.zoo read)) = some (.zoo id)
    rw [entityIdOfJson?_toJson, Option.bind_some]

theorem Hit.ofJson?_toJson (hit : Hit) : ofJson? hit.toJson = some hit := by
  cases hit with
  | panda id =>
    show (entityIdOfJson? id.toJson).map Hit.panda = some (.panda id)
    rw [entityIdOfJson?_toJson, Option.map_some]
  | zoo id =>
    show (entityIdOfJson? id.toJson).map Hit.zoo = some (.zoo id)
    rw [entityIdOfJson?_toJson, Option.map_some]
  | photo owner index =>
    show ((Entity.ofJson? owner.toJson).bind fun read =>
      (Json.ofNat index).nat?.bind fun place => some (Hit.photo read place)) =
        some (.photo owner index)
    rw [Entity.ofJson?_toJson, nat?_ofNat, Option.bind_some, Option.bind_some]

theorem listOf?_hitsToJson (hits : List Hit) : (hitsToJson hits).listOf? Hit.ofJson? = some hits :=
  listOf?_map Hit.ofJson?_toJson hits

theorem Alternative.name?_names (parsed : Alternative) :
    (Json.ofText parsed.rule.name).name? names = some parsed := by
  cases parsed <;> rfl

theorem TypeOperator.name?_names (kind : TypeOperator) :
    (Json.ofText kind.name).name? names = some kind := by
  cases kind <;> rfl

theorem OutputMode.name?_names (mode : OutputMode) :
    (Json.ofText mode.name).name? names = some mode := by
  cases mode <;> rfl

/-! ## Reports -/

/-- The candidates of a result as they are written. -/
def Candidates.toJson (candidates : Candidates) : Json :=
  .ofFields [("panda", hitsToJson candidates.panda), ("zoo", hitsToJson candidates.zoo),
    ("credit", hitsToJson candidates.credit)]

theorem Candidates.ofJson?_toJson (candidates : Candidates) :
    ofJson? candidates.toJson = some candidates := by
  have hvalues : candidates.toJson.valuesOf? ["panda", "zoo", "credit"] =
      some [some (hitsToJson candidates.panda), some (hitsToJson candidates.zoo),
        some (hitsToJson candidates.credit)] := rfl
  simp only [ofJson?, hvalues, Option.bind_eq_bind, Option.bind_some, listOf?_hitsToJson,
    Option.pure_def]

theorem Environment.ofJson?_toJson (env : Environment) : ofJson? env.toJson = some env := by
  have hvalues : env.toJson.valuesOf? ["output", "credit", "preserve_case", "specific", "terms"] =
      some [some (.ofText env.output.name), some ((env.credit.map Json.ofText).getD .null),
        some (.bool env.preserveCase), some ((env.specific.map EntityId.toJson).getD .null),
        some (.array (env.terms.map Json.ofText))] := rfl
  have hcredit := optional?_getD text?_ofText nofun env.credit
  have hspecific := optional?_getD entityIdOfJson?_toJson nofun env.specific
  have hterms := listOf?_map text?_ofText env.terms
  simp only [ofJson?, hvalues, Option.bind_eq_bind, Option.bind_some, OutputMode.name?_names,
    hcredit, Json.truth?, hspecific, hterms, Option.pure_def]

theorem valuesOf?_report (found : SearchResult) (left : Environment) :
    (report found left).valuesOf? ["query", "parsed", "hits", "keyword", "resolved", "candidates",
        "environment"] =
      some [some (.ofText found.query), some (.ofText found.parsed.rule.name),
        some (hitsToJson found.hits), found.keyword.map Json.ofText,
        found.resolved.map (Json.ofText ·.name), found.candidates.map Candidates.toJson,
        some left.toJson] := by
  obtain ⟨query, parsed, hits, _ | keyword, _ | resolved, _ | candidates⟩ := found <;> rfl

theorem reportOf?_report (found : SearchResult) (left : Environment) :
    reportOf? (report found left) = some (found, left) := by
  have hkeyword := mapM_map text?_ofText found.keyword
  have hresolved := mapM_map TypeOperator.name?_names found.resolved
  have hcandidates := mapM_map Candidates.ofJson?_toJson found.candidates
  simp only [reportOf?, valuesOf?_report, Option.bind_eq_bind, Option.bind_some, text?_ofText,
    Alternative.name?_names, listOf?_hitsToJson, hkeyword, hresolved, hcandidates,
    Environment.ofJson?_toJson, Option.pure_def]

/-- A report has a field for each part of the result that is there, and then the environment. -/
theorem exists_fields_report (found : SearchResult) (left : Environment) :
    ∃ fields, report found left = .object fields ∧
      fields.map Prod.fst = (reportNames found).map (some ·.toList) := by
  refine ⟨_, rfl, ?_⟩
  obtain ⟨query, parsed, hits, _ | keyword, _ | resolved, _ | candidates⟩ := found <;> rfl

/-! ## Reports are plain documents -/

theorem isPlain_ofFields {fields : List (String × Json)} (h : ∀ field ∈ fields, field.2.IsPlain) :
    (Json.ofFields fields).IsPlain := by
  refine .object (fun field hfield => ?_) fun field hfield => ?_
  · obtain ⟨_, -, rfl⟩ := List.mem_map.mp hfield
    rfl
  · obtain ⟨written, hwritten, rfl⟩ := List.mem_map.mp hfield
    exact h written hwritten

theorem isPlain_map {α : Type} {write : α → Json} (h : ∀ value, (write value).IsPlain)
    (values : List α) : (Json.array (values.map write)).IsPlain := by
  refine .array fun item hitem => ?_
  obtain ⟨value, -, rfl⟩ := List.mem_map.mp hitem
  exact h value

theorem isPlain_getD {α : Type} {write : α → Json} (h : ∀ value, (write value).IsPlain)
    (value : Option α) : ((value.map write).getD .null).IsPlain := by
  cases value with
  | none => exact .null
  | some value => exact h value

theorem isPlain_optionalField {α : Type} {write : α → Json} (h : ∀ value, (write value).IsPlain)
    (name : String) (value : Option α) :
    ∀ field ∈ optionalField name write value, field.2.IsPlain := by
  intro field hfield
  cases value with
  | none => cases hfield
  | some value =>
    obtain rfl := List.mem_singleton.mp hfield
    exact h value

theorem Entity.isPlain_toJson (owner : Entity) : owner.toJson.IsPlain := by
  cases owner with
  | panda id => exact isPlain_ofFields (by simpa using ⟨.text _, .natural _⟩)
  | zoo id => exact isPlain_ofFields (by simpa using ⟨.text _, .natural _⟩)

theorem Hit.isPlain_toJson (hit : Hit) : hit.toJson.IsPlain := by
  cases hit with
  | panda id => exact isPlain_ofFields (by simpa using .natural _)
  | zoo id => exact isPlain_ofFields (by simpa using .natural _)
  | photo owner index =>
    have hphoto : (Json.ofFields [("owner", owner.toJson), ("index", .ofNat index)]).IsPlain :=
      isPlain_ofFields (by simpa using ⟨owner.isPlain_toJson, .natural index⟩)
    exact isPlain_ofFields (by simpa using hphoto)

theorem isPlain_hitsToJson (hits : List Hit) : (hitsToJson hits).IsPlain :=
  isPlain_map Hit.isPlain_toJson hits

theorem Candidates.isPlain_toJson (candidates : Candidates) : candidates.toJson.IsPlain :=
  isPlain_ofFields (by simp [isPlain_hitsToJson])

theorem Environment.isPlain_toJson (env : Environment) : env.toJson.IsPlain := by
  refine isPlain_ofFields ?_
  simp only [List.forall_mem_cons, List.not_mem_nil, false_implies, implies_true, and_true]
  exact ⟨.text _, isPlain_getD .text _, .bool _, isPlain_getD (fun id => .natural _) _,
    isPlain_map .text _⟩

theorem isPlain_report (found : SearchResult) (left : Environment) :
    (report found left).IsPlain := by
  have hkeyword := isPlain_optionalField .text "keyword" found.keyword
  have hresolved := isPlain_optionalField (fun kind : TypeOperator => .text kind.name) "resolved"
    found.resolved
  have hcandidates := isPlain_optionalField Candidates.isPlain_toJson "candidates" found.candidates
  refine isPlain_ofFields fun field hfield => ?_
  simp only [SearchResult.fields, List.mem_append, List.mem_cons, List.not_mem_nil,
    or_false] at hfield
  rcases hfield with ((((rfl | rfl | rfl) | hfield) | hfield) | hfield) | rfl
  · exact .text _
  · exact .text _
  · exact isPlain_hitsToJson _
  · exact hkeyword field hfield
  · exact hresolved field hfield
  · exact hcandidates field hfield
  · exact left.isPlain_toJson

/-- **A printed report tells what was found**: it is one object with the fields of the result and
the environment, and whoever reads it gets both back. -/
theorem tells_report (found : SearchResult) (left : Environment) :
    Tells ((report found left).pretty ++ ['\n']) found left := by
  obtain ⟨fields, hobject, hnames⟩ := exists_fields_report found left
  refine ⟨fields, ?_, hnames, ?_⟩
  · rw [← hobject]
    exact Json.ofText?_pretty_line (isPlain_report found left)
  · rw [← hobject]
    exact reportOf?_report found left

end LineageSearch
