import LineageSearch.Proofs.Query.Resolvers

/-!
# What a search notes

A search that is refused leaves the notes as they were.  Any other one adds its terms, which make up
its query, and writes the rest of the notes as its expression asks (`Environment.NotedBy`):

```text
             output     case of names   credit
credit       photos     kept            the subject
other type   entities   not kept        as before
tag          photos     as before       the subject
lone         as before  as before       as before
bare         as before  as before       the subject where photos are shown
```

The main statement is `searchIn_notes`.  It holds whatever a resolver answers, so neither the
records nor the casing of names play a part.

## Strategy

Each kind of note is one function on environments, and a lemma for each field says what it writes
there.  A search is two such notes at most, and the lemmas are put one behind the other: the notes
of the keyword come first, so the subject is noted under what the keyword wrote.
-/

namespace LineageSearch

open Text

/-! ## Single notes -/

namespace Environment

variable (env : Environment) (kind : Option TypeOperator) (text : Text)

@[simp] theorem terms_noteTag : (env.noteTag text).terms = env.terms ++ [text] := rfl

@[simp] theorem output_noteTag : (env.noteTag text).output = .photos := rfl

@[simp] theorem preserveCase_noteTag : (env.noteTag text).preserveCase = env.preserveCase := rfl

@[simp] theorem specific_noteTag : (env.noteTag text).specific = env.specific := rfl

@[simp] theorem terms_noteType : (env.noteType kind text).terms = env.terms ++ [text] := by
  unfold noteType
  split <;> rfl

@[simp] theorem credit_noteType : (env.noteType kind text).credit = env.credit := by
  unfold noteType
  split <;> rfl

@[simp] theorem specific_noteType : (env.noteType kind text).specific = env.specific := by
  unfold noteType
  split <;> rfl

theorem output_noteType :
    (env.noteType kind text).output = if kind = some .credit then .photos else .entities := by
  unfold noteType
  split <;> rfl

theorem preserveCase_noteType_eq_decide :
    (env.noteType kind text).preserveCase = decide (kind = some .credit) := by
  unfold noteType
  split <;> simp_all [noteTerm]

@[simp] theorem terms_noteSubject : (env.noteSubject text).terms = env.terms ++ [text] := by
  unfold noteSubject
  split <;> rfl

@[simp] theorem output_noteSubject : (env.noteSubject text).output = env.output := by
  unfold noteSubject
  split <;> rfl

@[simp] theorem preserveCase_noteSubject :
    (env.noteSubject text).preserveCase = env.preserveCase := by
  unfold noteSubject
  split <;> rfl

@[simp] theorem specific_noteSubject : (env.noteSubject text).specific = env.specific := by
  unfold noteSubject
  split <;> rfl

theorem credit_noteSubject :
    (env.noteSubject text).credit = if env.output = .photos then some text else env.credit := by
  unfold noteSubject
  split <;> rfl

end Environment

/-! ## The notes of a result -/

/-- How many terms an expression has: its keyword and its subject. -/
def Alternative.termCount : Alternative → Nat
  | zeroaryExpression => 1
  | typeExpression => 2
  | tagExpression => 2
  | subjectTerm => 1

/-- Whether a result is that of a subject behind a credit keyword. -/
def SearchResult.IsCredit (result : SearchResult) : Prop :=
  result.parsed = .typeExpression ∧ result.resolved = some .credit

instance (result : SearchResult) : Decidable result.IsCredit :=
  inferInstanceAs (Decidable (result.parsed = .typeExpression ∧ result.resolved = some .credit))

/-- Whether notes are those from before a search with what its result has them note.  The noted
terms are the keyword and the subject, as far as the expression has them. -/
structure Environment.NotedBy (before : Environment) (result : SearchResult) (noted : List Text)
    (after : Environment) : Prop where
  terms : after.terms = before.terms ++ noted
  count : noted.length = result.parsed.termCount
  query : unwords noted = result.query
  keyword : result.keyword = if result.parsed = .subjectTerm then none else noted.head?
  specific : after.specific = before.specific
  output : after.output =
    if result.parsed = .tagExpression ∨ result.IsCredit then .photos
    else if result.parsed = .typeExpression then .entities
    else before.output
  preserveCase : after.preserveCase =
    if result.IsCredit then true
    else if result.parsed = .typeExpression then false
    else before.preserveCase
  credit : after.credit =
    if result.parsed ≠ .zeroaryExpression ∧ after.output = .photos then noted.getLast?
    else before.credit

/-- Whether a search leaves notes as it should: those from before if it is refused, and otherwise
these with what its result has them note. -/
def Environment.Leads (before : Environment) :
    Except QueryError SearchResult × Environment → Prop
  | (.error _, after) => after = before
  | (.ok result, after) => ∃ noted, before.NotedBy result noted after

namespace Engine

variable (engine : Engine) (resolver : Resolver) (before : Environment) (keyword : Text)
  (reduced : DenotedSubject)

/-! ## One expression after the other -/

theorem notedBy_zeroaryResult :
    before.NotedBy (engine.zeroaryResultBy resolver keyword) [keyword]
      (before.noteTerm keyword) where
  terms := rfl
  count := rfl
  query := rfl
  keyword := rfl
  specific := rfl
  output := by simp [SearchResult.IsCredit, zeroaryResultBy, Environment.noteTerm]
  preserveCase := by simp [SearchResult.IsCredit, zeroaryResultBy, Environment.noteTerm]
  credit := by simp [zeroaryResultBy, Environment.noteTerm]

/-- The subject is noted where the keyword is noted already, so whether it is an author depends on
the keyword alone. -/
theorem notedBy_typeResult :
    before.NotedBy (engine.typeResultBy resolver keyword reduced) [keyword, reduced.subject.text]
      ((before.noteType (engine.registry.typeOperator? keyword) keyword).noteSubject
        reduced.subject.text) where
  terms := by simp
  count := rfl
  query := rfl
  keyword := rfl
  specific := by simp
  output := by
    simp [SearchResult.IsCredit, typeResultBy, Environment.output_noteType]
  preserveCase := by
    simp [SearchResult.IsCredit, typeResultBy, Environment.preserveCase_noteType_eq_decide]
  credit := by
    simp [typeResultBy, Environment.credit_noteSubject]

theorem notedBy_tagResult :
    before.NotedBy (engine.tagResultBy resolver keyword reduced) [keyword, reduced.subject.text]
      ((before.noteTag keyword).noteSubject reduced.subject.text) where
  terms := by simp
  count := rfl
  query := rfl
  keyword := rfl
  specific := by simp
  output := by simp [tagResultBy]
  preserveCase := by simp [SearchResult.IsCredit, tagResultBy]
  credit := by simp [tagResultBy, Environment.credit_noteSubject]

theorem notedBy_bareResult :
    before.NotedBy (bareResultBy resolver reduced) [reduced.subject.text]
      (before.noteSubject reduced.subject.text) where
  terms := by simp
  count := rfl
  query := rfl
  keyword := rfl
  specific := by simp
  output := by simp [SearchResult.IsCredit, bareResultBy]
  preserveCase := by simp [SearchResult.IsCredit, bareResultBy]
  credit := by simp [bareResultBy, Environment.credit_noteSubject]

/-- The terms of an expression: its keyword, and its subject as it is read. -/
def termsOf (env : Environment) : Expression → List Text
  | .zeroary keyword => [keyword]
  | .typed keyword atom =>
    let typed := env.noteType (engine.registry.typeOperator? keyword) keyword
    [keyword, (resolver.denote atom typed).subject.text]
  | .tagged tag atom => [tag, (resolver.denote atom (env.noteTag tag)).subject.text]
  | .bare atom => [(resolver.denote atom env).subject.text]

/-- What an expression has noted, whatever its subject denotes. -/
theorem notedBy_reduceBy (expression : Expression) :
    before.NotedBy (engine.reduceBy resolver expression before).1
      (engine.termsOf resolver before expression)
      (engine.reduceBy resolver expression before).2 := by
  cases expression with
  | zeroary keyword => exact engine.notedBy_zeroaryResult resolver before keyword
  | typed keyword atom => exact engine.notedBy_typeResult resolver before keyword _
  | tagged tag atom => exact engine.notedBy_tagResult resolver before tag _
  | bare atom => exact notedBy_bareResult resolver before _

/-! ## A whole search -/

theorem searchInBy_leads (input : Text) :
    before.Leads (engine.searchInBy resolver input before) := by
  unfold searchInBy
  cases engine.grammar.expression? input with
  | none => exact Eq.refl before
  | some expression => exact ⟨_, engine.notedBy_reduceBy resolver before expression⟩

/-- **What one search does to the notes.**  A refused search changes nothing, and any other one
notes what its result says.  The second part says that this does not depend on the answers, and so
neither on the records nor on how names are cased. -/
theorem searchIn_notes (input : Text) :
    before.Leads (engine.searchIn input before) ∧
      ∀ resolver, before.Leads (engine.searchInBy resolver input before) := by
  refine ⟨?_, fun resolver => engine.searchInBy_leads resolver before input⟩
  rw [← searchInBy_resolver]
  exact engine.searchInBy_leads engine.resolver before input

end Engine

end LineageSearch
