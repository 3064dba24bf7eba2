import LineageSearch.Proofs.Query.Readings
import LineageSearch.Proofs.Query.Scan
import LineageSearch.Proofs.Text.Respaced

/-!
# Subjects that are read once more

Whatever is read as an expression has a keyword and a subject without blanks at their ends
(`isRead_of_expression?`).  The subject is then put into its normal form, which is tight again
(`isTight_text_subjectOf`) and denotes what the subject denoted (`subjectOf_ofText_subjectOf`).

The normal form of a name could be taken for an id, which is looked up in another way.  It is not:
neither capitals nor blanks make a number of a name (`text_subjectOf_of_isDigits`).
-/

namespace LineageSearch

open Text

/-! ## Expressions as they are read -/

/-- Whether an expression is one that the grammar reads. -/
def Expression.IsRead : Expression → Prop
  | .zeroary keyword => IsTight keyword
  | .typed keyword subject => IsTight keyword ∧ subject.IsRead
  | .tagged tag subject => IsTight tag ∧ subject.IsRead
  | .bare subject => subject.IsRead

theorem Expression.Spells.isRead {expression : Expression} {text : Text} (htext : IsTight text)
    (h : expression.Spells text) : expression.IsRead := by
  cases expression with
  | zeroary keyword =>
    obtain rfl : keyword = text := h
    exact htext
  | typed keyword subject =>
    obtain ⟨hkeyword, hsubject, hkind, -⟩ := h
    exact ⟨hkeyword, hsubject, hkind⟩
  | tagged tag subject =>
    obtain ⟨htag, hsubject, hkind, -⟩ := h
    exact ⟨htag, hsubject, hkind⟩
  | bare subject =>
    obtain ⟨rfl, hkind⟩ := h
    exact ⟨htext, hkind⟩

namespace Grammar

variable {registry : Registry} {tags : Tags} {input : Text} {expression : Expression}

theorem spells_of_expression?
    (hread : (ofVocabulary registry tags).expression? input = some expression) :
    expression.Spells (trim input) := by
  obtain ⟨hblank, alternative, hsome⟩ := exists_readAs?_of_expression? hread
  exact spells_of_readAs? (isTight_trim hblank) hsome

theorem isRead_of_expression?
    (hread : (ofVocabulary registry tags).expression? input = some expression) :
    expression.IsRead :=
  (spells_of_expression? hread).isRead (isTight_trim (exists_readAs?_of_expression? hread).1)

end Grammar

/-! ## Normal forms of subjects -/

theorem Text.IsTight.words_ne_nil {t : Text} (h : IsTight t) : words t ≠ [] := by
  obtain ⟨⟨c, hhead, hc⟩, -⟩ := h
  exact Text.words_ne_nil (List.mem_of_head? hhead) hc

theorem Language.isTight_nameOf (language : Language) {t : Text} (h : IsTight t) :
    IsTight (language.nameOf t) := by
  cases language with
  | en =>
    refine isTight_unwords (by simpa using h.words_ne_nil) fun w hw => ?_
    obtain ⟨word, hword, rfl⟩ := List.mem_map.mp hw
    exact isWord_capitalizeWord (of_mem_words hword)
  | jp => exact isTight_unwords h.words_ne_nil fun w hw => of_mem_words hw

namespace Resolver

variable (resolver : Resolver) {language : Language} {atom : Atom}
  (hcasing : resolver.nameOf = language.capitalizeNames)

include hcasing

/-- Whatever the records are, the text of a subject is tight if its name is cased as in a
language. -/
theorem isTight_text_subjectOf (keep : Bool) (hatom : atom.IsRead) :
    IsTight (resolver.subjectOf keep atom).text := by
  cases atom with
  | id digits => exact hatom.1
  | name name =>
    cases keep with
    | false =>
      show IsTight (resolver.nameOf (words name))
      rw [hcasing]
      exact language.isTight_nameOf hatom.1
    | true => exact isTight_unwords hatom.1.words_ne_nil fun w hw => of_mem_words hw

theorem isTight_text_denote (hatom : atom.IsRead) (env : Environment) :
    IsTight (resolver.denote atom env).subject.text :=
  resolver.isTight_text_subjectOf hcasing env.preserveCase hatom

end Resolver

namespace Graph

variable (graph : Graph) (language : Language) (keep : Bool) {atom : Atom}

/-- A subject whose normal form is a number was that number as it was typed. -/
theorem text_subjectOf_of_isDigits (hatom : atom.IsRead)
    (h : isDigits (graph.subjectOf language keep atom).text = true) :
    (graph.subjectOf language keep atom).text = atom.text := by
  cases atom with
  | id digits => rfl
  | name name =>
    cases keep with
    | false => exact language.eq_of_isDigits_nameOf hatom.1 h
    | true =>
      -- a number is a single word, and a tight text of one word is that word
      have hnumber : isDigits (unwords (words name)) = true := h
      obtain ⟨hne, hdigits⟩ : unwords (words name) ≠ [] ∧
          ∀ c ∈ unwords (words name), c.isDigit = true := by
        simpa [isDigits] using hnumber
      have hword : words name = [unwords (words name)] := by
        calc words name
            = words (unwords (words name)) := (words_unwords fun w hw => of_mem_words hw).symm
          _ = [unwords (words name)] :=
            words_eq_singleton hne fun c hc => isBlank_of_isDigit (hdigits c hc)
      exact (hatom.1.eq_of_words hword).symm

/-- **A subject in its normal form denotes what it denoted before**, whether or not the case of
names is kept. -/
theorem subjectOf_ofText_subjectOf (hatom : atom.IsRead) :
    graph.subjectOf language keep (.ofText (graph.subjectOf language keep atom).text) =
      graph.subjectOf language keep atom := by
  cases atom with
  | id digits =>
    have hid : Atom.ofText digits = .id digits := hatom.2.eq_ofText.symm
    show graph.subjectOf language keep (.ofText digits) = _
    rw [hid]
  | name name =>
    have hname : Atom.ofText (graph.subjectOf language keep (.name name)).text =
        .name (graph.subjectOf language keep (.name name)).text := by
      refine if_neg fun hid => ?_
      have hdigits : isDigits (graph.subjectOf language keep (.name name)).text = true := by
        rw [isIdAtom, Bool.and_eq_true] at hid
        exact hid.1
      rw [graph.text_subjectOf_of_isDigits language keep hatom hdigits, isIdAtom_iff] at hid
      obtain ⟨digits, hatomId⟩ := hatom.2.mpr hid
      cases hatomId
    rw [hname]
    cases keep with
    | false => exact congrArg (Subject.mk · none) (language.nameOf_nameOf name)
    | true =>
      have hwords : words (unwords (words name)) = words name :=
        words_unwords fun w hw => of_mem_words hw
      exact congrArg (fun ws => Subject.mk (unwords ws) none) hwords

end Graph

end LineageSearch
