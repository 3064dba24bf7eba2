import LineageSearch.Vocabulary.Keywords

/-!
# Vocabularies

A vocabulary declares keyword values under names, each name once: the operators of one
category with their synonyms, or the photo tags with their surface forms.  The order of
declaration is part of it, since the first of two groups that share a word wins it.
-/

namespace LineageSearch

/-- Keyword values in declared order, under names that do not repeat. -/
structure Vocabulary where
  entries : Entries Keywords
  nodup : entries.names.Nodup := by decide

namespace Vocabulary

def empty : Vocabulary := ⟨[], by simp [Entries.names]⟩

instance : Inhabited Vocabulary := ⟨empty⟩

/-- The vocabulary that declarations build one after the other. -/
def ofList (entries : List (Text × Keywords)) : Vocabulary :=
  ⟨Entries.ofList entries, Entries.nodup_names_ofList entries⟩

def names (vocabulary : Vocabulary) : List Text := vocabulary.entries.names

/-- The value declared under a name. -/
def get? (vocabulary : Vocabulary) (name : Text) : Option Keywords :=
  vocabulary.entries.get? name

def groups (vocabulary : Vocabulary) : List (Text × List Text) :=
  vocabulary.entries.map fun (name, keywords) => (name, keywords.flatten)

def words (vocabulary : Vocabulary) : List Text := Keywords.flattenGroup vocabulary.entries

/-- The words of a vocabulary are those of its groups, one group after the other. -/
theorem words_eq_flatMap_groups (vocabulary : Vocabulary) :
    vocabulary.words = vocabulary.groups.flatMap Prod.snd := by
  have hentries : ∀ entries : List (Text × Keywords),
      Keywords.flattenGroup entries =
        (entries.map fun (name, keywords) => (name, keywords.flatten)).flatMap Prod.snd := by
    intro entries
    induction entries with
    | nil => rfl
    | cons entry rest ih => simp [Keywords.flattenGroup, ih]
  exact hentries vocabulary.entries

end Vocabulary

/-- The photo tags: the name of each tag with its surface forms. -/
abbrev Tags := Vocabulary

end LineageSearch
