import LineageSearch.Proofs.Query.Notes
import LineageSearch.Proofs.Query.ReadSubjects

/-!
# Notes that fit together

Notes pile up: nothing is cleared between two searches unless the host resets them, and each kind of
search writes other fields.  They still fit together after every order of searches and resets, by
engines of any vocabulary, graph and language (`reachable_coherent`):

* the case of names is kept only where photos are shown;
* where photos are shown there is an author, and the author is one of the noted terms;
* noted terms are not empty and have no blanks at their ends;
* no search sets the one entity that the host was asked to show.

## Strategy

The first two are one invariant: each field alone is not preserved, as a tag shows photos under any
author from before, and a bare subject becomes the author under any output from before.  What a
search writes is known from `NotedBy`, so the step (`NotedBy.coherent`) looks at the notes only and
never at how a text is searched.  That terms are tight is what `isRead_of_expression?` says of
keywords and `isTight_text_denote` of subjects.
-/

namespace LineageSearch

open Text

/-! ## Runs -/

/-- Whether an engine was built from some graph, dictionary and tags. -/
def Engine.IsBuilt (engine : Engine) : Prop :=
  ∃ graph dictionary tags strict language,
    Engine.build graph dictionary tags strict language = .ok engine

namespace Environment

/-- The notes that searches and resets can lead to, in any order.  Refused searches count, and each
search may be made by another engine, over its graph or over any other records. -/
inductive Reachable : Environment → Prop
  | fresh : Reachable .fresh
  | search {before : Environment} {engine : Engine} (built : engine.IsBuilt) (input : Text) :
      Reachable before → Reachable (engine.searchIn input before).2
  | searchBy {before : Environment} {engine : Engine} (built : engine.IsBuilt) {resolver : Resolver}
      (hcasing : resolver.nameOf = engine.language.capitalizeNames) (input : Text) :
      Reachable before → Reachable (engine.searchInBy resolver input before).2
  | reset {before : Environment} : Reachable before → Reachable before.reset

/-- Whether notes fit together. -/
structure Coherent (env : Environment) : Prop where
  photos_of_preserveCase : env.preserveCase = true → env.output = .photos
  credit_of_photos : env.output = .photos → env.credit.isSome = true
  credit_mem : ∀ author ∈ env.credit, author ∈ env.terms
  tight : ∀ term ∈ env.terms, IsTight term
  unspecific : env.specific = none

/-! ## Steps -/

theorem coherent_fresh : Coherent .fresh where
  photos_of_preserveCase := by simp [fresh]
  credit_of_photos := by simp [fresh]
  credit_mem := by simp [fresh]
  tight := by simp [fresh]
  unspecific := rfl

variable {before after : Environment} {result : SearchResult} {noted : List Text}

/-- Every search notes a term, so there is a last one. -/
theorem NotedBy.exists_getLast? (h : before.NotedBy result noted after) :
    ∃ last, noted.getLast? = some last ∧ last ∈ noted := by
  have hne : noted ≠ [] := by
    rintro rfl
    have hcount : 0 = result.parsed.termCount := h.count
    cases hparsed : result.parsed <;> simp [hparsed, Alternative.termCount] at hcount
  exact ⟨noted.getLast hne, List.getLast?_eq_some_getLast hne, List.getLast_mem hne⟩

/-- **A search takes notes that fit together to such notes**, if the terms it notes are tight. -/
theorem NotedBy.coherent (h : before.NotedBy result noted after) (hbefore : before.Coherent)
    (htight : ∀ term ∈ noted, IsTight term) : after.Coherent := by
  obtain ⟨last, hlast, hmem⟩ := h.exists_getLast?
  have hcredit := h.credit
  rw [hlast] at hcredit
  constructor
  case photos_of_preserveCase =>
    intro hkept
    have houtput := h.output
    rw [h.preserveCase] at hkept
    by_cases hphotos : result.parsed = .tagExpression ∨ result.IsCredit
    · rw [houtput, if_pos hphotos]
    · -- neither writes the case of names, so it was kept before, and photos were shown
      obtain ⟨-, hother⟩ := not_or.mp hphotos
      rw [if_neg hother] at hkept
      rw [if_neg hphotos] at houtput
      split at hkept
      · cases hkept
      · next htype =>
        rw [houtput, if_neg htype]
        exact hbefore.photos_of_preserveCase hkept
  case credit_of_photos =>
    intro hphotos
    by_cases hlone : result.parsed = .zeroaryExpression
    · have hsame : after.output = before.output := by
        rw [h.output]
        simp [hlone, SearchResult.IsCredit]
      rw [hcredit, if_neg (by simp [hlone])]
      exact hbefore.credit_of_photos (hsame ▸ hphotos)
    · rw [hcredit, if_pos ⟨hlone, hphotos⟩]
      rfl
  case credit_mem =>
    intro author hauthor
    rw [h.terms, List.mem_append]
    rw [hcredit] at hauthor
    split at hauthor
    · obtain rfl := Option.some_inj.mp hauthor
      exact Or.inr hmem
    · exact Or.inl (hbefore.credit_mem author hauthor)
  case tight =>
    intro term hterm
    rw [h.terms, List.mem_append] at hterm
    rcases hterm with hterm | hterm
    · exact hbefore.tight term hterm
    · exact htight term hterm
  case unspecific => rw [h.specific, hbefore.unspecific]

end Environment

namespace Engine

variable {engine : Engine} {env : Environment} {resolver : Resolver}
  (hcasing : resolver.nameOf = engine.language.capitalizeNames)

include hcasing

/-- An expression as it is read has tight terms. -/
theorem isTight_of_mem_termsOf {expression : Expression} (hread : expression.IsRead) {term : Text}
    (hterm : term ∈ engine.termsOf resolver env expression) : IsTight term := by
  cases expression with
  | zeroary keyword =>
    obtain rfl := List.mem_singleton.mp hterm
    exact hread
  | typed keyword atom =>
    rcases List.mem_pair.mp hterm with rfl | rfl
    · exact hread.1
    · exact resolver.isTight_text_denote hcasing hread.2 _
  | tagged tag atom =>
    rcases List.mem_pair.mp hterm with rfl | rfl
    · exact hread.1
    · exact resolver.isTight_text_denote hcasing hread.2 _
  | bare atom =>
    obtain rfl := List.mem_singleton.mp hterm
    exact resolver.isTight_text_denote hcasing hread _

/-- A refused search leaves the notes as they were, and any other one adds to them. -/
theorem coherent_searchInBy (hbuilt : engine.IsBuilt) (henv : env.Coherent) (input : Text) :
    (engine.searchInBy resolver input env).2.Coherent := by
  obtain ⟨graph, dictionary, tags, strict, language, hbuild⟩ := hbuilt
  obtain ⟨-, -, hgrammar, -⟩ := of_build hbuild
  unfold searchInBy
  cases hread : engine.grammar.expression? input with
  | none => exact henv
  | some expression =>
    rw [hgrammar] at hread
    have htight := Grammar.isRead_of_expression? hread
    exact (engine.notedBy_reduceBy resolver env expression).coherent henv
      fun term hterm => isTight_of_mem_termsOf hcasing htight hterm

end Engine

/-! ## The invariant of all runs -/

namespace Environment

/-- **Whatever was searched before, the notes fit together**, and a search that follows a reset is
the same as one in an environment of its own. -/
theorem reachable_coherent {env : Environment} (h : env.Reachable) :
    env.Coherent ∧ ∀ (engine : Engine) (input : Text),
      engine.searchIn input env.reset = match engine.search input with
        | .ok (result, left) => (.ok result, left)
        | .error reason => (.error reason, .fresh) := by
  constructor
  · induction h with
    | fresh => exact coherent_fresh
    | search built input _ ih => exact Engine.coherent_searchInBy rfl built ih input
    | searchBy built hcasing input _ ih => exact Engine.coherent_searchInBy hcasing built ih input
    | reset _ _ => exact coherent_fresh
  · intro engine input
    show engine.searchIn input .fresh = _
    unfold Engine.search Engine.searchIn
    cases engine.grammar.expression? input <;> rfl

/-- The case of names outlives the credit search that asked for it, so that a bare subject after it
becomes the author as it was typed. -/
theorem reachable_coherent_credit_then_bare : ∃ engine left,
    Engine.build (.ofExport {}) .builtin Tags.builtin false .en = .ok engine ∧
      left = (engine.searchIn "gin".toList (engine.searchIn "credit alice".toList .fresh).2).2 ∧
      left.Coherent ∧ left.preserveCase = true ∧ left.credit = some "gin".toList := by
  have hrun : (Engine.build (.ofExport {}) .builtin Tags.builtin false .en).toOption.map
      (fun engine =>
        let credited := (engine.searchIn "credit alice".toList .fresh).2
        let left := (engine.searchIn "gin".toList credited).2
        (left.preserveCase, left.credit)) = some (true, some "gin".toList) := by
    decide +kernel
  obtain ⟨engine, hbuild, hseen⟩ := Engine.exists_ok_of_map_toOption hrun
  obtain ⟨hkept, hcredit⟩ := Prod.mk.inj hseen
  have hbuilt : engine.IsBuilt := ⟨_, _, _, _, _, hbuild⟩
  exact ⟨engine, _, hbuild, rfl,
    (reachable_coherent (.search hbuilt _ (.search hbuilt _ .fresh))).1, hkept, hcredit⟩

end Environment

end LineageSearch
