import LineageSearch.Proofs.Lineage.Ordered

/-!
# What a lookup lists after any insertions

A lookup is drawn up by insertions under many keys, in any order and with repeats.  One insertion
does one of three things to the answer under a key:

| insertion                             | answer                                            |
|---------------------------------------|---------------------------------------------------|
| under another key                     | the same                                          |
| under the key, of a value it lists    | the same, and so is the whole lookup              |
| under the key, of a value it does not | one value more, behind the others                 |

So nothing is lost and nothing is listed twice.  After a run of insertions the answer under a key
lists the values that were inserted under it, by the places of their first insertions in the run
(`listsBy_find_ofList`), and no other list does.
-/

namespace LineageSearch.Lookup

variable {K V : Type} [DecidableEq K] [DecidableEq V] {lookup : Lookup K V}
  {pairs before : List (K × V)} {pair : K × V} {key other : K} {value : V}

/-! ## One insertion -/

theorem find_insert_of_ne (h : key ≠ other) :
    (lookup.insert key value).find other = lookup.find other := by
  rw [find_insert, if_neg h]

theorem find_insert_of_notMem (h : value ∉ lookup.find key) :
    (lookup.insert key value).find key = lookup.find key ++ [value] := by
  rw [find_insert, if_pos rfl, appendNew, if_neg h]

/-- An entry that lists the value stays as it is, and so do all others. -/
theorem insertEntry_of_mem {entries : List (K × List V)} (h : value ∈ findEntry key entries) :
    insertEntry key value entries = entries := by
  induction entries with
  | nil => cases h
  | cons entry rest ih =>
    obtain ⟨first, values⟩ := entry
    rw [findEntry] at h
    rw [insertEntry]
    by_cases hkey : first = key
    · rw [if_pos hkey] at h ⊢
      rw [appendNew, if_pos h]
    · rw [if_neg hkey] at h ⊢
      rw [ih h]

/-- Inserting what is listed already leaves the lookup as it is. -/
theorem insert_of_mem (h : value ∈ lookup.find key) : lookup.insert key value = lookup :=
  congrArg Lookup.mk (insertEntry_of_mem h)

/-! ## A run of insertions -/

/-- A run leads to the same lookup without the insertions of pairs that it inserted before. -/
theorem ofList_insert_again (h : pair ∈ before) (after : List (K × V)) :
    ofList (before ++ pair :: after) = ofList (before ++ after) := by
  rw [ofList_append, ofList_append, List.foldl_cons, insert_of_mem (mem_find_ofList_iff.mpr h)]

/-- Insertions under other keys play no part. -/
theorem find_ofList_congr {others : List (K × V)}
    (h : (others.filter fun pair => pair.1 = key) = pairs.filter fun pair => pair.1 = key) :
    (ofList others).find key = (ofList pairs).find key := by
  rw [find_ofList, find_ofList, h]

/-- The values under a key, read off the distinct insertions of the whole run. -/
theorem find_ofList_eq_filter_firstSeen (pairs : List (K × V)) (key : K) :
    (ofList pairs).find key = ((firstSeen pairs).filter fun pair => pair.1 = key).map Prod.snd := by
  rw [find_ofList, firstSeen_map, firstSeen_filter]
  -- under one key, two insertions differ by their values
  intro a ha b hb hvalue
  have hkeya : a.1 = key := by simpa using List.of_mem_filter ha
  have hkeyb : b.1 = key := by simpa using List.of_mem_filter hb
  exact Prod.ext (hkeya.trans hkeyb.symm) hvalue

/-- **After a run of insertions a key lists the values inserted under it, by the places of their
first insertions in the run.** -/
theorem listsBy_find_ofList (pairs : List (K × V)) (key : K) :
    ListsBy (fun value => [pairs.idxOf (key, value)]) (fun value => (key, value) ∈ pairs)
      ((ofList pairs).find key) := by
  refine ⟨?_, fun value => mem_find_ofList_iff⟩
  rw [find_ofList_eq_filter_firstSeen]
  have hself : ∀ found ∈ (firstSeen pairs).filter fun pair => pair.1 = key,
      (key, found.2) = found := by
    intro found hfound
    have hkey : found.1 = key := by simpa using List.of_mem_filter hfound
    exact Prod.ext hkey.symm rfl
  refine List.pairwise_map.mpr (((listsBy_firstSeen pairs).1.filter _).imp_of_mem ?_)
  intro a b ha hb hlt
  dsimp only
  rw [hself a ha, hself b hb]
  exact hlt

/-- **Lookups keep what is inserted, once and in the order of first insertion.**  Whatever the run
of insertions and the key, the answer lists exactly the values inserted under the key, and it is the
only list that does so in the order of their first insertions.  A further insertion puts a new value
behind the others; under another key, or of a pair that was inserted before, it changes no answer,
and neither does the same insertion anywhere in a run. -/
theorem find_ofList_first_insertions (pairs : List (K × V)) (key : K) :
    (∀ values, values = (ofList pairs).find key ↔
      ListsBy (fun value => [pairs.idxOf (key, value)]) (fun value => (key, value) ∈ pairs)
        values) ∧
    ((ofList pairs).find key).Nodup ∧
    (∀ value, (key, value) ∉ pairs →
      ((ofList pairs).insert key value).find key = (ofList pairs).find key ++ [value]) ∧
    (∀ other value, other ≠ key →
      ((ofList pairs).insert other value).find key = (ofList pairs).find key) ∧
    (∀ others : List (K × V),
      (others.filter fun pair => pair.1 = key) = (pairs.filter fun pair => pair.1 = key) →
      (ofList others).find key = (ofList pairs).find key) ∧
    (∀ pair ∈ pairs, (ofList pairs).insert pair.1 pair.2 = ofList pairs ∧
      ∀ after, (ofList (pairs ++ pair :: after)).find key =
        (ofList (pairs ++ after)).find key) := by
  have hlists := listsBy_find_ofList pairs key
  refine ⟨hlists.eq_iff, hlists.nodup, ?_, ?_, ?_, ?_⟩
  · intro value hnew
    exact find_insert_of_notMem fun hmem => hnew (mem_find_ofList_iff.mp hmem)
  · exact fun other value hne => find_insert_of_ne hne
  · exact fun others hsame => find_ofList_congr hsame
  · intro pair hpair
    refine ⟨insert_of_mem (mem_find_ofList_iff.mpr hpair), fun after => ?_⟩
    rw [ofList_insert_again hpair]

/-- Ids under two names: one of them twice under one name, and under the other name as well. -/
theorem find_ofList_first_insertions_two_names :
    let gin := "Gin".toList
    let mei := "Mei".toList
    let pairs : List (Text × EntityId) := [(gin, 46), (mei, 7), (gin, 2), (mei, 46), (gin, 46)]
    [46, 2] = (ofList pairs).find gin ∧
      ((ofList pairs).insert gin 7).find gin = (ofList pairs).find gin ++ [7] ∧
      ((ofList pairs).insert mei 2).find gin = (ofList pairs).find gin ∧
      (ofList [(gin, 46), (gin, 2), (gin, 46)]).find gin = (ofList pairs).find gin ∧
      (ofList pairs).insert mei 46 = ofList pairs ∧
      (ofList (pairs ++ [(mei, 46), (gin, 1)])).find gin =
        (ofList (pairs ++ [(gin, 1)])).find gin := by
  intro gin mei pairs
  obtain ⟨hlists, -, hnew, hother, hothers, hagain⟩ := find_ofList_first_insertions pairs gin
  obtain ⟨hsame, hafter⟩ := hagain (mei, 46) (by decide)
  refine ⟨(hlists [46, 2]).mpr ⟨by decide, fun value => ?_⟩, hnew 7 (by decide),
    hother mei 2 (by decide), hothers _ (by decide), hsame, hafter [(gin, 1)]⟩
  simp [pairs, gin, mei]
  tauto

end LineageSearch.Lookup
