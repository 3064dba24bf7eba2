import LineageSearch.Proofs.Lineage.Lookups

/-!
# Pandas by year of birth and death

A search for births or deaths of a year goes through all pandas and keeps those with a day in that
year, `inYear dayOf year`, where `dayOf` is the day of birth or of death.  The years divide the
pandas among them: a panda with such a day is listed for one year and for no other, and a panda
without one is not listed at all.

Without a year the two searches differ.

* Deaths are those of all years, merged by id (`pandasWhere_isSome_eq_sortHits`).
* Births are those of the latest year of birth (`births_of_latestBirthYear`), which was determined
  when the records were loaded.  There is such a year unless no panda has a day of birth.

Years are whole numbers of any size and sign.
-/

namespace LineageSearch

/-! ## Hits in order -/

theorem Hit.rank_injective : Function.Injective Hit.rank := by
  intro a b h
  cases a with
  | panda id => cases b <;> simp_all [Hit.rank, UInt64.toNat_inj]
  | zoo id => cases b <;> simp_all [Hit.rank, UInt64.toNat_inj]
  | photo owner index =>
    cases b with
    | panda id => simp [Hit.rank] at h
    | zoo id => simp [Hit.rank] at h
    | photo other place =>
      cases owner <;> cases other <;> simp_all [Hit.rank, Entity.rank, UInt64.toNat_inj]

/-- Hits without repeats are listed in order once they are sorted. -/
theorem lists_sortHits {hits : List Hit} (h : hits.Nodup) :
    Lists (sortHits hits) fun hit => hit ∈ hits := by
  have hperm : (sortHits hits).Perm hits := List.mergeSort_perm _ _
  have hsorted : (sortHits hits).Pairwise fun a b => (!(decide (b < a))) = true := by
    refine List.pairwise_mergeSort ?_ ?_ hits
    · intro a b c hab hbc
      simp only [Bool.not_eq_true', decide_eq_false_iff_not] at *
      exact fun hca => hab (List.lt_of_le_of_lt (List.not_lt.mp hbc) hca)
    · intro a b
      simp only [Bool.or_eq_true, Bool.not_eq_true', decide_eq_false_iff_not]
      exact or_iff_not_imp_left.mpr fun hba => List.lt_asymm (not_not.mp hba)
  refine ⟨?_, fun hit => hperm.mem_iff⟩
  refine hsorted.imp₂ (fun a b hle hne => ?_) (hperm.nodup_iff.mpr h)
  by_contra hlt
  have hge : ¬ b < a := by simpa using hle
  exact hne (Hit.rank_injective (List.le_antisymm hge hlt))

namespace Graph

variable {records : Export} {dayOf : Panda → Option Date} {panda : Panda} {year : Int}

/-! ## Pandas with a day in a year -/

/-- The pandas with a day in a year. -/
def inYear (graph : Graph) (dayOf : Panda → Option Date) (year : Int) : List Hit :=
  graph.pandasWhere fun panda => (dayOf panda).any (·.year == year)

theorem lists_inYear (records : Export) (dayOf : Panda → Option Date) (year : Int) :
    Lists ((ofExport records).inYear dayOf year) fun hit =>
      ∃ panda, records.HasPanda panda ∧ (dayOf panda).map Date.year = some year ∧
        hit = .panda panda.id := by
  refine (lists_pandasWhere records _).congr fun hit => ?_
  simp only [Option.any_eq_true, beq_iff_eq, Option.map_eq_some_iff]

theorem mem_inYear_iff (h : records.HasPanda panda) :
    .panda panda.id ∈ (ofExport records).inYear dayOf year ↔
      (dayOf panda).map Date.year = some year := by
  rw [(lists_inYear records dayOf year).2]
  constructor
  · rintro ⟨other, hother, hyear, hhit⟩
    rwa [hasPanda_unique h hother (Hit.panda.inj hhit)]
  · intro hyear
    exact ⟨panda, h, hyear, rfl⟩

/-- A panda with a day is listed for exactly one year. -/
theorem existsUnique_year (h : records.HasPanda panda) (hday : (dayOf panda).isSome) :
    ∃! year, .panda panda.id ∈ (ofExport records).inYear dayOf year := by
  obtain ⟨day, hday⟩ := Option.isSome_iff_exists.mp hday
  simp only [mem_inYear_iff h, hday, Option.map_some, Option.some_inj]
  exact ⟨day.year, rfl, fun year hyear => hyear.symm⟩

/-! ## All years -/

/-- The pandas with a day in any year. -/
theorem lists_pandasWhere_isSome (records : Export) (dayOf : Panda → Option Date) :
    Lists ((ofExport records).pandasWhere fun panda => (dayOf panda).isSome) fun hit =>
      ∃ year, hit ∈ (ofExport records).inYear dayOf year := by
  refine (lists_pandasWhere records _).congr fun hit => ?_
  constructor
  · rintro ⟨panda, hpanda, hday, rfl⟩
    exact (existsUnique_year hpanda hday).exists
  · rintro ⟨year, hmem⟩
    obtain ⟨panda, hpanda, hyear, rfl⟩ := ((lists_inYear records dayOf year).2 hit).mp hmem
    refine ⟨panda, hpanda, ?_, rfl⟩
    rw [← Option.isSome_map, hyear, Option.isSome_some]

/-- The lists of different years have nothing in common. -/
theorem nodup_flatMap_inYear (records : Export) (dayOf : Panda → Option Date) {years : List Int}
    (h : years.Nodup) : (years.flatMap ((ofExport records).inYear dayOf)).Nodup := by
  refine List.nodup_flatMap.mpr ⟨fun year _ => (lists_inYear records dayOf year).nodup, ?_⟩
  refine h.imp fun {year other} hne hit hmem hother => hne ?_
  obtain ⟨panda, hpanda, hyear, rfl⟩ := ((lists_inYear records dayOf year).2 hit).mp hmem
  rw [mem_inYear_iff hpanda, hyear] at hother
  exact Option.some_inj.mp hother

/-- The pandas with a day in any year are those of all years on record, merged by id. -/
theorem pandasWhere_isSome_eq_sortHits (records : Export) (dayOf : Panda → Option Date)
    {years : List Int} (hnodup : years.Nodup)
    (hyears : ∀ panda day, records.HasPanda panda → dayOf panda = some day → day.year ∈ years) :
    (ofExport records).pandasWhere (fun panda => (dayOf panda).isSome) =
      sortHits (years.flatMap ((ofExport records).inYear dayOf)) := by
  refine ((lists_sortHits (nodup_flatMap_inYear records dayOf hnodup)).eq_iff _).mpr ?_
  refine (lists_pandasWhere_isSome records dayOf).congr fun hit => ?_
  rw [List.mem_flatMap]
  constructor
  · rintro ⟨year, hmem⟩
    refine ⟨year, ?_, hmem⟩
    obtain ⟨panda, hpanda, hyear, rfl⟩ := ((lists_inYear records dayOf year).2 hit).mp hmem
    obtain ⟨day, hday, rfl⟩ := Option.map_eq_some_iff.mp hyear
    exact hyears panda day hpanda hday
  · rintro ⟨year, -, hmem⟩
    exact ⟨year, hmem⟩

theorem deaths_none (graph : Graph) :
    graph.deaths none = graph.pandasWhere fun panda => panda.death.isSome := by
  unfold deaths
  congr 1

/-! ## The latest year of birth -/

theorem latestBirthYear_eq_none_iff :
    (ofExport records).latestBirthYear = none ↔
      ∀ panda, records.HasPanda panda → panda.birthday = none := by
  rw [latestBirthYear_ofExport, List.max?_eq_none_iff, List.eq_nil_iff_forall_not_mem]
  simp only [mem_birthYears_iff]
  constructor
  · intro hnone panda hpanda
    refine Option.eq_none_iff_forall_ne_some.mpr fun birthday hborn => ?_
    exact hnone birthday.year ⟨panda, birthday, hpanda, hborn, rfl⟩
  · rintro hnone year ⟨panda, birthday, hpanda, hborn, -⟩
    rw [hnone panda hpanda] at hborn
    cases hborn

/-- The latest year of birth is the year of a birth, and no birth comes later. -/
theorem births_of_latestBirthYear {latest : Int}
    (hlatest : (ofExport records).latestBirthYear = some latest) :
    (ofExport records).births none = (ofExport records).births (some latest) ∧
      (ofExport records).births (some latest) ≠ [] ∧
      ∀ panda birthday, records.HasPanda panda → panda.birthday = some birthday →
        birthday.year ≤ latest := by
  refine ⟨by rw [births_none, hlatest]; rfl, ?_, ?_⟩
  all_goals rw [latestBirthYear_ofExport, List.max?_eq_some_iff, mem_birthYears_iff] at hlatest
  · obtain ⟨⟨panda, birthday, hpanda, hborn, rfl⟩, -⟩ := hlatest
    refine List.ne_nil_of_mem (a := .panda panda.id) ((mem_inYear_iff hpanda).mpr ?_)
    rw [hborn, Option.map_some]
  · intro panda birthday hpanda hborn
    exact hlatest.2 _ (mem_birthYears_iff.mpr ⟨panda, birthday, hpanda, hborn, rfl⟩)

theorem births_none_eq_nil_iff :
    (ofExport records).births none = [] ↔
      ∀ panda, records.HasPanda panda → panda.birthday = none := by
  rw [← latestBirthYear_eq_none_iff]
  cases hlatest : (ofExport records).latestBirthYear with
  | none =>
    rw [births_none, hlatest]
    exact iff_of_true rfl rfl
  | some latest =>
    obtain ⟨hsame, hne, -⟩ := births_of_latestBirthYear hlatest
    rw [hsame]
    exact iff_of_false hne nofun

/-- **The years divide the pandas by birth and by death.**  A year lists, by ascending id, the
loaded pandas with a day of birth (death) in it, and a panda with such a day is listed for exactly
one year.  Without a year, deaths are those of all years merged by id; births are those of the
latest year of birth, and none if no panda has a day of birth. -/
theorem years_divide_pandas (records : Export) :
    (∀ year hits, hits = (ofExport records).births (some year) ↔ Lists hits fun hit =>
      ∃ panda, records.HasPanda panda ∧ panda.birthday.map Date.year = some year ∧
        hit = .panda panda.id) ∧
    (∀ year hits, hits = (ofExport records).deaths (some year) ↔ Lists hits fun hit =>
      ∃ panda, records.HasPanda panda ∧ panda.death.map Date.year = some year ∧
        hit = .panda panda.id) ∧
    (∀ panda, records.HasPanda panda →
      (panda.birthday.isSome → ∃! year, .panda panda.id ∈ (ofExport records).births (some year)) ∧
      (panda.death.isSome → ∃! year, .panda panda.id ∈ (ofExport records).deaths (some year))) ∧
    (∀ hits, hits = (ofExport records).deaths none ↔ Lists hits fun hit =>
      ∃ year, hit ∈ (ofExport records).deaths (some year)) ∧
    (∀ years : List Int, years.Nodup →
      (∀ panda death, records.HasPanda panda → panda.death = some death → death.year ∈ years) →
      (ofExport records).deaths none =
        sortHits (years.flatMap fun year => (ofExport records).deaths (some year))) ∧
    ((ofExport records).births none = [] ↔
      ∀ panda, records.HasPanda panda → panda.birthday = none) ∧
    ((ofExport records).births none ≠ [] → ∃ latest,
      (ofExport records).births none = (ofExport records).births (some latest) ∧
      (ofExport records).births (some latest) ≠ [] ∧
      ∀ panda birthday, records.HasPanda panda → panda.birthday = some birthday →
        birthday.year ≤ latest) := by
  refine ⟨?_, ?_, ?_, ?_, ?_, births_none_eq_nil_iff, ?_⟩
  · exact fun year => (lists_inYear records Panda.birthday year).eq_iff
  · exact fun year => (lists_inYear records Panda.death year).eq_iff
  · exact fun panda hpanda => ⟨existsUnique_year hpanda, existsUnique_year hpanda⟩
  · rw [deaths_none]
    exact (lists_pandasWhere_isSome records Panda.death).eq_iff
  · intro years hnodup hyears
    rw [deaths_none]
    exact pandasWhere_isSome_eq_sortHits records Panda.death hnodup hyears
  · intro hne
    cases hlatest : (ofExport records).latestBirthYear with
    | none => exact absurd (births_none_eq_nil_iff.mpr (latestBirthYear_eq_none_iff.mp hlatest)) hne
    | some latest => exact ⟨latest, births_of_latestBirthYear hlatest⟩

/-- Births and deaths long before the year zero and long after the year 9999.  The latest birth of
all was corrected by a later record of its panda, so it does not count. -/
theorem years_divide_pandas_far_years :
    let wrong : Panda := { id := 1, birthday := some ⟨20000, 1, 1⟩ }
    let ancient : Panda :=
      { id := 3, birthday := some ⟨-44, 3, 15⟩, death := some ⟨12020, 1, 1⟩ }
    let records : Export :=
      { pandas := [wrong, ancient, { id := 4, birthday := some ⟨12019, 7, 1⟩ },
          { id := 2, death := some ⟨-44, 12, 31⟩ },
          { wrong with birthday := some ⟨12019, 6, 1⟩ }] }
    (ofExport records).births (some 20000) = [] ∧
      (∃! year, .panda 3 ∈ (ofExport records).births (some year)) ∧
      (∃! year, .panda 3 ∈ (ofExport records).deaths (some year)) ∧
      (ofExport records).births none = [.panda 1, .panda 4] ∧
      (ofExport records).deaths none = [.panda 2, .panda 3] ∧
      (ofExport records).deaths none = sortHits [.panda 3, .panda 2] ∧
      (∃ latest, (ofExport records).births none = (ofExport records).births (some latest) ∧
        (ofExport records).births (some latest) ≠ []) := by
  intro wrong ancient records
  obtain ⟨-, -, hday, -, hmerged, -, hlatest⟩ := years_divide_pandas records
  have hancient : records.HasPanda ancient := ⟨[wrong], _, rfl, by decide⟩
  have hbirths : (ofExport records).births none = [.panda 1, .panda 4] := by decide +kernel
  refine ⟨by decide +kernel, (hday ancient hancient).1 rfl, (hday ancient hancient).2 rfl,
    hbirths, by decide +kernel, ?_, ?_⟩
  · have hyears : ∀ panda ∈ records.pandas, ∀ death ∈ panda.death,
        death.year ∈ [(12020 : Int), -44] := by decide
    have hlists : [12020, -44].flatMap (fun year => (ofExport records).deaths (some year)) =
        [.panda 3, .panda 2] := by decide +kernel
    rw [← hlists]
    refine hmerged [12020, -44] (by decide) fun panda death hpanda hdied => ?_
    obtain ⟨before, after, hsplit, -⟩ := hpanda
    exact hyears panda (by simp [hsplit]) death hdied
  · obtain ⟨latest, hsame, hne, -⟩ := hlatest (by simp [hbirths])
    exact ⟨latest, hsame, hne⟩

end Graph

end LineageSearch
