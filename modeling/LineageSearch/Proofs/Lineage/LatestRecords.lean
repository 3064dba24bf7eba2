import LineageSearch.Proofs.Lineage.Ordered
import LineageSearch.Proofs.Lineage.RecordSource

/-!
# The last record of each id

An export lists its records in any order, and may have several of one id.  The graph depends on the
last record of each id and on nothing else, so two exports with the same last records give one and
the same graph (`ofExport_eq_iff`).  Every question about the records has the same answer then, in
the same order (`source_of_last_records`).

In particular records of different ids may change places, and a record that a later one overwrites
may be left out.

## Strategy

The graph keeps the last record of each id by ascending id.  A list that ascends is determined by
its members, so what is kept is the same exactly if the last records are (`latestById_eq_iff`).
The lookups are drawn up from what is kept.

For the rest it is enough to look at what the steps do to the last record of an id.  Two neighbours
of different ids are not both of that id (`Reordered.sameLast`), and an overwritten record is not
the last one (`sameLast_of_overwritten`).
-/

namespace LineageSearch

/-! ## The last record of an id -/

section Last

variable {α : Type} {idOf : α → EntityId} {first second : List α} {id : EntityId} {r : α}

/-- The last record of an id. -/
def lastOf (idOf : α → EntityId) (records : List α) (id : EntityId) : Option α :=
  records.reverse.find? fun record => idOf record == id

theorem lastOf_append (before after : List α) :
    lastOf idOf (before ++ after) id = (lastOf idOf after id).or (lastOf idOf before id) := by
  unfold lastOf
  rw [List.reverse_append, List.find?_append]

/-- A record is the last of its id if none behind it is. -/
theorem lastOf_cons (record : α) (rest : List α) :
    lastOf idOf (record :: rest) id =
      (lastOf idOf rest id).or (if idOf record = id then some record else none) := by
  have hsingle : lastOf idOf [record] id = if idOf record = id then some record else none := by
    by_cases hid : idOf record = id <;> simp [lastOf, hid]
  rw [← List.singleton_append, lastOf_append, hsingle]

theorem lastOf_eq_some_iff {records : List α} :
    lastOf idOf records id = some r ↔ IsLatest idOf records r ∧ idOf r = id := by
  unfold lastOf IsLatest
  rw [List.find?_eq_some_iff_append]
  constructor
  · rintro ⟨hid, behind, before, hsplit, hbehind⟩
    rw [beq_iff_eq] at hid
    refine ⟨⟨before.reverse, behind.reverse, ?_, ?_⟩, hid⟩
    · rw [← List.reverse_reverse records, hsplit]
      simp
    · intro later hlater
      have hother := hbehind later (List.mem_reverse.mp hlater)
      simpa [hid] using hother
  · rintro ⟨⟨before, after, rfl, hafter⟩, rfl⟩
    refine ⟨by simp, after.reverse, before.reverse, by simp, ?_⟩
    intro later hlater
    simpa using hafter later (List.mem_reverse.mp hlater)

/-- Whether two lists of records have the same last record of each id, or both none. -/
def SameLast (idOf : α → EntityId) (first second : List α) : Prop :=
  ∀ id, lastOf idOf first id = lastOf idOf second id

/-- **What is kept is determined by the last record of each id.** -/
theorem latestById_eq_iff :
    latestById idOf first = latestById idOf second ↔ SameLast idOf first second := by
  constructor
  · intro hkept id
    refine Option.ext fun r => ?_
    rw [lastOf_eq_some_iff, lastOf_eq_some_iff, ← mem_latestById_iff, ← mem_latestById_iff, hkept]
  · intro hlast
    have hmem : ∀ r, r ∈ latestById idOf first ↔ r ∈ latestById idOf second := by
      intro r
      have hiff : ∀ records, r ∈ latestById idOf records ↔
          lastOf idOf records (idOf r) = some r := by
        intro records
        rw [lastOf_eq_some_iff, mem_latestById_iff, and_iff_left rfl]
      rw [hiff, hiff, hlast (idOf r)]
    exact eq_of_pairwise_of_mem_iff (fun a b hlt => UInt64.lt_asymm hlt)
      (ascending_latestById idOf first) (ascending_latestById idOf second) hmem

/-! ## Records that change places, and records that are overwritten -/

/-- Whether two lists have the same records up to their order, where those of one id keep theirs. -/
inductive Reordered (idOf : α → EntityId) : List α → List α → Prop
  | nil : Reordered idOf [] []
  | cons (record : α) {first second : List α} :
      Reordered idOf first second → Reordered idOf (record :: first) (record :: second)
  | swap (a b : α) (rest : List α) (hne : idOf a ≠ idOf b) :
      Reordered idOf (a :: b :: rest) (b :: a :: rest)
  | trans {first second third : List α} :
      Reordered idOf first second → Reordered idOf second third → Reordered idOf first third

theorem Reordered.sameLast (h : Reordered idOf first second) : SameLast idOf first second := by
  induction h with
  | nil => exact fun id => rfl
  | cons record _ ih =>
    intro id
    rw [lastOf_cons, lastOf_cons, ih id]
  | swap a b rest hne =>
    intro id
    rw [lastOf_cons, lastOf_cons, lastOf_cons, lastOf_cons, Option.or_assoc, Option.or_assoc]
    by_cases ha : idOf a = id
    · have hb : idOf b ≠ id := fun hb => hne (ha.trans hb.symm)
      simp [ha, hb]
    · simp [ha]
  | trans _ _ ih ih' => exact fun id => (ih id).trans (ih' id)

/-- Where all ids are distinct, any order is one. -/
theorem reordered_of_perm (hperm : first.Perm second) (hnodup : (first.map idOf).Nodup) :
    Reordered idOf first second := by
  induction hperm with
  | nil => exact .nil
  | cons record _ ih => exact .cons record (ih (List.nodup_cons.mp hnodup).2)
  | swap a b rest =>
    refine .swap b a rest fun hsame => ?_
    exact (List.nodup_cons.mp hnodup).1 (hsame ▸ List.mem_cons_self)
  | trans hfirst _ ih ih' => exact .trans (ih hnodup) (ih' ((hfirst.map idOf).nodup_iff.mp hnodup))

/-- A record is of no account if a later one overwrites it. -/
theorem sameLast_of_overwritten {before after : List α} {record later : α}
    (hlater : later ∈ after) (hsame : idOf later = idOf record) :
    SameLast idOf (before ++ record :: after) (before ++ after) := by
  intro id
  rw [lastOf_append, lastOf_append, lastOf_cons]
  by_cases hid : idOf record = id
  · -- some record behind it is the last one of the id
    have hsome : (lastOf idOf after id).isSome := by
      unfold lastOf
      rw [List.find?_isSome]
      exact ⟨later, List.mem_reverse.mpr hlater, by simp [hsame, hid]⟩
    obtain ⟨last, hlast⟩ := Option.isSome_iff_exists.mp hsome
    rw [hlast, Option.some_or, Option.some_or]
  · rw [if_neg hid, Option.or_none]

end Last

/-! ## Graphs of the last records -/

/-- Whether two exports have the same last panda and the same last zoo of each id. -/
structure Export.SameLast (first second : Export) : Prop where
  pandas : LineageSearch.SameLast Panda.id first.pandas second.pandas
  zoos : LineageSearch.SameLast Zoo.id first.zoos second.zoos

/-- Whether two exports have the same records up to their order, where those of one id keep
theirs. -/
structure Export.Reordered (first second : Export) : Prop where
  pandas : LineageSearch.Reordered Panda.id first.pandas second.pandas
  zoos : LineageSearch.Reordered Zoo.id first.zoos second.zoos

theorem Export.Reordered.sameLast {first second : Export} (h : first.Reordered second) :
    first.SameLast second :=
  ⟨h.pandas.sameLast, h.zoos.sameLast⟩

namespace Graph

variable {first second : Export}

/-- **The graph is a function of the last record of each id**, and no two choices of last records
have one graph. -/
theorem ofExport_eq_iff : ofExport first = ofExport second ↔ first.SameLast second := by
  constructor
  · intro hgraph
    exact ⟨latestById_eq_iff.mp (congrArg Graph.pandas hgraph),
      latestById_eq_iff.mp (congrArg Graph.zoos hgraph)⟩
  · intro hlast
    unfold ofExport
    rw [latestById_eq_iff.mpr hlast.pandas, latestById_eq_iff.mpr hlast.zoos]

/-- **All questions about the records are answered from the last record of each id.**  Two exports
have one graph exactly if their last records are the same, and then the answers are, in the same
order.  So they are for exports in which records of different ids have changed places, for those
that list the same records of distinct ids in any order, and for those from which an overwritten
record is left out. -/
theorem source_of_last_records (first second : Export) :
    (ofExport first = ofExport second ↔ first.SameLast second) ∧
    (first.SameLast second → (ofExport first).source = (ofExport second).source) ∧
    (first.Reordered second → (ofExport first).source = (ofExport second).source) ∧
    (first.pandas.Perm second.pandas → (first.pandas.map Panda.id).Nodup →
      first.zoos.Perm second.zoos → (first.zoos.map Zoo.id).Nodup →
      (ofExport first).source = (ofExport second).source) ∧
    (∀ before old later after, later ∈ after → later.id = old.id →
      (ofExport { first with pandas := before ++ old :: after }).source =
        (ofExport { first with pandas := before ++ after }).source) ∧
    (∀ before old later after, later ∈ after → later.id = old.id →
      (ofExport { first with zoos := before ++ old :: after }).source =
        (ofExport { first with zoos := before ++ after }).source) := by
  have hsource : ∀ one other : Export, one.SameLast other →
      (ofExport one).source = (ofExport other).source :=
    fun one other hlast => congrArg source (ofExport_eq_iff.mpr hlast)
  refine ⟨ofExport_eq_iff, hsource first second, ?_, ?_, ?_, ?_⟩
  · intro hreordered
    exact hsource _ _ hreordered.sameLast
  · intro hpandas hpandaIds hzoos hzooIds
    have hreordered : first.Reordered second :=
      ⟨reordered_of_perm hpandas hpandaIds, reordered_of_perm hzoos hzooIds⟩
    exact hsource _ _ hreordered.sameLast
  · intro before old later after hlater hsame
    exact hsource _ _ ⟨sameLast_of_overwritten hlater hsame, fun id => rfl⟩
  · intro before old later after hlater hsame
    exact hsource _ _ ⟨fun id => rfl, sameLast_of_overwritten hlater hsame⟩

/-- A panda was renamed after another one was entered.  Nothing is found under what its first record
said, and the two last records alone give the same answers in either order. -/
theorem source_of_last_records_renamed_panda :
    let old : Panda :=
      { id := 1, names := { en := some "Marimo".toList }, birthday := some ⟨2021, 6, 1⟩,
        photos := [{ url := "k".toList, author := some "Alice".toList }] }
    let renamed : Panda := { id := 1, names := { en := some "Gin".toList } }
    let other : Panda := { id := 2, names := { en := some "Koume".toList } }
    let zoo : Zoo := { id := 7 }
    let renamedZoo : Zoo := { id := 7, names := { en := some "Nishiyama".toList } }
    let entered : Export := { pandas := [old, other, renamed] }
    let kept : Export := { pandas := [other, renamed] }
    let turned : Export := { pandas := [renamed, other] }
    (ofExport entered).source = (ofExport turned).source ∧
      (ofExport kept).source = (ofExport turned).source ∧
      (ofExport turned).source = (ofExport kept).source ∧
      (ofExport entered).source = (ofExport kept).source ∧
      (ofExport { zoos := [zoo, renamedZoo] }).source = (ofExport { zoos := [renamedZoo] }).source ∧
      (ofExport entered).pandasNamed "Marimo".toList = [] ∧
      (ofExport entered).births none = [] ∧ (ofExport entered).photosBy "alice".toList = [] := by
  intro old renamed other zoo renamedZoo entered kept turned
  have hswap : LineageSearch.Reordered Panda.id kept.pandas turned.pandas :=
    .swap other renamed [] (by decide)
  have hdrop : LineageSearch.SameLast Panda.id ([] ++ old :: kept.pandas) ([] ++ kept.pandas) :=
    sameLast_of_overwritten (List.mem_cons_of_mem other List.mem_cons_self) rfl
  have hsame : entered.SameLast turned :=
    ⟨fun id => (hdrop id).trans (hswap.sameLast id), fun id => rfl⟩
  obtain ⟨-, hlast, -, -, hpanda, -⟩ := source_of_last_records entered turned
  obtain ⟨-, -, hreordered, -, -, -⟩ := source_of_last_records kept turned
  obtain ⟨-, -, -, hperm, -, -⟩ := source_of_last_records turned kept
  obtain ⟨-, -, -, -, -, hzoo⟩ := source_of_last_records {} {}
  refine ⟨hlast hsame, ?_, ?_, ?_, ?_, by decide +kernel, by decide +kernel, by decide +kernel⟩
  · exact hreordered ⟨hswap, .nil⟩
  · exact hperm (.swap other renamed []) (by decide) .nil List.nodup_nil
  · exact hpanda [] old renamed [other, renamed] (by simp) rfl
  · exact hzoo [] zoo renamedZoo [renamedZoo] (by simp) rfl

end Graph

end LineageSearch
