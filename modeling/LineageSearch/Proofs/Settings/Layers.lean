import LineageSearch.Proofs.Settings.Reading
import LineageSearch.Proofs.Settings.TomlTables

/-!
# What each layer contributes

Settings are loaded from the layer of a file and the layer of variables over the built-in one.  A
layer changes what it mentions, and nothing else (`Settings.Layered`):

| setting                              | comes from                                            |
|--------------------------------------|-------------------------------------------------------|
| language, strictness, path of export | the variable, else the file, else the built-in value  |
| a group that no layer mentions       | the built-in keywords                                 |
| a group given as text or list        | the last value given                                  |
| a group given as a table             | that table and the built-in one, merged by entry      |

Names at the top of a file are paths, and so are those of variables: `tags.sleeping.en[0]` mentions
the tag `sleeping`, wherever it stands.  So a file need not mention a tag to see it changed, and
operators written as a list leave nothing of the built-in ones.  What is said of groups is therefore
told by the writes that lead to them, from both layers.

Both layers are one row of writes to the built-in layer (`overlayLayers_eq`).  Where no path
interferes, a name is written once by each at most, since no name stands twice in a file
(`namesOnce_of_content?`) or among the variables.  Nothing else is asked of a file, so what is said
of its table holds in every notation that names an entry once (`layered_of_ofLayers?`).
-/

namespace LineageSearch

namespace Settings

/-! ## Over the built-in layer -/

/-- The settings of the built-in layer alone. -/
def builtin : Settings := { operators := .builtin, tags := .builtin }

/-- No name of the built-in layer is a path. -/
theorem ofLayer_builtinLayer : Writes.ofLayer builtinLayer = Writes.ofTable builtinLayer := by
  have hname : ∀ name ∈ ["language", "strict_keywords", "operators", "tags"],
      SettingPath.ofName name.toList = ⟨name.toList, []⟩ := by decide
  simp only [List.forall_mem_cons] at hname
  obtain ⟨hlanguage, hstrict, hoperators, htags, _⟩ := hname
  simp only [builtinLayer, Writes.ofLayer_cons, Writes.ofTable_cons, hlanguage, hstrict,
    hoperators, htags]
  rfl

theorem overlayLayer_nil_builtinLayer : overlayLayer [] builtinLayer = builtinLayer := by
  have hvalues : ∀ entry ∈ builtinLayer, Setting.overlay none entry.2 = entry.2 := by
    simp only [builtinLayer, List.forall_mem_cons]
    exact ⟨rfl, rfl, rfl, rfl, by simp⟩
  rw [Writes.overlayLayer_eq, ofLayer_builtinLayer, ← Writes.overlayEntries_eq,
    Setting.overlayEntries_of_nodup [] (by decide) hvalues, List.nil_append]

theorem tableAt?_builtinLayer (table : GroupTable) :
    Setting.tableAt? table.path builtinLayer =
      some (Keywords.groupToSettings (table.groups builtin).entries) := by
  cases table <;> rfl

/-- Both layers together are one row of writes to the built-in layer. -/
theorem overlayLayers_eq (content environ : Entries Setting) :
    overlayLayers [builtinLayer, content, environ] =
      (Writes.ofLayer (content ++ environ)).lay builtinLayer := by
  rw [Writes.ofLayer, List.map_append, Writes.lay_append, ← Writes.ofLayer, ← Writes.ofLayer,
    ← Writes.overlayLayer_eq, ← Writes.overlayLayer_eq]
  rw [overlayLayers, List.foldl_cons, overlayLayer_nil_builtinLayer, List.foldl_cons,
    List.foldl_cons, List.foldl_nil]

/-- The table that the text of a settings file denotes, empty where there is no file. -/
def content? : Option (SettingsFormat × Text) → Option (Entries Setting)
  | some (format, text) => fileLayer? format text
  | none => some []

theorem load?_eq (file : Option (SettingsFormat × Text)) (environ : List (Text × Text)) :
    load? file environ =
      (content? file).bind fun content => ofLayers? content (variableLayer environ) := by
  cases file <;> rfl

/-- In the table of a settings file no name stands twice. -/
theorem namesOnce_of_content? {file : Option (SettingsFormat × Text)} {content : Entries Setting}
    (h : content? file = some content) : Setting.NamesOnce (.table content) := by
  match file with
  | none =>
    obtain rfl := Option.some.inj h
    exact .table List.nodup_nil (by simp)
  | some (.toml, text) => exact Toml.namesOnce_of_tableOf? h
  | some (.json, text) => exact Setting.namesOnce_of_tableOfJsonText? h

/-- Variables hold texts. -/
theorem once_variableLayer (environ : List (Text × Text)) :
    (variableLayer environ).Once fun value => ∃ t, value = .text t := by
  refine .ofList fun entry hentry => ?_
  obtain ⟨⟨name, value⟩, _, hread⟩ := List.mem_filterMap.mp hentry
  unfold variableEntry? at hread
  dsimp only at hread
  split at hread
  · obtain rfl := Option.some.inj hread
    exact ⟨value, rfl⟩
  · cases hread

/-! ## Layers -/

/-- What a layer of variables gives for a name, or else what a layer of a file does. -/
def given (name : Text) (content environ : Entries Setting) : Option Setting :=
  (environ.get? name).or (content.get? name)

/-- How settings come from the layer of a file and the layer of variables.

* `language`, `strictKeywords`, `graph`: read from the variable, else from the file, else the
  default, unless a path leads into them;
* `groups`: a table of groups is the built-in one under the writes to it, as long as it stays a
  table;
* `plain`: where no path leads to it, the writes to a table of groups are the entries of the file,
  in their order. -/
structure Layered (content environ : Entries Setting) (settings : Settings) : Prop where
  language : NoPathInto "language".toList (content ++ environ) →
    (given "language".toList content environ).elim (some .en) Setting.language? =
      some settings.language
  strictKeywords : NoPathInto "strict_keywords".toList (content ++ environ) →
    (given "strict_keywords".toList content environ).elim (some false) Setting.truth? =
      some settings.strictKeywords
  graph : NoPathInto "graph".toList (content ++ environ) →
    (given "graph".toList content environ).elim (some none) path? = some settings.graph
  groups : ∀ (table : GroupTable) (written : Writes),
    (Writes.ofLayer (content ++ environ)).insideAt? table.path = some written →
      Keywords.Overlaid (table.groups builtin).entries written (table.groups settings).entries
  plain : ∀ table : GroupTable, NoPathInto table.root (content ++ environ) →
    (∀ items, content.get? table.root ≠ some (.list items)) →
      (Writes.ofLayer (content ++ environ)).insideAt? table.path =
        some (Writes.ofTable (Setting.entriesAt table.path content))

section Layers

variable {content environ : Entries Setting} {settings : Settings} {root : Text}

/-- A layer of a file and a layer of variables, as they are read: no name stands twice in either,
and variables hold texts. -/
structure LayersOnce (content environ : Entries Setting) : Prop where
  content : content.Once Setting.NamesOnce
  environ : environ.Once fun value => ∃ t, value = .text t

/-- Where no path leads into a name, each layer writes to it at most once. -/
theorem LayersOnce.under_eq (honce : LayersOnce content environ)
    (hroot : SettingPath.ofName root = ⟨root, []⟩) (h : NoPathInto root (content ++ environ)) :
    (Writes.ofLayer (content ++ environ)).under root =
      ((content.get? root).map (SettingWrite.mk [])).toList ++
        ((environ.get? root).map (SettingWrite.mk [])).toList := by
  rw [Writes.under_ofLayer hroot h, Writes.ofTable, List.map_append, Writes.under_append,
    ← Writes.ofTable, ← Writes.ofTable, Writes.under_ofTable honce.content.nodup,
    Writes.under_ofTable honce.environ.nodup]

/-- A value that is given for a name, and is no table, stands there in the end. -/
theorem LayersOnce.get?_lay_of_given {value : Setting} (honce : LayersOnce content environ)
    (hroot : SettingPath.ofName root = ⟨root, []⟩) (h : NoPathInto root (content ++ environ))
    (hgiven : given root content environ = some value) (hvalue : ∀ entries, value ≠ .table entries)
    (below : Entries Setting) :
    ((Writes.ofLayer (content ++ environ)).lay below).get? root = some value := by
  refine Writes.get?_lay_of_under below ?_ hvalue
  rw [honce.under_eq hroot h]
  unfold given at hgiven
  cases henviron : environ.get? root with
  | some written =>
    rw [henviron, Option.some_or] at hgiven
    simp [Option.some.inj hgiven]
  | none =>
    rw [henviron, Option.none_or] at hgiven
    simp [hgiven]

/-- Where no path leads into a name that holds no table, the last value given counts. -/
theorem LayersOnce.get?_lay {below : Entries Setting} (honce : LayersOnce content environ)
    (hroot : SettingPath.ofName root = ⟨root, []⟩) (h : NoPathInto root (content ++ environ))
    (hbelow : Setting.entriesOf (below.get? root) = []) :
    ((Writes.ofLayer (content ++ environ)).lay below).get? root =
      (given root content environ).or (below.get? root) := by
  rw [Writes.get?_lay, honce.under_eq hroot h, given]
  cases henviron : environ.get? root with
  | some value =>
    obtain ⟨t, rfl⟩ := honce.environ.of_get? henviron
    cases content.get? root <;> rfl
  | none =>
    cases hget : content.get? root with
    | none => rfl
    | some value =>
      have hvalue := Setting.overlay_of_namesOnce (honce.content.of_get? hget) _ hbelow
      exact congrArg some hvalue

/-- Where no path leads into the tags or operators, the file alone writes to them. -/
theorem LayersOnce.inside?_root (honce : LayersOnce content environ)
    (hread : ReadFrom ((Writes.ofLayer (content ++ environ)).lay builtinLayer) settings)
    (table : GroupTable) (hpath : NoPathInto table.root (content ++ environ))
    (hlist : ∀ items, content.get? table.root ≠ some (.list items)) :
    (Writes.ofLayer (content ++ environ)).inside? table.root =
      some (Writes.ofTable (Setting.entriesOf (content.get? table.root))) := by
  have hroot : SettingPath.ofName table.root = ⟨table.root, []⟩ := by
    cases table <;> decide
  -- a text cannot be read there, so that no variable has the name
  have hnone : environ.get? table.root = none := by
    cases hget : environ.get? table.root with
    | none => rfl
    | some value =>
      obtain ⟨t, rfl⟩ := honce.environ.of_get? hget
      have hgiven : given table.root content environ = some (.text t) := by
        rw [given, hget, Option.some_or]
      have hlaid := honce.get?_lay_of_given hroot hpath hgiven (by simp) builtinLayer
      obtain ⟨_, htext⟩ := hread.exists_entries table hlaid (by simp)
      cases htext
  have hunder := honce.under_eq hroot hpath
  rw [hnone, Option.map_none, Option.toList_none, List.append_nil] at hunder
  refine Writes.inside?_of_under hunder fun value hget => ?_
  by_contra hvalue
  have hgiven : given table.root content environ = some value := by
    rw [given, hnone, Option.none_or, hget]
  have hlaid := honce.get?_lay_of_given hroot hpath hgiven (not_exists.mp hvalue) builtinLayer
  exact hvalue (hread.exists_entries table hlaid fun items h => hlist items (h ▸ hget))

/-- In a table that is read as a dictionary, categories are written as tables. -/
theorem inside?_category {entries below : Entries Setting} {dictionary : Dictionary} {name : Text}
    {vocabulary : Vocabulary} (hnodup : entries.names.Nodup)
    (hread : Dictionary.ofSetting? (.table ((Writes.ofTable entries).lay below)) =
      some dictionary)
    (hmem : (name, vocabulary) ∈ dictionary.categories) :
    (Writes.ofTable entries).inside? name =
      some (Writes.ofTable (Setting.entriesOf (entries.get? name))) := by
  have hunder := Writes.under_ofTable hnodup name
  refine Writes.inside?_of_under hunder fun value hget => ?_
  by_contra hvalue
  have hlast : ((Writes.ofTable entries).under name).getLast? = some ⟨[], value⟩ := by
    rw [hunder, hget]
    rfl
  have hcategory := groups_of_dictionary hread name vocabulary hmem
  rw [Writes.get?_lay_of_under below hlast (not_exists.mp hvalue)] at hcategory
  cases value with
  | table inner => exact hvalue ⟨inner, rfl⟩
  | _ => cases hcategory

/-- Where no path leads to a table of groups, the entries of the file are written to it. -/
theorem LayersOnce.insideAt?_path (honce : LayersOnce content environ)
    (hread : ReadFrom ((Writes.ofLayer (content ++ environ)).lay builtinLayer) settings)
    (table : GroupTable) (hpath : NoPathInto table.root (content ++ environ))
    (hlist : ∀ items, content.get? table.root ≠ some (.list items)) :
    (Writes.ofLayer (content ++ environ)).insideAt? table.path =
      some (Writes.ofTable (Setting.entriesAt table.path content)) := by
  have hinside := honce.inside?_root hread table hpath hlist
  rw [GroupTable.path, Writes.insideAt?, hinside, Option.bind_some, Setting.entriesAt]
  rcases table.eq_tags_or_category settings with rfl | ⟨name, hname, hmem⟩
  · rfl
  · obtain ⟨hroot, hbranch⟩ := List.cons.inj hname
    rw [hroot] at hinside ⊢
    have hbuiltin : builtinLayer.get? "operators".toList = some Dictionary.builtin.toSetting := rfl
    have hoperators := hread.operators
    rw [Writes.get?_lay_of_inside? hinside hbuiltin] at hoperators
    have hnodup := (Setting.once_entriesOf honce.content "operators".toList).nodup
    rw [hbranch, Writes.insideAt?, inside?_category hnodup hoperators hmem]
    rfl

/-- A setting without parts is read from the variable, else from the file. -/
theorem LayersOnce.read_given {α : Type} {read : Setting → Option α} {default result : α}
    (honce : LayersOnce content environ) (hroot : SettingPath.ofName root = ⟨root, []⟩)
    (hbelow : Setting.entriesOf (builtinLayer.get? root) = [])
    (hdefault : (builtinLayer.get? root).elim (some default) read = some default)
    (hread : (((Writes.ofLayer (content ++ environ)).lay builtinLayer).get? root).elim
      (some default) read = some result)
    (h : NoPathInto root (content ++ environ)) :
    (given root content environ).elim (some default) read = some result := by
  rw [honce.get?_lay hroot h hbelow] at hread
  cases hgiven : given root content environ with
  | none =>
    rw [hgiven, Option.none_or, hdefault] at hread
    exact hread
  | some value =>
    rw [hgiven, Option.some_or] at hread
    exact hread

/-- What is written to a table of groups is laid over the built-in groups. -/
theorem overlaid_of_insideAt?
    (hread : ReadFrom ((Writes.ofLayer (content ++ environ)).lay builtinLayer) settings)
    (table : GroupTable) {written : Writes}
    (h : (Writes.ofLayer (content ++ environ)).insideAt? table.path = some written) :
    Keywords.Overlaid (table.groups builtin).entries written (table.groups settings).entries := by
  have htable := Writes.tableAt?_lay h (tableAt?_builtinLayer table)
  obtain ⟨members, hmembers, hgroups⟩ := hread.members_of_tableAt? table htable
  have hbase := Keywords.groupOfSettings?_groupToSettings (table.groups builtin).entries
  have hnodup : (Entries.names members).Nodup := by
    rw [Keywords.names_of_groupOfSettings? hmembers]
    apply Writes.nodup_names_lay
    rw [← Keywords.names_of_groupOfSettings? hbase]
    exact (table.groups builtin).nodup
  have hentries : (table.groups settings).entries = members := by
    rw [hgroups]
    exact Entries.ofList_of_nodup hnodup
  rw [hentries]
  exact Keywords.overlaid_of_lay hbase hmembers

end Layers

/-- Settings come from their layers as they should, in whatever notation the table of the file was
written. -/
theorem layered_of_ofLayers? {content : Entries Setting} {environ : List (Text × Text)}
    {settings : Settings} (hcontent : Setting.NamesOnce (.table content))
    (h : ofLayers? content (variableLayer environ) = some settings) :
    Layered content (variableLayer environ) settings := by
  rw [ofLayers?, overlayLayers_eq] at h
  have hread := readFrom_of_ofTable? h
  have honce : LayersOnce content (variableLayer environ) :=
    ⟨Setting.namesOnce_table_iff.mp hcontent, once_variableLayer environ⟩
  refine ⟨?language, ?strictKeywords, ?graph, ?groups, ?plain⟩
  case language => exact honce.read_given (by decide) rfl rfl hread.language
  case strictKeywords => exact honce.read_given (by decide) rfl rfl hread.strictKeywords
  case graph => exact honce.read_given (by decide) rfl rfl hread.graph
  case groups => exact fun table written => overlaid_of_insideAt? hread table
  case plain => exact honce.insideAt?_path hread

/-- Whatever is loaded comes from the layers as it should: a layer changes what it mentions, by an
entry or by a path, and leaves the rest to the layers below. -/
theorem layered_of_load? {file : Option (SettingsFormat × Text)} {environ : List (Text × Text)}
    {settings : Settings} (h : load? file environ = some settings) :
    ∃ content, content? file = some content ∧ Setting.NamesOnce (.table content) ∧
      Layered content (variableLayer environ) settings := by
  rw [load?_eq] at h
  obtain ⟨content, hfile, h⟩ := Option.bind_eq_some_iff.mp h
  have hcontent := namesOnce_of_content? hfile
  exact ⟨content, hfile, hcontent, layered_of_ofLayers? hcontent h⟩

/-- A file adds a tag, gives another one a single form and a third one a French form; one variable
sets the language again, and another leads into a fourth tag. -/
theorem layered_of_load?_manger :
    let file := some (SettingsFormat.toml, ("language = \"jp\"\n[tags]\nnap = [\"nap\"]\n" ++
      "yawn = \"gape\"\n[tags.eating]\nfr = [\"manger\"]\n").toList)
    let environ := [("PANDAQUERY_LANGUAGE".toList, "en".toList),
      ("PANDAQUERY_TAGS.SLEEPING.EN[0]".toList, "doze".toList)]
    let tags := [("sleeping".toList, ["doze", "asleep", "寝ている"].map String.toList),
      ("eating".toList, ["eating", "食べている", "manger"].map String.toList),
      ("tongue".toList, ["tongue", "舌"].map String.toList),
      ("yawn".toList, ["gape"].map String.toList),
      ("climb".toList, ["climb", "climbing", "木登り"].map String.toList),
      ("nap".toList, ["nap"].map String.toList)]
    ∃ settings, load? file environ = some settings ∧
      (∃ content, content? file = some content ∧ Setting.NamesOnce (.table content) ∧
        Layered content (variableLayer environ) settings) ∧
      settings.language = .en ∧ settings.tags.groups = tags := by
  intro file environ tags
  have hview : (load? file environ).map
      (fun settings => (settings.language, settings.tags.groups)) = some (.en, tags) := by
    decide +kernel
  obtain ⟨settings, hload, hview⟩ := Option.map_eq_some_iff.mp hview
  obtain ⟨hlanguage, htags⟩ := Prod.mk.inj hview
  exact ⟨settings, hload, layered_of_load? hload, hlanguage, htags⟩

/-- What a file does not mention is not always as built in: a variable may lead into a tag, and
operators that are listed leave no category as it was. -/
theorem not_kept_of_notMem_file :
    (¬ ∀ (file : Option (SettingsFormat × Text)) (environ : List (Text × Text)) (content settings),
      content? file = some content → load? file environ = some settings →
        ∀ name ∉ (Setting.entriesAt GroupTable.tags.path content).names,
          settings.tags.get? name = Tags.builtin.get? name) ∧
    (¬ ∀ (file : Option (SettingsFormat × Text)) (environ : List (Text × Text)) (content settings),
      content? file = some content → load? file environ = some settings →
        ∀ name ∉ (Setting.entriesAt GroupTable.types.path content).names,
          settings.operators.types.get? name = Dictionary.builtin.types.get? name) := by
  constructor
  · intro h
    have hview : (load? none [("PANDAQUERY_TAGS.SLEEPING.EN[0]".toList, "nap".toList)]).map
        (fun settings => (settings.tags.get? "sleeping".toList).map Keywords.flatten) =
          some (some (["nap", "asleep", "寝ている"].map String.toList)) := by
      decide +kernel
    obtain ⟨settings, hload, hview⟩ := Option.map_eq_some_iff.mp hview
    rw [h none _ [] settings rfl hload "sleeping".toList (by decide)] at hview
    revert hview
    decide
  · intro h
    have hfile : (content? (some (.toml, "operators = []\n".toList))).map
        (fun content => (Setting.entriesAt GroupTable.types.path content).names) = some [] := by
      decide +kernel
    have hview : (load? (some (.toml, "operators = []\n".toList)) []).map
        (fun settings => (settings.operators.types.get? "baby".toList).isSome) = some false := by
      decide +kernel
    obtain ⟨content, hcontent, hnames⟩ := Option.map_eq_some_iff.mp hfile
    obtain ⟨settings, hload, hview⟩ := Option.map_eq_some_iff.mp hview
    have hnone : "baby".toList ∉ (Setting.entriesAt GroupTable.types.path content).names := by
      rw [hnames]
      exact List.not_mem_nil
    rw [h _ [] content settings hcontent hload "baby".toList hnone] at hview
    revert hview
    decide

end Settings

end LineageSearch
