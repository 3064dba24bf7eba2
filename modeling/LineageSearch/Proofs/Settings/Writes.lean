import LineageSearch.FirstSeen
import LineageSearch.Proofs.Listing
import LineageSearch.Proofs.NamedEntries
import LineageSearch.Settings.Layer

/-!
# Layers as writes

A layer laid over others is a row of writes, each to the part of a table to which a name and
steps lead.  So are the entries of one table laid over those of another; there no write takes
steps beyond its name.

What a row of writes does to a table is read off name by name:

* `Writes.get?_lay`: only the writes under a name change its value, one after the other;
* `Writes.names_lay`: names that are present keep their places, and new ones follow in the order
  in which they are written first;
* `Writes.tableAt?_lay`: inside a table that every write leaves a table, the writes that lead
  there are again a row of writes to it;
* `Writes.under_ofLayer`: a layer in which no path leads into a name writes there as a table does.

A write of anything but a table replaces what it comes down on; there is no row of writes inside
then, and `Writes.inside?` has none.
-/

namespace LineageSearch

/-- A value that is laid over another replaces it, unless it is a table. -/
theorem Setting.overlay_of_ne_table {value : Setting} (h : ∀ entries, value ≠ .table entries)
    (below : Option Setting) : overlay below value = value := by
  cases value with
  | table entries => exact absurd rfl (h entries)
  | _ => rfl

/-- A value that is laid over the part of another to which steps lead. -/
structure SettingWrite where
  steps : List SettingStep := []
  value : Setting

/-- The value with the write laid over it. -/
def SettingWrite.onto (write : SettingWrite) (below : Option Setting) : Setting :=
  write.value.overlayAt write.steps below

/-- Writes to a table one after the other, each under the name at which it begins. -/
abbrev Writes := Entries SettingWrite

namespace Writes

variable {writes inner : Writes} {below : Entries Setting} {name : Text}

/-- The writes of a layer, whose names are paths. -/
def ofLayer (layer : Entries Setting) : Writes :=
  layer.map fun (name, value) =>
    let path := SettingPath.ofName name
    (path.root, ⟨path.steps, value⟩)

/-- The writes of a table, whose names stand for themselves. -/
def ofTable (entries : Entries Setting) : Writes :=
  entries.map fun (name, value) => (name, ⟨[], value⟩)

theorem ofLayer_cons (name : Text) (value : Setting) (layer : Entries Setting) :
    ofLayer ((name, value) :: layer) =
      ((SettingPath.ofName name).root, ⟨(SettingPath.ofName name).steps, value⟩) ::
        ofLayer layer :=
  rfl

theorem ofTable_cons (name : Text) (value : Setting) (entries : Entries Setting) :
    ofTable ((name, value) :: entries) = (name, ⟨[], value⟩) :: ofTable entries :=
  rfl

/-- The table with the writes laid over it. -/
def lay (writes : Writes) (below : Entries Setting) : Entries Setting :=
  writes.foldl (fun written (name, write) => written.put name (write.onto (written.get? name)))
    below

/-- The writes that begin at a name. -/
def under (name : Text) (writes : Writes) : List SettingWrite :=
  (writes.filter (·.1 = name)).map Prod.snd

theorem overlayLayer_eq (below layer : Entries Setting) :
    overlayLayer below layer = (ofLayer layer).lay below := by
  rw [overlayLayer, lay, ofLayer, List.foldl_map]
  rfl

theorem overlayEntries_eq (below entries : Entries Setting) :
    Setting.overlayEntries below entries = (ofTable entries).lay below := by
  induction entries generalizing below with
  | nil => rfl
  | cons entry rest ih =>
    rw [Setting.overlayEntries, ih]
    rfl

theorem lay_append (first second : Writes) (below : Entries Setting) :
    (first ++ second : Writes).lay below = second.lay (first.lay below) :=
  List.foldl_append

/-! ## Name by name -/

theorem under_cons (name : Text) (entry : Text × SettingWrite) (rest : Writes) :
    under name (entry :: rest) =
      if entry.1 = name then entry.2 :: under name rest else under name rest := by
  rw [under, List.filter_cons]
  split <;> simp_all [under]

theorem under_append (name : Text) (first second : Writes) :
    under name (first ++ second) = under name first ++ under name second := by
  rw [under, List.filter_append, List.map_append, ← under, ← under]

theorem under_eq_nil_iff : under name writes = [] ↔ name ∉ writes.names := by
  simp only [under, Entries.names, List.map_eq_nil_iff, List.filter_eq_nil_iff, List.mem_map,
    decide_eq_true_eq, not_exists, not_and]

/-- The value under a name changes with the writes that begin there, and with no other. -/
theorem get?_lay (writes : Writes) (below : Entries Setting) (name : Text) :
    (writes.lay below).get? name =
      (writes.under name).foldl (fun value write => some (write.onto value))
        (below.get? name) := by
  induction writes generalizing below with
  | nil => rfl
  | cons entry rest ih =>
    rw [under_cons]
    change ((lay rest _).get? name) = _
    rw [ih, Entries.get?_put]
    split
    · next hname => rw [List.foldl_cons, hname]
    · rfl

theorem get?_lay_of_notMem (h : name ∉ writes.names) :
    (writes.lay below).get? name = below.get? name := by
  rw [get?_lay, under_eq_nil_iff.mpr h, List.foldl_nil]

/-- Names that are present keep their places; the others follow as they are written first. -/
theorem names_lay (writes : Writes) (below : Entries Setting) :
    (writes.lay below).names =
      below.names ++ (firstSeen writes.names).filter (· ∉ below.names) := by
  induction writes using List.reverseRecOn with
  | nil => simp [lay, Entries.names, firstSeen]
  | append_singleton before last ih =>
    have hnames : Entries.names (before ++ [last]) = Entries.names before ++ [last.1] :=
      List.map_append
    rw [lay_append]
    change (Entries.put _ _ _).names = _
    rw [Entries.names_put, ih, hnames, firstSeen_append_singleton]
    by_cases hbefore : last.1 ∈ Entries.names before
    · by_cases hbelow : last.1 ∈ below.names <;> simp [hbefore, hbelow]
    · by_cases hbelow : last.1 ∈ below.names <;>
        simp [hbefore, hbelow, List.filter_append]

theorem nodup_names_lay (h : below.names.Nodup) : (writes.lay below).names.Nodup := by
  induction writes generalizing below with
  | nil => exact h
  | cons entry rest ih => exact ih (Entries.nodup_names_put h _ _)

end Writes

/-! ## Inside a table -/

/-- The writes to a table that a write to its place amounts to; none if it makes the place
something else. -/
def SettingWrite.into? : SettingWrite → Option Writes
  | ⟨.entry name :: steps, value⟩ => some [(name, ⟨steps, value⟩)]
  | ⟨[], .table entries⟩ => some (Writes.ofTable entries)
  | _ => none

theorem SettingWrite.onto_of_into? {write : SettingWrite} {inner : Writes}
    (h : write.into? = some inner) (below : Option Setting) :
    write.onto below = .table (inner.lay (Setting.entriesOf below)) := by
  obtain ⟨steps, value⟩ := write
  match steps, value with
  | .entry name :: steps, value =>
    rw [into?, Option.some.injEq] at h
    subst h
    rfl
  | [], .table entries =>
    rw [into?, Option.some.injEq] at h
    subst h
    rw [onto, Setting.overlayAt, Setting.overlay, Writes.overlayEntries_eq]
  | .item _ :: _, _ => simp [into?] at h
  | [], .null | [], .bool _ | [], .integer _ | [], .decimal _ | [], .text _ | [], .list _ =>
    simp [into?] at h

namespace Writes

variable {writes inner : Writes} {below : Entries Setting} {name : Text}

/-- The writes to the table under a name; none if a write makes it something else. -/
def inside? (name : Text) (writes : Writes) : Option Writes :=
  ((writes.under name).mapM SettingWrite.into?).map List.flatten

/-- The writes to the table to which names lead. -/
def insideAt? : List Text → Writes → Option Writes
  | [], writes => some writes
  | name :: path, writes => (writes.inside? name).bind (insideAt? path)

theorem exists_of_mapM_cons {write : SettingWrite} {rest : List SettingWrite} {inner : List Writes}
    (h : (write :: rest).mapM SettingWrite.into? = some inner) :
    ∃ first others, write.into? = some first ∧ rest.mapM SettingWrite.into? = some others ∧
      inner = first :: others := by
  rw [List.mapM_cons] at h
  obtain ⟨first, hfirst, h⟩ := Option.bind_eq_some_iff.mp h
  obtain ⟨others, hothers, h⟩ := Option.bind_eq_some_iff.mp h
  exact ⟨first, others, hfirst, hothers, (Option.some.inj h).symm⟩

/-- A table stays one under writes that each lead inside it. -/
theorem foldl_onto {row : List SettingWrite} {inner : List Writes}
    (h : row.mapM SettingWrite.into? = some inner) (entries : Entries Setting) :
    row.foldl (fun value write => some (write.onto value)) (some (.table entries)) =
      some (.table (lay inner.flatten entries)) := by
  induction row generalizing entries inner with
  | nil =>
    rw [List.mapM_nil] at h
    obtain rfl := Option.some.inj h
    rfl
  | cons write rest ih =>
    obtain ⟨first, others, hfirst, hothers, rfl⟩ := exists_of_mapM_cons h
    rw [List.foldl_cons, SettingWrite.onto_of_into? hfirst, ih hothers, List.flatten_cons,
      lay_append, Setting.entriesOf]

theorem get?_lay_of_inside? {entries : Entries Setting} (h : writes.inside? name = some inner)
    (hbelow : below.get? name = some (.table entries)) :
    (writes.lay below).get? name = some (.table (inner.lay entries)) := by
  obtain ⟨row, hrow, rfl⟩ := Option.map_eq_some_iff.mp h
  rw [get?_lay, hbelow, foldl_onto hrow]

/-- Writes that lead inside a table build it where there is none. -/
theorem get?_lay_of_inside?_of_mem (below : Entries Setting)
    (h : writes.inside? name = some inner) (hmem : name ∈ writes.names) :
    (writes.lay below).get? name =
      some (.table (inner.lay (Setting.entriesOf (below.get? name)))) := by
  obtain ⟨row, hrow, rfl⟩ := Option.map_eq_some_iff.mp h
  cases hunder : writes.under name with
  | nil => exact absurd hmem (under_eq_nil_iff.mp hunder)
  | cons write rest =>
    rw [hunder] at hrow
    obtain ⟨first, others, hfirst, hothers, rfl⟩ := exists_of_mapM_cons hrow
    rw [get?_lay, hunder, List.foldl_cons, SettingWrite.onto_of_into? hfirst, foldl_onto hothers,
      List.flatten_cons, lay_append]

/-- Where one table at most is written under a name, its entries are what is written inside. -/
theorem inside?_of_under {value : Option Setting}
    (h : writes.under name = (value.map (SettingWrite.mk [])).toList)
    (hvalue : ∀ written, value = some written → ∃ entries, written = .table entries) :
    writes.inside? name = some (ofTable (Setting.entriesOf value)) := by
  rw [inside?, h]
  cases value with
  | none => rfl
  | some written =>
    obtain ⟨entries, rfl⟩ := hvalue written rfl
    simp [SettingWrite.into?, Setting.entriesOf]

/-- A value that is no table and is written last stays as it is. -/
theorem get?_lay_of_under (below : Entries Setting) {value : Setting}
    (h : (writes.under name).getLast? = some ⟨[], value⟩)
    (hvalue : ∀ entries, value ≠ .table entries) : (writes.lay below).get? name = some value := by
  obtain ⟨before, hunder⟩ := List.getLast?_eq_some_iff.mp h
  rw [get?_lay, hunder, List.foldl_append, List.foldl_cons, List.foldl_nil, SettingWrite.onto,
    Setting.overlayAt, Setting.overlay_of_ne_table hvalue]

end Writes

/-- The table to which names lead inside another. -/
def Setting.tableAt? : List Text → Entries Setting → Option (Entries Setting)
  | [], entries => some entries
  | name :: path, entries =>
    match entries.get? name with
    | some (.table inner) => tableAt? path inner
    | _ => none

/-- The entries of what names lead to, which are none where that is no table. -/
def Setting.entriesAt : List Text → Entries Setting → Entries Setting
  | [], entries => entries
  | name :: path, entries => entriesAt path (entriesOf (entries.get? name))

theorem Setting.get?_of_tableAt?_cons {name : Text} {path : List Text}
    {entries inner : Entries Setting} (h : tableAt? (name :: path) entries = some inner) :
    ∃ middle, entries.get? name = some (.table middle) ∧ tableAt? path middle = some inner := by
  rw [tableAt?] at h
  split at h
  · next middle hget => exact ⟨middle, hget, h⟩
  · cases h

/-- What is written to a table inside another is laid over it. -/
theorem Writes.tableAt?_lay {path : List Text} {writes inner : Writes}
    {below entries : Entries Setting} (h : writes.insideAt? path = some inner)
    (hbelow : Setting.tableAt? path below = some entries) :
    Setting.tableAt? path (writes.lay below) = some (inner.lay entries) := by
  induction path generalizing writes below with
  | nil =>
    obtain rfl := Option.some.inj h
    obtain rfl := Option.some.inj hbelow
    rfl
  | cons name path ih =>
    obtain ⟨middle, hmiddle, h⟩ := Option.bind_eq_some_iff.mp h
    obtain ⟨under, hunder, hbelow⟩ := Setting.get?_of_tableAt?_cons hbelow
    rw [Setting.tableAt?, get?_lay_of_inside? hmiddle hunder]
    exact ih h hbelow

/-! ## Names that are paths -/

namespace SettingPath

theorem eq_nil_of_steps? {t : Text} (h : steps? t.length t = some []) : t = [] := by
  cases t with
  | nil => rfl
  | cons c rest =>
    rw [List.length_cons, steps?] at h
    · obtain ⟨_, _, h⟩ := Option.bind_eq_some_iff.mp h
      obtain ⟨_, _, h⟩ := Option.bind_eq_some_iff.mp h
      cases h
    · simp

/-- A name without steps stands for itself. -/
theorem ofName_of_steps_eq_nil {name : Text} (h : (ofName name).steps = []) :
    ofName name = ⟨name, []⟩ := by
  rw [ofName] at h ⊢
  cases hread : ofText? name with
  | none => rfl
  | some path =>
    rw [hread, Option.getD_some] at h
    obtain ⟨⟨root, rest⟩, hname, hread⟩ := Option.bind_eq_some_iff.mp hread
    obtain ⟨steps, hsteps, hread⟩ := Option.bind_eq_some_iff.mp hread
    obtain rfl := Option.some.inj hread
    dsimp only at h
    subst h
    have hrest := eq_nil_of_steps? hsteps
    unfold name? at hname
    extract_lets row at hname
    split at hname
    · cases hname
    · obtain ⟨rfl, rfl⟩ := Prod.mk.inj (Option.some.inj hname)
      have hlength : name.length ≤ row.length := List.drop_eq_nil_iff.mp hrest
      have hrow : row = name := (List.takeWhile_sublist _).eq_of_length_le hlength
      rw [hrow, Option.getD_some]

/-- A name at the top of a layer that leads to a part of what stands under another. -/
def LeadsInto (root name : Text) : Prop :=
  (ofName name).root = root ∧ (ofName name).steps ≠ []

end SettingPath

/-- A layer in which no name is a path that leads inside what stands under another. -/
def NoPathInto (root : Text) (layer : Entries Setting) : Prop :=
  ∀ entry ∈ layer, ¬ SettingPath.LeadsInto root entry.1

namespace Writes

variable {layer entries : Entries Setting} {root name : Text}

theorem under_ofLayer (hroot : SettingPath.ofName root = ⟨root, []⟩) (h : NoPathInto root layer) :
    (ofLayer layer).under root = (ofTable layer).under root := by
  induction layer with
  | nil => rfl
  | cons entry rest ih =>
    obtain ⟨name, value⟩ := entry
    have hrest := ih fun other hother => h other (List.mem_cons_of_mem _ hother)
    rw [ofLayer_cons, ofTable_cons, under_cons, under_cons, hrest]
    by_cases hname : name = root
    · rw [hname, hroot]
    · have hother : (SettingPath.ofName name).root ≠ root := by
        intro hsame
        by_cases hsteps : (SettingPath.ofName name).steps = []
        · rw [SettingPath.ofName_of_steps_eq_nil hsteps] at hsame
          exact hname hsame
        · exact h _ List.mem_cons_self ⟨hsame, hsteps⟩
      rw [if_neg hname, if_neg hother]

/-- Where no name repeats, one write at most begins at a name. -/
theorem under_ofTable (h : entries.names.Nodup) (name : Text) :
    (ofTable entries).under name = ((entries.get? name).map (SettingWrite.mk [])).toList := by
  induction entries with
  | nil => rfl
  | cons entry rest ih =>
    obtain ⟨other, value⟩ := entry
    rw [Entries.names, List.map_cons, List.nodup_cons] at h
    rw [ofTable_cons, under_cons, Entries.get?, ih h.2]
    dsimp only
    split
    · next hname =>
      have hnone : Entries.get? name rest = none :=
        Entries.get?_eq_none_iff.mpr (hname ▸ h.1)
      rw [hnone]
      rfl
    · rfl

end Writes

end LineageSearch
