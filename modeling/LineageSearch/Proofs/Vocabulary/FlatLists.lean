import LineageSearch.Proofs.Listing
import LineageSearch.Vocabulary.Basic

/-!
# Flat lists of keyword values

A keyword value is a tree whose leaves are words.  Every place in it has an address, the places of
the members that lead there, and from left to right addresses ascend number by number.  So there are
two ways to say which words a value stands for:

* every address at which a word is found (`Keywords.HasLeaf`);
* the words with their addresses, gathered member by member (`Keywords.leaves`).

They agree for a value of any depth (`listsBy_leaves`), and the flat list is the gathered words
without their addresses (`map_snd_leaves`).  No word is left out, none is dropped as a repeat, and
the names of groups are no words.

What is put in at an address changes its own part of the flat list and nothing else
(`exists_flatten_replaceAt`).  So a value may give way to its own flat list wherever it stands.

## Strategy

Lists and groups differ by names only, which play no part here.  Both are compounds of members
(`Keywords.members`), a word is made of none, and what follows is proved for words and for compounds
of values for which it holds (`members_induction`).
-/

namespace LineageSearch.Keywords

variable {value found : Keywords} {path : List Nat}

/-! ## Members and addresses -/

/-- The values that a value is made of, in declared order.  A word is not made of any. -/
def members : Keywords → List Keywords
  | word _ => []
  | list members => members
  | group members => members.map Prod.snd

/-- Whether a value is a list or a group, be it an empty one. -/
def IsCompound (value : Keywords) : Prop := ∀ text, value ≠ word text

/-- What stands at an address. -/
def at? (value : Keywords) : List Nat → Option Keywords
  | [] => some value
  | place :: path => value.members[place]?.bind fun member => member.at? path

/-- The value with another one put in at an address.  Where the address leads nowhere, nothing is
put in. -/
def replaceAt : Keywords → List Nat → Keywords → Keywords
  | _, [], new => new
  | word text, _ :: _, _ => word text
  | list members, place :: path, new =>
    list (members.modify place fun member => member.replaceAt path new)
  | group members, place :: path, new =>
    group (members.modify place fun entry => (entry.1, entry.2.replaceAt path new))

mutual

/-- The words of a value with their addresses, from left to right. -/
def leaves : Keywords → List (List Nat × Text)
  | word text => [([], text)]
  | list members => leavesOfList 0 members
  | group members => leavesOfGroup 0 members

/-- The words of members whose places are counted from a number on. -/
def leavesOfList (place : Nat) : List Keywords → List (List Nat × Text)
  | [] => []
  | member :: rest =>
    (leaves member).map (fun leaf => (place :: leaf.1, leaf.2)) ++ leavesOfList (place + 1) rest

def leavesOfGroup (place : Nat) : List (Text × Keywords) → List (List Nat × Text)
  | [] => []
  | (_, member) :: rest =>
    (leaves member).map (fun leaf => (place :: leaf.1, leaf.2)) ++ leavesOfGroup (place + 1) rest

end

theorem sizeOf_lt_of_mem_members {member : Keywords} (h : member ∈ value.members) :
    sizeOf member < sizeOf value := by
  cases value with
  | word text => cases h
  | list members =>
    have hmem := List.sizeOf_lt_of_mem (show member ∈ members from h)
    rw [list.sizeOf_spec]
    omega
  | group members =>
    obtain ⟨⟨name, member⟩, hentry, rfl⟩ := List.mem_map.mp h
    have hmem := List.sizeOf_lt_of_mem hentry
    simp only [Prod.mk.sizeOf_spec] at hmem
    show sizeOf member < _
    rw [group.sizeOf_spec]
    omega

/-- What holds of words, and of compounds of values of which it holds, holds of all values. -/
theorem members_induction {P : Keywords → Prop} (word : ∀ text, P (word text))
    (compound : ∀ value, value.IsCompound → (∀ member ∈ value.members, P member) → P value)
    (value : Keywords) : P value := by
  by_cases hword : ∃ text, value = .word text
  · obtain ⟨text, rfl⟩ := hword
    exact word text
  · refine compound value (fun text heq => hword ⟨text, heq⟩) fun member hmember => ?_
    exact members_induction word compound member
termination_by sizeOf value
decreasing_by exact sizeOf_lt_of_mem_members hmember

/-! ## The flat list of a compound -/

theorem flatten_list (members : List Keywords) :
    (list members).flatten = members.flatMap flatten := by
  rw [flatten]
  induction members with
  | nil => rfl
  | cons member rest ih => rw [flattenList, ih, List.flatMap_cons]

theorem flatten_group (members : List (Text × Keywords)) :
    (group members).flatten = members.flatMap fun entry => entry.2.flatten := by
  rw [flatten]
  induction members with
  | nil => rfl
  | cons entry rest ih => rw [flattenGroup, ih, List.flatMap_cons]

theorem flatten_of_isCompound (h : value.IsCompound) :
    value.flatten = value.members.flatMap flatten := by
  cases value with
  | word text => exact absurd rfl (h text)
  | list members => exact flatten_list members
  | group members => rw [flatten_group, Keywords.members, List.flatMap_map]

/-- A member contributes its own flat list, between those of the members around it. -/
theorem flatten_of_members_eq {before after : List Keywords} {member : Keywords}
    (h : value.members = before ++ member :: after) :
    value.flatten = before.flatMap flatten ++ member.flatten ++ after.flatMap flatten := by
  have hcompound : value.IsCompound := by
    rintro text rfl
    simp [members] at h
  rw [flatten_of_isCompound hcompound, h, List.flatMap_append, List.flatMap_cons,
    List.append_assoc]

/-! ## Words at their addresses -/

/-- Whether a word stands at its address in a value. -/
def HasLeaf (value : Keywords) (leaf : List Nat × Text) : Prop :=
  value.at? leaf.1 = some (word leaf.2)

/-- The words of members, each address with the place of the member in front. -/
def leavesAmong (members : List Keywords) : List (List Nat × Text) :=
  members.zipIdx.flatMap fun entry =>
    entry.1.leaves.map fun leaf => (entry.2 :: leaf.1, leaf.2)

theorem leaves_of_isCompound (h : value.IsCompound) :
    value.leaves = leavesAmong value.members := by
  have hlist : ∀ (members : List Keywords) (place : Nat), leavesOfList place members =
      (members.zipIdx place).flatMap fun entry =>
        entry.1.leaves.map fun leaf => (entry.2 :: leaf.1, leaf.2) := by
    intro members
    induction members with
    | nil => exact fun _ => rfl
    | cons member rest ih =>
      intro place
      rw [leavesOfList, ih, List.zipIdx_cons, List.flatMap_cons]
  have hgroup : ∀ (members : List (Text × Keywords)) (place : Nat),
      leavesOfGroup place members = leavesOfList place (members.map Prod.snd) := by
    intro members
    induction members with
    | nil => exact fun _ => rfl
    | cons entry rest ih =>
      intro place
      rw [leavesOfGroup, ih, List.map_cons, leavesOfList]
  cases value with
  | word text => exact absurd rfl (h text)
  | list members => rw [leaves, hlist, leavesAmong, Keywords.members]
  | group members => rw [leaves, hgroup, hlist, leavesAmong, Keywords.members]

/-- **The flat list is the words from left to right.** -/
theorem map_snd_leaves (value : Keywords) : value.leaves.map Prod.snd = value.flatten := by
  induction value using members_induction with
  | word text => rw [leaves, flatten, List.map_singleton]
  | compound value hcompound ih =>
    calc value.leaves.map Prod.snd
        = value.members.zipIdx.flatMap fun entry => entry.1.leaves.map Prod.snd := by
          rw [leaves_of_isCompound hcompound, leavesAmong, List.map_flatMap]
          simp only [List.map_map, Function.comp_def]
      _ = value.members.zipIdx.flatMap fun entry => entry.1.flatten :=
          List.flatMap_congr fun entry hentry => ih entry.1 (List.fst_mem_of_mem_zipIdx hentry)
      _ = value.members.flatMap flatten := by
          rw [← List.flatMap_map Prod.fst flatten, List.zipIdx_map_fst]
      _ = value.flatten := (flatten_of_isCompound hcompound).symm

/-- A compound has the words of its members. -/
theorem hasLeaf_iff_of_isCompound (h : value.IsCompound) {leaf : List Nat × Text} :
    value.HasLeaf leaf ↔ ∃ place path member, leaf.1 = place :: path ∧
      value.members[place]? = some member ∧ member.HasLeaf (path, leaf.2) := by
  obtain ⟨address, text⟩ := leaf
  cases address with
  | nil =>
    refine iff_of_false (fun hleaf => h text (Option.some.inj hleaf)) ?_
    rintro ⟨place, path, member, hnil, -⟩
    cases hnil
  | cons place path =>
    rw [HasLeaf, at?, Option.bind_eq_some_iff]
    constructor
    · rintro ⟨member, hplace, hleaf⟩
      exact ⟨place, path, member, rfl, hplace, hleaf⟩
    · rintro ⟨_, _, member, heq, hplace, hleaf⟩
      obtain ⟨rfl, rfl⟩ := List.cons.inj heq
      exact ⟨member, hplace, hleaf⟩

/-- **The words of a value are those at its addresses, by their addresses.** -/
theorem listsBy_leaves (value : Keywords) : ListsBy Prod.fst value.HasLeaf value.leaves := by
  induction value using members_induction with
  | word text =>
    rw [leaves]
    refine ⟨List.pairwise_singleton _ _, ?_⟩
    rintro ⟨address, found⟩
    cases address with
    | nil => simp [HasLeaf, at?, eq_comm]
    | cons place path => simp [HasLeaf, at?, members]
  | compound value hcompound ih =>
    rw [leaves_of_isCompound hcompound]
    constructor
    · refine pairwise_flatMap_place (fun leaf => leaf.1.tail) (pairwise_zipIdx _) ?_ ?_
      · intro entry _ leaf hleaf
        obtain ⟨inner, -, rfl⟩ := List.mem_map.mp hleaf
        rfl
      · intro entry hentry
        exact List.pairwise_map.mpr (ih entry.1 (List.fst_mem_of_mem_zipIdx hentry)).1
    · rintro ⟨address, text⟩
      rw [hasLeaf_iff_of_isCompound hcompound, leavesAmong, List.mem_flatMap]
      constructor
      · rintro ⟨⟨member, place⟩, hentry, hleaf⟩
        obtain ⟨⟨path, found⟩, hinner, heq⟩ := List.mem_map.mp hleaf
        obtain ⟨rfl, rfl⟩ := Prod.mk.inj heq
        exact ⟨place, path, member, rfl, List.mem_zipIdx_iff_getElem?.mp hentry,
          ((ih member (List.fst_mem_of_mem_zipIdx hentry)).2 _).mp hinner⟩
      · rintro ⟨place, path, member, rfl, hplace, hleaf⟩
        have hentry : (member, place) ∈ value.members.zipIdx :=
          List.mem_zipIdx_iff_getElem?.mpr hplace
        exact ⟨_, hentry, List.mem_map.mpr ⟨(path, text),
          ((ih member (List.fst_mem_of_mem_zipIdx hentry)).2 _).mpr hleaf, rfl⟩⟩

/-! ## Replacing a value -/

theorem members_replaceAt (value : Keywords) (place : Nat) (path : List Nat) (new : Keywords) :
    (value.replaceAt (place :: path) new).members =
      value.members.modify place fun member => member.replaceAt path new := by
  cases value with
  | word text => simp [replaceAt, members]
  | list members => rfl
  | group members =>
    rw [replaceAt, Keywords.members, Keywords.members]
    refine List.ext_getElem? fun i => ?_
    simp only [List.getElem?_map, List.getElem?_modify]
    cases members[i]? with
    | none => rfl
    | some entry => by_cases hplace : place = i <;> simp [hplace]

/-- What was put in at an address stands there. -/
theorem at?_replaceAt (h : value.at? path = some found) (new : Keywords) :
    (value.replaceAt path new).at? path = some new := by
  induction path generalizing value with
  | nil => cases value <;> rfl
  | cons place path ih =>
    obtain ⟨member, hplace, hmember⟩ := Option.bind_eq_some_iff.mp h
    rw [at?, members_replaceAt, List.getElem?_modify, hplace]
    simpa using ih hmember

/-- **What is put in at an address changes its own part of the flat list only.** -/
theorem exists_flatten_replaceAt (h : value.at? path = some found) :
    ∃ before after, value.flatten = before ++ found.flatten ++ after ∧
      ∀ new, (value.replaceAt path new).flatten = before ++ new.flatten ++ after := by
  induction path generalizing value with
  | nil =>
    obtain rfl := Option.some.inj h
    refine ⟨[], [], by simp, fun new => ?_⟩
    cases value <;> simp [replaceAt]
  | cons place path ih =>
    obtain ⟨member, hplace, hmember⟩ := Option.bind_eq_some_iff.mp h
    obtain ⟨before, after, hflat, hreplaced⟩ := ih hmember
    obtain ⟨hlt, rfl⟩ := List.getElem?_eq_some_iff.mp hplace
    have hmembers : value.members = value.members.take place ++
        value.members[place] :: value.members.drop (place + 1) := by
      rw [← List.drop_eq_getElem_cons hlt, List.take_append_drop]
    refine ⟨(value.members.take place).flatMap flatten ++ before,
      after ++ (value.members.drop (place + 1)).flatMap flatten, ?_, fun new => ?_⟩
    · rw [flatten_of_members_eq hmembers, hflat]
      simp only [List.append_assoc]
    · have hmodified := members_replaceAt value place path new
      rw [List.modify_eq_take_cons_drop hlt] at hmodified
      rw [flatten_of_members_eq hmodified, hreplaced]
      simp only [List.append_assoc]

/-- A value that gives way to another one with the same flat list leaves the whole list as it is. -/
theorem flatten_replaceAt_of_flatten_eq (h : value.at? path = some found) {new : Keywords}
    (hnew : new.flatten = found.flatten) : (value.replaceAt path new).flatten = value.flatten := by
  obtain ⟨before, after, hflat, hreplaced⟩ := exists_flatten_replaceAt h
  rw [hreplaced, hnew, hflat]

/-- **The flat list of a value is its words in order.**  Whatever its depth, a value has one list of
words by ascending addresses that leaves out none and repeats no address, and the flat list is this
list without the addresses.  The flat list of a list or of a group is those of the members one after
the other, and a flat list is its own flat list.  Wherever a value gives way to its own flat list,
which then stands in its place, the whole flat list is as before.  The words of tags are those of
the groups of the tags one after the other. -/
theorem flatten_in_order (value : Keywords) (tags : Tags) :
    (∀ leaves, leaves = value.leaves ↔ ListsBy Prod.fst value.HasLeaf leaves) ∧
    value.flatten = value.leaves.map Prod.snd ∧
    (∀ members, (list members).flatten = members.flatMap flatten) ∧
    (∀ members, (group members).flatten = members.flatMap fun entry => entry.2.flatten) ∧
    (ofWords value.flatten).flatten = value.flatten ∧
    (∀ path found, value.at? path = some found →
      (value.replaceAt path (ofWords found.flatten)).at? path = some (ofWords found.flatten) ∧
      (value.replaceAt path (ofWords found.flatten)).flatten = value.flatten) ∧
    tags.words = tags.groups.flatMap Prod.snd := by
  refine ⟨(listsBy_leaves value).eq_iff, (map_snd_leaves value).symm, flatten_list, flatten_group,
    flatten_ofWords _, fun path found hfound => ⟨at?_replaceAt hfound _, ?_⟩,
    tags.words_eq_flatMap_groups⟩
  exact flatten_replaceAt_of_flatten_eq hfound (flatten_ofWords _)

/-- A tag with a group inside a list, an empty group and a word that is declared twice.  The group
at the address 0, 1 gives way to the list of its words. -/
theorem flatten_in_order_sleeping :
    let inner := group [("a".toList, word "nap".toList), ("b".toList, word "asleep".toList)]
    let value := group
      [("en".toList, list [word "asleep".toList, inner]), ("de".toList, group []),
        ("jp".toList, word "寝".toList)]
    let flattened := group
      [("en".toList, list [word "asleep".toList, list [word "nap".toList, word "asleep".toList]]),
        ("de".toList, group []), ("jp".toList, word "寝".toList)]
    let tags := Vocabulary.ofList [("sleeping".toList, value), ("yawn".toList, word "yawn".toList)]
    value.at? [0, 1] = some inner ∧
      value.flatten = ["asleep".toList, "nap".toList, "asleep".toList, "寝".toList] ∧
      flattened.flatten = value.flatten ∧
      (ofWords value.flatten).flatten = value.flatten ∧
      ListsBy Prod.fst value.HasLeaf
        [([0, 0], "asleep".toList), ([0, 1, 0], "nap".toList), ([0, 1, 1], "asleep".toList),
          ([2], "寝".toList)] ∧
      tags.words =
        ["asleep".toList, "nap".toList, "asleep".toList, "寝".toList, "yawn".toList] := by
  intro inner value flattened tags
  obtain ⟨hleaves, hflat, -, -, hagain, hreplace, htags⟩ := flatten_in_order value tags
  have hinner : value.at? [0, 1] = some inner := rfl
  refine ⟨hinner, ?_, (hreplace [0, 1] inner hinner).2, hagain, (hleaves _).mp ?_, ?_⟩
  · rw [hflat]
    rfl
  · rfl
  · rw [htags]
    rfl

end LineageSearch.Keywords
