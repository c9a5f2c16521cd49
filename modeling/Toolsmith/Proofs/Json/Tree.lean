import Mathlib.Data.List.Nodup
import Toolsmith.Json.Reader
import Toolsmith.Proofs.Bracketed

/-!
Trees of JSON values. What is read from a tree is the value that the tree was made from, with the
members of each object put together: a key that is repeated keeps its first place and its last
value. Every text that is read holds the tree of some value, so nothing that is read repeats a key.
-/

set_option autoImplicit false

namespace Toolsmith.Json

/-! A value as it stands in a text. -/

mutual

/-- The tree of a value; a key that an object repeats stands in it as often. -/
def tree : Json → Tree Token
  | .arr items => .group .square (itemTrees items)
  | .obj members => .group .curly (memberTrees members)
  | value => .leaf (.scalar value)

def itemTrees : List Json → List (Tree Token)
  | [] => []
  | item :: rest => item.tree :: moreItemTrees rest

def moreItemTrees : List Json → List (Tree Token)
  | [] => []
  | item :: rest => .leaf .comma :: item.tree :: moreItemTrees rest

def memberTrees : List (String × Json) → List (Tree Token)
  | [] => []
  | (key, value) :: rest =>
    .leaf (.scalar (.str key)) :: .leaf .colon :: value.tree :: moreMemberTrees rest

def moreMemberTrees : List (String × Json) → List (Tree Token)
  | [] => []
  | (key, value) :: rest =>
    .leaf .comma :: .leaf (.scalar (.str key)) :: .leaf .colon :: value.tree :: moreMemberTrees rest

end

mutual

/-- The value that is read where a value stands in a text. -/
def merged : Json → Json
  | .arr items => .arr (mergedItems items)
  | .obj members => .obj (mergedMembers [] members)
  | value => value

def mergedItems : List Json → List Json
  | [] => []
  | item :: rest => item.merged :: mergedItems rest

/-- The members after those in `before`. -/
def mergedMembers (before : List (String × Json)) : List (String × Json) → List (String × Json)
  | [] => before
  | (key, value) :: rest => mergedMembers (put key value.merged before) rest

end

mutual

theorem ofTree?_tree (json : Json) : ofTree? json.tree = some json.merged := by
  match json with
  | .null => rfl
  | .bool _ => rfl
  | .int _ => rfl
  | .float _ => rfl
  | .str _ => rfl
  | .arr items => rw [tree, ofTree?, items?_itemTrees items, merged, Option.map_some]
  | .obj members => rw [tree, ofTree?, members?_memberTrees members, merged, Option.map_some]

theorem items?_itemTrees (items : List Json) :
    items? (itemTrees items) = some (mergedItems items) := by
  match items with
  | [] => rfl
  | item :: rest =>
    rw [itemTrees, items?, ofTree?_tree item, moreItems?_moreItemTrees rest]
    rfl

theorem moreItems?_moreItemTrees (items : List Json) :
    moreItems? (moreItemTrees items) = some (mergedItems items) := by
  match items with
  | [] => rfl
  | item :: rest =>
    rw [moreItemTrees, moreItems?, ofTree?_tree item, moreItems?_moreItemTrees rest]
    rfl

theorem members?_memberTrees (members : List (String × Json)) :
    members? (memberTrees members) = some (mergedMembers [] members) := by
  match members with
  | [] => rfl
  | (key, value) :: rest =>
    rw [memberTrees, members?, ofTree?_tree value]
    exact moreMembers?_moreMemberTrees [(key, value.merged)] rest

theorem moreMembers?_moreMemberTrees (before members : List (String × Json)) :
    moreMembers? before (moreMemberTrees members) = some (mergedMembers before members) := by
  match members with
  | [] => rfl
  | (key, value) :: rest =>
    rw [moreMemberTrees, moreMembers?, ofTree?_tree value]
    exact moreMembers?_moreMemberTrees (put key value.merged before) rest

end

/-! Every tree that is read is the tree of a value. -/

/-- Single values are tokens; arrays and objects are not. -/
def Token.IsFlat : Token → Prop
  | .scalar value => value.tree = .leaf (.scalar value) ∧ value.merged = value
  | _ => True

def TreesAreFlat (trees : List (Tree Token)) : Prop :=
  ∀ tree ∈ trees, ∀ token, .token token ∈ tree.pieces → token.IsFlat

theorem TreesAreFlat.of_group {bracket : Bracket} {members : List (Tree Token)}
    (flat : TreesAreFlat [.group bracket members]) : TreesAreFlat members := by
  intro tree member token inside
  apply flat (.group bracket members) List.mem_cons_self
  simp only [Tree.pieces, List.cons_append, List.mem_cons, List.mem_append, List.mem_flatMap]
  exact .inr (.inl ⟨tree, member, inside⟩)

theorem TreesAreFlat.of_cons {tree : Tree Token} {trees : List (Tree Token)}
    (flat : TreesAreFlat (tree :: trees)) : TreesAreFlat [tree] ∧ TreesAreFlat trees :=
  ⟨fun other member => flat other (List.mem_cons.mpr (.inl (List.mem_singleton.mp member))),
    fun other member => flat other (List.mem_cons_of_mem tree member)⟩

mutual

theorem exists_of_ofTree? {json : Json} (tree : Tree Token) (flat : TreesAreFlat [tree])
    (read : ofTree? tree = some json) :
    ∃ source, Json.tree source = tree ∧ merged source = json := by
  unfold ofTree? at read
  split at read
  · rename_i value
    obtain ⟨tree, same⟩ := flat (.leaf (.scalar value)) List.mem_cons_self (.scalar value)
      (by simp [Tree.pieces])
    exact ⟨value, tree, same.trans (Option.some.inj read)⟩
  · rename_i trees
    obtain ⟨items, readItems, rfl⟩ := Option.map_eq_some_iff.mp read
    obtain ⟨sources, rfl, rfl⟩ := exists_of_items? trees flat.of_group readItems
    exact ⟨.arr sources, by rw [Json.tree], by rw [merged]⟩
  · rename_i trees
    obtain ⟨members, readMembers, rfl⟩ := Option.map_eq_some_iff.mp read
    obtain ⟨sources, rfl, rfl⟩ := exists_of_members? trees flat.of_group readMembers
    exact ⟨.obj sources, by rw [Json.tree], by rw [merged]⟩
  · contradiction
termination_by sizeOf tree

theorem exists_of_items? {items : List Json} (trees : List (Tree Token))
    (flat : TreesAreFlat trees) (read : items? trees = some items) :
    ∃ sources, itemTrees sources = trees ∧ mergedItems sources = items := by
  unfold items? at read
  split at read
  · exact ⟨[], rfl, Option.some.inj read⟩
  · rename_i item rest
    obtain ⟨value, readItem, read⟩ := Option.bind_eq_some_iff.mp read
    obtain ⟨values, readRest, made⟩ := Option.bind_eq_some_iff.mp read
    obtain rfl := Option.some.inj made
    obtain ⟨source, rfl, rfl⟩ := exists_of_ofTree? item flat.of_cons.1 readItem
    obtain ⟨sources, rfl, rfl⟩ := exists_of_moreItems? rest flat.of_cons.2 readRest
    exact ⟨source :: sources, by rw [itemTrees], by rw [mergedItems]⟩
termination_by sizeOf trees

theorem exists_of_moreItems? {items : List Json} (trees : List (Tree Token))
    (flat : TreesAreFlat trees) (read : moreItems? trees = some items) :
    ∃ sources, moreItemTrees sources = trees ∧ mergedItems sources = items := by
  unfold moreItems? at read
  split at read
  · exact ⟨[], rfl, Option.some.inj read⟩
  · rename_i item rest
    obtain ⟨value, readItem, read⟩ := Option.bind_eq_some_iff.mp read
    obtain ⟨values, readRest, made⟩ := Option.bind_eq_some_iff.mp read
    obtain rfl := Option.some.inj made
    have flat := flat.of_cons.2
    obtain ⟨source, rfl, rfl⟩ := exists_of_ofTree? item flat.of_cons.1 readItem
    obtain ⟨sources, rfl, rfl⟩ := exists_of_moreItems? rest flat.of_cons.2 readRest
    exact ⟨source :: sources, by rw [moreItemTrees], by rw [mergedItems]⟩
  · contradiction
termination_by sizeOf trees

theorem exists_of_members? {members : List (String × Json)} (trees : List (Tree Token))
    (flat : TreesAreFlat trees) (read : members? trees = some members) :
    ∃ sources, memberTrees sources = trees ∧ mergedMembers [] sources = members := by
  unfold members? at read
  split at read
  · exact ⟨[], rfl, Option.some.inj read⟩
  · rename_i key item rest
    obtain ⟨value, readItem, readRest⟩ := Option.bind_eq_some_iff.mp read
    have flat := flat.of_cons.2.of_cons.2
    obtain ⟨source, rfl, rfl⟩ := exists_of_ofTree? item flat.of_cons.1 readItem
    obtain ⟨sources, rfl, rfl⟩ := exists_of_moreMembers? rest flat.of_cons.2 readRest
    exact ⟨(key, source) :: sources, by rw [memberTrees], by rw [mergedMembers]; rfl⟩
  · contradiction
termination_by sizeOf trees

theorem exists_of_moreMembers? {before members : List (String × Json)} (trees : List (Tree Token))
    (flat : TreesAreFlat trees) (read : moreMembers? before trees = some members) :
    ∃ sources, moreMemberTrees sources = trees ∧ mergedMembers before sources = members := by
  unfold moreMembers? at read
  split at read
  · exact ⟨[], rfl, Option.some.inj read⟩
  · rename_i key item rest
    obtain ⟨value, readItem, readRest⟩ := Option.bind_eq_some_iff.mp read
    have flat := flat.of_cons.2.of_cons.2.of_cons.2
    obtain ⟨source, rfl, rfl⟩ := exists_of_ofTree? item flat.of_cons.1 readItem
    obtain ⟨sources, rfl, rfl⟩ := exists_of_moreMembers? rest flat.of_cons.2 readRest
    exact ⟨(key, source) :: sources, by rw [moreMemberTrees], by rw [mergedMembers]⟩
  · contradiction
termination_by sizeOf trees

end

/-! Repeated keys. -/

/-- The keys stand where they stand first. -/
theorem keys_mergedMembers (before members : List (String × Json)) :
    (mergedMembers before members).map Prod.fst =
      before.map Prod.fst ++
        ((members.map Prod.fst).filter fun key =>
          !(before.map Prod.fst).contains key).eraseDups := by
  induction members generalizing before with
  | nil => simp [mergedMembers]
  | cons member rest inductionHypothesis =>
      obtain ⟨key, value⟩ := member
      rw [mergedMembers, inductionHypothesis, keys_put, List.map_cons, List.filter_cons]
      by_cases present : key ∈ before.map Prod.fst
      · simp [present]
      · have kept : (fun other => !(before.map Prod.fst ++ [key]).contains other) =
            fun other => !(other == key) && !(before.map Prod.fst).contains other := by
          funext other
          simp only [List.contains_append, List.contains_cons, List.contains_nil, Bool.or_false,
            Bool.not_or, Bool.and_comm]
        rw [if_neg present, if_pos (by simpa using present), kept, List.eraseDups_cons,
          List.filter_filter, List.append_assoc, List.singleton_append]

theorem lookup_cons_eq_ite (key other : String) (value : Json) (members : List (String × Json)) :
    ((key, value) :: members).lookup other =
      if other = key then some value else members.lookup other := by
  rw [List.lookup_cons]
  by_cases same : other = key
  · rw [same, beq_self_eq_true, if_pos rfl]
  · rw [beq_false_of_ne same, if_neg same]

theorem lookup_put (key other : String) (value : Json) (members : List (String × Json)) :
    (put key value members).lookup other =
      if other = key then some value else members.lookup other := by
  induction members with
  | nil => exact lookup_cons_eq_ite key other value []
  | cons member rest inductionHypothesis =>
      obtain ⟨first, held⟩ := member
      by_cases same : first = key
      · rw [put, if_pos same, lookup_cons_eq_ite, lookup_cons_eq_ite, same]
        split <;> rfl
      · rw [put, if_neg same, lookup_cons_eq_ite, inductionHypothesis, lookup_cons_eq_ite]
        by_cases asked : other = first
        · have different : other ≠ key := fun h => same (asked.symm.trans h)
          rw [if_pos asked, if_neg different, if_pos asked]
        · rw [if_neg asked, if_neg asked]

/-- The last value of a key counts. -/
theorem lookup_mergedMembers (key : String) (before members : List (String × Json)) :
    (mergedMembers before members).lookup key =
      ((members.reverse.lookup key).map merged).or (before.lookup key) := by
  induction members generalizing before with
  | nil => rfl
  | cons member rest inductionHypothesis =>
      obtain ⟨first, value⟩ := member
      rw [mergedMembers, inductionHypothesis, lookup_put, List.reverse_cons, List.lookup_append,
        lookup_cons_eq_ite]
      cases rest.reverse.lookup key with
      | some last => rfl
      | none => by_cases same : key = first <;> simp [same]

/-- No object in a value holds a key twice. -/
inductive HasDistinctKeys : Json → Prop
  | null : HasDistinctKeys .null
  | bool (value : Bool) : HasDistinctKeys (.bool value)
  | int (value : Int) : HasDistinctKeys (.int value)
  | float (value : Double) : HasDistinctKeys (.float value)
  | str (value : String) : HasDistinctKeys (.str value)
  | arr (items : List Json) (each : ∀ item ∈ items, HasDistinctKeys item) :
      HasDistinctKeys (.arr items)
  | obj (members : List (String × Json)) (distinct : (members.map Prod.fst).Nodup)
      (each : ∀ member ∈ members, HasDistinctKeys member.2) : HasDistinctKeys (.obj members)

theorem mem_put {key : String} {value : Json} {members : List (String × Json)}
    {member : String × Json} (held : member ∈ put key value members) :
    member = (key, value) ∨ member ∈ members := by
  induction members with
  | nil => exact .inl (List.mem_singleton.mp held)
  | cons first rest inductionHypothesis =>
      rw [put] at held
      split at held
      · rcases List.mem_cons.mp held with here | later
        · exact .inl here
        · exact .inr (List.mem_cons_of_mem first later)
      · rcases List.mem_cons.mp held with here | later
        · exact .inr (List.mem_cons.mpr (.inl here))
        · exact (inductionHypothesis later).imp_right (List.mem_cons_of_mem first)

theorem nodup_keys_put {key : String} {value : Json} {members : List (String × Json)}
    (distinct : (members.map Prod.fst).Nodup) : ((put key value members).map Prod.fst).Nodup := by
  rw [keys_put]
  split
  · exact distinct
  · rename_i absent
    simpa using List.Nodup.concat absent distinct

mutual

/-- What is read repeats no key. -/
theorem hasDistinctKeys_merged (json : Json) : json.merged.HasDistinctKeys := by
  match json with
  | .null => exact .null
  | .bool value => exact .bool value
  | .int value => exact .int value
  | .float value => exact .float value
  | .str value => exact .str value
  | .arr items =>
    rw [merged]
    exact .arr _ (hasDistinctKeys_mergedItems items)
  | .obj members =>
    rw [merged]
    have distinct := hasDistinctKeys_mergedMembers members [] List.nodup_nil nofun
    exact .obj _ distinct.1 distinct.2

theorem hasDistinctKeys_mergedItems (items : List Json) :
    ∀ item ∈ mergedItems items, item.HasDistinctKeys := by
  match items with
  | [] => exact nofun
  | item :: rest =>
    rw [mergedItems]
    exact List.forall_mem_cons.mpr
      ⟨hasDistinctKeys_merged item, hasDistinctKeys_mergedItems rest⟩

theorem hasDistinctKeys_mergedMembers (members before : List (String × Json))
    (distinct : (before.map Prod.fst).Nodup)
    (each : ∀ member ∈ before, member.2.HasDistinctKeys) :
    ((mergedMembers before members).map Prod.fst).Nodup ∧
      ∀ member ∈ mergedMembers before members, member.2.HasDistinctKeys := by
  match members with
  | [] => exact ⟨distinct, each⟩
  | (key, value) :: rest =>
    rw [mergedMembers]
    apply hasDistinctKeys_mergedMembers rest _ (nodup_keys_put distinct)
    intro member held
    rcases mem_put held with rfl | before
    · exact hasDistinctKeys_merged value
    · exact each member before

end

theorem put_of_notMem {key : String} (value : Json) {members : List (String × Json)}
    (absent : key ∉ members.map Prod.fst) : put key value members = members ++ [(key, value)] := by
  induction members with
  | nil => rfl
  | cons member rest inductionHypothesis =>
      obtain ⟨other, later⟩ := not_or.mp (mt List.mem_cons.mpr absent)
      rw [put, if_neg (Ne.symm other), inductionHypothesis later, List.cons_append]

theorem mergedItems_eq_map (items : List Json) : mergedItems items = items.map merged := by
  induction items with
  | nil => rfl
  | cons item rest inductionHypothesis => rw [mergedItems, inductionHypothesis, List.map_cons]

theorem mergedMembers_of_nodup {before members : List (String × Json)}
    (distinct : ((before ++ members).map Prod.fst).Nodup)
    (each : ∀ member ∈ members, member.2.merged = member.2) :
    mergedMembers before members = before ++ members := by
  induction members generalizing before with
  | nil => rw [mergedMembers, List.append_nil]
  | cons member rest inductionHypothesis =>
      obtain ⟨key, value⟩ := member
      obtain ⟨first, others⟩ := List.forall_mem_cons.mp each
      have absent : key ∉ before.map Prod.fst := by
        rw [List.map_append, List.nodup_append] at distinct
        exact fun present => distinct.2.2 key present key List.mem_cons_self rfl
      rw [List.append_cons] at distinct ⊢
      rw [mergedMembers, first, put_of_notMem value absent, inductionHypothesis distinct others]

/-- A value without repeated keys is read as it is. -/
theorem merged_of_hasDistinctKeys {json : Json} (distinct : json.HasDistinctKeys) :
    json.merged = json := by
  induction distinct with
  | null => rfl
  | bool => rfl
  | int => rfl
  | float => rfl
  | str => rfl
  | arr items _ inductionHypothesis =>
      rw [merged, mergedItems_eq_map, List.map_congr_left inductionHypothesis, List.map_id']
  | obj members distinct _ inductionHypothesis =>
      rw [merged, mergedMembers_of_nodup (List.nil_append members ▸ distinct) inductionHypothesis,
        List.nil_append]

end Toolsmith.Json
