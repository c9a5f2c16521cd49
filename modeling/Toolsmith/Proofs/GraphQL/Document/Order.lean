import Mathlib.Data.List.Perm.Basic
import Toolsmith.Proofs.GraphQL.Schema.Closed

/-!
The order of definitions. A document keeps its rules and its schema when its definitions change
places, as long as the extensions of each single type stay in their order: rules look at all that is
declared, whatever comes first, and a name that is declared once is found wherever it stands.
-/

set_option autoImplicit false

namespace Toolsmith

/-! Lists with at most one item that is looked for. -/

theorem filterMap_eq_of_perm {α β : Type} {pick : α → Option β} {first second : List α}
    (perm : first.Perm second) (apart : first.Pairwise fun x y => pick x = none ∨ pick y = none) :
    first.filterMap pick = second.filterMap pick := by
  induction perm with
  | nil => rfl
  | cons x _ inductionHypothesis =>
      rw [List.filterMap_cons, List.filterMap_cons,
        inductionHypothesis (List.pairwise_cons.mp apart).2]
  | swap x y rest =>
      rcases (List.pairwise_cons.mp apart).1 x List.mem_cons_self with missing | missing
      · simp only [List.filterMap_cons, missing]
      · simp only [List.filterMap_cons, missing]
  | trans perm _ firstHypothesis secondHypothesis =>
      have middle := (perm.pairwise_iff fun {x y} => Or.symm).mp apart
      rw [firstHypothesis apart, secondHypothesis middle]

section

variable {α : Type} {key : α → String} {first second : List α}

/-- Where no key stands twice, what has a key does not depend on the order. -/
theorem filter_eq_of_perm (perm : first.Perm second) (distinct : (first.map key).Nodup)
    (name : String) :
    (first.filter fun x => key x = name) = second.filter fun x => key x = name := by
  rw [← List.filterMap_eq_filter]
  apply filterMap_eq_of_perm perm
  refine (List.pairwise_map.mp distinct).imp fun {x y} different => ?_
  by_cases found : key x = name
  · have other : key y ≠ name := fun same => different (found.trans same.symm)
    exact .inr (by simp [Option.guard, other])
  · exact .inl (by simp [Option.guard, found])

theorem find?_eq_of_perm (perm : first.Perm second) (distinct : (first.map key).Nodup)
    (name : String) :
    (first.find? fun x => key x = name) = second.find? fun x => key x = name := by
  rw [← List.head?_filter, filter_eq_of_perm perm distinct, List.head?_filter]

end

/-- What stands somewhere stands nowhere else. -/
theorem filter_eq_singleton {α : Type} {key : α → String} {items : List α}
    (distinct : (items.map key).Nodup) {x : α} (member : x ∈ items) :
    (items.filter fun y => key y = key x) = [x] := by
  obtain ⟨before, after, rfl⟩ := List.append_of_mem member
  have apart := (List.perm_middle.map key).nodup distinct
  rw [List.map_cons, List.nodup_cons] at apart
  have others : ((before ++ after).filter fun y => key y = key x) = [] := by
    rw [List.filter_eq_nil_iff]
    intro y included same
    exact apart.1 (List.mem_map.mpr ⟨y, included, of_decide_eq_true same⟩)
  rw [filter_eq_of_perm List.perm_middle distinct, List.filter_cons_of_pos (by simp), others]

theorem lookup_eq_of_perm {κ β : Type} [BEq κ] [LawfulBEq κ] {first second : List (κ × β)}
    (perm : first.Perm second) (distinct : (first.map Prod.fst).Nodup) (key : κ) :
    first.lookup key = second.lookup key := by
  rw [List.lookup_eq_findSome?, List.lookup_eq_findSome?, ← List.head?_filterMap,
    ← List.head?_filterMap, filterMap_eq_of_perm perm]
  refine (List.pairwise_map.mp distinct).imp fun {x y} different => ?_
  by_cases found : key = x.1
  · have other : ¬ key = y.1 := fun same => different (found.symm.trans same)
    exact .inr (by simp [other])
  · exact .inl (by simp [found])

namespace GraphQL.Document

variable {first second : Document}

/-- The same definitions in another order, in which the extensions of each single type have stayed
in theirs. -/
structure Rearranges (first second : Document) : Prop where
  perm : first.Perm second
  extensions : ∀ name,
    (first.typeExtensions.filter fun declared => declared.name = name) =
      second.typeExtensions.filter fun declared => declared.name = name

/-! What a document declares, in any order. -/

section

variable (perm : first.Perm second)

include perm

theorem typeDefinitions_perm : first.typeDefinitions.Perm second.typeDefinitions :=
  perm.filterMap _

theorem typeExtensions_perm : first.typeExtensions.Perm second.typeExtensions :=
  perm.filterMap _

theorem schemaDefinitions_perm : first.schemaDefinitions.Perm second.schemaDefinitions :=
  perm.filterMap _

theorem directiveDefinitions_perm : first.directiveDefinitions.Perm second.directiveDefinitions :=
  perm.filterMap _

theorem typeDeclarations_perm : first.typeDeclarations.Perm second.typeDeclarations :=
  (typeDefinitions_perm perm).append (typeExtensions_perm perm)

theorem schemaDeclarations_perm : first.schemaDeclarations.Perm second.schemaDeclarations :=
  (schemaDefinitions_perm perm).append (perm.filterMap _)

theorem roots_perm : first.roots.Perm second.roots :=
  (schemaDeclarations_perm perm).flatMap_right _

theorem argumentLists_perm : first.argumentLists.Perm second.argumentLists :=
  ((typeDeclarations_perm perm).flatMap_right _).append ((directiveDefinitions_perm perm).map _)

theorem inputValues_perm : first.inputValues.Perm second.inputValues :=
  (argumentLists_perm perm).flatten.append ((typeDeclarations_perm perm).flatMap_right _)

theorem typeReferences_perm : first.typeReferences.Perm second.typeReferences :=
  (((inputValues_perm perm).map _).append ((typeDeclarations_perm perm).flatMap_right _)).append
    ((roots_perm perm).map _)

theorem directiveArgumentSites_perm :
    first.directiveArgumentSites.Perm second.directiveArgumentSites :=
  (directiveDefinitions_perm perm).flatMap_right _

theorem innerSites_perm : first.innerSites.Perm second.innerSites :=
  ((typeDeclarations_perm perm).flatMap_right _).append (directiveArgumentSites_perm perm)

theorem sites_perm : first.sites.Perm second.sites :=
  (((schemaDeclarations_perm perm).map _).append ((typeDeclarations_perm perm).map _)).append
    (innerSites_perm perm)

theorem literals_perm : first.literals.Perm second.literals :=
  ((inputValues_perm perm).filterMap _).append
    (((sites_perm perm).flatMap_right _).flatMap_right _)

theorem effectiveDeclarations_perm :
    first.effectiveDeclarations.Perm second.effectiveDeclarations :=
  (typeDeclarations_perm perm).filter _

theorem reasonSites_perm : first.reasonSites.Perm second.reasonSites :=
  ((effectiveDeclarations_perm perm).flatMap_right _).append (directiveArgumentSites_perm perm)

theorem mem_names_typeDefinitions {name : String} :
    name ∈ first.typeDefinitions.map (·.name) ↔ name ∈ second.typeDefinitions.map (·.name) :=
  ((typeDefinitions_perm perm).map _).mem_iff

/-- Where directives are defined once, the definition of one is found wherever it stands. -/
theorem directive?_eq (distinct : first.HasDistinctDirectives) (name : String) :
    first.directive? name = second.directive? name := by
  rw [directive?, directive?, List.find?_append, List.find?_append,
    find?_eq_of_perm (directiveDefinitions_perm perm) distinct]

end

theorem extendsDefinedTypes (perm : first.Perm second) (definedTypes : first.ExtendsDefinedTypes) :
    second.ExtendsDefinedTypes := by
  intro extended member
  obtain ⟨definition, defined, same⟩ :=
    definedTypes extended ((typeExtensions_perm perm).mem_iff.mpr member)
  exact ⟨definition, (typeDefinitions_perm perm).mem_iff.mp defined, same⟩

theorem refersToKnownTypes (perm : first.Perm second) (refers : first.RefersToKnownTypes) :
    second.RefersToKnownTypes := by
  intro name referred
  rw [← mem_names_typeDefinitions perm]
  exact refers name ((typeReferences_perm perm).mem_iff.mpr referred)

theorem appliesDirectives (perm : first.Perm second) (distinct : first.HasDistinctDirectives)
    (applies : first.AppliesDirectives) : second.AppliesDirectives := by
  intro site member applied included
  rw [← directive?_eq perm distinct]
  exact applies site ((sites_perm perm).mem_iff.mpr member) applied included

theorem root?_eq (perm : first.Perm second) (distinct : first.HasDistinctRoots)
    (operation : RootOperation) (usual : String) :
    first.root? operation usual = second.root? operation usual := by
  have bare : first.schemaDefinitions.isEmpty = second.schemaDefinitions.isEmpty :=
    (schemaDefinitions_perm perm).isEmpty_eq
  simp only [root?, lookup_eq_of_perm (roots_perm perm) distinct, bare,
    mem_names_typeDefinitions perm]

/-- The roots of the schema are the same. -/
theorem schema_root?_eq (perm : first.Perm second) (distinct : first.HasDistinctRoots)
    (kind : OperationKind) : first.schema.root? kind = second.schema.root? kind := by
  cases kind with
  | query => exact root?_eq perm distinct .query "Query"
  | mutation => exact root?_eq perm distinct .mutation "Mutation"

/-- What is said about a type that is defined once: its definition first, then its extensions in the
order of the document. -/
theorem declarationsOf_eq_cons {document : Document} (distinct : document.HasDistinctTypes)
    {declaration : TypeDeclaration} (member : declaration ∈ document.typeDefinitions) :
    document.declarationsOf declaration.name =
      declaration :: document.typeExtensions.filter (·.name = declaration.name) := by
  rw [declarationsOf, typeDeclarations, List.filter_append, filter_eq_singleton distinct member]
  rfl

/-- A type that is defined, under no built-in name, is found in the schema. -/
theorem type?_of_mem {document : Document} (distinct : document.HasDistinctTypes)
    {description : Option String} {declaration : TypeDeclaration}
    (member : .type description declaration ∈ document)
    (notBuiltIn : declaration.name ∉ BuiltIn.typeNames) :
    document.schema.type? declaration.name = some (document.typeOf description declaration) := by
  have made : document.typeOf description declaration ∈ document.definedTypes :=
    mem_definedTypes.mpr ⟨description, declaration, member, notBuiltIn, rfl⟩
  have defined : document.typeOf description declaration ∈ document.schema.types :=
    List.mem_append_right _ made
  exact find?_eq_some_of_nodup (nodup_names_schema distinct) defined

namespace Rearranges

theorem symm (rearranges : first.Rearranges second) : second.Rearranges first :=
  ⟨rearranges.perm.symm, fun name => (rearranges.extensions name).symm⟩

/-- Where types are defined once, what is said about a type is said in the same order: its
definition comes first, and its extensions have stayed in theirs. -/
theorem declarationsOf_eq (rearranges : first.Rearranges second)
    (distinct : first.HasDistinctTypes) (name : String) :
    first.declarationsOf name = second.declarationsOf name := by
  rw [declarationsOf, declarationsOf, typeDeclarations, typeDeclarations, List.filter_append,
    List.filter_append, rearranges.extensions,
    filter_eq_of_perm (typeDefinitions_perm rearranges.perm) distinct]

/-! The rules. -/

/-- What holds of all that is said about each type does not depend on the order. -/
theorem forall_declarationsOf (rearranges : first.Rearranges second)
    (distinct : first.HasDistinctTypes) (holds : List TypeDeclaration → Prop)
    (each : ∀ declared ∈ first.typeDeclarations, holds (first.declarationsOf declared.name)) :
    ∀ declared ∈ second.typeDeclarations, holds (second.declarationsOf declared.name) := by
  intro declared member
  rw [← rearranges.declarationsOf_eq distinct]
  exact each declared ((typeDeclarations_perm rearranges.perm).mem_iff.mpr member)

theorem repeatsOnlyRepeatable (rearranges : first.Rearranges second)
    (distinctTypes : first.HasDistinctTypes) (distinctDirectives : first.HasDistinctDirectives)
    (repeats : first.RepeatsOnlyRepeatable) : second.RepeatsOnlyRepeatable := by
  have perm := rearranges.perm
  intro group member
  simp only [← directive?_eq perm distinctDirectives]
  rw [directiveGroups] at member
  rcases List.mem_append.mp member with outer | inner
  · rcases List.mem_cons.mp outer with rfl | ofType
    · have own := repeats _ (List.mem_append_left _ List.mem_cons_self)
      have applied := (schemaDeclarations_perm perm).flatMap_right (·.directives)
      exact ((applied.map _).filter _).nodup_iff.mp own
    · obtain ⟨declared, included, rfl⟩ := List.mem_map.mp ofType
      refine rearranges.forall_declarationsOf distinctTypes
        (fun declarations =>
          (((declarations.flatMap (·.directives)).map (·.name)).filter fun name =>
            !((first.directive? name).any (·.repeatable))).Nodup) ?_ declared included
      intro other otherMember
      exact repeats _
        (List.mem_append_left _ (List.mem_cons_of_mem _ (List.mem_map_of_mem otherMember)))
  · obtain ⟨site, included, rfl⟩ := List.mem_map.mp inner
    have known := (innerSites_perm perm).mem_iff.mpr included
    exact repeats _ (List.mem_append_right _ (List.mem_map_of_mem known))

/-- The rules are kept. -/
theorem valid (rearranges : first.Rearranges second) (valid : first.Valid) : second.Valid := by
  obtain ⟨oneSchema, roots, types, fieldNames, enumValues, arguments, directives, extensions,
    references, repeats, applies, literals, reasons, addresses⟩ := valid
  have perm := rearranges.perm
  refine ⟨?_, ?_, ?_,
    rearranges.forall_declarationsOf types
      (fun declarations => (declarations.flatMap (·.body.fieldNames)).Nodup) fieldNames,
    rearranges.forall_declarationsOf types
      (fun declarations =>
        (declarations.flatMap fun declared => declared.body.enumValues.map (·.name)).Nodup)
      enumValues,
    ?_, ?_, extendsDefinedTypes perm extensions, refersToKnownTypes perm references,
    rearranges.repeatsOnlyRepeatable types directives repeats,
    appliesDirectives perm directives applies, ?_, ?_, ?_⟩
  · rw [HasOneSchema, ← (schemaDefinitions_perm perm).length_eq]
    exact oneSchema
  · exact ((roots_perm perm).map _).nodup_iff.mp roots
  · exact ((typeDefinitions_perm perm).map _).nodup_iff.mp types
  · exact fun list member => arguments list ((argumentLists_perm perm).mem_iff.mpr member)
  · exact ((directiveDefinitions_perm perm).map _).nodup_iff.mp directives
  · exact fun literal member => literals literal ((literals_perm perm).mem_iff.mpr member)
  · exact fun site member => reasons site ((reasonSites_perm perm).mem_iff.mpr member)
  · exact fun declared member =>
      addresses declared ((effectiveDeclarations_perm perm).mem_iff.mpr member)

theorem valid_iff (rearranges : first.Rearranges second) : first.Valid ↔ second.Valid :=
  ⟨rearranges.valid, rearranges.symm.valid⟩

/-! The schema. -/

theorem definedTypes_perm (rearranges : first.Rearranges second)
    (distinct : first.HasDistinctTypes) : first.definedTypes.Perm second.definedTypes := by
  have same : first.definedType? = second.definedType? := by
    funext definition
    cases definition with
    | type description declaration =>
        simp only [definedType?, typeOf, rearranges.declarationsOf_eq distinct]
    | _ => rfl
  rw [definedTypes_eq, definedTypes_eq, same]
  exact rearranges.perm.filterMap _

/-- Every type is the same. -/
theorem type?_eq (rearranges : first.Rearranges second) (distinct : first.HasDistinctTypes)
    (name : String) : first.schema.type? name = second.schema.type? name := by
  have names := (names_definedTypes_sublist first).nodup distinct
  rw [Schema.type?, Schema.type?, schema, schema, List.find?_append, List.find?_append,
    find?_eq_of_perm (rearranges.definedTypes_perm distinct) names]

end Rearranges

end GraphQL.Document

end Toolsmith
