import Toolsmith.Catalog
import Toolsmith.Proofs.GraphQL.Document.Joining
import Toolsmith.Proofs.GraphQL.Document.Order
import Toolsmith.Proofs.Tool.Locality
import Toolsmith.Report

/-!
Schemas whose definitions change places. A definition may stand before or after what it refers to
and what extends it: as long as the extensions of each single type stay in their order, both texts
are rejected for the same cause, or the tools, the catalog, the report, the selections and the
operations of both are the same.
-/

set_option autoImplicit false

namespace Toolsmith.GraphQL

/-! Texts that hold one definition each. -/

/-- The type that a text extends, if it holds an extension of a type. -/
def extendedType? (text : String) : Option String :=
  match Definition.read? text with
  | some (.extendType declaration) => some declaration.name
  | _ => none

/-- It is enough to look at the types that are extended. -/
theorem filter_extendedType?_eq {first second : List String} (perm : first.Perm second)
    (inOrder : ∀ name ∈ first.filterMap extendedType?,
      (first.filter fun text => extendedType? text = some name) =
        second.filter fun text => extendedType? text = some name) (name : String) :
    (first.filter fun text => extendedType? text = some name) =
      second.filter fun text => extendedType? text = some name := by
  by_cases extended : name ∈ first.filterMap extendedType?
  · exact inOrder name extended
  · have untouched : (first.filter fun text => extendedType? text = some name) = [] := by
      rw [List.filter_eq_nil_iff]
      intro text member found
      exact extended (List.mem_filterMap.mpr ⟨text, member, of_decide_eq_true found⟩)
    have rest := perm.filter fun text => extendedType? text = some name
    rw [untouched] at rest
    rw [untouched, List.nil_perm.mp rest]

namespace Document

theorem extensions_ofTexts (texts : List String) (name : String) :
    ((ofTexts texts).typeExtensions.filter fun declared => declared.name = name) =
      (ofTexts (texts.filter fun text => extendedType? text = some name)).typeExtensions := by
  simp only [ofTexts, typeExtensions, List.filterMap_filterMap, List.filter_filterMap,
    List.filterMap_filter]
  apply List.filterMap_congr
  intro text _
  unfold extendedType?
  cases Definition.read? text with
  | none => simp
  | some definition =>
      cases definition with
      | extendType declaration =>
          simp only [Option.bind_some, Option.filter_some, Option.some.injEq, decide_eq_true_eq]
          split <;> rfl
      | _ => simp

/-- Texts that change places, where those that extend one type stay in their order. -/
theorem rearranges_ofTexts {first second : List String} (perm : first.Perm second)
    (inOrder : ∀ name, (first.filter fun text => extendedType? text = some name) =
      second.filter fun text => extendedType? text = some name) :
    (ofTexts first).Rearranges (ofTexts second) := by
  refine ⟨perm.filterMap _, fun name => ?_⟩
  rw [extensions_ofTexts, extensions_ofTexts, inOrder]

end Document

namespace Schema

/-- Whoever looks up a type, asks for the roots, the tools, a catalog, a report or a selection, or
compiles a call, gets the same from both schemas. -/
structure AnswersAlike (first second : Schema) : Prop where
  types : ∀ name, first.type? name = second.type? name
  roots : ∀ kind, first.root? kind = second.root? kind
  rootFields? : ∀ kind, first.rootFields? kind = second.rootFields? kind
  rootFields : ∀ kind, first.rootFields kind = second.rootFields kind
  tools : first.tools = second.tools
  catalog : first.tools.map catalogText = second.tools.map catalogText
  report : (first.tools.map fun tools => (Report.ofTools tools).map Report.text) =
    second.tools.map fun tools => (Report.ofTools tools).map Report.text
  selections : ∀ policy depth type,
    first.selection policy depth type = second.selection policy depth type
  operations : ∀ policy call, first.compile policy call = second.compile policy call

/-- Both texts are rejected for the same cause, or both are accepted and give schemas that answer
alike. -/
inductive ReadAlike (firstSource secondSource : String) : Prop
  | rejected {cause : SchemaError} (first : ofSource firstSource = .error cause)
      (second : ofSource secondSource = .error cause)
  | accepted {first second : Schema} (firstAccepted : ofSource firstSource = .ok first)
      (secondAccepted : ofSource secondSource = .ok second) (alike : first.AnswersAlike second)

variable {first second : Schema}

/-- All answers come from the types and the roots. -/
theorem answersAlike_of_agree (types : ∀ name, first.AgreesAt second name)
    (roots : ∀ kind, first.root? kind = second.root? kind) : first.AnswersAlike second := by
  have rootTypes : ∀ kind, first.rootType? kind = second.rootType? kind := by
    intro kind
    have kinds : first.kind? = second.kind? := funext fun name => (types name).kind?
    rw [Schema.rootType?, Schema.rootType?, roots, kinds]
  have agrees : first.AgreesOnRoots second :=
    ⟨roots, rootTypes, fun _ _ _ => ⟨fun _ _ name _ => types name, fun name _ => types name⟩⟩
  have tools := agrees.tools
  exact
    { types, roots, tools
      rootFields? := agrees.rootFields?
      rootFields := fun kind => by rw [Schema.rootFields, Schema.rootFields, agrees.rootFields?]
      catalog := by rw [tools]
      report := by rw [tools]
      selections := fun _ _ _ => selection_eq_of_agree fun name _ => types name
      operations := agrees.compile }

theorem ReadAlike.refl (source : String) : ReadAlike source source := by
  cases result : ofSource source with
  | error => exact .rejected result result
  | ok schema =>
      exact .accepted result result (answersAlike_of_agree (fun _ => rfl) fun _ => rfl)

theorem readAlike_of_rearranges {firstDocument secondDocument : Document}
    (rearranges : firstDocument.Rearranges secondDocument) {firstSource secondSource : String}
    (reads : Document.read? firstSource = some firstDocument)
    (alsoReads : Document.read? secondSource = some secondDocument) :
    ReadAlike firstSource secondSource := by
  by_cases valid : firstDocument.Valid
  · have distinctRoots : firstDocument.HasDistinctRoots := valid.2.1
    have distinctTypes : firstDocument.HasDistinctTypes := valid.2.2.1
    refine .accepted (ofSource_eq_ok_iff.mpr ⟨_, reads, valid, rfl⟩)
      (ofSource_eq_ok_iff.mpr ⟨_, alsoReads, rearranges.valid valid, rfl⟩) ?_
    exact answersAlike_of_agree (rearranges.type?_eq distinctTypes)
      (Document.schema_root?_eq rearranges.perm distinctRoots)
  · have alsoInvalid : ¬ secondDocument.Valid := fun alsoValid =>
      valid (rearranges.valid_iff.mpr alsoValid)
    have rejected : ofSource firstSource = .error .invalid := by
      rw [ofSource, reads]
      exact if_neg valid
    have alsoRejected : ofSource secondSource = .error .invalid := by
      rw [ofSource, alsoReads]
      exact if_neg alsoInvalid
    exact .rejected rejected alsoRejected

/-- A type that is not built in is made of its own definition and then of what extends it, in the
order of the document. -/
theorem type?_of_accepted {document : Document} {source : String}
    (reads : Document.read? source = some document) {schema : Schema}
    (accepted : ofSource source = .ok schema) {description : Option String}
    {declaration : TypeDeclaration} (member : .type description declaration ∈ document)
    (notBuiltIn : declaration.name ∉ BuiltIn.typeNames) :
    schema.type? declaration.name =
      some
        { name := declaration.name
          description
          kind :=
            .ofBodies declaration.body
              (declaration.body ::
                (document.typeExtensions.filter (·.name = declaration.name)).map (·.body)) } := by
  obtain ⟨other, alsoReads, valid, rfl⟩ := ofSource_eq_ok_iff.mp accepted
  obtain rfl := Option.some.inj (alsoReads.symm.trans reads)
  have distinct : other.HasDistinctTypes := valid.2.2.1
  have defined := Document.mem_typeDefinitions.mpr ⟨description, member⟩
  rw [Document.type?_of_mem distinct member notBuiltIn, Document.typeOf,
    Document.declarationsOf_eq_cons distinct defined]
  rfl

/-- Definitions, each in a text of its own, change places, and the extensions of each single type
stay in their order; an extension may come to stand before the type it extends. Line by line they
are a document, unless there are none. Written so or in any other way that reads as the same
definitions, both orders are rejected for the same cause, or both give schemas that answer alike. In
an accepted schema a type that is not built in is made of its own definition first, and then of what
extends it in the order of the source. -/
theorem readAlike_of_perm {first second : List String} (perm : first.Perm second)
    (definitions : ∀ text ∈ first, (Definition.read? text).isSome = true)
    (inOrder : ∀ name, (first.filter fun text => extendedType? text = some name) =
      second.filter fun text => extendedType? text = some name) :
    ReadAlike ("\n".intercalate first) ("\n".intercalate second) ∧
      (first ≠ [] → Document.read? ("\n".intercalate first) = some (.ofTexts first)) ∧
      (∀ firstSource secondSource,
        Document.read? firstSource = some (.ofTexts first) →
        Document.read? secondSource = some (.ofTexts second) →
          ReadAlike firstSource secondSource) ∧
      ∀ source schema,
        Document.read? source = some (.ofTexts first) → ofSource source = .ok schema →
          ∀ description declaration, .type description declaration ∈ Document.ofTexts first →
            declaration.name ∉ BuiltIn.typeNames →
              schema.type? declaration.name =
                some
                  { name := declaration.name
                    description
                    kind :=
                      .ofBodies declaration.body
                        (declaration.body ::
                          ((Document.ofTexts first).typeExtensions.filter
                            (·.name = declaration.name)).map (·.body)) } := by
  have rearranges := Document.rearranges_ofTexts perm inOrder
  refine ⟨?_, fun nonempty => Document.read?_intercalate nonempty definitions,
    fun _ _ => readAlike_of_rearranges rearranges, fun _ _ reads accepted _ _ =>
      type?_of_accepted reads accepted⟩
  by_cases nonempty : first = []
  · subst nonempty
    obtain rfl := List.nil_perm.mp perm
    exact .refl _
  · have alsoNonempty : second ≠ [] := fun empty => nonempty (List.perm_nil.mp (empty ▸ perm))
    have alsoDefinitions : ∀ text ∈ second, (Definition.read? text).isSome = true :=
      fun text member => definitions text (perm.mem_iff.mpr member)
    exact readAlike_of_rearranges rearranges (Document.read?_intercalate nonempty definitions)
      (Document.read?_intercalate alsoNonempty alsoDefinitions)

/-- Extensions stand before what they extend, and a comment ends one of the lines. -/
theorem readAlike_of_perm_sample :
    ∃ first second,
      ofSource ("\n".intercalate
          ["extend type Query { b(x: [E!]): T }", "type T { id: ID } # the end",
            "extend enum E { B }", "type Query { a: Int }", "extend type Query { c: T }",
            "enum E { A }"]) = .ok first ∧
        ofSource ("\n".intercalate
            ["enum E { A }", "extend type Query { b(x: [E!]): T }", "type Query { a: Int }",
              "extend type Query { c: T }", "extend enum E { B }",
              "type T { id: ID } # the end"]) = .ok second ∧
        (first.rootFields .query).map (·.name) = ["a", "b", "c"] ∧ first.AnswersAlike second := by
  obtain ⟨first, accepted, names⟩ := Except.exists_eq_ok_of_any
    (ofSource ("\n".intercalate
      ["extend type Query { b(x: [E!]): T }", "type T { id: ID } # the end",
        "extend enum E { B }", "type Query { a: Int }", "extend type Query { c: T }",
        "enum E { A }"]))
    (fun first => decide ((first.rootFields .query).map (·.name) = ["a", "b", "c"]))
    (by decide +kernel)
  have alike : ReadAlike
      ("\n".intercalate
        ["extend type Query { b(x: [E!]): T }", "type T { id: ID } # the end",
          "extend enum E { B }", "type Query { a: Int }", "extend type Query { c: T }",
          "enum E { A }"])
      ("\n".intercalate
        ["enum E { A }", "extend type Query { b(x: [E!]): T }", "type Query { a: Int }",
          "extend type Query { c: T }", "extend enum E { B }", "type T { id: ID } # the end"]) :=
    (readAlike_of_perm (by decide) (by decide +kernel)
      (filter_extendedType?_eq (by decide) (by decide +kernel))).1
  cases alike with
  | rejected rejected _ =>
      rw [accepted] at rejected
      contradiction
  | @accepted _ second alsoFirst alsoAccepted alike =>
      obtain rfl := Except.ok.inj (accepted.symm.trans alsoFirst)
      exact ⟨first, second, accepted, alsoAccepted, of_decide_eq_true names, alike⟩

end Schema

end Toolsmith.GraphQL
