import Toolsmith.Catalog
import Toolsmith.Proofs.Json.Reading

/-!
Reading catalogs. The text of a catalog holds its tools, whatever is in their names, descriptions
and input schemas. It is spread over lines, and reads as the texts of its parts on one line do.
-/

set_option autoImplicit false

namespace Toolsmith

namespace Json

theorem read?_text (json : Json) : read? json.text = some json.merged :=
  read?_of_isTextOf (isTextOf_text json)

/-- Between brackets the text ends with the second one, whatever the layout. -/
theorem exists_enclose_eq (layout : Layout) (depth : Nat) (opening closing : Char)
    (members : List (List Char)) :
    ∃ body, enclose layout depth opening closing members = body ++ [closing] := by
  unfold enclose
  split
  · exact ⟨[opening], rfl⟩
  · exact ⟨_, rfl⟩

end Json

/-- An input schema is read in a tool as it is read by itself. -/
theorem Tool.merged_toJson (tool : Tool) :
    tool.toJson.merged =
      .obj [("name", .str tool.name), ("description", .str tool.description),
        ("inputSchema", tool.inputSchema.merged)] := by
  simp [toJson, Json.merged, Json.mergedMembers, Json.put]

theorem read?_catalogText (tools : List Tool) :
    Json.read? (catalogText tools) = some (.arr (tools.map (·.toJson.merged))) := by
  have read := Json.read?_of_isTextOf (Json.isTextOf_indentedText_append (catalog tools))
  rw [catalog, Json.merged, Json.mergedItems_eq_map, List.map_map] at read
  exact read

theorem exists_catalogText_eq (tools : List Tool) :
    ∃ body, (catalogText tools).toList = body ++ [']', '\n'] := by
  obtain ⟨body, written⟩ := Json.exists_enclose_eq .indented 0 '[' ']'
    (Json.writeItems .indented 1 (tools.map Tool.toJson))
  refine ⟨body, ?_⟩
  rw [catalogText, catalog, Json.indentedText, Json.write, written]
  simp

/-- A catalog reads back as its tools, one object for each in their order, and an input schema is
the same there as in its own text on one line. The text ends with one line feed. -/
theorem catalogText_reads_back {tools : List Tool}
    (distinct : ∀ tool ∈ tools, tool.inputSchema.HasDistinctKeys) :
    (∃ items, Json.read? (catalogText tools) = some (.arr items) ∧
      List.Forall₂ (fun tool item =>
        item = .obj [("name", .str tool.name), ("description", .str tool.description),
          ("inputSchema", tool.inputSchema)] ∧
        ∃ inside, item.member? "inputSchema" = some inside ∧
          Json.read? tool.inputSchema.text = some inside) tools items) ∧
      ∃ body, (catalogText tools).toList = body ++ [']', '\n'] := by
  refine ⟨⟨_, read?_catalogText tools, ?_⟩, exists_catalogText_eq tools⟩
  rw [List.forall₂_map_right_iff, List.forall₂_same]
  intro tool member
  have whole := Json.merged_of_hasDistinctKeys (distinct tool member)
  refine ⟨?_, tool.inputSchema.merged, ?_, Json.read?_text tool.inputSchema⟩
  · rw [tool.merged_toJson, whole]
  · rw [tool.merged_toJson]
    rfl

/-- What JSON escapes, what it does not, and what is empty in an input schema. -/
theorem catalogText_reads_back_sample :
    ∃ items, Json.read? (catalogText
      [⟨"a\"\\\n", "\u0085é", .obj [("\u0001", .arr [.int (-10), .obj []]), ("", .null)], rfl⟩,
        ⟨"", "", .obj [], rfl⟩]) = some (.arr items) ∧ items.length = 2 := by
  have distinct : ∀ tool ∈
      [(⟨"a\"\\\n", "\u0085é", .obj [("\u0001", .arr [.int (-10), .obj []]), ("", .null)], rfl⟩ : Tool),
        ⟨"", "", .obj [], rfl⟩], tool.inputSchema.HasDistinctKeys := by
    have inside : (Json.arr [.int (-10), .obj []]).HasDistinctKeys := by
      refine .arr _ (List.forall_mem_cons.mpr ⟨.int _, List.forall_mem_singleton.mpr ?_⟩)
      exact .obj [] List.nodup_nil (List.forall_mem_nil _)
    refine List.forall_mem_cons.mpr ⟨?_, List.forall_mem_singleton.mpr ?_⟩
    · refine .obj _ (by decide) ?_
      exact List.forall_mem_cons.mpr ⟨inside, List.forall_mem_singleton.mpr .null⟩
    · exact .obj [] List.nodup_nil (List.forall_mem_nil _)
  obtain ⟨⟨items, read, each⟩, _⟩ := catalogText_reads_back distinct
  exact ⟨items, read, each.length_eq.symm⟩

end Toolsmith
