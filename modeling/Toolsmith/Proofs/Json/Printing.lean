import Toolsmith.Json.Printer
import Toolsmith.Proofs.Json.Grammar
import Toolsmith.Proofs.Number.Digits

/-!
Printed values are JSON texts, in every layout, as long as all their numbers are finite. Any other
number is printed as a word that no JSON text holds, and the whole text is lost with it.
-/

set_option autoImplicit false

namespace Toolsmith

/-- All numbers in a value are finite, so that JSON has a text for it. -/
inductive Json.HasFiniteNumbers : Json → Prop
  | null : HasFiniteNumbers .null
  | bool (value : Bool) : HasFiniteNumbers (.bool value)
  | int (value : Int) : HasFiniteNumbers (.int value)
  | float (value : Double) (finite : value.isFinite = true) : HasFiniteNumbers (.float value)
  | str (value : String) : HasFiniteNumbers (.str value)
  | arr (items : List Json) (each : ∀ item ∈ items, HasFiniteNumbers item) :
      HasFiniteNumbers (.arr items)
  | obj (members : List (String × Json)) (each : ∀ member ∈ members, HasFiniteNumbers member.2) :
      HasFiniteNumbers (.obj members)

namespace Json

@[simp]
theorem hasFiniteNumbers_str (value : String) : (Json.str value).HasFiniteNumbers :=
  .str value

@[simp]
theorem hasFiniteNumbers_arr {items : List Json} :
    (Json.arr items).HasFiniteNumbers ↔ ∀ item ∈ items, item.HasFiniteNumbers := by
  constructor
  · rintro ⟨⟩
    assumption
  · exact .arr items

@[simp]
theorem hasFiniteNumbers_obj {members : List (String × Json)} :
    (Json.obj members).HasFiniteNumbers ↔ ∀ member ∈ members, member.2.HasFiniteNumbers := by
  constructor
  · rintro ⟨⟩
    assumption
  · exact .obj members

end Json

namespace Json.Grammar

/-! Numbers. -/

theorem digits_append {digits : List Char} (nonempty : digits ≠ [])
    (all : ∀ c ∈ digits, c.isDigit = true) (rest : List Char) : Digits (digits ++ rest) rest := by
  induction digits with
  | nil => contradiction
  | cons digit others inductionHypothesis =>
      obtain ⟨first, more⟩ := List.forall_mem_cons.mp all
      by_cases last : others = []
      · subst last
        exact .last rest first
      · exact .more first (inductionHypothesis last more)

theorem whole_append {digits : List Char} (nonempty : digits ≠ [])
    (all : ∀ c ∈ digits, c.isDigit = true) (nonzero : ∀ c ∈ digits.head?, c ≠ '0')
    (rest : List Char) : Whole (digits ++ rest) rest := by
  have run := digits_append nonempty all rest
  cases digits with
  | nil => contradiction
  | cons digit others => exact .digits (nonzero digit rfl) run

theorem whole_toDigits (n : Nat) (rest : List Char) : Whole (Nat.toDigits 10 n ++ rest) rest := by
  by_cases zero : n = 0
  · rw [zero, Nat.toDigits_zero]
    exact .zero rest
  · apply whole_append Nat.toDigits_ne_nil
    · intro c member
      exact Decimal.isDigit_toDigits member
    · exact Decimal.head_toDigits (Nat.pos_of_ne_zero zero)

theorem number_signText (negative : Bool) {text rest : List Char}
    (magnitude : Magnitude text rest) : Number (Double.signText negative ++ text) rest := by
  cases negative with
  | true => exact .negative magnitude
  | false => exact .positive magnitude

theorem number_integer (n : Int) (rest : List Char) : Number (Integer.write n ++ rest) rest := by
  have magnitude : Magnitude (Nat.toDigits 10 n.natAbs ++ rest) rest :=
    .parts (whole_toDigits n.natAbs rest) (.none rest) (.none rest)
  have signed := number_signText (decide (n < 0)) magnitude
  rw [← List.append_assoc] at signed
  simpa [Integer.write, Double.signText] using signed

theorem exponent_exponentText (exponent : Int) (rest : List Char) :
    Exponent (Double.exponentText exponent ++ rest) rest := by
  have sign : (if exponent < 0 then '-' else '+') ∈ ['+', '-'] := by
    split
    · decide
    · decide
  have digits : Digits (List.replicate (2 - (Nat.toDigits 10 exponent.natAbs).length) '0' ++
      Nat.toDigits 10 exponent.natAbs ++ rest) rest := by
    apply digits_append (List.append_ne_nil_of_right_ne_nil _ Nat.toDigits_ne_nil)
    intro c member
    rcases List.mem_append.mp member with zero | digit
    · rw [(List.mem_replicate.mp zero).2]
      rfl
    · exact Decimal.isDigit_toDigits digit
  exact .signed (by decide) sign digits

theorem magnitude_scientificText {digits : List Char} (nonempty : digits ≠ [])
    (all : ∀ c ∈ digits, c.isDigit = true) (nonzero : ∀ c ∈ digits.head?, c ≠ '0')
    (exponent : Int) (rest : List Char) :
    Magnitude (Double.scientificText digits exponent ++ rest) rest := by
  have scaled := exponent_exponentText exponent rest
  cases digits with
  | nil => contradiction
  | cons digit fraction =>
      have first : ∀ c ∈ [digit], c.isDigit = true := by
        intro c member
        exact all c (List.mem_of_mem_take (i := 1) member)
      have whole : ∀ after, Whole (digit :: after) after :=
        whole_append (List.cons_ne_nil digit []) first nonzero
      cases fraction with
      | nil => exact .parts (whole _) (.none _) scaled
      | cons second others =>
          have behind := digits_append (List.cons_ne_nil second others)
            (fun c member => all c (List.mem_cons_of_mem digit member))
            (Double.exponentText exponent ++ rest)
          rw [← List.append_assoc] at behind
          exact .parts (whole _) (.point behind) scaled

/-- Digits behind the point, with zeros between the two if need be. -/
theorem magnitude_point {whole fraction : List Char} (wholeDigits : ∀ rest, Whole (whole ++ rest) rest)
    (nonempty : fraction ≠ []) (all : ∀ c ∈ fraction, c.isDigit = true) (rest : List Char) :
    Magnitude (whole ++ '.' :: fraction ++ rest) rest := by
  rw [List.append_assoc]
  exact .parts (wholeDigits _) (.point (digits_append nonempty all rest)) (.none rest)

theorem magnitude_positionalText {digits : List Char} (nonempty : digits ≠ [])
    (all : ∀ c ∈ digits, c.isDigit = true) (nonzero : ∀ c ∈ digits.head?, c ≠ '0')
    (point : Int) (rest : List Char) :
    Magnitude (Double.positionalText digits point ++ rest) rest := by
  have padded : ∀ count, ∀ c ∈ List.replicate count '0', c.isDigit = true := by
    intro count c member
    rw [(List.mem_replicate.mp member).2]
    rfl
  unfold Double.positionalText
  by_cases leading : point ≤ 0
  · rw [if_pos leading]
    have zero : ∀ after, Whole (['0'] ++ after) after := Whole.zero
    apply magnitude_point zero
    · exact List.append_ne_nil_of_right_ne_nil _ nonempty
    · intro c member
      rcases List.mem_append.mp member with zero | digit
      · exact padded _ c zero
      · exact all c digit
  · rw [if_neg leading]
    have taken : digits.take point.toNat ≠ [] := by
      rw [Ne, List.take_eq_nil_iff, not_or]
      exact ⟨by omega, nonempty⟩
    apply magnitude_point
    · apply whole_append
      · exact List.append_ne_nil_of_left_ne_nil taken _
      · intro c member
        rcases List.mem_append.mp member with digit | zero
        · exact all c (List.mem_of_mem_take digit)
        · exact padded _ c zero
      · rw [List.head?_append_of_ne_nil _ taken, List.head?_take, if_neg (by omega)]
        exact nonzero
    · split
      · exact List.cons_ne_nil '0' []
      · rename_i present
        simpa using present
    · intro c member
      split at member
      · exact padded 1 c member
      · exact all c (List.mem_of_mem_drop member)

theorem magnitude_magnitudeText (d : Decimal) (rest : List Char) :
    Magnitude (Double.magnitudeText d ++ rest) rest := by
  unfold Double.magnitudeText
  by_cases zero : d.digits = 0
  · rw [if_pos zero]
    exact .parts (.zero _) (.point (.last rest rfl)) (.none rest)
  · rw [if_neg zero]
    have all : ∀ c ∈ Nat.toDigits 10 d.digits, c.isDigit = true := by
      intro c member
      exact Decimal.isDigit_toDigits member
    have head := Decimal.head_toDigits (Nat.pos_of_ne_zero zero)
    dsimp only
    split
    · exact magnitude_positionalText Nat.toDigits_ne_nil all head _ rest
    · exact magnitude_scientificText Nat.toDigits_ne_nil all head _ rest

theorem number_text {x : Double} (finite : x.isFinite = true) (rest : List Char) :
    Number (x.text ++ rest) rest := by
  cases x with
  | finite negative significand exponent canonical =>
      rw [Double.text, List.append_assoc]
      exact number_signText negative (magnitude_magnitudeText _ rest)
  | infinite negative => contradiction
  | nan => contradiction

/-! Strings. -/

theorem characters_escapedChar (c : Char) {text rest : List Char}
    (others : Characters text rest) :
    Characters (Text.StringLiteral.escapedChar c ++ text) rest := by
  have hex : ∀ n < 0x20, (Text.hexPadded 4 n).length = 4 ∧
      (Text.hexPadded 4 n).all (fun digit => decide (IsHexDigit digit)) = true := by
    decide
  unfold Text.StringLiteral.escapedChar
  split
  · exact .escape (by decide) others
  split
  · exact .escape (by decide) others
  split
  · exact .escape (by decide) others
  split
  · exact .escape (by decide) others
  split
  · exact .escape (by decide) others
  split
  · exact .escape (by decide) others
  split
  · exact .escape (by decide) others
  split
  · rename_i control
    obtain ⟨length, digits⟩ := hex c.toNat control
    match written : Text.hexPadded 4 c.toNat, length with
    | [first, second, third, fourth], _ =>
      simp only [written, List.all_eq_true, decide_eq_true_eq] at digits
      exact .unit digits others
  · rename_i noQuote noBackslash _ _ _ _ _ noControl
    exact .plain (Nat.le_of_not_lt noControl) noQuote noBackslash others

theorem characters_write (content rest : List Char) :
    Characters (content.flatMap Text.StringLiteral.escapedChar ++ '"' :: rest) rest := by
  induction content with
  | nil => exact .close rest
  | cons c content inductionHypothesis =>
      rw [List.flatMap_cons, List.append_assoc]
      exact characters_escapedChar c inductionHypothesis

theorem write_append (content rest : List Char) :
    Text.StringLiteral.write content ++ rest =
      '"' :: (content.flatMap Text.StringLiteral.escapedChar ++ '"' :: rest) := by
  simp [Text.StringLiteral.write]

/-! Arrays and objects. -/

theorem blanks_edge (layout : Layout) (depth : Nat) (rest : List Char) :
    Blanks (layout.edge depth ++ rest) rest := by
  cases layout with
  | compact => exact .none rest
  | indented =>
      refine .more (by decide) ?_
      induction 2 * depth with
      | zero => exact .none rest
      | succ count inductionHypothesis => exact .more (by decide) inductionHypothesis

/-- Two members are parted by a comma, with blanks behind it. -/
theorem separator_eq (layout : Layout) (depth : Nat) :
    ∃ gap, layout.separator depth = ',' :: gap ∧ ∀ rest, Blanks (gap ++ rest) rest := by
  cases layout with
  | compact => exact ⟨[' '], rfl, fun rest => .more (by decide) (.none rest)⟩
  | indented => exact ⟨Layout.indented.edge depth, rfl, blanks_edge .indented depth⟩

/-- A text can be an item of a collection, whatever blanks are around it. -/
def IsItem (collection : Collection) (text : List Char) : Prop :=
  ∀ {front behind rest : List Char}, Blanks front (text ++ behind) → Blanks behind rest →
    Derives (.item collection) front rest

theorem derives_items {collection : Collection} {gap : List Char}
    (blank : ∀ rest, Blanks (gap ++ rest) rest) {texts : List (List Char)} (nonempty : texts ≠ [])
    (each : ∀ text ∈ texts, IsItem collection text) {front behind rest : List Char}
    (before : Blanks front (List.intercalate (',' :: gap) texts ++ behind))
    (after : Blanks behind rest) : Derives (.items collection) front rest := by
  induction texts generalizing front with
  | nil => contradiction
  | cons text others inductionHypothesis =>
      obtain ⟨first, more⟩ := List.forall_mem_cons.mp each
      cases others with
      | nil =>
          rw [List.intercalate_singleton] at before
          exact .last (first before after)
      | cons second others =>
          rw [List.intercalate_cons_cons, List.append_assoc, List.append_assoc] at before
          refine .more (first before (.none _)) ?_
          apply inductionHypothesis (List.cons_ne_nil second others) more
          exact blank _

theorem derives_enclose (layout : Layout) (depth : Nat) (collection : Collection)
    {texts : List (List Char)} (each : ∀ text ∈ texts, IsItem collection text)
    (rest : List Char) :
    Derives .value
      (enclose layout depth collection.opening collection.closing texts ++ rest) rest := by
  unfold enclose
  by_cases empty : texts.isEmpty = true
  · rw [if_pos empty]
    exact .empty collection (.none _)
  · rw [if_neg empty]
    obtain ⟨gap, separated, blank⟩ := separator_eq layout (depth + 1)
    have items : Derives (.items collection)
        (layout.edge (depth + 1) ++ (List.intercalate (layout.separator (depth + 1)) texts ++
          (layout.edge depth ++ (collection.closing :: rest))))
        (collection.closing :: rest) := by
      rw [separated]
      apply derives_items blank (by simpa using empty) each
      · exact blanks_edge layout (depth + 1) _
      · exact blanks_edge layout depth _
    simpa using Derives.full collection items

theorem writeItems_eq_map (layout : Layout) (depth : Nat) (items : List Json) :
    writeItems layout depth items = items.map (write layout depth) := by
  induction items with
  | nil => rfl
  | cons item rest inductionHypothesis =>
      rw [writeItems, inductionHypothesis, List.map_cons]

/-- A member of an object as it is printed. -/
def writeMember (layout : Layout) (depth : Nat) (member : String × Json) : List Char :=
  Text.StringLiteral.write member.1.toList ++ ':' :: ' ' :: write layout depth member.2

theorem writeMembers_eq_map (layout : Layout) (depth : Nat) (members : List (String × Json)) :
    writeMembers layout depth members = members.map (writeMember layout depth) := by
  induction members with
  | nil => rfl
  | cons member rest inductionHypothesis =>
      rw [writeMembers, inductionHypothesis, List.map_cons]
      rfl

theorem isItem_writeMember {layout : Layout} {depth : Nat} {member : String × Json}
    (derives : ∀ rest, Derives .value (write layout depth member.2 ++ rest) rest) :
    IsItem .object (writeMember layout depth member) := by
  intro front behind rest before after
  rw [writeMember, List.append_assoc, write_append] at before
  refine .member before (characters_write _ _) (.none _) ?_
  exact .element (.more (by decide) (.none _)) (derives behind) after

/-- What has finite numbers only is printed as a JSON value, whatever follows it. -/
theorem derives_write {json : Json} (finite : json.HasFiniteNumbers) (layout : Layout)
    (depth : Nat) (rest : List Char) : Derives .value (json.write layout depth ++ rest) rest := by
  induction finite generalizing depth rest with
  | null => exact .null rest
  | bool value =>
      cases value with
      | true => exact .yes rest
      | false => exact .no rest
  | int value => exact .number (number_integer value rest)
  | float value finite =>
      have text : floatText value = value.text := by
        cases value with
        | finite => rfl
        | infinite => contradiction
        | nan => contradiction
      rw [write, text]
      exact .number (number_text finite rest)
  | str value =>
      rw [write, write_append]
      exact .string (characters_write _ _)
  | arr items _ inductionHypothesis =>
      rw [write, writeItems_eq_map]
      apply derives_enclose layout depth .array
      intro text member
      obtain ⟨item, included, rfl⟩ := List.mem_map.mp member
      intro front behind left before after
      exact .element before (inductionHypothesis item included (depth + 1) behind) after
  | obj members _ inductionHypothesis =>
      rw [write, writeMembers_eq_map]
      apply derives_enclose layout depth .object
      intro text member
      obtain ⟨named, included, rfl⟩ := List.mem_map.mp member
      exact isItem_writeMember (inductionHypothesis named included (depth + 1))

/-! Numbers that are not finite. -/

open Place

/-- A text either keeps its reader outside of strings, and then something holds, or it loses the
reader. -/
def Tells (text : List Char) (holds : Prop) : Prop :=
  (outside.after text = outside ∧ holds) ∨ outside.after text = lost

theorem tells_of_neutral {text : List Char} {holds : Prop} (neutral : outside.after text = outside)
    (held : holds) : Tells text holds :=
  .inl ⟨neutral, held⟩

/-- Texts one after the other tell what both of them tell. -/
theorem Tells.append {first second : List Char} {before after : Prop} (left : Tells first before)
    (right : Tells second after) : Tells (first ++ second) (before ∧ after) := by
  rcases left with ⟨kept, held⟩ | lostFirst
  · rcases right with ⟨keptToo, heldToo⟩ | lostSecond
    · exact .inl ⟨by rw [after_append, kept, keptToo], held, heldToo⟩
    · exact .inr (by rw [after_append, kept, lostSecond])
  · exact .inr (by rw [after_append, lostFirst, after_lost])

theorem Tells.mono {text : List Char} {strong weak : Prop} (tells : Tells text strong)
    (weaker : strong → weak) : Tells text weak := by
  rcases tells with ⟨kept, held⟩ | gone
  · exact .inl ⟨kept, weaker held⟩
  · exact .inr gone

theorem tells_intercalate {α : Type} {separator : List Char}
    (neutral : outside.after separator = outside) {text : α → List Char} {holds : α → Prop}
    {members : List α} (each : ∀ member ∈ members, Tells (text member) (holds member)) :
    Tells (List.intercalate separator (members.map text)) (∀ member ∈ members, holds member) := by
  induction members with
  | nil => exact tells_of_neutral rfl (by simp)
  | cons member others inductionHypothesis =>
      obtain ⟨first, more⟩ := List.forall_mem_cons.mp each
      have rest := inductionHypothesis more
      cases others with
      | nil =>
          rw [List.map_singleton, List.intercalate_singleton]
          exact first.mono (by simp)
      | cons second others =>
          rw [List.map_cons, List.map_cons, List.intercalate_cons_cons, ← List.map_cons]
          apply ((first.append (tells_of_neutral neutral trivial)).append rest).mono
          rintro ⟨⟨held, _⟩, heldToo⟩
          exact List.forall_mem_cons.mpr ⟨held, heldToo⟩

theorem neutral_edge (layout : Layout) (depth : Nat) :
    outside.after (layout.edge depth) = outside := by
  have blanks := (blanks_edge layout depth []).place
  rwa [List.append_nil] at blanks

theorem tells_enclose {α : Type} (layout : Layout) (depth : Nat) (collection : Collection)
    {text : α → List Char} {holds : α → Prop} {members : List α}
    (each : ∀ member ∈ members, Tells (text member) (holds member)) :
    Tells (enclose layout depth collection.opening collection.closing (members.map text))
      (∀ member ∈ members, holds member) := by
  have opened : outside.after [collection.opening] = outside := by cases collection <;> rfl
  have closed : outside.after [collection.closing] = outside := by cases collection <;> rfl
  unfold enclose
  by_cases empty : (members.map text).isEmpty = true
  · rw [if_pos empty]
    rw [List.isEmpty_iff, List.map_eq_nil_iff] at empty
    subst empty
    apply tells_of_neutral
    · rw [← List.singleton_append, after_append, opened, closed]
    · simp
  · rw [if_neg empty]
    have neutral : outside.after (layout.separator (depth + 1)) = outside := by
      obtain ⟨gap, separated, blank⟩ := separator_eq layout (depth + 1)
      have blanks := (blank []).place
      rw [List.append_nil] at blanks
      rw [separated]
      exact blanks
    have between := tells_intercalate neutral each
    have front : outside.after ([collection.opening] ++ layout.edge (depth + 1)) = outside := by
      rw [after_append, opened, neutral_edge]
    have behind : outside.after (layout.edge depth ++ [collection.closing]) = outside := by
      rw [after_append, neutral_edge, closed]
    have whole := ((tells_of_neutral front trivial).append between).append
      (tells_of_neutral behind trivial)
    simpa using whole

theorem tells_floatText (x : Double) :
    Tells (floatText x) (Json.float x).HasFiniteNumbers := by
  by_cases finite : x.isFinite = true
  · have derives := (derives_write (.float x finite) .compact 0 []).place
    rw [List.append_nil] at derives
    exact tells_of_neutral derives (.float x finite)
  · apply Or.inr
    cases x with
    | finite => exact absurd rfl finite
    | infinite negative => cases negative <;> rfl
    | nan => rfl

mutual

/-- Whatever value is printed, its text tells whether all its numbers are finite. -/
theorem tells_write (layout : Layout) (depth : Nat) (json : Json) :
    Tells (json.write layout depth) json.HasFiniteNumbers := by
  match json with
  | .null => exact tells_of_neutral rfl .null
  | .bool true => exact tells_of_neutral rfl (.bool true)
  | .bool false => exact tells_of_neutral rfl (.bool false)
  | .int value =>
    have derives := (derives_write (.int value) layout depth []).place
    rw [List.append_nil] at derives
    exact tells_of_neutral derives (.int value)
  | .float value => exact tells_floatText value
  | .str value =>
    have derives := (derives_write (.str value) layout depth []).place
    rw [List.append_nil] at derives
    exact tells_of_neutral derives (.str value)
  | .arr items =>
    rw [write, writeItems_eq_map]
    exact (tells_enclose layout depth .array (tells_items layout (depth + 1) items)).mono
      (.arr items)
  | .obj members =>
    rw [write, writeMembers_eq_map]
    exact (tells_enclose layout depth .object (tells_members layout (depth + 1) members)).mono
      (.obj members)

theorem tells_items (layout : Layout) (depth : Nat) (items : List Json) :
    ∀ item ∈ items, Tells (write layout depth item) item.HasFiniteNumbers := by
  match items with
  | [] => simp
  | item :: rest =>
    exact List.forall_mem_cons.mpr ⟨tells_write layout depth item, tells_items layout depth rest⟩

theorem tells_members (layout : Layout) (depth : Nat) (members : List (String × Json)) :
    ∀ member ∈ members, Tells (writeMember layout depth member) member.2.HasFiniteNumbers := by
  match members with
  | [] => simp
  | (key, value) :: rest =>
    have name : outside.after (Text.StringLiteral.write key.toList ++ [':', ' ']) = outside := by
      rw [write_append]
      exact (characters_write key.toList [':', ' ']).place
    have member := (tells_of_neutral name trivial).append (tells_write layout depth value)
    rw [List.append_assoc] at member
    exact List.forall_mem_cons.mpr
      ⟨member.mono And.right, tells_members layout depth rest⟩

end

/-- A printed value is a JSON text exactly when all its numbers are finite. -/
theorem isDocument_write_iff {layout : Layout} {depth : Nat} {json : Json} {behind : List Char}
    (blank : Blanks behind []) :
    IsDocument (json.write layout depth ++ behind) ↔ json.HasFiniteNumbers := by
  constructor
  · intro document
    have kept := document.place
    rcases tells_write layout depth json with ⟨_, finite⟩ | gone
    · exact finite
    · rw [after_append, gone, after_lost] at kept
      contradiction
  · intro finite
    exact .element (.none _) (derives_write finite layout depth behind) blank

end Json.Grammar

end Toolsmith
