import Toolsmith.Call
import Toolsmith.Proofs.Outcome

/-!
Calls as they are received. A message is a call when it has a name and arguments can be made of what
it has for them; what else it holds is not looked at. A map of arguments is kept as it is, and pairs
are set one after the other, each under its key.
-/

set_option autoImplicit false

namespace Toolsmith

namespace Arguments

/-- An argument with a key of its own goes to the end. -/
theorem put_of_forall {arguments : Arguments} {key : Key}
    (own : ∀ entry ∈ arguments, entry.1.isSame key = false) (value : Value) :
    put key value arguments = arguments ++ [(key, value)] := by
  induction arguments with
  | nil => rfl
  | cons entry rest inductionHypothesis =>
      obtain ⟨different, others⟩ := List.forall_mem_cons.mp own
      rw [put, if_neg (by simp [different]), inductionHypothesis others, List.cons_append]

/-- Entries with keys of their own go to the end one after the other. -/
theorem foldl_put_of_pairwise {before rest : Arguments}
    (distinct : (before ++ rest).Pairwise fun first second => first.1.isSame second.1 = false) :
    rest.foldl (fun arguments entry => put entry.1 entry.2 arguments) before = before ++ rest := by
  induction rest generalizing before with
  | nil => rw [List.foldl_nil, List.append_nil]
  | cons entry rest inductionHypothesis =>
      obtain ⟨_, _, across⟩ := List.pairwise_append.mp distinct
      have own : ∀ earlier ∈ before, earlier.1.isSame entry.1 = false :=
        fun earlier member => across earlier member entry List.mem_cons_self
      rw [List.foldl_cons, put_of_forall own, inductionHypothesis (by simpa using distinct),
        List.append_assoc, List.singleton_append]

/-- Entries of which no two have the same key are kept as they are, in their order. -/
theorem ofEntries_of_pairwise {entries : List (Key × Value)}
    (distinct : entries.Pairwise fun first second => first.1.isSame second.1 = false) :
    ofEntries entries = entries :=
  foldl_put_of_pairwise distinct

/-- Setting an argument changes no key and adds at most its own. -/
theorem map_fst_put (key : Key) (value : Value) (arguments : Arguments) :
    (put key value arguments).map Prod.fst =
      if arguments.any (·.1.isSame key) then arguments.map Prod.fst
      else arguments.map Prod.fst ++ [key] := by
  induction arguments with
  | nil => rfl
  | cons entry rest inductionHypothesis =>
      rw [put]
      by_cases same : entry.1.isSame key = true
      · simp [same]
      · rw [if_neg same, List.map_cons, inductionHypothesis, List.any_cons,
          eq_false_of_ne_true same, Bool.false_or]
        split <;> rfl

end Arguments

namespace CallMessage

/-- An argument is a pair of a key and a value, in any collection of two parts. -/
theorem argumentOfPair_eq_ok_iff {pair : Value} {key : Key} {value : Value} :
    argumentOfPair pair = .ok (key, value) ↔
      ∃ named, pair.parts? = some [named, value] ∧ named.key? = some key := by
  unfold argumentOfPair
  split
  · rename_i none
    simp [none]
  · rename_i named content parts
    cases known : named.key? with
    | none => simp [parts, known]
    | some other => simp [parts, known, and_comm]
  · rename_i parts noPair given
    simp only [given, reduceCtorEq, false_iff, not_exists, not_and, Option.some.injEq]
    rintro named rfl
    exact absurd rfl (noPair named value)

/-- Pairs are all read, or the first one that is none decides. -/
theorem addPairs_eq (arguments : Arguments) (pairs : List Value) :
    addPairs arguments pairs =
      (pairs.mapM argumentOfPair).map
        (·.foldl (fun arguments (key, value) => arguments.put key value) arguments) := by
  induction pairs generalizing arguments with
  | nil => rfl
  | cons pair rest inductionHypothesis =>
      rw [addPairs, List.mapM_cons]
      cases argumentOfPair pair with
      | error error => rfl
      | ok argument =>
          simp only [bind, Except.bind, inductionHypothesis]
          cases rest.mapM argumentOfPair <;> rfl

/-- What a message has for arguments, and the arguments that are made of it. -/
inductive Gives : Option Value → Arguments → Prop
  | absent : Gives none []
  | map (entries : List (Key × Value)) : Gives (some (.map entries)) entries
  | empty {value : Value} (empty : value.isEmpty = true) : Gives (some value) []
  | pairs {value : Value} {pairs : List Value} {entries : List (Key × Value)}
      (noMap : ∀ entries, value ≠ .map entries) (filled : value.isEmpty = false)
      (parts : value.parts? = some pairs)
      (each : List.Forall₂ (fun pair entry => argumentOfPair pair = .ok entry) pairs entries) :
      Gives (some value) (.ofEntries entries)

theorem argumentsOf_eq_ok_iff {given : Option Value} {arguments : Arguments} :
    argumentsOf given = .ok arguments ↔ Gives given arguments := by
  constructor
  · intro ok
    unfold argumentsOf at ok
    split at ok
    · obtain rfl := Except.ok.inj ok
      exact .absent
    · obtain rfl := Except.ok.inj ok
      exact .map _
    · rename_i value noMap
      split at ok
      · rename_i empty
        obtain rfl := Except.ok.inj ok
        exact .empty empty
      · rename_i filled
        split at ok
        · contradiction
        · rename_i pairs parts
          rw [addPairs_eq, Except.map_eq_ok_iff] at ok
          obtain ⟨entries, read, rfl⟩ := ok
          exact .pairs noMap (eq_false_of_ne_true filled) parts (Except.mapM_eq_ok_iff.mp read)
  · intro gives
    cases gives with
    | absent => rfl
    | map => rfl
    | @empty value empty =>
        unfold argumentsOf
        split
        · rfl
        · rename_i entries same
          obtain rfl := Option.some.inj same
          rw [List.isEmpty_iff.mp empty]
        · rename_i same
          obtain rfl := Option.some.inj same
          rw [if_pos empty]
    | @pairs value pairs entries noMap filled parts each =>
        rw [argumentsOf, if_neg (by simp [filled]), parts]
        · dsimp only
          rw [addPairs_eq, Except.mapM_eq_ok_iff.mpr each]
          rfl
        · exact noMap

/-- A message is received exactly when it has a name and gives arguments. -/
theorem ofEntries_eq_ok_iff {entries : List (Key × Value)} {message : CallMessage} :
    ofEntries entries = .ok message ↔
      entries.lookup (.str "name") = some message.name ∧
        Gives (entries.lookup (.str "arguments")) message.arguments := by
  unfold ofEntries
  split
  · rename_i none
    simp [none]
  · rename_i name named
    rw [named, Except.bind_eq_ok_iff]
    obtain ⟨ownName, arguments⟩ := message
    simp only [argumentsOf_eq_ok_iff, Option.some.injEq]
    constructor
    · rintro ⟨_, gives, same⟩
      obtain ⟨rfl, rfl⟩ := CallMessage.mk.inj (Except.ok.inj same)
      exact ⟨rfl, gives⟩
    · rintro ⟨rfl, gives⟩
      exact ⟨arguments, gives, rfl⟩

/-- A call that is sent as a message is received as it was, whatever else the message holds. -/
theorem call?_of_sent {entries : List (Key × Value)} {call : Call}
    (name : entries.lookup (.str "name") = some (.str call.name))
    (arguments : entries.lookup (.str "arguments") = some (.map call.arguments)) :
    ∃ message, ofEntries entries = .ok message ∧ message.call? = some call := by
  refine ⟨⟨.str call.name, call.arguments⟩, ofEntries_eq_ok_iff.mpr ⟨name, ?_⟩, rfl⟩
  rw [arguments]
  exact .map call.arguments

end CallMessage

end Toolsmith
