import Toolsmith.Number.Integer
import Toolsmith.Path
import Toolsmith.SelectionPolicy
import Toolsmith.Text.Quoted

/-!
Settings, as the environment gives them. An empty schema path or depth is the same as none. The two
lists are taken as they are when they are set, so an empty one switches its default off.
-/

set_option autoImplicit false

namespace Toolsmith

abbrev Environment := List (String × String)

namespace Environment

def get? (environment : Environment) (key : String) : Option String :=
  environment.lookup key

/-- A variable that is set to something. -/
def nonempty? (environment : Environment) (key : String) : Option String :=
  (environment.get? key).filter (· ≠ "")

end Environment

inductive SettingsError where
  | notInteger (text : String)
  | negative (depth : Int)
deriving DecidableEq, Repr

/-- Without a schema path the sample schema is used. -/
structure Settings where
  schemaPath : Option Path := none
  policy : SelectionPolicy := .standard
deriving DecidableEq, Repr

namespace Settings

def schemaVariable : String := "GQLBRIDGE_SCHEMA"

def depthVariable : String := "GQLBRIDGE_SELECTION_DEPTH"

def excludedVariable : String := "GQLBRIDGE_EXCLUDED_FIELDS"

def suffixesVariable : String := "GQLBRIDGE_CONNECTION_SUFFIXES"

/-- The variables that are looked at. -/
def variableNames : List String :=
  [schemaVariable, depthVariable, excludedVariable, suffixesVariable]

end Settings

def SettingsError.message : SettingsError → String
  | .notInteger text =>
    Settings.depthVariable ++ " must be an integer, got " ++ Text.quoted text
  | .negative depth =>
    Settings.depthVariable ++ " must be >= 0, got " ++ String.ofList (Integer.write depth)

namespace Settings

/-- The entries of a list between commas, trimmed; blank ones are left out. -/
def entries (text : String) : List String :=
  (((Text.splitAt ',' text.toList).map Text.trim).filter (· ≠ [])).map String.ofList

/-- The entries as a set, in the order of their code points. -/
def distinctEntries (text : String) : List String :=
  (entries text).eraseDups.mergeSort fun first second => decide (first ≤ second)

def readDepth (text : String) : Except SettingsError Int :=
  match Integer.read? text with
  | none => .error (.notInteger text)
  | some depth => if depth < 0 then .error (.negative depth) else .ok depth

def depthOf (environment : Environment) : Except SettingsError Int :=
  match environment.nonempty? depthVariable with
  | none => .ok SelectionPolicy.standard.maxDepth
  | some text => readDepth text

def suffixesOf (environment : Environment) : List String :=
  ((environment.get? suffixesVariable).map entries).getD
    SelectionPolicy.standard.connectionSuffixes

def excludedOf (environment : Environment) : List String :=
  ((environment.get? excludedVariable).map distinctEntries).getD
    SelectionPolicy.standard.excludedFields

def ofEnvironment (environment : Environment) : Except SettingsError Settings :=
  (depthOf environment).map fun maxDepth =>
    { schemaPath := (environment.nonempty? schemaVariable).map Path.ofString
      policy :=
        { maxDepth
          connectionSuffixes := suffixesOf environment
          excludedFields := excludedOf environment } }

end Settings

end Toolsmith
