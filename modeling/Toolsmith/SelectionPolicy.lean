/-!
Policies for selecting fields: how many levels of objects are expanded, and which fields never are.
-/

set_option autoImplicit false

namespace Toolsmith

structure SelectionPolicy where
  maxDepth : Int := 1
  connectionSuffixes : List String := ["Connection"]
  excludedFields : List String := ["dailyBreakdown"]
deriving DecidableEq, Repr

namespace SelectionPolicy

/-- The policy when nothing is set. -/
def standard : SelectionPolicy := {}

/-- Whether a field may be expanded as far as its name goes. -/
def expands (policy : SelectionPolicy) (field : String) : Bool :=
  !policy.excludedFields.contains field &&
    !policy.connectionSuffixes.any fun ending => ending.toList.isSuffixOf field.toList

/-- Whether a field of an object at a depth may be expanded. -/
def allowsNested (policy : SelectionPolicy) (field : String) (depth : Int) : Bool :=
  decide (depth < policy.maxDepth) && policy.expands field

end SelectionPolicy

end Toolsmith
