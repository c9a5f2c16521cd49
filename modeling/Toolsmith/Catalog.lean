import Toolsmith.Json.Printer
import Toolsmith.Tool

/-!
Catalogs: the tools as a JSON array, each with its name, description and input schema.
-/

set_option autoImplicit false

namespace Toolsmith

def catalog (tools : List Tool) : Json :=
  .arr (tools.map Tool.toJson)

/-- The text of a catalog file. -/
def catalogText (tools : List Tool) : String :=
  (catalog tools).indentedText ++ "\n"

end Toolsmith
