/-!
# Name and version

How the program calls itself.
-/

namespace Reckoner

/-- The name of the program. -/
def productName : String := "exprflow"

/-- The version of the program. -/
def productVersion : String := "0.1.0"

end Reckoner
