import Reckoner.CommandLine.Command
import Reckoner.Product

/-!
# Help and version

What is printed when there is nothing to carry out, and the number that the program then ends with.
-/

namespace Reckoner.CommandLine

/-- An option as it is given; one that may be left out stands in brackets. -/
def Parameter.optionForm (p : Parameter) : String :=
  let form := "--" ++ p.name ++ " <" ++ p.name ++ ">"
  if p.isRequired then form else "[" ++ form ++ "]"

/-- An argument as it is given. -/
def Parameter.argumentForm (p : Parameter) : String := "<" ++ p.name ++ ">"

mutual

/-- The forms of all command lines that begin with some words. -/
def Grammar.forms (words : String) : Grammar → List String
  | .leaf options arguments =>
    [" ".intercalate
      (words :: options.map Parameter.optionForm ++ arguments.map Parameter.argumentForm)]
  | .node commands => formsBelow words commands

/-- The forms of some commands behind these words. -/
def formsBelow (words : String) : List (List String × Grammar) → List String
  | [] => []
  | (names, grammar) :: rest =>
    grammar.forms (words ++ " " ++ names.headD "") ++ formsBelow words rest

end

/-- What is printed when help is asked for. -/
def helpText : String :=
  let flags := Flag.all.map fun flag => "  --" ++ flag.word
  "\n".intercalate (["Usage:"] ++ (grammar.forms productName).map ("  " ++ ·) ++
    ["", "Flags of all commands:"] ++ flags ++ ["  --help", "  --version", ""])

/-- What is printed when the version is asked for within some commands. -/
def versionText (commands : List String) : String :=
  "-".intercalate (productName :: commands) ++ " " ++ productVersion ++ "\n"

namespace Stop

/-- What is printed. -/
def output : Stop → String
  | usage => ""
  | help => helpText
  | version commands => versionText commands

/-- What is said about wrong arguments. -/
def errorText : Stop → String
  | usage => "error: the arguments are wrong\n\nFor more information, try '--help'.\n"
  | _ => ""

/-- The number that the program ends with. -/
def exitCode : Stop → Nat
  | usage => 2
  | _ => 0

end Stop

end Reckoner.CommandLine
