import SheetFill.Fault
import SheetFill.Text.Blank
import SheetFill.Text.Cut
import SheetFill.Text.TextMap

/-!
# Variables

The value of a placeholder is given as a name, an equality sign and the value. Blanks around the name do not count, the
value is taken as it is, and what was given last counts.
-/

namespace SheetFill

/-- The name and the value of a variable. -/
def readVariable (argument : String) : Except Fault (String × String) :=
  match Text.cut '=' argument.toList with
  | none => .error (.variableWithoutValue argument)
  | some (name, value) =>
    if Text.trim name = [] then .error (.variableWithoutName argument)
    else .ok (String.ofList (Text.trim name), String.ofList value)

/-- The variables that arguments give. -/
def readVariables (arguments : List String) : Except Fault TextMap :=
  (arguments.mapM readVariable).map TextMap.ofList

end SheetFill
