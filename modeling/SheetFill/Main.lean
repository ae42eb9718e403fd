import SheetFill.CommandLine.Run

/-!
# The program

The files of the system and its standard streams are the surroundings in which a request is run.
-/

namespace SheetFill

open CommandLine (Shell)

/-- The bytes of a file of the system, if it can be read. -/
def readFile? (path : String) : IO (Option (List UInt8)) := do
  match ← (IO.FS.readBinFile path).toBaseIO with
  | .ok bytes => return some bytes.toList
  | .error _ => return none

/-- Writes a file of the system. -/
def writeFile (path : String) (bytes : List UInt8) : IO Bool := do
  match ← (IO.FS.writeBinFile path ⟨bytes.toArray⟩).toBaseIO with
  | .ok () => return true
  | .error _ => return false

/-- The surroundings of the program. -/
def systemShell : Shell IO where
  isFile path := return (← readFile? path).isSome
  read? := readFile?
  write := writeFile
  print := IO.println

end SheetFill

open SheetFill in
def main (arguments : List String) : IO UInt32 := do
  let names := ["DOCFILL_TEMPLATE_ROOT", "DOCFILL_NAMESPACE"]
  let known ← names.mapM fun name => do return (name, ← IO.getEnv name)
  let environment : CommandLine.Environment := fun name => (known.lookup name).bind id
  let ending ← CommandLine.run systemShell environment arguments
  for line in ending.errorLines do
    IO.eprintln line
  return UInt32.ofNat ending.exitCode
