import SheetFill.Text.Cut
import SheetFill.Text.Digits

/-!
# Paths of files

A path is a row of components with slashes between them. Empty components and points count for nothing behind the first
one, so that a slash at the end does not hide the name of a file. The name of a file is its last component, unless that
is a point or two; behind the name's last point, if something stands before it, is the extension.
-/

namespace SheetFill.FilePath

/-- A path below a folder; one that starts with a slash stands for itself. -/
def join (folder path : List Char) : List Char :=
  if path.head? = some '/' then path
  else if folder = [] ∨ folder.getLast? = some '/' then folder ++ path
  else folder ++ '/' :: path

/-- Drops the components at the end that count for nothing; the components come last first. -/
def dropIdle : List (List Char) → List (List Char)
  | [] => []
  | [first] => [first]
  | c :: rest => if c = [] ∨ c = ['.'] then dropIdle rest else c :: rest

/-- The components of a path that count, from the last one on. -/
def backwards (path : List Char) : List (List Char) :=
  dropIdle (Text.splitOn '/' path).reverse

/-- A component that names a file. -/
def isName (c : List Char) : Bool :=
  c ≠ [] && c ≠ ['.'] && c ≠ ['.', '.']

/-- The name of a file. -/
def name? (path : List Char) : Option (List Char) :=
  (backwards path).head?.filter isName

/-- The folder of a file; without a name the path itself. -/
def folder (path : List Char) : List Char :=
  match backwards path with
  | [] => path
  | c :: rest =>
    if isName c then
      match dropIdle rest with
      | [[]] => ['/']
      | more => ['/'].intercalate more.reverse
    else path

/-- The name before its extension, and the extension. -/
def splitName (name : List Char) : List Char × Option (List Char) :=
  match Text.cutLast '.' name with
  | none => (name, none)
  | some ([], _) => (name, none)
  | some (stem, extension) => (stem, some extension)

/-- The path with another name in the same folder. -/
def withName (path name : List Char) : List Char :=
  join (folder path) name

/-- Whether a file is written in JSON, by its extension. -/
def isJson (path : String) : Bool :=
  match (name? path.toList).bind fun n => (splitName n).2 with
  | some extension => extension.map Char.toLower = "json".toList
  | none => false

/-- Where the document at a position is written: a single one at the path itself, each of several with its number behind
the name. -/
def numbered (path : String) (index count : Nat) : String :=
  if count ≤ 1 then path
  else
    let parts := (name? path.toList).map splitName
    let stem := (parts.map Prod.fst).getD "output".toList
    let extension := (parts.bind Prod.snd).getD "xlsx".toList
    String.ofList
      (withName path.toList (stem ++ '_' :: Text.ofNat (index + 1) ++ '.' :: extension))

end SheetFill.FilePath
