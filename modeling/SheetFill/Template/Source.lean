import SheetFill.File.Path

/-!
# Where templates are looked for

A template is looked for in the folder of its name space below the root, and then in the root itself. A reference that
starts with a slash is a path already.
-/

namespace SheetFill.Template

open FilePath (join)

/-- The paths at which a template is looked for, in this order. -/
def candidates (root space reference : String) : List String :=
  if reference.toList.head? = some '/' then [reference]
  else
    [join (join (join root.toList space.toList) "templates".toList) reference.toList,
      join root.toList reference.toList].map String.ofList

end SheetFill.Template
