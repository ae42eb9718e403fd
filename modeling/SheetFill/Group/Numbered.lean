import SheetFill.Plan.Basic

/-!
# Numbered fields

Without a start cell a repeating group makes fields with numbered names, such as child1_firstName: one for every item and
every path that can be read, the items in order and the fields of an item in the order of the group. A name that comes
again takes the later text.
-/

namespace SheetFill.RepeatingGroup

/-- The name of the field `key` of the item with number `index`. -/
def flatName (group : RepeatingGroup) (index : Int) (key : String) : String :=
  let before := group.namePrefix.getD ""
  let behind := group.nameSuffix.getD ""
  let separator := group.indexSeparator.getD ""
  match group.indexPosition with
  | .beforeField => before ++ Text.intText index ++ separator ++ key ++ behind
  | .afterField => before ++ key ++ separator ++ Text.intText index ++ behind

/-- The items that are repeated, with their numbers. -/
def numberedItems (group : RepeatingGroup) (items : List Tree) : List (Tree × Int) :=
  ((items.take (group.itemCount items.length)).zipIdx).map fun (item, i) =>
    (item, group.startIndex + i)

/-- The fields of one item. -/
def itemFields (group : RepeatingGroup) (dialect : Dialect) (item : Tree) (index : Int) :
    List (String × String) :=
  group.fields.entries.filterMap fun (key, path) =>
    match dialect.evaluate item path with
    | .ok selection => some (group.flatName index key, selection.text)
    | .error _ => none

/-- The warnings of one item: one for every path that cannot be read. -/
def pathWarnings (paths : List String) (dialect : Dialect) (item : Tree) : List Warning :=
  paths.filterMap fun path =>
    match dialect.evaluate item path with
    | .ok _ => none
    | .error fault => some (fault.warning path)

/-- The numbered fields of items, as they come. -/
def flatEntries (group : RepeatingGroup) (dialect : Dialect) (items : List Tree) :
    List (String × String) :=
  (group.numberedItems items).flatMap fun (item, index) => group.itemFields dialect item index

/-- The warnings that numbered fields give. -/
def flatWarnings (group : RepeatingGroup) (dialect : Dialect) (items : List Tree) : List Warning :=
  (group.numberedItems items).flatMap fun (item, _) =>
    pathWarnings (group.fields.entries.map Prod.snd) dialect item

/-- The numbered fields of items. -/
def expandFlat (group : RepeatingGroup) (dialect : Dialect) (items : List Tree) : TextMap :=
  .ofList (group.flatEntries dialect items)

end SheetFill.RepeatingGroup
