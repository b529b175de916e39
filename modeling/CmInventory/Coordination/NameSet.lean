import CmInventory.Dictionary

/-!
# Sets of names

A finite set of names is a dictionary that maps each of them to nothing. Its elements are listed in
ascending order.
-/

namespace CmInventory

/-- A finite set of names. -/
abbrev NameSet := Dictionary Unit

namespace NameSet

/-- The set of the names in a list. -/
def ofNames (names : List String) : NameSet :=
  names.foldl (fun s n => s.insert n ()) .empty

/-- The names in ascending order. -/
def names (s : NameSet) : List String :=
  s.keys

def without (s : NameSet) (name : String) : NameSet :=
  s.erase name

end NameSet
end CmInventory
