import CmInventory.Json.Value

/-!
# What a JSON text holds

A `Tree` is the outline of a JSON text, as far as the text is JSON: the place where it stops being
JSON is marked. The outline is lenient where a reader that skips a value is: a number too large for a
binary floating-point number, or a string with half of a surrogate pair, is noted and does not stop
the reading, and arrays and objects may be nested to any depth. What a number, a string or a depth is
good for is decided by whoever takes a value out of the outline.
-/

namespace CmInventory
namespace Json

/-- The outline of a JSON text. -/
inductive Tree
  /-- The text stops being JSON here. -/
  | broken
  | null
  | bool (b : Bool)
  /-- A number, or none if its magnitude is too large. -/
  | number (n : Option Number)
  /-- A string, or none if it holds half of a surrogate pair. -/
  | text (s : Option String)
  /-- An array and whether its end was reached. -/
  | array (items : List Tree) (closed : Bool)
  /-- An object and whether its end was reached. -/
  | object (members : List (Option String × Tree)) (closed : Bool)
  deriving Inhabited

namespace Tree

/-- Whether the text is JSON up to the end of this value. -/
def isComplete : Tree → Bool
  | .broken => false
  | .array _ closed => closed
  | .object _ closed => closed
  | _ => true

end Tree

namespace Value

mutual

/-- The outline of the text of a value. -/
def tree : Value → Tree
  | .null => .null
  | .bool b => .bool b
  | .number n => .number (some n)
  | .text s => .text (some s)
  | .array items => .array (itemTrees items) true
  | .object members => .object (memberTrees members) true

/-- The outlines of the items of an array. -/
def itemTrees : List Value → List Tree
  | [] => []
  | v :: rest => tree v :: itemTrees rest

/-- The outlines of the members of an object. -/
def memberTrees : List (String × Value) → List (Option String × Tree)
  | [] => []
  | (n, v) :: rest => (some n, tree v) :: memberTrees rest

end

end Value
end Json
end CmInventory
