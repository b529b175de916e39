import CmInventory.Dictionary
import CmInventory.Number.Shortest

/-!
# JSON values

The values of JSON with the members of objects in their order. A number is an integer of the range
from `-2 ^ 63` to `2 ^ 64 - 1`, written with digits alone, or a binary floating-point number.
-/

namespace CmInventory
namespace Json

/-- A number of a JSON text. -/
inductive Number
  | integer (i : Int)
  | double (x : Binary64)
  deriving DecidableEq, Repr

namespace Number

/-- The least integer that is kept as one: `-2 ^ 63`. -/
def leastInteger : Int := -9223372036854775808

/-- The greatest integer that is kept as one: `2 ^ 64 - 1`. -/
def greatestInteger : Int := 18446744073709551615

/-- Whether the number is an integer of the range in which integers are kept. -/
def IsExact : Number → Prop
  | .integer i => leastInteger ≤ i ∧ i ≤ greatestInteger
  | .double _ => False

end Number

/-- A JSON value. -/
inductive Value
  | null
  | bool (b : Bool)
  | number (n : Number)
  | text (s : String)
  | array (items : List Value)
  | object (members : List (String × Value))
  deriving Repr, Inhabited

namespace Value

/-- The value of a natural number. -/
def natural (n : Nat) : Value :=
  .number (.integer n)

/-- Text, or null if there is none. -/
def optionalText : Option String → Value
  | none => .null
  | some s => .text s

/-- A member that is left out if there is no value. -/
def memberIfAny (name : String) : Option Value → List (String × Value)
  | none => []
  | some v => [(name, v)]

/-- A dictionary as an object. -/
def ofDictionary {β : Type} (toJson : β → Value) (d : Dictionary β) : Value :=
  .object (d.entries.map fun e => (e.1, toJson e.2))

/-- Puts a member into a list of members: over the one of the same name, or at the end. -/
def putMember (name : String) (value : Value) : List (String × Value) → List (String × Value)
  | [] => [(name, value)]
  | (n, v) :: rest => if n = name then (n, value) :: rest else (n, v) :: putMember name value rest

/-- The first member of an object with at least one, as an object of its own. -/
def firstMember? : Value → Option Value
  | .object (m :: _) => some (.object [m])
  | _ => none

mutual

/-- Whether every number in the value is an integer of the range in which integers are kept. -/
def HasExactNumbers : Value → Prop
  | .null | .bool _ | .text _ => True
  | .number n => n.IsExact
  | .array items => AllExact items
  | .object members => AllExactMembers members

/-- `HasExactNumbers` for the items of an array. -/
def AllExact : List Value → Prop
  | [] => True
  | v :: rest => HasExactNumbers v ∧ AllExact rest

/-- `HasExactNumbers` for the values of members. -/
def AllExactMembers : List (String × Value) → Prop
  | [] => True
  | (_, v) :: rest => HasExactNumbers v ∧ AllExactMembers rest

end

mutual

/-- How deep arrays and objects are nested in the value. -/
def depth : Value → Nat
  | .null | .bool _ | .text _ | .number _ => 0
  | .array items => itemsDepth items + 1
  | .object members => membersDepth members + 1

/-- The greatest depth among the items of an array. -/
def itemsDepth : List Value → Nat
  | [] => 0
  | v :: rest => max (depth v) (itemsDepth rest)

/-- The greatest depth among the values of members. -/
def membersDepth : List (String × Value) → Nat
  | [] => 0
  | (_, v) :: rest => max (depth v) (membersDepth rest)

end

end Value
end Json
end CmInventory
