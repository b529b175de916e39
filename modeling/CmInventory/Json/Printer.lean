import CmInventory.Json.Value

/-!
# Writing JSON

A value is written without white space, the members of an object in their order. In a string the
quotation mark, the backslash and the control characters below U+0020 are escaped: by a letter where
there is one, otherwise by four hexadecimal digits in lower case. Every other character stands for
itself.
-/

namespace CmInventory
namespace Json

def hexDigit (n : Nat) : Char :=
  if n < 10 then Char.ofNat (48 + n) else Char.ofNat (87 + n)

/-- A character as it stands inside quotation marks. -/
def escape (c : Char) : List Char :=
  if c = '"' then ['\\', '"']
  else if c = '\\' then ['\\', '\\']
  else if c = '\x08' then ['\\', 'b']
  else if c = '\t' then ['\\', 't']
  else if c = '\n' then ['\\', 'n']
  else if c = '\x0c' then ['\\', 'f']
  else if c = '\r' then ['\\', 'r']
  else if c.toNat < 0x20 then
    ['\\', 'u', '0', '0', hexDigit (c.toNat / 16), hexDigit (c.toNat % 16)]
  else [c]

/-- A string with its quotation marks. -/
def quote (s : String) : List Char :=
  '"' :: (s.toList.flatMap escape ++ ['"'])

/-- The digits of an integer after its sign. -/
def integerText : Int → List Char
  | .ofNat n => Nat.toDigits 10 n
  | .negSucc n => '-' :: Nat.toDigits 10 (n + 1)

def Number.text : Number → List Char
  | .integer i => integerText i
  | .double x => (DecimalLayout.json.text x).toList

namespace Value

mutual

/-- The characters of a value. -/
def chars : Value → List Char
  | .null => ['n', 'u', 'l', 'l']
  | .bool true => ['t', 'r', 'u', 'e']
  | .bool false => ['f', 'a', 'l', 's', 'e']
  | .number n => n.text
  | .text s => quote s
  | .array items => '[' :: itemsChars items
  | .object members => '{' :: membersChars members

/-- The characters of the items of an array, up to its end. -/
def itemsChars : List Value → List Char
  | [] => [']']
  | [v] => chars v ++ [']']
  | v :: w :: rest => chars v ++ ',' :: itemsChars (w :: rest)

/-- The characters of the members of an object, up to its end. -/
def membersChars : List (String × Value) → List Char
  | [] => ['}']
  | [(n, v)] => quote n ++ ':' :: (chars v ++ ['}'])
  | (n, v) :: m :: rest => quote n ++ ':' :: (chars v ++ ',' :: membersChars (m :: rest))

end

def render (v : Value) : String :=
  String.ofList v.chars

end Value
end Json
end CmInventory
