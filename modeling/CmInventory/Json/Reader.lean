import CmInventory.Json.Numeral
import CmInventory.Json.Tree

/-!
# Reading JSON

From the characters of a text to its outline. White space is the space, the tab, the line feed and
the carriage return.

`Tree.ofText` reads a whole text. The functions that read one value give the text after it; after a
broken one that is of no use. They recurse on a bound that is larger than the length of the text,
which every call shortens.
-/

namespace CmInventory
namespace Json
namespace Reader

def isSpace (c : Char) : Bool :=
  c = ' ' || c = '\n' || c = '\t' || c = '\r'

/-- The text without the white space it starts with. -/
def skipSpace (cs : List Char) : List Char :=
  cs.dropWhile isSpace

/-! ## Strings -/

/-- A piece of a string: a character, or a unit of UTF-16 given by its number. -/
inductive Piece
  | char (c : Char)
  | unit (n : Nat)
  deriving DecidableEq, Repr

/-- The value of a hexadecimal digit. -/
def hexValue? (c : Char) : Option Nat :=
  let n := c.toNat
  if 48 ≤ n ∧ n ≤ 57 then some (n - 48)
  else if 97 ≤ n ∧ n ≤ 102 then some (n - 87)
  else if 65 ≤ n ∧ n ≤ 70 then some (n - 55)
  else none

/-- The unit written by four hexadecimal digits. -/
def unit? (a b c d : Char) : Option Nat := do
  let a ← hexValue? a
  let b ← hexValue? b
  let c ← hexValue? c
  let d ← hexValue? d
  return ((16 * a + b) * 16 + c) * 16 + d

/-- The character that a backslash and a letter stand for. -/
def shortEscape? (c : Char) : Option Char :=
  if c = '"' then some '"'
  else if c = '\\' then some '\\'
  else if c = '/' then some '/'
  else if c = 'b' then some '\x08'
  else if c = 'f' then some '\x0c'
  else if c = 'n' then some '\n'
  else if c = 'r' then some '\r'
  else if c = 't' then some '\t'
  else none

/-- The pieces of a string, last first, up to its closing quotation mark, and the text after it. -/
def pieces (found : List Piece) : List Char → Option (List Piece × List Char)
  | [] => none
  | '"' :: rest => some (found, rest)
  | '\\' :: 'u' :: a :: b :: c :: d :: rest =>
      match unit? a b c d with
      | some n => pieces (.unit n :: found) rest
      | none => none
  | '\\' :: c :: rest =>
      match shortEscape? c with
      | some e => pieces (.char e :: found) rest
      | none => none
  | c :: rest => if c.toNat < 0x20 then none else pieces (.char c :: found) rest

def isLeading (n : Nat) : Bool := 0xD800 ≤ n && n ≤ 0xDBFF

def isTrailing (n : Nat) : Bool := 0xDC00 ≤ n && n ≤ 0xDFFF

/-- The characters of pieces, where every surrogate is half of a pair. -/
def assemble : List Piece → Option (List Char)
  | [] => some []
  | .char c :: rest => (assemble rest).map (c :: ·)
  | .unit n :: rest =>
      if isTrailing n then none
      else if isLeading n then
        match rest with
        | .unit m :: rest =>
            if isTrailing m then
              -- Ten bits of either half, above the characters of a single unit.
              (assemble rest).map (Char.ofNat (0x10000 + (n - 0xD800) * 0x400 + (m - 0xDC00)) :: ·)
            else none
        | _ => none
      else (assemble rest).map (Char.ofNat n :: ·)

/-- The string after an opening quotation mark, and the text after it. -/
def string? (cs : List Char) : Option (Option String × List Char) :=
  (pieces [] cs).map fun (found, rest) => ((assemble found.reverse).map String.ofList, rest)

/-! ## Values -/

/-- A number at the start, and the text after it. -/
def number (cs : List Char) : Tree × List Char :=
  match Numeral.read? cs with
  | some (n, rest) => (.number n.number, rest)
  | none => (.broken, cs)

mutual

/-- The value at the start, after white space, and the text after it. -/
def value : Nat → List Char → Tree × List Char
  | 0, cs => (.broken, cs)
  | bound + 1, cs =>
      match skipSpace cs with
      | '{' :: rest =>
          match skipSpace rest with
          | '}' :: rest => (.object [] true, rest)
          | rest => members bound [] rest
      | '[' :: rest =>
          match skipSpace rest with
          | ']' :: rest => (.array [] true, rest)
          | rest => items bound [] rest
      | '"' :: rest =>
          match string? rest with
          | some (s, rest) => (.text s, rest)
          | none => (.broken, rest)
      | 'n' :: 'u' :: 'l' :: 'l' :: rest => (.null, rest)
      | 't' :: 'r' :: 'u' :: 'e' :: rest => (.bool true, rest)
      | 'f' :: 'a' :: 'l' :: 's' :: 'e' :: rest => (.bool false, rest)
      -- Everything else starts a number or is broken.
      | rest => number rest

/-- The items of an array that follow those in `found`, which are in reverse order. -/
def items : Nat → List Tree → List Char → Tree × List Char
  | 0, found, cs => (.array found.reverse false, cs)
  | bound + 1, found, cs =>
      let (item, rest) := value bound cs
      let found := item :: found
      if item.isComplete then
        match skipSpace rest with
        | ',' :: rest => items bound found rest
        | ']' :: rest => (.array found.reverse true, rest)
        | rest => (.array found.reverse false, rest)
      else (.array found.reverse false, rest)

/-- The members of an object that follow those in `found`, which are in reverse order. -/
def members : Nat → List (Option String × Tree) → List Char → Tree × List Char
  | 0, found, cs => (.object found.reverse false, cs)
  | bound + 1, found, cs =>
      match skipSpace cs with
      | '"' :: rest =>
          match string? rest with
          | none => (.object found.reverse false, rest)
          | some (name, rest) =>
              match skipSpace rest with
              | ':' :: rest =>
                  let (item, rest) := value bound rest
                  let found := (name, item) :: found
                  if item.isComplete then
                    match skipSpace rest with
                    | ',' :: rest => members bound found rest
                    | '}' :: rest => (.object found.reverse true, rest)
                    | rest => (.object found.reverse false, rest)
                  else (.object found.reverse false, rest)
              | rest => (.object ((name, .broken) :: found).reverse false, rest)
      | rest => (.object found.reverse false, rest)

end

end Reader

/-- The outline of a text and whether nothing but white space follows the value. -/
structure Document where
  tree : Tree
  isWhole : Bool

/-- The outline of a text. -/
def Document.ofText (text : String) : Document :=
  let cs := text.toList
  let (tree, rest) := Reader.value (2 * cs.length + 2) cs
  ⟨tree, (Reader.skipSpace rest).isEmpty⟩

end Json
end CmInventory
