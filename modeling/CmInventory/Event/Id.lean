import CmInventory.Json.Decoder
import CmInventory.Json.Printer

/-!
# Event ids

An event is named by a number of 128 bits, written as 32 hexadecimal digits in groups of 8, 4, 4, 4
and 12. The digits are also read without the hyphens, and the grouped form also inside braces or
after `urn:uuid:`.
-/

namespace CmInventory

/-- The id of an event: 32 hexadecimal digits. -/
structure EventId where
  digits : List (Fin 16)
  length_digits : digits.length = 32
  deriving DecidableEq

namespace EventId

def zero : EventId := ⟨List.replicate 32 0, by simp⟩

instance : Inhabited EventId := ⟨zero⟩

/-- The id of the last 128 bits of a number. -/
def ofNat (n : Nat) : EventId :=
  ⟨List.ofFn fun i : Fin 32 => Fin.ofNat 16 (n / Nat.pow 16 (31 - i.val)), by simp⟩

/-- A fresh id: 48 bits with the milliseconds since the year 1970, so that ids are ordered by time, and 74
random bits. The digit 7 names this kind of id, and `10` in binary its layout. -/
def timeOrdered (millis random : Nat) : EventId :=
  let high := random >>> 62 % 0x1000
  let low := random % (1 <<< 62)
  ofNat ((((millis <<< 4 + 7) <<< 12 + high) <<< 2 + 2) <<< 62 + low)

/-- A digit in lower case. -/
def digitChar (d : Fin 16) : Char :=
  Json.hexDigit d.val

/-- The sizes of the groups of digits. -/
def groupSizes : List Nat := [8, 4, 4, 4, 12]

/-- Digits in groups of the given sizes with hyphens between them. -/
def grouped : List Nat → List (Fin 16) → List Char
  | [], ds => ds.map digitChar
  | [_], ds => ds.map digitChar
  | size :: sizes, ds =>
      (ds.take size).map digitChar ++ '-' :: grouped sizes (ds.drop size)

def render (id : EventId) : String :=
  String.ofList (grouped groupSizes id.digits)

/-- A hexadecimal digit of either case. -/
def digit? (c : Char) : Option (Fin 16) := do
  let n ← Json.Reader.hexValue? c
  if h : n < 16 then some ⟨n, h⟩ else none

/-- A given number of digits, and the text after them. -/
def take? : Nat → List Char → Option (List (Fin 16) × List Char)
  | 0, cs => some ([], cs)
  | _ + 1, [] => none
  | n + 1, c :: cs => do
      let d ← digit? c
      let (ds, rest) ← take? n cs
      return (d :: ds, rest)

/-- Groups of digits with hyphens between them. -/
def groups? : List Nat → List Char → Option (List (Fin 16) × List Char)
  | [], cs => some ([], cs)
  | [size], cs => take? size cs
  | size :: sizes, cs => do
      let (ds, rest) ← take? size cs
      match rest with
      | '-' :: rest =>
          let (more, rest) ← groups? sizes rest
          return (ds ++ more, rest)
      | _ => none

/-- The id of digits that were found, if nothing but `close` follows them. -/
def finish (close : List Char) : Option (List (Fin 16) × List Char) → Option EventId
  | some (ds, rest) =>
      if h : ds.length = 32 then if rest = close then some ⟨ds, h⟩ else none else none
  | none => none

/-- The id that a text stands for. -/
def ofText? (s : String) : Option EventId :=
  let cs := s.toList
  let marks := ["urn:uuid:".toList, "URN:UUID:".toList]
  match cs with
  | '\x7b' :: rest => finish ['\x7d'] (groups? groupSizes rest)
  | _ =>
      if cs.length = 32 then finish [] (take? 32 cs)
      else if marks.contains (cs.take 9) then finish [] (groups? groupSizes (cs.drop 9))
      else finish [] (groups? groupSizes cs)

def toJson (id : EventId) : Json.Value :=
  .text id.render

def decoder : Json.Decoder EventId :=
  Json.Decoder.parsedText ofText?

end EventId
end CmInventory
