/-!
# Media types

Whether the media type of a body says that it is JSON: its type is `application`, and its subtype is
`json` or ends in `+json`. A media type is written `type/subtype`, and parameters may follow, each after a
semicolon; letters of both cases are alike.
-/

namespace CmInventory
namespace MediaType

/-- The characters of which names consist. -/
def isTokenChar (c : Char) : Bool :=
  c.isAlphanum || "!#$%&\x27*+-.^_\x60|~".toList.contains c

/-- The characters that may stand inside quotation marks, apart from the quotation mark. -/
def isQuotedChar (c : Char) : Bool :=
  c.toNat > 31 && c.toNat < 127 && c ≠ '"'

/-- The text after the rest of a quoted value: spaces, and a semicolon unless the text ends. -/
def afterQuoted? (cs : List Char) : Option (List Char) :=
  match cs.dropWhile (· = ' ') with
  | [] => some []
  | ';' :: rest => some rest
  | _ => none

/-- The text after one parameter and its semicolon. A value in quotation marks may start with one. -/
def afterParameter? (cs : List Char) : Option (List Char) :=
  let name := cs.takeWhile isTokenChar
  match name.isEmpty, cs.drop name.length with
  | false, '=' :: '"' :: first :: rest =>
      match isQuotedChar first || first = '"', rest.dropWhile isQuotedChar with
      | true, '"' :: rest => afterQuoted? rest
      | _, _ => none
  | false, '=' :: rest =>
      let value := rest.takeWhile isTokenChar
      match value.isEmpty, rest.drop value.length with
      | _, [] => some []
      | false, ';' :: rest => some rest
      | _, _ => none
  | _, _ => none

/-- Whether a text consists of parameters. `bound` is larger than its length. -/
def areParameters : (bound : Nat) → List Char → Bool
  | 0, _ => false
  | _ + 1, [] => true
  | bound + 1, ' ' :: rest => areParameters bound rest
  | bound + 1, cs =>
      match afterParameter? cs with
      | some rest => areParameters bound rest
      | none => false

/-- The parts of a subtype before and after its last plus sign, other than one at its start. -/
def splitSuffix (subtype : List Char) : List Char × Option (List Char) :=
  let suffix := (subtype.reverse.takeWhile (· ≠ '+')).reverse
  -- Without a plus sign the suffix is the whole subtype, and nothing is left before it.
  let before := subtype.take (subtype.length - suffix.length - 1)
  if before.isEmpty then (subtype, none) else (before, some suffix)

/-- Whether a media type says that a body is JSON. -/
def isJson (mediaType : String) : Bool :=
  let cs := mediaType.toList.map Char.toLower
  let type := cs.takeWhile isTokenChar
  match cs.drop type.length with
  | '/' :: rest =>
      let subtype := rest.takeWhile isTokenChar
      let wellFormed :=
        match rest.drop subtype.length with
        | [] => true
        | ';' :: parameters => areParameters (parameters.length + 1) parameters
        | _ => false
      let (before, suffix) := splitSuffix subtype
      wellFormed && !subtype.isEmpty && type = "application".toList &&
        (before = "json".toList || suffix = some "json".toList)
  | _ => false

end MediaType
end CmInventory
