/-!
# URLs of plugins

A URL of a web server is split into its authority, its path and its query. The path and the query are
written as they go over the wire: characters that may not stand there are replaced by the bytes of
their UTF-8 form, each written as a percent sign and two hexadecimal digits, and the segments `.` and
`..` of a path are resolved.
-/

namespace CmInventory

/-- A URL with the scheme `http` or `https`. -/
structure Url where
  isSecure : Bool
  authority : String
  path : String
  query : Option String
  deriving DecidableEq, Repr

namespace Url

/-! ## Escaping -/

/-- A hexadecimal digit in upper case. -/
def upperHexDigit (n : Nat) : Char :=
  if n < 10 then Char.ofNat (48 + n) else Char.ofNat (55 + n)

/-- A byte as a percent sign and two digits. -/
def percentByte (b : UInt8) : List Char :=
  ['%', upperHexDigit (b.toNat / 16), upperHexDigit (b.toNat % 16)]

/-- The bytes of a character, each as a percent sign and two digits. -/
def percentChar (c : Char) : List Char :=
  (String.singleton c).toUTF8.toList.flatMap percentByte

/-- Whether a character is replaced in a path. -/
def isEscapedInPath (c : Char) : Bool :=
  c.toNat ≤ 0x20 || 0x7F ≤ c.toNat || ['"', '#', '<', '>', '?', '^', '\x60', '\x7b', '\x7d'].contains c

/-- Whether a character is replaced in a query. -/
def isEscapedInQuery (c : Char) : Bool :=
  c.toNat ≤ 0x20 || 0x7F ≤ c.toNat || ['"', '#', '<', '>', '\x27'].contains c

/-- Text in which the characters that satisfy `escaped` are replaced. -/
def escape (escaped : Char → Bool) (cs : List Char) : List Char :=
  cs.flatMap fun c => if escaped c then percentChar c else [c]

/-- A value in a query of the form type: letters, digits and `*`, `-`, `.`, `_` stand for themselves,
a space becomes a plus sign, and the rest is replaced. -/
def formEncode (s : String) : String :=
  String.ofList <| s.toList.flatMap fun c =>
    if c = ' ' then ['+']
    else if c.isAlphanum || ['*', '-', '.', '_'].contains c then [c]
    else percentChar c

/-! ## Paths -/

/-- The segments of a path, which are separated by slashes. -/
def segments : List Char → List (List Char)
  | [] => [[]]
  | c :: rest =>
      if c = '/' ∨ c = '\\' then [] :: segments rest
      else
        match segments rest with
        | [] => [[c]]
        | s :: more => (c :: s) :: more

/-- Whether a segment stands for the current place. -/
def isSingleDot (s : List Char) : Bool :=
  [".", "%2e"].contains (String.ofList s).toLower

/-- Whether a segment stands for the place above. -/
def isDoubleDot (s : List Char) : Bool :=
  ["..", ".%2e", "%2e.", "%2e%2e"].contains (String.ofList s).toLower

/-- The segments that are left of a path, on top of those in `found`, which are in reverse order. -/
def resolve (found : List (List Char)) : List (List Char) → List (List Char)
  | [] => found.reverse
  | s :: rest =>
      if isDoubleDot s then
        -- A path that ends in dots names a place, so it ends in a slash.
        if rest.isEmpty then ([] :: found.drop 1).reverse else resolve (found.drop 1) rest
      else if isSingleDot s then
        if rest.isEmpty then ([] :: found).reverse else resolve found rest
      else resolve (s :: found) rest

/-- A path as it goes over the wire. -/
def wirePath (cs : List Char) : String :=
  let cs := match cs with
    | '/' :: rest | '\\' :: rest => rest
    | cs => cs
  String.ofList <| (resolve [] (segments cs)).flatMap fun s => '/' :: escape isEscapedInPath s

/-! ## Reading -/

/-- The text after a given start, which is compared without regard to case. -/
def after? (start cs : List Char) : Option (List Char) :=
  if (cs.take start.length).map Char.toLower = start then some (cs.drop start.length) else none

/-- The URL that a text stands for. -/
def ofText? (s : String) : Option Url := do
  let cs := (s.toList.filter fun c => !(['\t', '\n', '\r'].contains c)).dropWhile (·.toNat ≤ 0x20)
  let (isSecure, rest) ← match after? "http:".toList cs with
    | some rest => some (false, rest)
    | none => (after? "https:".toList cs).map (true, ·)
  -- Any number of slashes of either kind may stand before the authority.
  let rest := rest.dropWhile fun c => c = '/' || c = '\\'
  let authority := rest.takeWhile fun c => !(['/', '\\', '?', '#'].contains c)
  if authority.isEmpty then none
  else
    let rest := (rest.drop authority.length).takeWhile (· ≠ '#')
    let path := rest.takeWhile (· ≠ '?')
    let query := match rest.drop path.length with
      | [] => none
      | _ :: query => some (String.ofList (escape isEscapedInQuery query))
    return ⟨isSecure, String.ofList authority, wirePath path, query⟩

/-- The URL with a further pair in its query. -/
def addParameter (u : Url) (name value : String) : Url :=
  let pair := formEncode name ++ "=" ++ formEncode value
  { u with query := some <| match u.query with
      | none | some "" => pair
      | some query => query ++ "&" ++ pair }

end Url
end CmInventory
