import CmInventory.Json.Reader
import CmInventory.Service.MediaType

/-!
# Requests to the service

A request to the service: its method, the path of its target, the media type of the body and the body. The
target is written as a path with an optional query, or as a whole URL. The service looks at the path alone.

`ServiceRequest.ofParts?` accepts what can be sent as a request at all.
-/

namespace CmInventory

/-- A request to the service. -/
structure ServiceRequest where
  method : String
  path : String
  mediaType : Option String
  body : String
  deriving DecidableEq, Repr

namespace ServiceRequest

/-! ## Targets -/

/-- Whether a character may stand in the path of a target. -/
def isPathChar (c : Char) : Bool :=
  0x21 ≤ c.toNat && !(['#', '<', '>', '?', '\x60'].contains c)

/-- Whether a character may stand in the query of a target. -/
def isQueryChar (c : Char) : Bool :=
  0x21 ≤ c.toNat && !(['"', '#', '<', '>'].contains c)

/-- The path of a target that starts with a slash. A query is looked at and dropped, and a fragment is
dropped. -/
def pathOf? (cs : List Char) : Option (List Char) :=
  let path := cs.takeWhile isPathChar
  match cs.drop path.length with
  | [] | '#' :: _ => some path
  | '?' :: query =>
      match query.dropWhile isQueryChar with
      | [] | '#' :: _ => some path
      | _ => none
  | _ => none

/-- Whether a character may stand in the name of a server. -/
def isAuthorityChar (c : Char) : Bool :=
  c.isAlphanum || "-._~!$&\x27()*+,;=:@[]".toList.contains c

/-- Whether a character may stand in the name of a scheme. -/
def isSchemeChar (c : Char) : Bool :=
  c.isAlphanum || c = '+' || c = '-' || c = '.'

/-- The path of a target. A target that only names a server has the empty path. -/
def targetPath? (target : String) : Option String :=
  let cs := target.toList
  let scheme := cs.takeWhile isSchemeChar
  let path := match cs with
    | [] => none
    | ['*'] => some ['*']
    | '/' :: _ => pathOf? cs
    | _ =>
        match scheme.isEmpty, cs.drop scheme.length with
        | false, ':' :: '/' :: '/' :: rest =>
            let server := rest.takeWhile isAuthorityChar
            match server.isEmpty, rest.drop server.length with
            | true, _ => none
            | false, [] => some ['/']
            | false, '/' :: path => pathOf? ('/' :: path)
            | false, '?' :: query => (pathOf? ('?' :: query)).map fun _ => ['/']
            | false, _ => none
        | _, _ => if cs.all isAuthorityChar then some [] else none
  path.map String.ofList

/-! ## Requests -/

/-- Whether a text can be the value of a header. -/
def isHeaderValue (s : String) : Bool :=
  s.toList.all fun c => c = '\t' || (0x20 ≤ c.toNat && c.toNat ≠ 0x7F)

/-- A request of the given parts, if they can be sent as one. A request without a body has an empty
one. -/
def ofParts? (method target : String) (mediaType body : Option String) : Option ServiceRequest :=
  match targetPath? target with
  | none => none
  | some path =>
      if !method.isEmpty && method.toList.all MediaType.isTokenChar &&
          (mediaType.map isHeaderValue).getD true then
        some ⟨method, path, mediaType, body.getD ""⟩
      else none

/-! ## Paths -/

/-- The bytes of a path in which a percent sign with two hexadecimal digits stands for a byte. A percent
sign without them stands for itself. -/
def percentDecode : List UInt8 → List UInt8
  | 37 :: a :: b :: rest =>
      match Json.Reader.hexValue? (Char.ofNat a.toNat), Json.Reader.hexValue? (Char.ofNat b.toNat) with
      | some high, some low => UInt8.ofNat (16 * high + low) :: percentDecode rest
      | _, _ => 37 :: percentDecode (a :: b :: rest)
  | byte :: rest => byte :: percentDecode rest
  | [] => []

/-- The text that a segment of a path stands for, if its bytes are UTF-8. -/
def segmentText? (segment : String) : Option String :=
  String.fromUTF8? ⟨(percentDecode segment.toUTF8.toList).toArray⟩

end ServiceRequest
end CmInventory
