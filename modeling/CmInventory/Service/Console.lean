import CmInventory.Service.Basic
import CmInventory.Text.Blank

/-!
# Requests in lines

A request to the service in a line of text: the method, the target and, if there is one, the body,
which is JSON. White space stands between the three. A response is written as its status and, on a line of
its own, its body.
-/

namespace CmInventory
namespace Console

/-- The first word of a text, and the text after it without white space at its ends. -/
def splitWord (s : String) : String × String :=
  let cs := Text.trimStart s.toList
  let word := cs.takeWhile fun c => !Text.isSpace c
  (String.ofList word, Text.trim (String.ofList (cs.drop word.length)))

def request? (line : String) : Option ServiceRequest :=
  let (method, rest) := splitWord line
  let (target, body) := splitWord rest
  if body.isEmpty then ServiceRequest.ofParts? method target none none
  else ServiceRequest.ofParts? method target (some "application/json") (some body)

/-- The lines of a response. -/
def responseLines (r : ServiceResponse) : List String :=
  toString r.status :: r.body.toList.map Json.Value.render

/-- Answers a line: the lines of the response, and the service after it. A line without a request has
the status of a bad request. -/
def answer (c : Circumstances) (s : Service) (line : String) : List String × Service :=
  match request? line with
  | none => (responseLines (Service.plain 400), s)
  | some r =>
      match s.handle c r with
      | (response, s) => (responseLines response, s)

/-- Takes the events that were published out of the service. -/
def takeEvents (s : Service) : List Published × Service :=
  (s.world.published, { s with world := { s.world with published := [] } })

end Console
end CmInventory
