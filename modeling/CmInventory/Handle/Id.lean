import CmInventory.Json.Decoder

/-!
# Handle ids

A CM handle is named by an id that the registering plugin chooses. Any text can stand where an id is
kept; an id that comes in with a request is valid if it consists of ASCII letters, digits, `-` and
`_`, and of at least one of them.
-/

namespace CmInventory

/-- The id of a CM handle. -/
structure HandleId where
  text : String
  deriving DecidableEq, Repr, Inhabited, Hashable

namespace HandleId

/-- What is wrong with a text that is no valid id. -/
inductive Flaw
  | empty
  | invalidCharacters
  deriving DecidableEq, Repr

/-- The flaw in words. -/
def Flaw.reason : Flaw → String
  | .empty => "id is empty"
  | .invalidCharacters => "id contains invalid characters"

def Flaw.message (flaw : Flaw) (text : String) : String :=
  s!"invalid cm handle id '{text}': {flaw.reason}"

/-- The characters of valid ids. -/
def isIdCharacter (c : Char) : Bool :=
  c.isAlphanum || c = '-' || c = '_'

/-- The valid id with the given text. -/
def parse (text : String) : Except Flaw HandleId :=
  if text.isEmpty then .error .empty
  else if text.toList.all isIdCharacter then .ok ⟨text⟩
  else .error .invalidCharacters

/-- Whether the id is one that requests may name. -/
def isValid (id : HandleId) : Bool :=
  match parse id.text with
  | .ok _ => true
  | .error _ => false

def toJson (id : HandleId) : Json.Value :=
  .text id.text

def decoder : Json.Decoder HandleId :=
  Json.Decoder.text.map HandleId.mk

end HandleId
end CmInventory
