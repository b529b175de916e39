import CmInventory.Json.Decoder
import CmInventory.Text.Blank

/-!
# Plugin endpoints

A handle is reached through a plugin, either one service for everything, or one for data and one for
models. A name that is blank counts as not given.
-/

namespace CmInventory

/-- The names of the plugin services that a handle was registered with. -/
structure Endpoints where
  combined : String
  data : String
  model : String
  deriving DecidableEq, Repr, Inhabited

namespace Endpoints

def dataService (e : Endpoints) : String :=
  if Text.isBlank e.data then e.combined else e.data

def modelService (e : Endpoints) : String :=
  if Text.isBlank e.model then e.combined else e.model

/-- What is wrong with a choice of services. -/
inductive Flaw
  | noneGiven
  | combinedWithOthers
  | onlyOneOfTwo
  deriving DecidableEq, Repr

def Flaw.message : Flaw → String
  | .noneGiven => "no DMI plugin service names given"
  | .combinedWithOthers =>
      "cannot register a combined DMI plugin together with data or model plugins"
  | .onlyOneOfTwo => "both a DMI data plugin and a DMI model plugin are required"

/-- The flaw of a choice of services. Either the combined service is given alone, or both others
are. -/
def flaw? (e : Endpoints) : Option Flaw :=
  match !Text.isBlank e.combined, !Text.isBlank e.data, !Text.isBlank e.model with
  | true, false, false | false, true, true => none
  | false, false, false => some .noneGiven
  | true, _, _ => some .combinedWithOthers
  | false, _, _ => some .onlyOneOfTwo

/-- The characters of a service name as the base of a URL: without white space at its ends, and
without slashes at its end after that. -/
def baseChars (service : String) : List Char :=
  Text.dropEndWhile (· = '/') (Text.trim service).toList

/-- The base of the URLs of a service, if the name leaves one. -/
def base? (service : String) : Option String :=
  match baseChars service with
  | [] => none
  | cs => some (String.ofList cs)

def toJson (e : Endpoints) : Json.Value :=
  .object [("dmi_service_name", .text e.combined), ("dmi_data_service_name", .text e.data),
    ("dmi_model_service_name", .text e.model)]

def decoder : Json.Decoder Endpoints := .record <|
  Endpoints.mk <$> .defaulted "dmi_service_name" .text ""
    <*> .defaulted "dmi_data_service_name" .text ""
    <*> .defaulted "dmi_model_service_name" .text ""

end Endpoints
end CmInventory
