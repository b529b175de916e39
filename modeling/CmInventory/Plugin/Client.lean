import CmInventory.Json.Printer
import CmInventory.Plugin.Basic
import CmInventory.Plugin.Url

/-!
# Requests to plugins

A plugin is asked by an HTTP request of the method POST with a JSON body. The URL starts with the
service that the handle names, less white space at its ends and slashes at its end; a service of which
nothing is left is a missing endpoint. How a request travels is a parameter (`Transport`): from a
request to the answer, or to none if the plugin is not reached.

Main definitions: `PluginClient.read`, `PluginClient.write`, `PluginClient.modules` and, for the calls that
the inventory makes, `PluginClient.answer`.
-/

namespace CmInventory

/-- A request of the method POST with a JSON body. -/
structure PluginRequest where
  url : Url
  body : String
  deriving DecidableEq, Repr

/-- From a request to what the plugin answered, if it was reached. -/
abbrev Transport := PluginRequest → Option PluginReply

/-- The transport that reaches no plugin. -/
def Transport.unreachable : Transport := fun _ => none

namespace PluginClient

/-- The URL of a resource of a handle. -/
def urlText (base : String) (id : HandleId) (resource : String) : String :=
  base ++ "/dmi/v1/ch/" ++ id.text ++ "/" ++ resource

/-- The base of the URLs of a service of a handle. -/
def base (h : Handle) (service : String) : Except PluginError String :=
  match Endpoints.base? service with
  | some base => .ok base
  | none => .error (.missingEndpoint h.id)

/-- Sends a body, with the given pairs in the query. -/
def post (transport : Transport) (url : String) (parameters : List (String × String))
    (body : Json.Value) : Except PluginError PluginReply :=
  match Url.ofText? url with
  | none => .error (.request s!"{url}: no URL of a web server")
  | some target =>
      let target := parameters.foldl (fun u p => u.addParameter p.1 p.2) target
      match transport ⟨target, body.render⟩ with
      | some reply => .ok reply
      | none => .error (.request s!"{url}: no connection")

/-- The body of a request about data. -/
def dataBody (h : Handle) (operation : String) (dataType data : Option String) : Json.Value :=
  .object <|
    [("operation", .text operation)] ++
    Json.Value.memberIfAny "dataType" (dataType.map .text) ++
    Json.Value.memberIfAny "data" (data.map .text) ++
    [("cmHandleProperties", .ofDictionary .text h.dmiProperties)]

/-- Asks for data of a datastore. -/
def postData (transport : Transport) (h : Handle) (resource : String) (datastore : Datastore)
    (body : Json.Value) : Except PluginError PluginReply := do
  let base ← base h h.endpoints.dataService
  post transport (urlText base h.id s!"data/ds/{datastore.name}") [("resourceIdentifier", resource)]
    body

/-- Reads a resource of a datastore. An answer that is no success is given back as it is. -/
def read (transport : Transport) (h : Handle) (resource : String) (datastore : Datastore) :
    Except PluginError PluginReply :=
  postData transport h resource datastore (dataBody h "read" none none)

/-- Writes a resource of the running datastore. -/
def write (transport : Transport) (h : Handle) (resource : String) (operation : WriteOperation)
    (payload contentType : String) : Except PluginError PluginReply :=
  postData transport h resource .running (dataBody h operation.name (some contentType) (some payload))

/-! ## Modules -/

def moduleDecoder : Json.Decoder ModuleReference := .record <|
  ModuleReference.mk <$> .required "moduleName" .text <*> .defaulted "revision" .text ""

def modulesDecoder : Json.Decoder (List ModuleReference) := .record <|
  id <$> .defaulted "schemas" (.list moduleDecoder) []

/-- The modules of a handle. -/
def modules (transport : Transport) (h : Handle) : Except PluginError (List ModuleReference) := do
  let base ← base h h.endpoints.modelService
  let reply ← post transport (urlText base h.id "modules") []
    (.object [("cmHandleProperties", .ofDictionary .text h.dmiProperties)])
  let body ← reply.successBody
  match Json.decode modulesDecoder body with
  | .ok modules => .ok modules
  | .error fault => .error (.invalidBody fault.message)

def answer (transport : Transport) : (call : PluginCall) → Except PluginError call.Answer
  | .read h resource datastore => read transport h resource datastore
  | .modules h => modules transport h

end PluginClient
end CmInventory
