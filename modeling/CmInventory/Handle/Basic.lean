import CmInventory.Handle.Endpoints
import CmInventory.Handle.Id
import CmInventory.Handle.Status

/-!
# Handles

A handle stands for one network element that a plugin looks after: its id, the plugin services, two
sets of properties, its status and an optional tag for the set of modules.
-/

namespace CmInventory

/-- A YANG module that a handle supports. -/
structure ModuleReference where
  name : String
  revision : String
  deriving DecidableEq, Repr, Inhabited

namespace ModuleReference

def toJson (m : ModuleReference) : Json.Value :=
  .object [("module_name", .text m.name), ("revision", .text m.revision)]

def decoder : Json.Decoder ModuleReference := .record <|
  ModuleReference.mk <$> .required "module_name" .text <*> .required "revision" .text

/-- Modules are ordered by name and then by revision. -/
def precedes (a b : ModuleReference) : Bool :=
  a.name < b.name || (a.name = b.name && a.revision < b.revision)

end ModuleReference

/-- A managed network element. -/
structure Handle where
  id : HandleId
  endpoints : Endpoints
  dmiProperties : Dictionary String
  publicProperties : Dictionary String
  status : HandleStatus
  moduleSetTag : Option String
  deriving DecidableEq, Inhabited

namespace Handle

def lifecycle (h : Handle) : Lifecycle :=
  h.status.lifecycle

/-- A new handle without properties. -/
def advised (id : HandleId) (endpoints : Endpoints) (now : Instant) : Handle :=
  ⟨id, endpoints, .empty, .empty, .advised now, none⟩

def toJson (h : Handle) : Json.Value :=
  .object <|
    [("id", h.id.toJson), ("plugins", h.endpoints.toJson),
      ("dmi_properties", .ofDictionary .text h.dmiProperties),
      ("public_properties", .ofDictionary .text h.publicProperties),
      ("composite_state", h.status.toJson)] ++
    Json.Value.memberIfAny "module_set_tag" (h.moduleSetTag.map .text)

def decoder : Json.Decoder Handle := .record <|
  Handle.mk <$> .required "id" HandleId.decoder
    <*> .required "plugins" Endpoints.decoder
    <*> .defaulted "dmi_properties" (.dictionary .text) .empty
    <*> .defaulted "public_properties" (.dictionary .text) .empty
    <*> .required "composite_state" HandleStatus.decoder
    <*> .defaulted "module_set_tag" (.nullable .text) none

end Handle
end CmInventory
