import CmInventory.Handle.Basic

/-!
# Registration requests

What a plugin asks for: handles to create, handles to update and ids to remove, and the services
through which new handles are reached. A property without a value is one to leave out of a new handle
and to take away from an existing one.
-/

namespace CmInventory

/-- A handle as a plugin describes it. -/
structure RequestedHandle where
  id : String
  dmiProperties : Dictionary (Option String)
  publicProperties : Dictionary (Option String)
  dataSync : Option Bool
  moduleSetTag : Option String
  deriving DecidableEq, Inhabited

namespace RequestedHandle

/-- Properties with and without values as an object. -/
def propertiesToJson (properties : Dictionary (Option String)) : Json.Value :=
  .ofDictionary .optionalText properties

def flagToJson : Option Bool → Json.Value
  | none => .null
  | some b => .bool b

def toJson (r : RequestedHandle) : Json.Value :=
  .object [("cm_handle_id", .text r.id), ("dmi_properties", propertiesToJson r.dmiProperties),
    ("public_properties", propertiesToJson r.publicProperties),
    ("data_sync_enabled", flagToJson r.dataSync),
    ("module_set_tag", .optionalText r.moduleSetTag)]

def decoder : Json.Decoder RequestedHandle := .record <|
  RequestedHandle.mk <$> .required "cm_handle_id" .text
    <*> .defaulted "dmi_properties" (.dictionary (.nullable .text)) .empty
    <*> .defaulted "public_properties" (.dictionary (.nullable .text)) .empty
    <*> .defaulted "data_sync_enabled" (.nullable .bool) none
    <*> .defaulted "module_set_tag" (.nullable .text) none

end RequestedHandle

/-- A registration: services, and handles to create, to update and to remove. -/
structure Registration where
  endpoints : Endpoints
  created : List RequestedHandle
  updated : List RequestedHandle
  removed : List String
  deriving DecidableEq, Inhabited

namespace Registration

def toJson (r : Registration) : Json.Value :=
  .object [("dmi_plugin", .text r.endpoints.combined), ("dmi_data_plugin", .text r.endpoints.data),
    ("dmi_model_plugin", .text r.endpoints.model),
    ("created_cm_handles", .array (r.created.map RequestedHandle.toJson)),
    ("updated_cm_handles", .array (r.updated.map RequestedHandle.toJson)),
    ("removed_cm_handles", .array (r.removed.map .text))]

def decoder : Json.Decoder Registration := .record <|
  (fun combined data model created updated removed =>
      ⟨⟨combined, data, model⟩, created, updated, removed⟩)
    <$> .defaulted "dmi_plugin" .text ""
    <*> .defaulted "dmi_data_plugin" .text ""
    <*> .defaulted "dmi_model_plugin" .text ""
    <*> .defaulted "created_cm_handles" (.list RequestedHandle.decoder) []
    <*> .defaulted "updated_cm_handles" (.list RequestedHandle.decoder) []
    <*> .defaulted "removed_cm_handles" (.list .text) []

end Registration
end CmInventory
