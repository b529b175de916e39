import CmInventory.Handle.Basic

/-!
# Plugins

A plugin speaks to the network elements on behalf of the inventory. It answers with an HTTP status and
a body; only an answer with a status from 200 to 299 and a body that is not blank counts as a success
(`PluginReply.successBody`).
-/

namespace CmInventory

/-- Why a plugin gave no usable answer. -/
inductive PluginError
  /-- The request could not be made. -/
  | request (text : String)
  /-- The plugin answered with a status that is no success. -/
  | status (code : Nat) (body : String)
  | emptyBody
  /-- The body of the answer cannot be understood. -/
  | invalidBody (text : String)
  /-- The handle names no service. -/
  | missingEndpoint (id : HandleId)
  deriving DecidableEq, Repr

namespace PluginError

def message : PluginError → String
  | .request text => s!"request failed: {text}"
  | .status code body => s!"plugin answered {code}: {body}"
  | .emptyBody => "plugin returned an empty body"
  | .invalidBody text => s!"invalid plugin response: {text}"
  | .missingEndpoint id => s!"no plugin endpoint registered for {id.text}"

end PluginError

/-- What a plugin answered. -/
structure PluginReply where
  status : Nat
  body : String
  deriving DecidableEq, Repr

namespace PluginReply

def isSuccess (r : PluginReply) : Bool :=
  200 ≤ r.status && r.status < 300

/-- The body of a success. -/
def successBody (r : PluginReply) : Except PluginError String :=
  if !r.isSuccess then .error (.status r.status r.body)
  else if Text.isBlank r.body then .error .emptyBody
  else .ok r.body

theorem successBody_eq_ok_iff {r : PluginReply} {body : String} :
    r.successBody = .ok body ↔
      200 ≤ r.status ∧ r.status < 300 ∧ Text.isBlank r.body = false ∧ body = r.body := by
  unfold successBody isSuccess
  by_cases h₁ : 200 ≤ r.status <;> by_cases h₂ : r.status < 300 <;>
    by_cases h₃ : Text.isBlank r.body = true <;> simp [h₁, h₂, h₃, eq_comm]

end PluginReply

/-- The datastores of a network element that are reached through its plugin. -/
inductive Datastore
  | operational
  | running
  deriving DecidableEq, Repr

def Datastore.name : Datastore → String
  | .operational => "ncmp-datastore:passthrough-operational"
  | .running => "ncmp-datastore:passthrough-running"

/-- The ways to write to a datastore. -/
inductive WriteOperation
  | create
  | update
  | patch
  | delete
  deriving DecidableEq, Repr

namespace WriteOperation

def all : List WriteOperation := [.create, .update, .patch, .delete]

def name : WriteOperation → String
  | .create => "create"
  | .update => "update"
  | .patch => "patch"
  | .delete => "delete"

def ofName? (name : String) : Option WriteOperation :=
  all.find? fun o => o.name = name

theorem ofName?_name (o : WriteOperation) : ofName? o.name = some o := by
  cases o <;> decide

def toJson (o : WriteOperation) : Json.Value :=
  .text o.name

def decoder : Json.Decoder WriteOperation :=
  Json.Decoder.enumeration ofName?

end WriteOperation

/-- A call of a plugin for a handle. -/
inductive PluginCall
  | read (handle : Handle) (resource : String) (datastore : Datastore)
  | modules (handle : Handle)

/-- The type of what a plugin gives if the call does not fail. -/
abbrev PluginCall.Answer : PluginCall → Type
  | .read .. => PluginReply
  | .modules _ => List ModuleReference

end CmInventory
