import CmInventory.Program.World

/-!
# Scripts

What happens in a rehearsal besides the operations that are rehearsed: failures of the store, other
members that write between two steps of an operation, and the answers of plugins.

- A failure (`Fault`) meets the calls of one kind, if an id is given only those that name it, and if a
  number is given only so many of them.
- An intervention of another member (`Race`) happens once, right after the store answered a call of one
  kind. The other member moves a handle to another state, or deletes it, without regard to what moves are
  allowed.
- A plugin gives the scripted answer of the handle each time it is called. Before it answers, another
  member may intervene as well.
-/

namespace CmInventory

/-! ## Kinds of calls -/

/-- The kinds of calls of the store. -/
inductive StoreCall.Kind
  | get
  | getMany
  | byLifecycle
  | bySyncState
  | byLockCategory
  | status
  | insert
  | save
  | saveStatus
  | saveStatusIf
  | deleteAll
  | delete
  | countByLifecycle
  | saveData
  | getData
  | deleteData
  | saveModules
  | getModules
  | saveAnswer
  | statuses
  deriving DecidableEq, Repr

namespace StoreCall

/-- The kind of a call. -/
def kind : StoreCall → Kind
  | .get _ => .get
  | .getMany _ => .getMany
  | .byLifecycle _ => .byLifecycle
  | .bySyncState _ => .bySyncState
  | .byLockCategory _ => .byLockCategory
  | .status _ => .status
  | .insert _ => .insert
  | .save _ => .save
  | .saveStatus .. => .saveStatus
  | .saveStatusIf .. => .saveStatusIf
  | .deleteAll _ => .deleteAll
  | .delete _ => .delete
  | .countByLifecycle => .countByLifecycle
  | .saveData .. => .saveData
  | .getData _ => .getData
  | .deleteData _ => .deleteData
  | .saveModules .. => .saveModules
  | .getModules _ => .getModules
  | .saveAnswer _ => .saveAnswer
  | .statuses .. => .statuses

/-- The ids that a call names: those of handles, or that of a client. -/
def names : StoreCall → List String
  | .get id | .status id | .saveStatus id _ | .saveStatusIf id _ _ | .delete id | .saveData id _
  | .getData id | .deleteData id | .saveModules id _ | .getModules id => [id.text]
  | .getMany ids | .deleteAll ids => ids.map (·.text)
  | .insert handles => handles.map (·.id.text)
  | .save h => [h.id.text]
  | .saveAnswer a => [a.clientId]
  | .statuses clientId _ => [clientId]
  | .byLifecycle _ | .bySyncState _ | .byLockCategory _ | .countByLifecycle => []

end StoreCall

/-! ## Failures of the store -/

/-- The ways in which a call fails by script. -/
inductive Failure
  | notFound
  | invalidId
  | invalidData
  | alreadyExists
  | outOfOrder
  deriving DecidableEq, Repr

/-- The error of a failure that speaks of the given id. -/
def Failure.error (id : String) : Failure → StoreError
  | .notFound => .notFound id
  | .invalidId => .invalidId id
  | .invalidData => .invalidData "scripted"
  | .alreadyExists => .alreadyExists [⟨id⟩]
  | .outOfOrder => .outOfOrder

/-- A failure of calls of one kind. -/
structure Fault where
  kind : StoreCall.Kind
  id : Option String
  /-- How many calls still fail, if not all do. -/
  left : Option Nat
  failure : Failure

namespace Fault

/-- Whether a call meets the failure. -/
def meets (f : Fault) (call : StoreCall) : Bool :=
  call.kind = f.kind && f.left ≠ some 0 &&
    match f.id with
    | none => true
    | some id => call.names.contains id

/-- The error of a call that meets the failure. -/
def error (f : Fault) (call : StoreCall) : StoreError :=
  f.failure.error ((f.id <|> call.names.head?).getD "")

/-- The failure after a call met it. -/
def spend (f : Fault) : Fault :=
  { f with left := f.left.map (· - 1) }

/-- The error of the first of some failures that a call meets, and the failures after it. -/
def strike (call : StoreCall) : List Fault → Option (StoreError × List Fault)
  | [] => none
  | f :: rest =>
      if f.meets call then some (f.error call, f.spend :: rest)
      else (strike call rest).map fun (e, rest) => (e, f :: rest)

end Fault

/-! ## Other members -/

/-- What another member does to a handle: it moves the handle to a state, or deletes it. -/
structure Intervention where
  id : HandleId
  state : Option Lifecycle

namespace Intervention

/-- The store after another member intervened. A handle that is not stored stays so. -/
def apply (i : Intervention) (s : Store) : Store :=
  let changed : Except StoreError Store :=
    match i.state with
    | none => s.delete i.id
    | some state => do
        let h ← s.get i.id
        s.save { h with status := { h.status with lifecycle := state, lockReason := none } }
  match changed with
  | .ok s => s
  | .error _ => s

end Intervention

/-- An intervention after a call of a kind. -/
structure Race where
  kind : StoreCall.Kind
  intervention : Intervention

namespace Race

/-- Whether the intervention comes after a call: one that reads the handle, or a selection of handles. -/
def follows (r : Race) (call : StoreCall) : Bool :=
  call.kind = r.kind &&
    match call with
    | .get id | .status id => id = r.intervention.id
    | .getMany _ | .byLifecycle _ | .bySyncState _ | .byLockCategory _ => true
    | _ => false

end Race

/-! ## Plugins -/

/-- The scripted answer of a plugin for a handle. -/
structure ScriptedAnswer (α : Type) where
  result : Except PluginError α
  meanwhile : Option Intervention

namespace ScriptedAnswer

/-- What another member does while a plugin is asked: the state to which it moves the handle, or none if it
deletes it. -/
def meanwhileDecoder : Json.Decoder (Option Lifecycle) := .record <|
  id <$> .defaulted "state" Lifecycle.decoder.nullable none

/-- The error of the given kind for the handle with the given id. -/
def error (kind message : String) (reply : PluginReply) (id : HandleId) : PluginError :=
  if kind = "Status" then .status reply.status reply.body
  else if kind = "EmptyBody" then .emptyBody
  else if kind = "InvalidBody" then .invalidBody message
  else if kind = "MissingEndpoint" then .missingEndpoint id
  else .request message

/-- A scripted answer from an object, once the id of the handle is known. The object names the kind of an
error, or it holds what `ok` makes of a reply and of modules. -/
def decoder {α : Type} (ok : PluginReply → List ModuleReference → α) :
    Json.Decoder (HandleId → ScriptedAnswer α) := .record <|
  (fun status body modules kind message meanwhile id =>
    let result := match kind with
      | none => .ok (ok ⟨status, body⟩ modules)
      | some kind => .error (error kind message ⟨status, body⟩ id)
    ⟨result, meanwhile.map (⟨id, ·⟩)⟩)
    <$> .defaulted "status" (.natural UInt16.size) 0
    <*> .defaulted "body" .text ""
    <*> .defaulted "modules" (.list ModuleReference.decoder) []
    <*> .defaulted "error" (.nullable .text) none
    <*> .defaulted "message" .text ""
    <*> .defaulted "meanwhile" meanwhileDecoder.nullable none

end ScriptedAnswer

/-- The name under which calls of a plugin are counted. -/
def PluginCall.label : PluginCall → String
  | .read h resource datastore => s!"read {datastore.name} {resource} {h.id.text}"
  | .modules h => s!"modules {h.id.text}"

/-- The script of a rehearsal. -/
structure Script where
  faults : List Fault
  races : List Race
  reads : Dictionary (ScriptedAnswer PluginReply)
  modules : Dictionary (ScriptedAnswer (List ModuleReference))

namespace Script

def empty : Script := ⟨[], [], .empty, .empty⟩

instance : Inhabited Script := ⟨empty⟩

/-- The script without failures and races. -/
def clear (s : Script) : Script :=
  { s with faults := [], races := [] }

/-- The answer where none is scripted. -/
def noAnswer {α : Type} : ScriptedAnswer α :=
  ⟨.error (.request "no answer scripted"), none⟩

def answer (s : Script) : (call : PluginCall) → ScriptedAnswer call.Answer
  | .read h _ _ => (s.reads.find? h.id.text).getD noAnswer
  | .modules h => (s.modules.find? h.id.text).getD noAnswer

end Script
end CmInventory
