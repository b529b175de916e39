import CmInventory.Event.Id
import CmInventory.Handle.Lifecycle
import CmInventory.Subscription.Basic
import CmInventory.Time.Notation

/-!
# Events

What the inventory announces: the move of a handle from one lifecycle state to another, or the report
on a subscription. An event is published on a topic under a key.
-/

namespace CmInventory

/-- The move of a handle between lifecycle states. A new handle has no old state. -/
structure LifecycleEvent where
  eventId : EventId
  handleId : HandleId
  oldState : Option Lifecycle
  newState : Lifecycle
  timestamp : Instant
  deriving DecidableEq

namespace LifecycleEvent

def stateToJson : Option Lifecycle → Json.Value
  | none => .null
  | some s => s.toJson

def toJson (e : LifecycleEvent) : Json.Value :=
  .object [("event_id", e.eventId.toJson), ("cm_handle_id", e.handleId.toJson),
    ("old_state", stateToJson e.oldState), ("new_state", e.newState.toJson),
    ("timestamp", e.timestamp.toJson)]

def decoder : Json.Decoder LifecycleEvent := .record <|
  LifecycleEvent.mk <$> .required "event_id" EventId.decoder
    <*> .required "cm_handle_id" HandleId.decoder
    <*> .optional "old_state" Lifecycle.decoder
    <*> .required "new_state" Lifecycle.decoder
    <*> .required "timestamp" Instant.decoder

end LifecycleEvent

/-- An event. -/
inductive Event
  | lifecycle (e : LifecycleEvent)
  | outcome (r : OutcomeReport)
  deriving DecidableEq

namespace Event

/-- The kinds of events. -/
inductive Kind
  | lifecycle
  | outcome
  deriving DecidableEq, Repr

/-- The kind of an event. -/
def kind : Event → Kind
  | .lifecycle _ => .lifecycle
  | .outcome _ => .outcome

def Kind.name : Kind → String
  | .lifecycle => "lcm"
  | .outcome => "subscription_outcome"

def Kind.ofName? (name : String) : Option Kind :=
  [Kind.lifecycle, Kind.outcome].find? fun k => k.name = name

theorem Kind.ofName?_name (k : Kind) : Kind.ofName? k.name = some k := by
  cases k <;> decide

/-- The event without its kind. -/
def content : Event → Json.Value
  | .lifecycle e => e.toJson
  | .outcome r => r.toJson

/-- An event as an object of its kind and its content. -/
def toJson (e : Event) : Json.Value :=
  .object [("type", .text e.kind.name), ("event", e.content)]

def contentDecoder : Kind → Json.Decoder Event
  | .lifecycle => LifecycleEvent.decoder.map .lifecycle
  | .outcome => OutcomeReport.decoder.map .outcome

def kindDecoder : Json.Decoder Kind :=
  Json.Decoder.enumeration Kind.ofName?

/-- The member of a name and whether one of the other name stands before it. -/
def findMember? (name other : String) (preceded : Bool) :
    List (Option String × Json.Tree) → Option (Json.Tree × Bool)
  | [] => none
  | (key, tree) :: rest =>
      if key = some name then some (tree, preceded)
      else findMember? name other (preceded || key = some other) rest

/-- An event from an object of kind and content in either order, or from an array of both. A content
in front of its kind is set aside until the kind is known. -/
def decoder : Json.Decoder Event := fun ctx tree =>
  match tree with
  | .object members closed => do
      let ctx ← Json.Decoder.enter ctx
      match Json.Decoder.memberFault ["type", "event"] [] 0 closed members with
      | some e => .error e.fault
      | none =>
          match findMember? "type" "event" false members, findMember? "event" "type" false members with
          | some (kindTree, late), some (contentTree, _) => do
              let kind ← kindDecoder ctx kindTree
              let d := contentDecoder kind
              (if late then d.aside else d) ctx contentTree
          | _, _ => .error .mismatch
  | .array (kindTree :: rest) closed => do
      let ctx ← Json.Decoder.enter ctx
      let kind ← kindDecoder ctx kindTree
      match rest with
      | [] => .error (if closed then .mismatch else .malformed)
      | contentTree :: more => do
          let e ← contentDecoder kind ctx contentTree
          Json.Decoder.atEnd (closed && more.isEmpty) e
  | .array [] closed => .error (if closed then .mismatch else .malformed)
  | other => .error other.misfit

end Event

/-- An event with the topic and the key it is published under. -/
structure Published where
  topic : String
  key : String
  event : Event
  deriving DecidableEq

namespace Published

def toJson (p : Published) : Json.Value :=
  .object [("topic", .text p.topic), ("key", .text p.key), ("event", p.event.toJson)]

/-- The line that reports a published event. -/
def logLine (p : Published) : String :=
  let kind := match p.event.kind with
    | .lifecycle => "lcm"
    | .outcome => "subscription outcome"
  s!"INFO [{p.topic}] {kind} event {p.key}: {p.event.toJson.render}"

/-- The line that reports the end of the events. -/
def closingLine : String := "DEBUG Event channel closed"

/-- The lines that report events up to their end. -/
def log (events : List Published) : List String :=
  events.map logLine ++ [closingLine]

end Published
end CmInventory
