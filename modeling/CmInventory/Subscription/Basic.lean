import CmInventory.Handle.Id

/-!
# Subscriptions

A client's subscription is forwarded to plugins. Each plugin answers with the statuses of its devices,
and the answers are consolidated into one report, whose outcome is a success if all devices accepted, a
failure if all rejected, and partial otherwise.
-/

namespace CmInventory

/-- What a device says to a subscription. -/
inductive DeviceVerdict
  | accepted
  | rejected
  | pending
  deriving DecidableEq, Repr

namespace DeviceVerdict

def all : List DeviceVerdict := [.accepted, .rejected, .pending]

/-- The name under which a verdict is stored and published. -/
def name : DeviceVerdict → String
  | .accepted => "ACCEPTED"
  | .rejected => "REJECTED"
  | .pending => "PENDING"

def ofName? (name : String) : Option DeviceVerdict :=
  all.find? fun v => v.name = name

theorem ofName?_name (v : DeviceVerdict) : ofName? v.name = some v := by
  cases v <;> decide

def toJson (v : DeviceVerdict) : Json.Value :=
  .text v.name

def decoder : Json.Decoder DeviceVerdict :=
  Json.Decoder.enumeration ofName?

end DeviceVerdict

/-- The status of one device under a subscription. -/
structure DeviceStatus where
  id : HandleId
  verdict : DeviceVerdict
  details : Option String
  deriving DecidableEq, Repr

namespace DeviceStatus

def toJson (s : DeviceStatus) : Json.Value :=
  .object <|
    [("cm_handle_id", s.id.toJson), ("status", s.verdict.toJson)] ++
    Json.Value.memberIfAny "details" (s.details.map .text)

def decoder : Json.Decoder DeviceStatus := .record <|
  DeviceStatus.mk <$> .required "cm_handle_id" HandleId.decoder
    <*> .required "status" DeviceVerdict.decoder
    <*> .defaulted "details" (.nullable .text) none

end DeviceStatus

/-- The text under which a subscription is kept while it is pending: the client id followed by the
subscription name. -/
def subscriptionKey (clientId subscriptionName : String) : String :=
  clientId ++ subscriptionName

/-- The answer of one plugin to a forwarded subscription. -/
structure PluginAnswer where
  clientId : String
  subscriptionName : String
  plugin : String
  eventType : String
  statuses : List DeviceStatus
  deriving DecidableEq, Repr

namespace PluginAnswer

/-- The key of the subscription that is answered. -/
def key (a : PluginAnswer) : String :=
  subscriptionKey a.clientId a.subscriptionName

def toJson (a : PluginAnswer) : Json.Value :=
  .object [("client_id", .text a.clientId), ("subscription_name", .text a.subscriptionName),
    ("dmi_name", .text a.plugin), ("event_type", .text a.eventType),
    ("cm_handle_statuses", .array (a.statuses.map DeviceStatus.toJson))]

def decoder : Json.Decoder PluginAnswer := .record <|
  PluginAnswer.mk <$> .required "client_id" .text
    <*> .required "subscription_name" .text
    <*> .required "dmi_name" .text
    <*> .required "event_type" .text
    <*> .defaulted "cm_handle_statuses" (.list DeviceStatus.decoder) []

end PluginAnswer

/-- The result of a subscription over all devices. -/
inductive Outcome
  | success
  | partialSuccess
  | failure
  deriving DecidableEq, Repr

namespace Outcome

def all : List Outcome := [.success, .partialSuccess, .failure]

def name : Outcome → String
  | .success => "SUCCESS"
  | .partialSuccess => "PARTIAL_SUCCESS"
  | .failure => "FAILURE"

def ofName? (name : String) : Option Outcome :=
  all.find? fun o => o.name = name

theorem ofName?_name (o : Outcome) : ofName? o.name = some o := by
  cases o <;> decide

/-- The outcome of the statuses of devices. Without any device it is partial. -/
def classify (statuses : List DeviceStatus) : Outcome :=
  if statuses.isEmpty then .partialSuccess
  else if statuses.all fun s => s.verdict = .accepted then .success
  else if statuses.all fun s => s.verdict = .rejected then .failure
  else .partialSuccess

def toJson (o : Outcome) : Json.Value :=
  .text o.name

def decoder : Json.Decoder Outcome :=
  Json.Decoder.enumeration ofName?

end Outcome

/-- The consolidated report on a subscription. -/
structure OutcomeReport where
  clientId : String
  subscriptionName : String
  eventType : String
  outcome : Outcome
  statuses : List DeviceStatus
  deriving DecidableEq, Repr

namespace OutcomeReport

def toJson (r : OutcomeReport) : Json.Value :=
  .object [("client_id", .text r.clientId), ("subscription_name", .text r.subscriptionName),
    ("event_type", .text r.eventType), ("outcome", r.outcome.toJson),
    ("per_device_status", .array (r.statuses.map DeviceStatus.toJson))]

def decoder : Json.Decoder OutcomeReport := .record <|
  OutcomeReport.mk <$> .required "client_id" .text
    <*> .required "subscription_name" .text
    <*> .required "event_type" .text
    <*> .required "outcome" Outcome.decoder
    <*> .required "per_device_status" (.list DeviceStatus.decoder)

end OutcomeReport
end CmInventory
