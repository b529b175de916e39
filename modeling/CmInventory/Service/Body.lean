import CmInventory.Config

/-!
# Bodies of the service

What stands in the bodies of requests to the service and of its answers, besides handles, registrations
and answers of plugins.
-/

namespace CmInventory

/-- The number of handles in each lifecycle state, by its name. -/
structure StatusReport where
  instanceId : String
  counts : Dictionary Nat
  deriving DecidableEq

namespace StatusReport

def toJson (r : StatusReport) : Json.Value :=
  .object [("instance_id", .text r.instanceId), ("cm_handles", .ofDictionary .natural r.counts)]

def decoder : Json.Decoder StatusReport := .record <|
  StatusReport.mk <$> .required "instance_id" .text
    <*> .required "cm_handles" (.dictionary (.natural UInt64.size))

end StatusReport

/-- The message about a request that failed. -/
structure ErrorReport where
  message : String
  deriving DecidableEq, Repr

namespace ErrorReport

def toJson (r : ErrorReport) : Json.Value :=
  .object [("error", .text r.message)]

def decoder : Json.Decoder ErrorReport := .record <|
  ErrorReport.mk <$> .required "error" .text

end ErrorReport

/-- The notice that a subscription was forwarded to plugins. -/
structure ForwardNotice where
  clientId : String
  subscriptionName : String
  plugins : List String
  deriving DecidableEq, Repr

namespace ForwardNotice

def toJson (n : ForwardNotice) : Json.Value :=
  .object [("client_id", .text n.clientId), ("subscription_name", .text n.subscriptionName),
    ("dmi_names", .array (n.plugins.map .text))]

def decoder : Json.Decoder ForwardNotice := .record <|
  ForwardNotice.mk <$> .required "client_id" .text
    <*> .required "subscription_name" .text
    <*> .required "dmi_names" (.list .text)

end ForwardNotice

/-- The receipt for the answer of a plugin: whether it completed the subscription. -/
structure AnswerReceipt where
  isComplete : Bool
  deriving DecidableEq, Repr

namespace AnswerReceipt

def toJson (r : AnswerReceipt) : Json.Value :=
  .object [("outcome_emitted", .bool r.isComplete)]

def decoder : Json.Decoder AnswerReceipt := .record <|
  AnswerReceipt.mk <$> .required "outcome_emitted" .bool

end AnswerReceipt
end CmInventory
