import CmInventory.Json.Decoder
import CmInventory.Time.Interval

/-!
# Configuration

The settings of one member of the inventory. Each has a default, so that a configuration names only
what differs from it. The default instance id is generated and therefore a parameter of the reader.
-/

namespace CmInventory

/-- The timing of the synchronization in the background. -/
structure WatchdogConfig where
  dataSyncMillis : UInt64
  moduleSyncMillis : UInt64
  markerSeconds : UInt64
  retryBaseSeconds : UInt64
  deriving DecidableEq, Repr

namespace WatchdogConfig

def standard : WatchdogConfig := ⟨30000, 5000, 300, 60⟩

/-- The delay between cycles of data synchronization. -/
def dataSyncDelay (c : WatchdogConfig) : Interval := .ofMillis c.dataSyncMillis

/-- The delay between cycles of module synchronization. -/
def moduleSyncDelay (c : WatchdogConfig) : Interval := .ofMillis c.moduleSyncMillis

/-- How long a marker lives. -/
def markerLife (c : WatchdogConfig) : Interval := .ofSeconds c.markerSeconds

/-- The base of the waiting times of locked handles. -/
def retryBase (c : WatchdogConfig) : Interval := .ofSeconds c.retryBaseSeconds

end WatchdogConfig

/-- The handling of subscriptions. -/
structure SubscriptionConfig where
  pendingSeconds : UInt64
  timeoutSeconds : UInt64
  notifications : Bool
  persistence : Bool
  deriving DecidableEq, Repr

namespace SubscriptionConfig

def standard : SubscriptionConfig := ⟨600, 30, true, false⟩

/-- How long a pending subscription lives after it was last touched. -/
def pendingLife (c : SubscriptionConfig) : Interval := .ofSeconds c.pendingSeconds

/-- How long the answers to a subscription are waited for. -/
def timeout (c : SubscriptionConfig) : Interval := .ofSeconds c.timeoutSeconds

end SubscriptionConfig

/-- The timeouts of requests to plugins. -/
structure PluginConfig where
  requestMillis : UInt64
  connectMillis : UInt64
  deriving DecidableEq, Repr

namespace PluginConfig

def standard : PluginConfig := ⟨20000, 5000⟩

end PluginConfig

/-- The topics of events. -/
structure Topics where
  lifecycle : String
  outcomes : String
  deriving DecidableEq, Repr

namespace Topics

def standard : Topics := ⟨"ncmp-events", "subscription-response"⟩

end Topics

/-- The settings of one member. -/
structure Config where
  instanceId : String
  watchdog : WatchdogConfig
  subscription : SubscriptionConfig
  plugin : PluginConfig
  topics : Topics
  deriving DecidableEq, Repr

namespace Config

def standard (generatedId : String) : Config :=
  ⟨generatedId, .standard, .standard, .standard, .standard⟩

end Config

/-! ## As JSON -/

/-- A number of 64 bits with a default. -/
def Json.Fields.word (name : String) (default : UInt64) : Json.Fields UInt64 :=
  .defaulted name ((Json.Decoder.natural UInt64.size).map UInt64.ofNat) default

/-- The timing of the synchronization as an object. -/
def WatchdogConfig.toJson (c : WatchdogConfig) : Json.Value :=
  .object [("data_sync_interval_ms", .natural c.dataSyncMillis.toNat),
    ("module_sync_interval_ms", .natural c.moduleSyncMillis.toNat),
    ("in_flight_ttl_secs", .natural c.markerSeconds.toNat),
    ("retry_base_secs", .natural c.retryBaseSeconds.toNat)]

/-- The timing of the synchronization from an object. -/
def WatchdogConfig.decoder : Json.Decoder WatchdogConfig := .record <|
  WatchdogConfig.mk <$> .word "data_sync_interval_ms" WatchdogConfig.standard.dataSyncMillis
    <*> .word "module_sync_interval_ms" WatchdogConfig.standard.moduleSyncMillis
    <*> .word "in_flight_ttl_secs" WatchdogConfig.standard.markerSeconds
    <*> .word "retry_base_secs" WatchdogConfig.standard.retryBaseSeconds

def SubscriptionConfig.toJson (c : SubscriptionConfig) : Json.Value :=
  .object [("pending_ttl_secs", .natural c.pendingSeconds.toNat),
    ("response_timeout_secs", .natural c.timeoutSeconds.toNat),
    ("notifications_enabled", .bool c.notifications),
    ("persistence_enabled", .bool c.persistence)]

def SubscriptionConfig.decoder : Json.Decoder SubscriptionConfig := .record <|
  SubscriptionConfig.mk <$> .word "pending_ttl_secs" SubscriptionConfig.standard.pendingSeconds
    <*> .word "response_timeout_secs" SubscriptionConfig.standard.timeoutSeconds
    <*> .defaulted "notifications_enabled" .bool SubscriptionConfig.standard.notifications
    <*> .defaulted "persistence_enabled" .bool SubscriptionConfig.standard.persistence

def PluginConfig.toJson (c : PluginConfig) : Json.Value :=
  .object [("request_timeout_ms", .natural c.requestMillis.toNat),
    ("connect_timeout_ms", .natural c.connectMillis.toNat)]

def PluginConfig.decoder : Json.Decoder PluginConfig := .record <|
  PluginConfig.mk <$> .word "request_timeout_ms" PluginConfig.standard.requestMillis
    <*> .word "connect_timeout_ms" PluginConfig.standard.connectMillis

def Topics.toJson (t : Topics) : Json.Value :=
  .object [("lcm_events", .text t.lifecycle), ("subscription_outcomes", .text t.outcomes)]

def Topics.decoder : Json.Decoder Topics := .record <|
  Topics.mk <$> .defaulted "lcm_events" .text Topics.standard.lifecycle
    <*> .defaulted "subscription_outcomes" .text Topics.standard.outcomes

namespace Config

def toJson (c : Config) : Json.Value :=
  .object [("instance_id", .text c.instanceId), ("watchdog", c.watchdog.toJson),
    ("subscription", c.subscription.toJson), ("dmi", c.plugin.toJson),
    ("topics", c.topics.toJson)]

def decoder (generatedId : String) : Json.Decoder Config := .record <|
  Config.mk <$> .defaulted "instance_id" .text generatedId
    <*> .defaulted "watchdog" WatchdogConfig.decoder .standard
    <*> .defaulted "subscription" SubscriptionConfig.decoder .standard
    <*> .defaulted "dmi" PluginConfig.decoder .standard
    <*> .defaulted "topics" Topics.decoder .standard

/-- The configuration that a text holds. -/
def ofText (generatedId text : String) : Except Json.Fault Config :=
  Json.decode (decoder generatedId) text

/-- The configuration in a file, of which `content` is the text; a file that cannot be read is at
fault as one that is no JSON. -/
def ofFile (generatedId : String) (content : Option String) : Except Json.Fault Config :=
  match content with
  | some text => ofText generatedId text
  | none => .error .malformed

end Config
end CmInventory
