import CmInventory.Config
import CmInventory.Inventory.Error

/-!
# Consolidating the answers to subscriptions

When a subscription was forwarded, the names of the plugins that have to answer are kept in the cache
under the key of the subscription. Every answer strikes its plugin off. One report is published for a
subscription: when no plugin is awaited any longer, or when the time for answers has passed. Whoever
takes the entry out of the cache publishes.

Main definitions: `Inventory.forward`, `Inventory.answer`, `Inventory.timeOut`.
-/

namespace CmInventory

/-- The settings for the consolidation of subscriptions. -/
structure Consolidation where
  config : SubscriptionConfig
  /-- Whether there is a store for the statuses of devices. -/
  hasStore : Bool
  topic : String

namespace Consolidation

/-- Whether the statuses of devices are stored. -/
def isStored (c : Consolidation) : Bool :=
  c.config.persistence && c.hasStore

end Consolidation

/-- The type of event of a report that was not prompted by an answer. -/
def subscriptionCreated : String := "subscriptionCreatedStatus"

namespace Inventory

/-- Notes that a subscription was forwarded to plugins. -/
def forward (c : Consolidation) (clientId subscriptionName : String) (plugins : List String) :
    Program Unit :=
  Program.pending
    (.put (subscriptionKey clientId subscriptionName) (.ofNames plugins) c.config.pendingLife)

/-- The statuses to report: those that are stored, or those of the answer at hand. -/
def reportedStatuses (c : Consolidation) (a : PluginAnswer) : Action (List DeviceStatus) :=
  if c.isStored then Action.store (.statuses a.clientId a.subscriptionName)
  else return a.statuses

/-- Publishes the report on a subscription. -/
def report (c : Consolidation) (a : PluginAnswer) (eventType : String)
    (statuses : List DeviceStatus) : Program Unit :=
  let report : OutcomeReport :=
    ⟨a.clientId, a.subscriptionName, eventType, .classify statuses, statuses⟩
  Program.request (.publish ⟨c.topic, a.key, .outcome report⟩)

/-- Takes the entry of a subscription out of the cache. -/
def take (key : String) : Action (Option NameSet) :=
  Action.lift (Program.pending (.take key))

/-- Takes in the answer of a plugin. Tells whether it completed the subscription. -/
def answer (c : Consolidation) (a : PluginAnswer) : Action Bool := do
  let left ← Action.lift (Program.pending (.strike a.key a.plugin c.config.pendingLife))
  if c.isStored then Action.store (.saveAnswer a)
  match left with
  | none => return false
  | some awaited =>
      if !awaited.isEmpty || !c.config.notifications then return false
      else
        let statuses ← reportedStatuses c a
        -- A device that is still pending leaves the entry to a later answer or to the timeout.
        if statuses.any fun s => s.verdict = .pending then return false
        else
          -- Several members may find that no plugin is awaited; one of them takes the entry.
          match ← take a.key with
          | none => return false
          | some _ =>
              Action.lift (report c a a.eventType statuses)
              return true

/-- Ends the wait for answers, in place of which `a` stands. Tells whether the subscription was not
complete before. -/
def timeOut (c : Consolidation) (a : PluginAnswer) : Action Bool := do
  match ← take a.key with
  | none => return false
  | some _ =>
      let statuses ← reportedStatuses c a
      Action.lift (report c a subscriptionCreated statuses)
      return true

end Inventory
end CmInventory
