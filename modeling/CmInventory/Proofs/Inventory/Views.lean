import CmInventory.Proofs.Inventory.Changes
import CmInventory.Proofs.Inventory.Chunks
import CmInventory.Proofs.Inventory.Demands

/-!
# What there is of a handle

What the inventory has of one handle is its record, what was fetched for it and the events that tell of it
(`World.view`). Two runs that do the same for a handle at different times give it views that are the same without
readings of the clock and ids of events (`View.timeless`).

Work on one handle leaves the views of all others exactly as they are (`World.Answers.view_of_worksOn`).
-/

namespace CmInventory

open Inventory

/-- The handle of whose move an event tells. -/
def Published.handleId? (p : Published) : Option HandleId :=
  match p.event with
  | .lifecycle e => some e.handleId
  | .outcome _ => none

theorem Published.IsOf.handleId?_eq {id : HandleId} {p : Published} (h : p.IsOf id) :
    p.handleId? = some id := by
  rcases h with ⟨e, hevent, rfl⟩
  rw [handleId?, hevent]

/-! ## Views -/

/-- What there is of a handle: its record, the text of its operational data, its modules and its events. -/
structure View where
  record : Option Handle
  data : Option String
  modules : Option (List ModuleReference)
  events : List Published

/-- What the inventory has of a handle. -/
def World.view (w : World) (id : HandleId) : View where
  record := w.store.record? id
  data := w.store.data.find? id.text
  modules := w.store.modules.find? id.text
  events := w.published.filter fun p => p.handleId? = some id

def Handle.timeless (h : Handle) : Handle :=
  { h with status := h.status.timeless }

/-- A view without readings of the clock and ids of events. -/
def View.timeless (v : View) : View :=
  { v with record := v.record.map Handle.timeless, events := v.events.map Published.unstamped }

section

variable {w w' : World} {id : HandleId}

theorem view_congr (hstore : w'.store = w.store) (hpub : w'.published = w.published) :
    w'.view id = w.view id := by
  rw [World.view, World.view, hstore, hpub]

theorem World.Same.view_eq (h : w.Same w') (id : HandleId) : w'.view id = w.view id :=
  view_congr h.store h.published

/-- A record is written, and events of its handle are published. -/
theorem view_of_put {g : Handle} {events : List Published} (hstore : w'.store = w.store.putHandle g)
    (hpub : w'.published = w.published ++ events) (hof : ∀ p ∈ events, p.handleId? = some g.id) :
    w'.view id = if g.id = id then
      { w.view id with record := some g, events := (w.view id).events ++ events } else w.view id := by
  have hrecord : w'.store.record? id = if g.id = id then some g else w.store.record? id := by
    rw [hstore, Store.record?_putHandle]
  have hevents : (events.filter fun p => p.handleId? = some id) = if g.id = id then events else [] := by
    split
    · rename_i hid
      refine List.filter_eq_self.2 fun p hp => ?_
      rw [hof p hp, hid, decide_eq_true rfl]
    · rename_i hid
      refine List.filter_eq_nil_iff.2 fun p hp hdec => hid ?_
      rw [hof p hp] at hdec
      exact Option.some.inj (of_decide_eq_true hdec)
  have hdata : w'.store.data = w.store.data ∧ w'.store.modules = w.store.modules := by
    rw [hstore]
    exact ⟨rfl, rfl⟩
  rw [World.view, hrecord, hdata.1, hdata.2, hpub, List.filter_append, hevents]
  split
  · rfl
  · rw [List.append_nil]
    rfl

/-- A record is written, and no event is published. -/
theorem view_of_write {g : Handle} (hstore : w'.store = w.store.putHandle g)
    (hpub : w'.published = w.published) :
    w'.view id = if g.id = id then { w.view id with record := some g } else w.view id := by
  have hnone : w'.published = w.published ++ [] := hpub.trans (List.append_nil _).symm
  rw [view_of_put hstore hnone (by simp), List.append_nil]

/-- What work on a handle asks for leaves all other handles as they are. -/
theorem World.Answers.view_of_worksOn {fails : StoreCall → Prop} {r : Request} {reply : r.Reply}
    {kind : SyncKind} {i : HandleId} (h : World.Answers fails r w reply w') (hs : w.store.Sound)
    (hr : r.WorksOn kind i) (hne : i ≠ id) : w'.view id = w.view id := by
  have htext : ¬ i.text = id.text := fun heq => hne (HandleId.text_inj.1 heq)
  cases r with
  | store call =>
      rcases World.Answers.store h with ⟨hpub, ⟨e, -, -, hstore⟩ | hperform⟩
      · exact view_congr hstore hpub
      have hstore : w'.store = (w.store.perform call).2 := congrArg Prod.snd hperform
      cases call with
      | status j => exact view_congr hstore hpub
      | saveStatusIf j expected status =>
          obtain rfl : j = i := hr
          rcases hs.saveStatusIf_cases hperform with ⟨g, hg, -, -, hput⟩ | ⟨-, hsame⟩
          · have hid : ¬ g.id = id := fun heq => hne ((hs.id_of_record? hg).symm.trans heq)
            exact (view_of_write hput hpub).trans (if_neg hid)
          · exact view_congr hsame hpub
      | saveData j data =>
          obtain rfl : j = i := hr.2
          rw [World.view, World.view, hstore, hpub]
          simp only [Store.perform, Store.saveData, Dictionary.find?_insert, if_neg htext]
          rfl
      | saveModules j modules =>
          obtain rfl : j = i := hr.2
          rw [World.view, World.view, hstore, hpub]
          simp only [Store.perform, Store.saveModules, Dictionary.find?_insert, if_neg htext]
          rfl
      | _ => exact hr.elim
  | publish p =>
      rcases World.Answers.publish h with ⟨hstore, hpub⟩
      have hother : ¬ p.handleId? = some id := by
        rw [Published.IsOf.handleId?_eq hr]
        exact fun heq => hne (Option.some.inj heq)
      rw [World.view, World.view, hstore, hpub, List.filter_append]
      simp [hother]
  | _ =>
      rcases World.Answers.quiet (by trivial) h with ⟨hstore, hpub⟩
      exact view_congr hstore hpub

end
end CmInventory
