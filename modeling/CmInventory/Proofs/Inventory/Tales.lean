import CmInventory.Proofs.Inventory.Demands
import CmInventory.Proofs.Inventory.History
import CmInventory.Proofs.Program.Logged
import CmInventory.Proofs.Program.Recorded

/-!
# What happens to a handle

The run of an inventory is a long list of turns, of which few have to do with one handle. What happens to a
handle is told by its tale (`World.tale`): its record is stored, gets another status or goes, its plugin is asked
for its modules, and between this the clock is read and module cycles start to advise locked handles again.

The tale is made from the turns of a run and nothing else, by `Turn.happenings`. A program is judged with what
it adds to the tale in the setting `Setting.telling`.
-/

namespace CmInventory

open Inventory

/-! ## Tales -/

/-- What happens to a handle, or in its surroundings. -/
inductive Happening
  /-- A member starts to advise locked handles again, at a reading of the clock. -/
  | pass (m : Member) (now : Instant)
  | clock (now : Instant)
  /-- A record is stored that was not there. -/
  | created (status : HandleStatus)
  /-- The record gets another status. -/
  | changed (status : HandleStatus)
  | removed
  /-- The plugin was asked for the modules and knew them. -/
  | found
  /-- The plugin was asked for the modules and failed. -/
  | failed (e : PluginError)

namespace Happening

/-- What happens when a record is replaced by another one. -/
def ofRecords : Option Handle → Option Handle → List Happening
  | none, none => []
  | none, some h => [.created h.status]
  | some _, none => [.removed]
  | some g, some h => if g.status = h.status then [] else [.changed h.status]

/-- Nothing happens when the status stays as it is. -/
theorem ofRecords_of_status {before after : Option Handle}
    (h : after.map Handle.status = before.map Handle.status) : ofRecords before after = [] := by
  cases before <;> cases after <;> simp_all [ofRecords]

/-- What a plugin makes happen that is asked for modules. -/
def ofModules : Except PluginError (List ModuleReference) → Happening
  | .ok _ => .found
  | .error e => .failed e

end Happening

/-- What happens to a handle in a turn. -/
def Turn.happenings (id : HandleId) (t : Turn World) : List Happening :=
  match t.exchange with
  | ⟨.now, now⟩ => [.clock now]
  | ⟨.plugin (.modules h), reply⟩ => if h.id = id then [.ofModules reply] else []
  | _ => Happening.ofRecords (t.before.store.record? id) (t.after.store.record? id)

/-- A module cycle starts to advise locked handles again when it first reads the clock. -/
def Demand.opening : Demand → List (Turn World) → List Happening
  | .moduleCycle m _, t :: _ =>
      match t.exchange with
      | ⟨.now, now⟩ => [.pass m now]
      | _ => []
  | _, _ => []

/-- What happens to a handle while a demand is served. -/
def Demand.happenings (c : Circumstances) (id : HandleId) (w : World) (d : Demand) : List Happening :=
  let turns := d.program.turns (World.reply c) w
  d.opening turns ++ turns.flatMap (Turn.happenings id)

/-- What happens to a handle while demands are served one after the other, from a world on. -/
def World.taleFrom (c : Circumstances) (id : HandleId) : World → List Demand → List Happening
  | _, [] => []
  | w, d :: rest => d.happenings c id w ++ taleFrom c id (w.serve c d) rest

/-- What happens to a handle in a history. -/
def World.tale (c : Circumstances) (id : HandleId) (demands : List Demand) : List Happening :=
  taleFrom c id empty demands

/-- No turn is a pass by itself. -/
theorem Turn.not_mem_happenings_pass {id : HandleId} {t : Turn World} {m : Member} {now : Instant} :
    .pass m now ∉ t.happenings id := by
  rcases t with ⟨i, r, reply, before, after⟩
  have hrecords : .pass m now ∉ Happening.ofRecords (before.store.record? id) (after.store.record? id) := by
    cases before.store.record? id <;> cases after.store.record? id
    case some.some => 
      rw [Happening.ofRecords]
      split <;> simp
    all_goals simp [Happening.ofRecords]
  cases r with
  | now => simp [Turn.happenings, Turn.exchange]
  | plugin call =>
      cases call with
      | modules h =>
          change _ ∉ if h.id = id then [Happening.ofModules reply] else []
          split
          · cases reply <;> simp [Happening.ofModules]
          · simp
      | read h resource datastore => exact hrecords
  | _ => exact hrecords

/-- The passes of a tale are those of the module cycles that were asked for. -/
theorem mem_taleFrom_pass {c : Circumstances} {id : HandleId} {w : World} {demands : List Demand} {m : Member}
    {now : Instant} (h : .pass m now ∈ World.taleFrom c id w demands) :
    ∃ bound, .moduleCycle m bound ∈ demands := by
  induction demands generalizing w with
  | nil => cases h
  | cons d rest ih =>
      rcases List.mem_append.1 h with hfirst | hlater
      · rcases List.mem_append.1 hfirst with hopening | hturns
        · cases d with
          | moduleCycle m' bound =>
              have hpass : Happening.pass m now = .pass m' (c.clock w.turn) := List.mem_singleton.1 hopening
              exact ⟨bound, by simp [(Happening.pass.inj hpass).1]⟩
          | _ => cases hopening
        · rcases List.mem_flatMap.1 hturns with ⟨t, -, ht⟩
          exact absurd ht Turn.not_mem_happenings_pass
      · rcases ih hlater with ⟨bound, hbound⟩
        exact ⟨bound, List.mem_cons_of_mem _ hbound⟩



/-! ## Programs that are told -/

/-- A world with what has happened to a handle so far. -/
abbrev Recounted := World × List Happening

/-- The setting of a member that works alone in a store that does not fail, with what happens to a handle. -/
def Setting.telling (id : HandleId) : Setting Recounted :=
  ⟨fun _ _ => True, fun r s reply s' =>
    World.Answers (fun _ => False) r s.1 reply s'.1 ∧
      s'.2 = s.2 ++ Turn.happenings id ⟨0, r, reply, s.1, s'.1⟩⟩

section

variable {α : Type} {id : HandleId} {c : Circumstances} {w : World} {tale : List Happening}

theorem telling_request {r : Request} {Q : r.Reply → Recounted → Prop}
    (h : ∀ reply w', World.Answers (fun _ => False) r w reply w' →
      Q reply (w', tale ++ Turn.happenings id ⟨0, r, reply, w, w'⟩)) :
    (Program.request r).Ensures (.telling id) Q (w, tale) := by
  refine ⟨trivial, ?_⟩
  rintro reply ⟨w', more⟩ ⟨hans, hmore⟩
  have hmore : more = tale ++ Turn.happenings id ⟨0, r, reply, w, w'⟩ := hmore
  rw [hmore]
  exact h reply w' hans

/-- A call of the store tells what it makes of the record. -/
theorem tells_call {call : StoreCall} {Q : Except StoreError call.Answer → Recounted → Prop}
    (h : ∀ reply w', (reply, w'.store) = w.store.perform call →
      Q reply (w', tale ++ Happening.ofRecords (w.store.record? id) (w'.store.record? id))) :
    (Program.store call).Ensures (.telling id) Q (w, tale) := by
  refine telling_request fun reply w' hans => ?_
  rcases World.Answers.store hans with ⟨-, ⟨e, hfails, -⟩ | hperform⟩
  · exact hfails.elim
  · exact h reply w' hperform

/-- A call that only reads tells nothing. -/
theorem tells_read {call : StoreCall} {Q : Except StoreError call.Answer → Recounted → Prop}
    (hread : (w.store.perform call).2 = w.store)
    (h : ∀ w', w'.store = w.store → Q (w.store.perform call).1 (w', tale)) :
    (Program.store call).Ensures (.telling id) Q (w, tale) := by
  refine tells_call fun reply w' hperform => ?_
  obtain ⟨rfl, hstore⟩ : reply = (w.store.perform call).1 ∧ w'.store = (w.store.perform call).2 :=
    Prod.ext_iff.1 hperform
  have hsame := hstore.trans hread
  rw [Happening.ofRecords_of_status (by rw [hsame]), List.append_nil]
  exact h w' hsame

theorem tells_now {Q : Instant → Recounted → Prop}
    (h : ∀ now w', w'.store = w.store → Q now (w', tale ++ [.clock now])) :
    Program.now.Ensures (.telling id) Q (w, tale) := by
  refine telling_request fun now w' hans => ?_
  have hquiet : Request.IsQuiet .now := trivial
  exact h now w' (World.Answers.quiet hquiet hans).1

/-- What a program tells is what happens in its turns. -/
theorem Program.Ensures.told {p : Program α} {Q : α → Recounted → Prop}
    (hc : ∀ n call, c.storeFailure n call = none) (h : p.Ensures (.telling id) Q (w, tale)) :
    Q (p.run (World.reply c) w).1
      ((p.run (World.reply c) w).2, tale ++ (p.turns (World.reply c) w).flatMap (Turn.happenings id)) := by
  induction p generalizing w tale with
  | done a => simpa [Program.turns] using h
  | ask r next ih =>
      have hans : World.Answers (fun _ => False) r w (World.reply c r w).1 (World.reply c r w).2 := by
        refine ⟨c, .zero, ?_, by rw [World.advance_zero]⟩
        intro n call e hfails
        rw [hc] at hfails
        cases hfails
      rw [Program.run_ask, Program.turns, List.flatMap_cons, ← List.append_assoc]
      exact ih _ (h.2 _ (_, _) ⟨hans, rfl⟩)

/-- A judgement of a member that works alone holds as well when it is told. -/
theorem Program.Ensures.telling {p : Program α} {Q : α → World → Prop} (h : p.Ensures .alone Q w) :
    p.Ensures (.telling id) (fun a s => Q a s.1) (w, tale) := by
  have hany : p.Asks fun _ => True := ensures_trivial fun _ _ => trivial
  refine Ensures.within (t := (w, tale)) Prod.fst hany h (fun _ _ _ => trivial) ?_
  rintro r s reply s' - ⟨⟨c, length, hfails, hreply⟩, -⟩
  exact ⟨c, length, fun n call e hc => (hfails n call e hc).elim, hreply⟩

theorem serve_eq (c : Circumstances) (w : World) (d : Demand) :
    w.serve c d = match d with
      | .wait length => w.advance length
      | d => (d.program.run (World.reply c) w).2 := by
  cases d with
  | wait length => rfl
  | _ =>
      dsimp only [Demand.program]
      rw [Program.run_bind]
      rfl

end

/-! ## Requests that do not matter -/

/-- Whether a request does not concern the record of a handle, nor asks for its modules. -/
def Request.Leaves (id : HandleId) : Request → Prop
  | .store (.saveStatusIf i _ _) => i ≠ id
  | .store call => ¬ call.WritesHandles
  | .plugin (.modules h) => h.id ≠ id
  | _ => True

section

variable {id : HandleId} {w w' : World} {r : Request} {reply : r.Reply}

theorem World.Answers.record?_of_leaves (h : World.Answers (fun _ => False) r w reply w')
    (hs : w.store.Sound) (hr : r.Leaves id) : w'.store.record? id = w.store.record? id := by
  by_cases hwrites : ∃ i expected status, r = .store (.saveStatusIf i expected status)
  · rcases hwrites with ⟨i, expected, status, rfl⟩
    rcases World.Answers.store h with ⟨-, ⟨e, hfails, -⟩ | hperform⟩
    · exact hfails.elim
    · exact hs.record?_of_saveStatusIf hperform fun heq => absurd heq hr
  · refine h.record? ?_ id
    rintro call rfl hcall
    cases call <;> first | exact hr hcall | exact hwrites ⟨_, _, _, rfl⟩

/-- All that such a request can tell is a reading of the clock. -/
theorem happenings_of_leaves (hr : r.Leaves id) (hsame : w'.store.record? id = w.store.record? id) :
    Turn.happenings id ⟨0, r, reply, w, w'⟩ = [] ∨
      ∃ now, Turn.happenings id ⟨0, r, reply, w, w'⟩ = [.clock now] := by
  have hrecords : Happening.ofRecords (w.store.record? id) (w'.store.record? id) = [] :=
    Happening.ofRecords_of_status (by rw [hsame])
  cases r with
  | now => exact Or.inr ⟨reply, rfl⟩
  | plugin call =>
      cases call with
      | modules h => exact Or.inl (if_neg hr)
      | read h resource datastore => exact Or.inl hrecords
  | _ => exact Or.inl hrecords

end
end CmInventory
