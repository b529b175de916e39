import CmInventory.Proofs.Inventory.Rounds
import CmInventory.Proofs.Store.Statuses
import Mathlib.Data.List.Nodup
import Mathlib.Data.List.Perm.Subperm

/-!
# Cycles visit in any order

Which handles a cycle visits is settled when it starts: those that are due, and in a cycle for modules also those
that it first advises again (`Handle.IsEligible`). In which order it visits them is left to chance, and makes no
difference (`cycle_in_any_order`): under any two courses in which the plugins answer alike a cycle visits the same
handles, gives the same report and leaves the same behind, but for readings of the clock and ids of events.
-/

namespace CmInventory

open Inventory

/-! ## Handles that are advised again -/

/-- Whether a handle that is locked for a reason may be tried again. -/
def HandleStatus.isRetried (s : HandleStatus) (now : Instant) (base : Interval) : Bool :=
  s.lockReason.isSome && s.isReadyForRetry now base

theorem HandleStatus.isRetried_iff {s : HandleStatus} {now : Instant} {base : Interval} :
    s.isRetried now base = true ↔ s.lockReason ≠ none ∧ s.isReadyForRetry now base = true := by
  rw [isRetried, Bool.and_eq_true, Option.isSome_iff_ne_none]

theorem HandleStatus.lifecycle_of_isRetried {s : HandleStatus} {now : Instant} {base : Interval}
    (h : s.isRetried now base = true) : s.lifecycle = .locked :=
  lifecycle_of_isReadyForRetry (isRetried_iff.1 h).2

/-- A view once the handles that may be tried again were advised. -/
def View.readvised (m : Member) (now : Instant) (v : View) : View :=
  match v.record with
  | some h =>
      if h.status.isRetried now m.retryBase then
        v.timeless.moved m.topic h.timeless .advised h.status.lockReason
      else v.timeless
  | none => v.timeless

section

variable {w : World} {s : Logged World} {f : Fates} {m : Member} {now : Instant} {ends : Nat}
  {held : SyncKind → HandleId → Option (CacheEntry String)}

/-- A batch that advises handles again moves each of them and leaves all others as they are. -/
theorem ensures_advises {due : List Handle} (hs : w.store.Sound) (hnodup : (due.map (·.id)).Nodup)
    (hdue : ∀ h ∈ due, w.store.record? h.id = some h ∧ h.status.isRetried now m.retryBase = true) :
    (applyBatch m.topic (due.map fun h => (h, .advised))).Ensures .alone (fun _ w' =>
      w'.store.Sound ∧
      (∀ h ∈ due, (w'.view h.id).timeless =
        (w.view h.id).timeless.moved m.topic h.timeless .advised h.status.lockReason) ∧
      ∀ id ∉ due.map (·.id), w'.view id = w.view id) w := by
  induction due generalizing w with
  | nil => exact ⟨hs, by simp, fun _ _ => rfl⟩
  | cons h rest ih =>
      rcases List.nodup_cons.1 hnodup with ⟨hfresh, hnodup⟩
      have hother : ∀ g ∈ rest, h.id ≠ g.id := fun g hg heq => hfresh (List.mem_map.2 ⟨g, hg, heq.symm⟩)
      rcases hdue h List.mem_cons_self with ⟨hr, hretried⟩
      have hlocked : h.lifecycle = .locked := HandleStatus.lifecycle_of_isRetried hretried
      -- A locked handle that is advised again keeps the reason of its lock.
      have hkeeps : nextReason h h.status .advised = .ok h.status.lockReason :=
        congrArg Except.ok (if_pos hlocked)
      change (applyBatch m.topic ((h, .advised) :: rest.map fun h => (h, .advised))).Ensures _ _ _
      rw [applyBatch]
      refine (ensures_entry hs rfl hr (by decide) (by rw [hlocked]; decide) (by rw [hlocked]; rfl) hkeeps).bind ?_
      rintro _ w₁ ⟨-, hmoved⟩
      -- The rest of the batch finds its handles as they were.
      have hrest : ∀ g ∈ rest, w₁.store.record? g.id = some g ∧ g.status.isRetried now m.retryBase = true := by
        intro g hg
        rcases hdue g (List.mem_cons_of_mem _ hg) with ⟨hr', hretried'⟩
        exact ⟨(congrArg View.record (hmoved.others g.id (hother g hg))).trans hr', hretried'⟩
      refine (ih hmoved.sound hnodup hrest).bind ?_
      rintro _ w₂ ⟨hs₂, hadvised, hothers⟩
      refine ⟨hs₂, fun g hg => ?_, fun id hout => ?_⟩
      · rcases List.mem_cons.1 hg with rfl | hg
        · rw [hothers g.id hfresh, hmoved.own]
        · rw [hadvised g hg, hmoved.others g.id (hother g hg)]
      · rw [List.map_cons, List.mem_cons, not_or] at hout
        rw [hothers id hout.2, hmoved.others id (Ne.symm hout.1)]

/-- Before its visits a cycle for modules advises the handles that may be tried again. -/
theorem ensures_readviseAt (hs : w.store.Sound) :
    (readviseAt m now).Ensures .alone (fun _ w' => w'.store.Sound ∧
      ∀ id, (w'.view id).timeless = (w.view id).readvised m now) w := by
  rw [readviseAt]
  refine (ensures_dueForRetry hs).bind ?_
  rintro _ w₁ ⟨hsame, due, rfl, hnodup, hmem⟩
  rw [← hsame.store] at hs hmem
  have hdue : ∀ h ∈ due, w₁.store.record? h.id = some h ∧ h.status.isRetried now m.retryBase = true := by
    intro h hin
    rcases (hmem h).1 hin with ⟨hr, hretried⟩
    exact ⟨hr, HandleStatus.isRetried_iff.2 hretried⟩
  refine (ensures_advises hs hnodup hdue).bind ?_
  rintro _ w₂ ⟨hs₂, hadvised, hothers⟩
  refine ⟨hs₂, fun id => ?_⟩
  rw [← hsame.view_eq, View.readvised]
  by_cases hin : id ∈ due.map (·.id)
  · rcases List.mem_map.1 hin with ⟨h, hof, rfl⟩
    rcases hdue h hof with ⟨hr, hretried⟩
    rw [hadvised h hof, show (w₁.view h.id).record = some h from hr]
    exact (if_pos hretried).symm
  · -- A handle that is not in the batch may not be tried again.
    rw [hothers id hin]
    cases hr : (w₁.view id).record with
    | none => rfl
    | some h =>
        have hid : h.id = id := hs.id_of_record? hr
        subst hid
        refine (if_neg fun hretried => hin (List.mem_map_of_mem ((hmem h).2 ⟨hr, ?_⟩))).symm
        exact HandleStatus.isRetried_iff.1 hretried

theorem round_readvised (hs : s.1.store.Sound) (hheld : s.1.Holds held ends)
    (hnone : visitsOf .modules s.2 = []) :
    (readviseAt m now).Ensures (.logged (f.Answers ends)) (fun _ s' =>
      Round f m.topic held ends .modules (fun id => (s.1.view id).readvised m now) [] s') s := by
  have hspares : (readviseAt m now).Asks Request.SparesAll :=
    asks_readviseAt (fun _ _ hr _ => hr.spares) fun _ _ => trivial
  refine ((ensures_readviseAt hs).fated.logged.and (aside_of_asks .modules hspares)).mono ?_
  rintro _ s' ⟨⟨hs', hviews⟩, haside⟩
  exact ⟨hs', List.nodup_nil, by simp, haside.visits.trans hnone, by simpa using hviews,
    hheld.later haside.time haside.markers⟩

end

/-! ## Statuses that devices reported -/

/-- Whether a request leaves the statuses alone that devices reported. -/
def Request.SparesStatuses : Request → Prop
  | .store (.saveAnswer _) => False
  | _ => True

theorem Request.WorksOn.sparesStatuses {kind : SyncKind} {id : HandleId} {r : Request} (h : r.WorksOn kind id) :
    r.SparesStatuses := by
  cases r with
  | store call =>
      cases call with
      | saveAnswer answer => exact h.elim
      | _ => trivial
  | _ => trivial

theorem World.Answers.statuses {fails : StoreCall → Prop} {r : Request} {reply : r.Reply} {w w' : World}
    (h : World.Answers fails r w reply w') (hr : r.SparesStatuses) :
    w'.store.statuses = w.store.statuses := by
  cases r with
  | store call =>
      rcases World.Answers.store h with ⟨-, ⟨e, -, -, hstore⟩ | hperform⟩
      · rw [hstore]
      · rw [show w'.store = (w.store.perform call).2 from congrArg Prod.snd hperform]
        refine Store.statuses_perform ?_
        rintro answer rfl
        exact hr
  | publish event => rw [(World.Answers.publish h).1]
  | _ => rw [(World.Answers.quiet (by trivial) h).1]

/-! ## Cycles -/

/-- A cycle of a kind of work. -/
def Inventory.cycle (m : Member) (kind : SyncKind) (bound : Nat) : Program CycleReport :=
  match kind with
  | .data => dataCycle m bound
  | .modules => moduleCycle m bound

/-- Whether a cycle that starts at a given time visits a handle. -/
def Handle.IsEligible (m : Member) (now : Instant) (h : Handle) : SyncKind → Prop
  | .data => h.lifecycle = .ready ∧ h.status.syncState = .unsynchronized
  | .modules => h.lifecycle = .advised ∨ h.status.isRetried now m.retryBase = true

/-- What there is of a handle when a cycle picks the first one. -/
def World.opening (w : World) (m : Member) (now : Instant) (kind : SyncKind) (id : HandleId) : View :=
  match kind with
  | .data => (w.view id).timeless
  | .modules => (w.view id).readvised m now

/-- The markers that live last for the whole of a run. -/
def World.MarkersLast (w w' : World) : Prop :=
  ∀ kind id e, w.liveMarker? kind id = some e → e.isLive w'.time = true

theorem markersLast_of_time {w w' : World} (h : w'.time = w.time) : w.MarkersLast w' := by
  intro kind id e hlive
  rw [h]
  exact (Option.filter_eq_some_iff.1 hlive).2

/-- The same is stored and told of every handle, but for readings of the clock and ids of events, and the same
statuses are stored. -/
structure World.Alike (w w' : World) : Prop where
  views : ∀ id, (w.view id).timeless = (w'.view id).timeless
  statuses : w.store.statuses = w'.store.statuses

section

variable {w : World} {m : Member} {now now' : Instant} {kind : SyncKind} {id : HandleId}

/-- Only a cycle for modules starts with a look at the clock. -/
theorem opening_congr (h : kind = .modules → now' = now) : w.opening m now' kind = w.opening m now kind := by
  cases kind with
  | data => rfl
  | modules => rw [h rfl]

/-- The handles that are due when a cycle picks the first one are those that it visits. -/
theorem isDue_opening : (w.opening m now kind id).IsDue kind ↔
    ∃ h, w.store.record? id = some h ∧ h.IsEligible m now kind := by
  cases kind with
  | data => exact isDue_timeless
  | modules =>
      rw [World.opening, View.readvised]
      have hrecord : (w.view id).record = w.store.record? id := rfl
      rw [hrecord]
      cases hr : w.store.record? id with
      | none => exact isDue_timeless.trans (by simp [View.IsDue, hrecord, hr])
      | some h =>
          dsimp only
          split
          · rename_i hretried
            exact ⟨fun _ => ⟨h, rfl, Or.inr hretried⟩, fun _ => ⟨_, rfl, rfl⟩⟩
          · rename_i hretried
            rw [isDue_timeless]
            constructor
            · rintro ⟨g, hg, hdue⟩
              exact ⟨g, hr ▸ hg, Or.inl hdue⟩
            · rintro ⟨g, hg, hadvised | hretried'⟩
              · exact ⟨g, hr.trans hg, hadvised⟩
              · cases hg
                exact absurd hretried' hretried

/-- A handle that is not due when a cycle picks the first one was not touched before. -/
theorem opening_of_not_due (h : ¬ (w.opening m now kind id).IsDue kind) :
    w.opening m now kind id = (w.view id).timeless := by
  cases kind with
  | data => rfl
  | modules =>
      rw [World.opening, View.readvised] at h ⊢
      split
      · split
        · rename_i g hr hretried
          refine absurd ?_ h
          rw [hr]
          dsimp only
          rw [if_pos hretried]
          exact ⟨_, rfl, rfl⟩
        · rfl
      · rfl

/-- There are no more handles to visit than rows. -/
theorem length_due_le (hs : w.store.Sound) {ids : List HandleId} (hnodup : ids.Nodup)
    (hdue : ∀ id ∈ ids, (w.opening m now kind id).IsDue kind) : ids.length ≤ w.store.handles.size := by
  have hkeys : ids.map HandleId.text ⊆ w.store.handles.keys := by
    intro key hkey
    rcases List.mem_map.1 hkey with ⟨id, hid, rfl⟩
    rcases isDue_opening.1 (hdue id hid) with ⟨h, hr, -⟩
    have hrow := hs.find?_eq id
    rw [hr, Option.map_some] at hrow
    exact List.mem_map.2 ⟨_, Dictionary.mem_entries_iff.2 hrow, rfl⟩
  have htexts : (ids.map HandleId.text).Nodup := hnodup.map fun _ _ heq => HandleId.text_inj.1 heq
  have hle := (htexts.subperm hkeys).length_le
  rwa [List.length_map, Dictionary.keys, List.length_map] at hle

end

namespace Inventory

variable {f : Fates} {k : Course} {w : World} {s : Logged World} {m : Member} {kind : SyncKind} {now : Instant}
  {bound more ends : Nat} {held : SyncKind → HandleId → Option (CacheEntry String)}

/-! ### From the first request on -/

/-- What a cycle does before its first visit, once it read the clock. -/
def outset (m : Member) (now : Instant) : SyncKind → Program Nat
  | .data => return 0
  | .modules => readviseAt m now

/-- A cycle, once it read the clock. -/
def cycleAt (m : Member) (kind : SyncKind) (bound : Nat) (now : Instant) : Program CycleReport := do
  let _ ← outset m now kind
  visitAll (pick kind) (attempt m kind) bound [] .empty

/-- The world of a cycle, once it read the clock. -/
def begun (k : Course) (w : World) : SyncKind → World
  | .data => w
  | .modules => (k.reply .now w).2

theorem run_cycle : (cycle m kind bound).run k.reply w =
    (cycleAt m kind bound (k.circumstances.clock w.turn)).run k.reply (begun k w kind) := by
  cases kind with
  | data => rfl
  | modules =>
      rw [cycle, moduleCycle_eq_ask, Program.run_ask]
      rfl

theorem visitsOf_cycle : visitsOf kind ((cycle m kind bound).turns k.reply w) =
    visitsOf kind ((cycleAt m kind bound (k.circumstances.clock w.turn)).turns k.reply (begun k w kind)) := by
  cases kind <;> rfl

theorem round_outset (hs : s.1.store.Sound) (hheld : s.1.Holds held ends) (hnone : visitsOf kind s.2 = []) :
    (outset m now kind).Ensures (.logged (f.Answers ends)) (fun _ s' =>
      Round f m.topic held ends kind (s.1.opening m now kind) [] s') s := by
  cases kind with
  | data => exact ⟨hs, List.nodup_nil, by simp, hnone, by simp [World.opening], hheld⟩
  | modules => exact round_readvised hs hheld hnone

/-- A cycle visits all handles that are due, and its report counts the visits. -/
theorem rounds_cycleAt (hs : w.store.Sound) (hheld : w.Holds held ends) (hbound : w.store.visitBound ≤ bound) :
    (cycleAt m kind bound now).Ensures (.logged (f.Answers ends)) (fun report s' => ∃ all,
      Round f m.topic held ends kind (w.opening m now kind) all s' ∧
      report = f.report m.topic held kind (w.opening m now kind) all ∧
      ∀ id, (w.opening m now kind id).IsDue kind → id ∈ all) (w, []) := by
  refine (round_outset hs hheld rfl).bind fun _ s hround => ?_
  exact rounds_visitAll (fun _ => length_due_le hs) hbound hround

theorem agree_cycleAt (hs : w.store.Sound) (hheld : w.Holds held ends) (hbound : w.store.visitBound ≤ bound)
    (hmore : bound ≤ more) : Program.Agree (.logged (f.Answers ends)) (cycleAt m kind bound now)
      (cycleAt m kind more now) (w, []) := by
  refine (round_outset hs hheld rfl).agree fun _ s hround => ?_
  exact agree_visitAll (fun _ => length_due_le hs) hbound hmore hround

/-! ### What a cycle leaves alone -/

theorem asks_cycle : (cycle m kind bound).Asks Request.SparesStatuses := by
  have hvisits : (visitAll (pick kind) (attempt m kind) bound [] .empty).Asks Request.SparesStatuses :=
    asks_visitAll (fun _ => asks_pick (fun _ => trivial) (fun _ => trivial) (fun _ => trivial) fun _ => trivial)
      fun _ => asks_attempt trivial trivial fun _ => Request.WorksOn.sparesStatuses
  cases kind with
  | data => exact hvisits
  | modules =>
      refine (Program.asks_request trivial).bind fun now => ?_
      have hmoves : ∀ id r, Request.Moves id r → r.SparesStatuses := fun id r h =>
        (h.worksOn : r.WorksOn .data id).sparesStatuses
      exact (asks_readviseAt hmoves fun _ => trivial).bind fun _ => hvisits

/-! ### Whole runs -/

/-- A run of a cycle while the plugins answer as they are fated to, nobody else writes, no call of the store fails
and no live marker expires. Its bound is larger than the number of stored handles. -/
structure Unhindered (f : Fates) (k : Course) (m : Member) (kind : SyncKind) (bound : Nat) (w : World) :
    Prop where
  follows : k.Follows f
  bounded : w.store.visitBound ≤ bound
  lasts : w.MarkersLast ((cycle m kind bound).run k.reply w).2

theorem begun_same : w.Same (begun k w kind) := by
  cases kind <;> exact ⟨rfl, rfl⟩

theorem opening_begun : (begun k w kind).opening m now kind = w.opening m now kind := by
  cases kind <;> rfl

theorem holds_begun (h : w.Holds held ends) : (begun k w kind).Holds held ends := by
  cases kind with
  | data => exact h
  | modules => exact h.later (k.time_le .now w) fun _ _ => rfl

/-- Where an unhindered run ends: all handles that were due are visited. -/
theorem Unhindered.round (h : Unhindered f k m kind bound w) (hs : w.store.Sound) :
    let start := w.opening m (k.circumstances.clock w.turn) kind
    let run := (cycle m kind bound).run k.reply w
    ∃ all, Round f m.topic w.liveMarker? run.2.time kind start all
        (run.2, (cycleAt m kind bound (k.circumstances.clock w.turn)).turns k.reply (begun k w kind)) ∧
      run.1 = f.report m.topic w.liveMarker? kind start all ∧ ∀ id, (start id).IsDue kind → id ∈ all := by
  intro start run
  have hrun : run = (cycleAt m kind bound (k.circumstances.clock w.turn)).run k.reply (begun k w kind) :=
    run_cycle
  have hsame : (begun k w kind).store = w.store := begun_same.store
  have hrounds : (cycleAt m kind bound (k.circumstances.clock w.turn)).Ensures
      (.logged (f.Answers run.2.time)) _ (begun k w kind, []) :=
    rounds_cycleAt (hsame ▸ hs) (holds_begun (holds_of_last h.lasts)) (hsame ▸ h.bounded)
  rw [opening_begun] at hrounds
  have hjudged := h.follows.judged hrounds (by rw [hrun])
  rwa [← hrun] at hjudged

/-- A larger bound makes no difference to an unhindered run. -/
theorem Unhindered.run_eq (h : Unhindered f k m kind bound w) (hs : w.store.Sound) (hmore : bound ≤ more) :
    (cycle m kind more).run k.reply w = (cycle m kind bound).run k.reply w := by
  have hsame : (begun k w kind).store = w.store := begun_same.store
  have hagree : Program.Agree (.logged (f.Answers ((cycle m kind bound).run k.reply w).2.time))
      (cycleAt m kind bound (k.circumstances.clock w.turn))
      (cycleAt m kind more (k.circumstances.clock w.turn)) (begun k w kind, []) :=
    agree_cycleAt (hsame ▸ hs) (holds_begun (holds_of_last h.lasts)) (hsame ▸ h.bounded) hmore
  rw [run_cycle] at hagree ⊢
  rw [run_cycle]
  exact h.follows.run_eq hagree (Nat.le_refl _)

/-- The statuses that devices reported are left alone by a cycle. -/
theorem statuses_cycle (k : Course) :
    ((cycle m kind bound).run k.reply w).2.store.statuses = w.store.statuses := by
  refine k.keeps asks_cycle (I := fun v => v.store.statuses = w.store.statuses) rfl ?_
  intro r v reply v' hr hv hans
  rw [hans.statuses hr, hv]

/-- A visit leaves all other handles exactly as they are, wherever it comes in a run. -/
theorem view_attempt (k : Course) {g : Handle} {id : HandleId} (hs : w.store.Sound) (hne : g.id ≠ id) :
    ((attempt m kind g).run k.reply w).2.view id = w.view id := by
  have hasks : (attempt m kind g).Asks fun r => r.WorksOn kind g.id ∨ r.IsQuiet :=
    asks_attempt (Or.inr trivial) (Or.inr trivial) fun _ => Or.inl
  have hkept := k.keeps (w := w) hasks (I := fun v => v.store.Sound ∧ v.view id = w.view id) ⟨hs, rfl⟩ ?_
  · exact hkept.2
  rintro r v reply v' hr ⟨hs, hview⟩ hans
  refine ⟨hans.sound hs, Eq.trans ?_ hview⟩
  rcases hr with hworks | hquiet
  · exact hans.view_of_worksOn hs hworks hne
  · rcases World.Answers.quiet hquiet hans with ⟨hstore, hpub⟩
    exact view_congr hstore hpub

/-- Which handles a cycle visits is settled when it starts, and the order of the visits makes no difference. -/
theorem cycle_in_any_order (hs : w.store.Sound) (h : Unhindered f k m kind bound w) :
    let run := (cycle m kind bound).run k.reply w
    let visits := visitsOf kind ((cycle m kind bound).turns k.reply w)
    (∀ more, bound ≤ more → (cycle m kind more).run k.reply w = run) ∧
    visits.Nodup ∧
    (∀ id, id ∈ visits ↔
      ∃ g, w.store.record? id = some g ∧ g.IsEligible m (k.circumstances.clock w.turn) kind) ∧
    (∀ (g : Handle) (v : World) id, v.store.Sound → g.id ≠ id →
      ((attempt m kind g).run k.reply v).2.view id = v.view id) ∧
    (∀ id, id ∉ visits → (run.2.view id).timeless = (w.view id).timeless) ∧
    run.1.synchronized + run.1.skipped + run.1.failed = visits.length ∧
    (∀ kind id, run.2.liveMarker? kind id = w.liveMarker? kind id) ∧
    ∀ k' bound', Unhindered f k' m kind bound' w →
      (kind = .modules → k'.circumstances.clock w.turn = k.circumstances.clock w.turn) →
      ((cycle m kind bound').run k'.reply w).1 = run.1 ∧
        ((cycle m kind bound').run k'.reply w).2.Alike run.2 := by
  intro run visits
  obtain ⟨all, hround, hreport, hall⟩ := h.round hs
  have hvisits : visits = all.reverse := visitsOf_cycle.trans hround.visits
  have hdue : ∀ id, id ∈ all ↔ (w.opening m (k.circumstances.clock w.turn) kind id).IsDue kind :=
    fun id => ⟨hround.due id, hall id⟩
  have hmem : ∀ id, id ∈ visits ↔ id ∈ all := fun id => by rw [hvisits, List.mem_reverse]
  refine ⟨fun more hmore => h.run_eq hs hmore, ?_, fun id => ?_, fun g v id hs hne => view_attempt k hs hne,
    fun id hout => ?_, ?_, hround.holds.liveMarker?_eq (Nat.le_refl _), fun k' bound' h' hclock => ?_⟩
  · rw [hvisits]
    exact List.nodup_reverse.2 hround.nodup
  · rw [hmem, hdue, isDue_opening]
  · rw [hmem] at hout
    rw [hround.views, if_neg hout]
    exact opening_of_not_due fun hin => hout ((hdue id).2 hin)
  · rw [hreport, Fates.report, CycleReport.sum_ofVerdicts, List.length_map, hvisits, List.length_reverse]
  · obtain ⟨all', hround', hreport', hall'⟩ := h'.round hs
    rw [opening_congr hclock] at hround' hreport' hall'
    -- Both runs visit the handles that were due at the start, each of them once.
    have hperm : all'.Perm all := (List.perm_ext_iff_of_nodup hround'.nodup hround.nodup).2 fun id =>
      ⟨fun hin => hall id (hround'.due id hin), fun hin => hall' id (hround.due id hin)⟩
    refine ⟨?_, fun id => hround.view_eq hround' hperm, ?_⟩
    · rw [hreport', hreport, report_perm hperm]
    · rw [statuses_cycle, statuses_cycle]

/-! ### Two handles drawn in either order -/

def waiting : Handle := .advised ⟨"a"⟩ ⟨"dmi", "", ""⟩ default

/-- A handle that is locked for a failure of which no attempt was counted. -/
def barred : Handle :=
  { waiting with
    id := ⟨"b"⟩
    status := { waiting.status with lifecycle := .locked, lockReason := some ⟨.moduleSyncFailed, 0, ""⟩ } }

/-- A world with both handles, on one of which another member works. -/
def crowd : World :=
  { (World.empty.mark .modules ⟨"a"⟩ "peer" (.ofSeconds 60)).2 with
    store := (Store.empty.putHandle waiting).putHandle barred }

/-- A course in which no time passes and every draw comes out alike. -/
def drawing (n : Nat) : Course :=
  ⟨{ World.undisturbed with choice := fun _ => n }, fun _ => .zero⟩

def refusal : Fates :=
  ⟨fun _ => .error .emptyBody, fun _ => .error .emptyBody⟩

def steady : Member :=
  ⟨"m", .ofSeconds 300, .ofSeconds 300, "lcm"⟩

theorem unhindered_drawing (n : Nat) :
    Unhindered refusal (drawing n) steady .modules crowd.store.visitBound crowd := by
  refine ⟨⟨fun _ _ => rfl, fun _ _ => rfl, fun _ _ _ _ => rfl⟩, Nat.le_refl _, ?_⟩
  exact markersLast_of_time (Course.time_run fun _ => rfl)

/-- Both handles are visited, whichever is drawn first. -/
theorem both_visited_in_either_order :
    crowd.store.Sound ∧ Unhindered refusal (drawing 0) steady .modules crowd.store.visitBound crowd ∧
    Unhindered refusal (drawing 1) steady .modules crowd.store.visitBound crowd ∧
    let cycle := cycle steady .modules crowd.store.visitBound
    let visits := visitsOf .modules (cycle.turns (drawing 0).reply crowd)
    (⟨"a"⟩ ∈ visits ∧ ⟨"b"⟩ ∈ visits) ∧
    (cycle.run (drawing 1).reply crowd).1 = (cycle.run (drawing 0).reply crowd).1 ∧
    (cycle.run (drawing 1).reply crowd).2.Alike (cycle.run (drawing 0).reply crowd).2 := by
  have hs : crowd.store.Sound := (Store.sound_empty.putHandle waiting).putHandle barred
  have hwaiting : crowd.store.record? ⟨"a"⟩ = some waiting := by
    refine (Store.record?_putHandle _ barred _).trans ((if_neg (by decide)).trans ?_)
    exact (Store.record?_putHandle _ waiting _).trans (if_pos rfl)
  have hbarred : crowd.store.record? ⟨"b"⟩ = some barred :=
    (Store.record?_putHandle _ barred _).trans (if_pos rfl)
  obtain ⟨-, -, hmem, -, -, -, -, hany⟩ := cycle_in_any_order hs (unhindered_drawing 0)
  refine ⟨hs, unhindered_drawing 0, unhindered_drawing 1, ⟨?_, ?_⟩, ?_⟩
  · exact (hmem _).2 ⟨waiting, hwaiting, Or.inl rfl⟩
  · exact (hmem _).2 ⟨barred, hbarred, Or.inr rfl⟩
  · exact hany (drawing 1) _ (unhindered_drawing 1) fun _ => rfl

end Inventory
end CmInventory
