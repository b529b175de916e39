import CmInventory.Proofs.Inventory.Visits

/-!
# The visits of a cycle

A cycle visits one handle after the other. `Round` says where it is after some visits: the views of the handles
that were visited are what their visits were fated to make of them, all other views are as they were at the start,
and the same markers live. The order of the visits is not part of it.

A handle that was visited is not picked again, and there are only so many handles. Hence a cycle with a bound that is
large enough ends because nothing is left to visit (`rounds_visitAll`), and would do the same under any larger bound
(`agree_visitAll`).
-/

namespace CmInventory

open Inventory

/-! ## Markers -/

/-- The marker of a handle, if it lives. -/
def World.liveMarker? (w : World) (kind : SyncKind) (id : HandleId) : Option (CacheEntry String) :=
  (w.marker? kind id).filter fun e => e.isLive w.time

/-- The markers that live, and will until the end. -/
def World.Holds (held : SyncKind → HandleId → Option (CacheEntry String)) (ends : Nat) (w : World) : Prop :=
  ∀ kind id t, w.time ≤ t → t ≤ ends → ((w.marker? kind id).filter fun e => e.isLive t) = held kind id

section

variable {w w' : World} {kind : SyncKind} {id : HandleId} {ends : Nat}
  {held : SyncKind → HandleId → Option (CacheEntry String)}

/-- What lives and lasts until the end is held. -/
theorem holds_of_last (h : ∀ kind id e, w.liveMarker? kind id = some e → e.isLive ends = true) :
    w.Holds w.liveMarker? ends := by
  intro kind id t hle hends
  rw [World.liveMarker?]
  cases hmarker : w.marker? kind id with
  | none => rfl
  | some e =>
      rw [Option.filter_some, Option.filter_some]
      by_cases hlive : e.isLive w.time = true
      · have hlast : e.isLive ends = true := by
          refine h kind id e ?_
          rw [World.liveMarker?, hmarker, Option.filter_some, if_pos hlive]
        rw [if_pos hlive, if_pos (CacheEntry.isLive_of_le hlast hends)]
      · rw [if_neg hlive, if_neg fun hlater => hlive (CacheEntry.isLive_of_le hlater hle)]

theorem World.Holds.later (h : w.Holds held ends) (hle : w.time ≤ w'.time)
    (hsame : ∀ kind id, w'.marker? kind id = w.marker? kind id) : w'.Holds held ends := by
  intro kind id t hlater hends
  rw [hsame]
  exact h kind id t (Nat.le_trans hle hlater) hends

theorem World.Holds.liveMarker?_eq (h : w.Holds held ends) (hends : w.time ≤ ends) (kind : SyncKind)
    (id : HandleId) : w.liveMarker? kind id = held kind id :=
  h kind id w.time (Nat.le_refl _) hends

/-- A marker is refused where one lives. -/
theorem World.Answers.marker_refused {fails : StoreCall → Prop} {owner : String} {life : Interval}
    (h : World.Answers fails (.mark kind id owner life) w false w') :
    (∀ k i, w'.marker? k i = w.marker? k i) ∧ ∃ e, w.marker? kind id = some e ∧ e.isLive w'.time = true := by
  refine ⟨fun k i => (h.remarks k i).1.unchanged ?_ ?_, ?_⟩
  · rintro life' ⟨owner', heq⟩
    cases heq
  · intro htakes
    cases (htakes : Request.mark kind id owner life = .unmark k i)
  · have hremarks := (h.remarks kind id).1
    generalize hbefore : w.marker? kind id = before at hremarks
    generalize w'.marker? kind id = after at hremarks
    cases hremarks with
    | refused live => exact ⟨_, rfl, live⟩
    | other hother => exact absurd ⟨rfl, rfl⟩ hother

/-- A marker is put where none lives. -/
theorem World.Answers.marker_put {fails : StoreCall → Prop} {owner : String} {life : Interval}
    (h : World.Answers fails (.mark kind id owner life) w true w') :
    (∀ e, w.marker? kind id = some e → e.isLive w'.time = false) ∧
      ∀ k i, ¬ (k = kind ∧ i = id) → w'.marker? k i = w.marker? k i := by
  refine ⟨((h.remarks kind id).1.of_puts ⟨owner, rfl⟩).1, fun k i hne => ?_⟩
  refine (h.remarks k i).1.unchanged ?_ ?_
  · rintro life' ⟨owner', heq⟩
    cases heq
    exact hne ⟨rfl, rfl⟩
  · intro htakes
    cases (htakes : Request.mark kind id owner life = .unmark k i)

/-- Nothing is left of a marker that is taken off. -/
theorem World.Answers.marker_off {fails : StoreCall → Prop} {reply : Unit}
    (h : World.Answers fails (.unmark kind id) w reply w') :
    w'.marker? kind id = none ∧ ∀ k i, ¬ (k = kind ∧ i = id) → w'.marker? k i = w.marker? k i := by
  refine ⟨(h.remarks kind id).1.of_takesOff rfl, fun k i hne => ?_⟩
  refine (h.remarks k i).1.unchanged ?_ ?_
  · rintro life' ⟨owner', heq⟩
    cases heq
  · intro htakes
    have hsame : Request.unmark kind id = .unmark k i := htakes
    cases hsame
    exact hne ⟨rfl, rfl⟩

end

/-! ## Turns -/

/-- The handles that were visited: their markers were asked for, one after the other. -/
def visitsOf (kind : SyncKind) (turns : List (Turn World)) : List HandleId :=
  turns.filterMap fun t =>
    match t.request with
    | .mark k id _ _ => if k = kind then some id else none
    | _ => none

theorem visitsOf_append (kind : SyncKind) (turns more : List (Turn World)) :
    visitsOf kind (turns ++ more) = visitsOf kind turns ++ visitsOf kind more :=
  List.filterMap_append

/-- Whether a request has nothing to do with any marker. -/
def Request.SparesAll (r : Request) : Prop :=
  ∀ id, r.Spares id

/-- Nobody was visited, and the markers are as they were. -/
structure Aside (kind : SyncKind) (s s' : Logged World) : Prop where
  visits : visitsOf kind s'.2 = visitsOf kind s.2
  markers : ∀ k id, s'.1.marker? k id = s.1.marker? k id
  time : s.1.time ≤ s'.1.time

theorem Request.SparesAll.not_marks {r : Request} (hr : r.SparesAll) (kind : SyncKind) (id : HandleId) :
    ¬ r.Marks kind id := by
  cases r with
  | mark k i owner life => exact fun hmarks => hr i rfl
  | unmark k i => exact fun hmarks => hr i rfl
  | _ => exact fun hmarks => hmarks

section

variable {α : Type} {f : Fates} {ends : Nat} {kind : SyncKind} {s : Logged World}

theorem aside_request {fails : StoreCall → Prop} {r : Request} {reply : r.Reply} {w' : World}
    (hr : r.SparesAll) (hans : World.Answers fails r s.1 reply w') :
    Aside kind s (w', s.2 ++ [⟨0, r, reply, s.1, w'⟩]) := by
  refine ⟨?_, fun k id => ?_, hans.time_le⟩
  · have hnone : visitsOf kind [⟨0, r, reply, s.1, w'⟩] = [] := by
      cases r with
      | mark k i owner life => exact absurd rfl (hr i)
      | _ => rfl
    rw [visitsOf_append, hnone, List.append_nil]
  · have hmarks := hr.not_marks k id
    exact (hans.remarks k id).1.unchanged (fun _ => Exchange.not_puts_of_not_marks hmarks)
      (Exchange.not_takesOff_of_not_marks hmarks)

theorem aside_of_asks (kind : SyncKind) {p : Program α} (h : p.Asks Request.SparesAll) :
    p.Ensures (.logged (f.Answers ends)) (fun _ s' => Aside kind s s') s := by
  refine h.logged ⟨rfl, fun _ _ => rfl, Nat.le_refl _⟩ fun r t reply w' hr ht hans => ?_
  have hnext : Aside kind t (w', t.2 ++ [⟨0, r, reply, t.1, w'⟩]) := aside_request hr hans.1
  exact ⟨hnext.visits.trans ht.visits, fun k id => (hnext.markers k id).trans (ht.markers k id),
    Nat.le_trans ht.time hnext.time⟩

/-- Work on a handle leaves all others as they are. -/
theorem others_of_asks {p : Program α} {i : HandleId} (h : p.Asks (Request.WorksOn kind i))
    (hs : s.1.store.Sound) :
    p.Ensures (.logged (f.Answers ends)) (fun _ s' => s'.1.store.Sound ∧
      ∀ id, i ≠ id → s'.1.view id = s.1.view id) s := by
  refine h.logged ⟨hs, fun _ _ => rfl⟩ fun r t reply w' hr ht hans => ?_
  refine ⟨World.Answers.sound hans.1 ht.1, fun id hne => ?_⟩
  exact (hans.1.view_of_worksOn ht.1 hr hne).trans (ht.2 id hne)

/-! ## Single visits -/

variable {held : SyncKind → HandleId → Option (CacheEntry String)} {topic : String}

/-- What a visit makes of the view of a handle, and how it is counted. A handle that somebody works on is
skipped. -/
def Fates.meets (f : Fates) (topic : String) (kind : SyncKind) (skip : Bool) (v : View) : Verdict × View :=
  match v.record with
  | some h => if skip then (.skipped, v) else f.visit topic h v kind
  | none => (.skipped, v)

/-- What a visit leaves behind. -/
structure Visited (f : Fates) (topic : String) (held : SyncKind → HandleId → Option (CacheEntry String))
    (ends : Nat) (kind : SyncKind) (id : HandleId) (s : Logged World) (result : Except InventoryError Unit)
    (s' : Logged World) : Prop where
  sound : s'.1.store.Sound
  visits : visitsOf kind s'.2 = visitsOf kind s.2 ++ [id]
  met : (Verdict.of result, (s'.1.view id).timeless) =
    f.meets topic kind (held kind id).isSome (s.1.view id).timeless
  others : ∀ other, id ≠ other → s'.1.view other = s.1.view other
  holds : s'.1.Holds held ends

namespace Inventory

theorem visits_whileMarked {m : Member} {h : Handle} {work : Action Unit} (hs : s.1.store.Sound)
    (hr : s.1.store.record? h.id = some h) (hheld : s.1.Holds held ends)
    (hasks : work.run.Asks (Request.WorksOn kind h.id))
    (hwork : ∀ w : World, s.1.Same w → work.run.Ensures (.fated f ends) (fun result w' =>
      (Verdict.of result, (w'.view h.id).timeless) =
        f.visit topic h.timeless (w.view h.id).timeless kind) w) :
    (whileMarked m kind h.id work).Ensures (.logged (f.Answers ends))
      (Visited f topic held ends kind h.id s) s := by
  have hrecord : (s.1.view h.id).timeless.record = some h.timeless := congrArg (Option.map _) hr
  rw [whileMarked, Program.ensures_bind]
  refine logged_request fun put w₁ hans => ?_
  have hquiet : (Request.mark kind h.id m.name m.markerLife).IsQuiet := trivial
  have h₁ : s.1.Same w₁ := ⟨(World.Answers.quiet hquiet hans.1).1, (World.Answers.quiet hquiet hans.1).2⟩
  have hasked : visitsOf kind (s.2 ++ [⟨0, .mark kind h.id m.name m.markerLife, put, s.1, w₁⟩]) =
      visitsOf kind s.2 ++ [h.id] := by
    rw [visitsOf_append]
    simp [visitsOf]
  have hs₁ : w₁.store.Sound := h₁.store ▸ hs
  cases put with
  | false =>
      -- Somebody works on the handle, and the marker will not expire before the end.
      rcases hans.1.marker_refused with ⟨hmarkers, e, hmarker, hlive⟩
      have hsome : held kind h.id = some e := by
        rw [← hheld kind h.id w₁.time hans.1.time_le hans.2.2, hmarker, Option.filter_some, if_pos hlive]
      refine ⟨hs₁, hasked, ?_, fun other _ => h₁.view_eq other, hheld.later hans.1.time_le hmarkers⟩
      rw [h₁.view_eq, Fates.meets, hrecord, hsome]
      rfl
  | true =>
      -- Nobody works on the handle. A marker that is left on it has expired already.
      rcases hans.1.marker_put with ⟨hunmarked, hothers⟩
      have hnone : held kind h.id = none := by
        rw [← hheld kind h.id w₁.time hans.1.time_le hans.2.2, Option.filter_eq_none_iff]
        intro e hmarker hlive
        rw [hunmarked e hmarker] at hlive
        cases hlive
      have hspares : work.run.Asks Request.SparesAll := hasks.mono fun _ hr _ => hr.spares
      refine ((((hwork w₁ h₁).logged).and (others_of_asks hasks hs₁)).and (aside_of_asks kind hspares)).bind ?_
      rintro result ⟨w₂, log⟩ ⟨⟨hmet, hs₂, hviews⟩, haside⟩
      rw [Program.ensures_bind]
      refine logged_request fun _ w₃ hans₃ => ?_
      have hquiet : (Request.unmark kind h.id).IsQuiet := trivial
      rcases World.Answers.quiet hquiet hans₃.1 with ⟨hstore₃, hpub₃⟩
      rcases hans₃.1.marker_off with ⟨hoff, hothers₃⟩
      refine ⟨hstore₃ ▸ hs₂, ?_, ?_, fun other hne => ?_, ?_⟩
      · rw [visitsOf_append, haside.visits, hasked]
        simp [visitsOf]
      · rw [view_congr hstore₃ hpub₃, hmet, h₁.view_eq, Fates.meets, hrecord, hnone]
        rfl
      · exact (view_congr hstore₃ hpub₃).trans ((hviews other hne).trans (h₁.view_eq other))
      · intro k i t hle hends
        by_cases hown : k = kind ∧ i = h.id
        · -- No marker of the handle lived before, and none is left.
          rcases hown with ⟨rfl, rfl⟩
          rw [hoff, hnone]
          rfl
        · have htime : s.1.time ≤ t := Nat.le_trans hans.1.time_le
            (Nat.le_trans haside.time (Nat.le_trans hans₃.1.time_le hle))
          rw [hothers₃ k i hown, haside.markers, hothers k i hown]
          exact hheld k i t htime hends

/-- A visit to a handle that was picked does what it is fated to do, whatever comes in between. -/
theorem visits_attempt {m : Member} {h : Handle} (hs : s.1.store.Sound)
    (hr : s.1.store.record? h.id = some h) (hdue : h.status.IsDue kind) (hheld : s.1.Holds held ends) :
    (attempt m kind h).Ensures (.logged (f.Answers ends))
      (Visited f m.topic held ends kind h.id s) s := by
  cases kind with
  | data =>
      refine visits_whileMarked hs hr hheld asks_syncData fun w h₁ => ?_
      exact visits_syncData (h₁.store ▸ hs) (h₁.store ▸ hr) hdue.1
  | modules =>
      refine visits_whileMarked hs hr hheld asks_syncModules fun w h₁ => ?_
      exact visits_syncModules (h₁.store ▸ hs) (h₁.store ▸ hr) hdue

end Inventory

/-! ## Rounds -/

/-- Whether there is a handle that is due for a kind of work. -/
def View.IsDue (kind : SyncKind) (v : View) : Prop :=
  ∃ h, v.record = some h ∧ h.status.IsDue kind

/-- Where a cycle is after it visited some handles, the last one first. -/
structure Round (f : Fates) (topic : String) (held : SyncKind → HandleId → Option (CacheEntry String))
    (ends : Nat) (kind : SyncKind) (start : HandleId → View) (visited : List HandleId) (s : Logged World) :
    Prop where
  sound : s.1.store.Sound
  nodup : visited.Nodup
  due : ∀ id ∈ visited, (start id).IsDue kind
  visits : visitsOf kind s.2 = visited.reverse
  views : ∀ id, (s.1.view id).timeless =
    if id ∈ visited then (f.meets topic kind (held kind id).isSome (start id)).2 else start id
  holds : s.1.Holds held ends

/-- How the visits are counted. -/
def Fates.report (f : Fates) (topic : String) (held : SyncKind → HandleId → Option (CacheEntry String))
    (kind : SyncKind) (start : HandleId → View) (visited : List HandleId) : CycleReport :=
  .ofVerdicts (visited.map fun id => (f.meets topic kind (held kind id).isSome (start id)).1)

variable {start : HandleId → View} {visited : List HandleId}

/-- The views do not tell in which order the handles were visited. -/
theorem Round.view_eq {ends' : Nat} {visited' : List HandleId} {s' : Logged World} {id : HandleId}
    (h : Round f topic held ends kind start visited s) (h' : Round f topic held ends' kind start visited' s')
    (hsame : visited'.Perm visited) : (s'.1.view id).timeless = (s.1.view id).timeless := by
  simp only [h.views, h'.views, hsame.mem_iff]

/-- Nor does the report. -/
theorem report_perm {visited' : List HandleId} (h : visited'.Perm visited) :
    f.report topic held kind start visited' = f.report topic held kind start visited :=
  CycleReport.ofVerdicts_perm (h.map _)

theorem isDue_timeless {v : View} : v.timeless.IsDue kind ↔ v.IsDue kind := by
  have hstatus : ∀ h : Handle, h.timeless.status.IsDue kind ↔ h.status.IsDue kind := by
    intro h
    cases kind <;> exact Iff.rfl
  constructor
  · rintro ⟨h, hr, hdue⟩
    rcases Option.map_eq_some_iff.1 hr with ⟨g, hg, rfl⟩
    exact ⟨g, hg, (hstatus g).1 hdue⟩
  · rintro ⟨h, hr, hdue⟩
    exact ⟨h.timeless, congrArg (Option.map _) hr, (hstatus h).2 hdue⟩

theorem round_pick (h : Round f topic held ends kind start visited s) :
    (pick kind visited).run.Ensures (.logged (f.Answers ends)) (fun picked s' =>
      Round f topic held ends kind start visited s' ∧ Picked kind visited s'.1.store picked) s := by
  have hspares : (pick kind visited).run.Asks Request.SparesAll :=
    asks_pick (fun _ _ => trivial) (fun _ _ => trivial) (fun _ _ => trivial) fun _ _ => trivial
  refine (((ensures_pick h.sound).fated.logged).and (aside_of_asks kind hspares)).mono ?_
  rintro picked s' ⟨⟨hsame, hpicked⟩, haside⟩
  refine ⟨⟨hsame.store ▸ h.sound, h.nodup, h.due, haside.visits.trans h.visits, fun id => ?_,
    h.holds.later haside.time haside.markers⟩, hsame.store.symm ▸ hpicked⟩
  rw [hsame.view_eq]
  exact h.views id

/-- One more handle is visited. -/
theorem round_visit {m : Member} {h : Handle} (hround : Round f m.topic held ends kind start visited s)
    (hr : s.1.store.record? h.id = some h) (hdue : h.status.IsDue kind) (hnew : h.id ∉ visited) :
    (attempt m kind h).Ensures (.logged (f.Answers ends)) (fun result s' =>
      Round f m.topic held ends kind start (h.id :: visited) s' ∧
        (f.report m.topic held kind start visited).record result =
          f.report m.topic held kind start (h.id :: visited)) s := by
  -- The visits so far were to other handles.
  have hstart : (s.1.view h.id).timeless = start h.id := by
    rw [hround.views, if_neg hnew]
  refine (visits_attempt hround.sound hr hdue hround.holds).mono fun result s' hvisited => ?_
  have hmet := hvisited.met
  rw [hstart] at hmet
  refine ⟨⟨hvisited.sound, List.nodup_cons.2 ⟨hnew, hround.nodup⟩, ?_, ?_, fun id => ?_, hvisited.holds⟩, ?_⟩
  · intro id hin
    rcases List.mem_cons.1 hin with rfl | hin
    · rw [← hstart, isDue_timeless]
      exact ⟨h, hr, hdue⟩
    · exact hround.due id hin
  · rw [hvisited.visits, hround.visits, List.reverse_cons]
  · by_cases hid : h.id = id
    · subst hid
      rw [if_pos List.mem_cons_self, ← hmet]
    · rw [hvisited.others id hid, hround.views]
      have hiff : id ∈ h.id :: visited ↔ id ∈ visited := by
        rw [List.mem_cons, or_iff_right fun heq : id = h.id => hid heq.symm]
      simp only [hiff]
  · rw [Fates.report, CycleReport.record_ofVerdicts, Fates.report, List.map_cons, ← hmet]

/-- A cycle with a bound that is large enough ends when every handle that was due is visited. -/
theorem rounds_visitAll {m : Member} {most bound : Nat}
    (hmost : ∀ ids : List HandleId, ids.Nodup → (∀ id ∈ ids, (start id).IsDue kind) → ids.length ≤ most)
    (hbound : most < bound + visited.length) (hround : Round f m.topic held ends kind start visited s) :
    (visitAll (pick kind) (attempt m kind) bound visited (f.report m.topic held kind start visited)).Ensures
      (.logged (f.Answers ends)) (fun report s' => ∃ all, Round f m.topic held ends kind start all s' ∧
        report = f.report m.topic held kind start all ∧ ∀ id, (start id).IsDue kind → id ∈ all) s := by
  induction bound generalizing visited s with
  | zero =>
      have hle := hmost visited hround.nodup hround.due
      omega
  | succ bound ih =>
      rw [visitAll]
      refine (round_pick hround).bind ?_
      rintro (e | _ | h) s₁ ⟨hround₁, hpicked⟩
      · exact hpicked.elim
      · refine ⟨visited, hround₁, rfl, fun id hdue => ?_⟩
        -- A handle that was not visited is as it was at the start, and would have been picked.
        by_contra hout
        have hview : (s₁.1.view id).timeless = start id := by
          rw [hround₁.views, if_neg hout]
        rw [← hview, isDue_timeless] at hdue
        rcases hdue with ⟨h, hr, hdue⟩
        have hid : h.id = id := hround₁.sound.id_of_record? hr
        subst hid
        exact hout (hpicked h hr hdue)
      · rcases hpicked with ⟨hr, hdue, hnew⟩
        refine (round_visit hround₁ hr hdue hnew).bind ?_
        rintro result s₂ ⟨hround₂, hreport⟩
        rw [hreport]
        exact ih (by rw [List.length_cons]; omega) hround₂

/-- A larger bound makes no difference. -/
theorem agree_visitAll {m : Member} {most bound more : Nat} {report : CycleReport}
    (hmost : ∀ ids : List HandleId, ids.Nodup → (∀ id ∈ ids, (start id).IsDue kind) → ids.length ≤ most)
    (hbound : most < bound + visited.length) (hmore : bound ≤ more)
    (hround : Round f m.topic held ends kind start visited s) :
    Program.Agree (.logged (f.Answers ends)) (visitAll (pick kind) (attempt m kind) bound visited report)
      (visitAll (pick kind) (attempt m kind) more visited report) s := by
  induction bound generalizing visited s more report with
  | zero =>
      have hle := hmost visited hround.nodup hround.due
      omega
  | succ bound ih =>
      obtain ⟨more, rfl⟩ : ∃ n, more = n + 1 := ⟨more - 1, by omega⟩
      rw [visitAll, visitAll]
      refine (round_pick hround).agree ?_
      rintro (e | _ | h) s₁ ⟨hround₁, hpicked⟩
      · exact hpicked.elim
      · exact .done
      · rcases hpicked with ⟨hr, hdue, hnew⟩
        refine (round_visit hround₁ hr hdue hnew).agree ?_
        rintro result s₂ ⟨hround₂, -⟩
        exact ih (by rw [List.length_cons]; omega) (Nat.le_of_succ_le_succ hmore) hround₂

end
end CmInventory
