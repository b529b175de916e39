import CmInventory.Proofs.Inventory.Changes
import CmInventory.Proofs.Program.Interleaving

/-!
# Accesses to the status of one handle

What members do to the status of a handle is a list of accesses: each one read a status, or wrote one while
the handle was in an expected state. The discipline `watching` notes the accesses of each member. A change
that reports success made at most two of them (`Change.Performed`), and the accesses of all members in the
order in which they came lead from the status at the start to the one at the end (`Timeline`).
-/

namespace CmInventory

/-- What a request did with the status of a handle. -/
inductive Access
  | read (status : HandleStatus)
  | write (expected : Lifecycle) (status : HandleStatus)

/-- Whether an access wrote. -/
def Access.isWrite : Access → Bool
  | .read _ => false
  | .write .. => true

/-- The access that a request was, as its reply tells. A request that failed is none, and neither is a
write that the handle was in another state for. -/
def accessOf (id : HandleId) : (r : Request) → r.Reply → List Access
  | .store (.status key), .ok s => if key = id then [.read s] else []
  | .store (.saveStatusIf key expected s), .ok true => if key = id then [.write expected s] else []
  | _, _ => []

/-- Whether a request writes the status of handles only while they are in an expected state, and nothing
else of them. -/
def Request.IsCareful : Request → Prop
  | .store (.status _) | .store (.saveStatusIf ..) | .store (.deleteData _) => True
  | .store _ => False
  | _ => True

theorem Request.IsQuiet.careful {r : Request} (h : r.IsQuiet) : r.IsCareful := by
  cases r with
  | store call => exact h.elim
  | _ => trivial

theorem accessOf_quiet {id : HandleId} {r : Request} (h : r.IsQuiet) (reply : r.Reply) :
    accessOf id r reply = [] := by
  cases r with
  | store call => exact h.elim
  | _ => rfl

/-! ## From one status to another -/

/-- The accesses are possible one after the other from a status, and lead to another one. -/
def Timeline (found : Except StoreError HandleStatus) :
    List Access → Except StoreError HandleStatus → Prop
  | [], last => last = found
  | .read s :: rest, last => found = .ok s ∧ Timeline found rest last
  | .write expected s :: rest, last =>
      (∃ t, found = .ok t ∧ t.lifecycle = expected) ∧ Timeline (.ok s) rest last

theorem timeline_append {found last : Except StoreError HandleStatus} {xs ys : List Access} :
    Timeline found (xs ++ ys) last ↔ ∃ mid, Timeline found xs mid ∧ Timeline mid ys last := by
  induction xs generalizing found with
  | nil => simp [Timeline]
  | cons act xs ih => cases act <;> simp [Timeline, ih, and_assoc]

/-- It does not matter which of two reads comes first. -/
theorem timeline_read_read {found last : Except StoreError HandleStatus} {s t : HandleStatus}
    {rest : List Access} :
    Timeline found (.read s :: .read t :: rest) last ↔
      Timeline found (.read t :: .read s :: rest) last :=
  and_left_comm

/-- A careful request leads from the status before it to the one after it. -/
theorem timeline_of_answers {id : HandleId} {r : Request} {w w' : World} {reply : r.Reply}
    (hr : r.IsCareful) (hs : w.store.Sound) (h : World.Answers (fun _ => True) r w reply w') :
    Timeline (w.store.status id) (accessOf id r reply) (w'.store.status id) := by
  have hsame : w'.store = w.store → Timeline (w.store.status id) [] (w'.store.status id) := by
    intro hstore
    rw [hstore]
    exact rfl
  cases r with
  | store call =>
      rcases World.Answers.store h with ⟨-, ⟨e, -, rfl, hstore⟩ | hperform⟩
      -- A call that failed is no access, and changed nothing.
      · cases call <;> exact hsame hstore
      · cases call with
        | status key =>
            rcases Prod.mk.inj hperform with ⟨hreply, hstore⟩
            cases reply with
            | error e => exact hsame hstore
            | ok s =>
                by_cases hkey : key = id
                · subst hkey
                  rw [accessOf, if_pos rfl, hstore]
                  exact ⟨hreply.symm, rfl⟩
                · rw [accessOf, if_neg hkey]
                  exact hsame hstore
        | saveStatusIf key expected s =>
            rcases hs.saveStatusIf_cases hperform with ⟨g, hr, hlife, rfl, hstore⟩ | ⟨hreply, hstore⟩
            · rw [hstore, hs.status_replaced hr]
              by_cases hkey : key = id
              · subst hkey
                rw [accessOf, if_pos rfl, if_pos rfl]
                refine ⟨⟨g.status, ?_, hlife⟩, rfl⟩
                rw [hs.status_eq, hr]
              · rw [accessOf, if_neg hkey, if_neg hkey]
                exact rfl
            · have hnone : accessOf id (.store (.saveStatusIf key expected s)) reply = [] := by
                cases reply with
                | error e => rfl
                | ok written =>
                    cases written with
                    | false => rfl
                    | true => exact (hreply rfl).elim
              rw [hnone]
              exact hsame hstore
        | deleteData key =>
            rcases Prod.mk.inj hperform with ⟨-, hstore⟩
            rw [hstore]
            exact rfl
        | _ => exact hr.elim
  | publish event => exact hsame (World.Answers.publish h).1
  | _ => exact hsame (World.Answers.quiet (by trivial) h).1

/-! ## Members that are watched -/

/-- The discipline of members that change statuses carefully. The view of a member are its accesses to one
handle. -/
def watching (id : HandleId) : Discipline (List Access) (World.Answers fun _ => True) where
  start := []
  note r reply acts := acts ++ accessOf id r reply
  may r _ := r.IsCareful
  told _ _ := True
  orderly _ := True
  holds w := w.store.Sound
  orderly_start := trivial
  orderly_note _ _ _ _ := trivial
  keeps _ hs hans := ⟨hans.sound hs, trivial⟩

variable {id : HandleId} {acts : List Access}

theorem watched_request {r : Request} {Q : r.Reply → List Access → Prop} (hr : r.IsCareful)
    (h : ∀ reply, Q reply (acts ++ accessOf id r reply)) :
    (Program.request r).Ensures (watching id).own Q acts :=
  (watching id).own_request hr fun reply _ => h reply

theorem watched_quiet {r : Request} {Q : r.Reply → List Access → Prop} (hr : r.IsQuiet)
    (h : ∀ reply, Q reply acts) : (Program.request r).Ensures (watching id).own Q acts := by
  refine watched_request hr.careful ?_
  intro reply
  rw [accessOf_quiet hr, List.append_nil]
  exact h reply

namespace Inventory

theorem watched_announce {topic : String} {key : HandleId} {old : Option Lifecycle}
    {new : Lifecycle} :
    (announce topic key old new).Ensures (watching id).own (fun _ acts' => acts' = acts) acts := by
  refine ensures_announce_iff.2 (watched_quiet trivial ?_)
  intro eventId
  refine watched_quiet trivial ?_
  intro now
  refine watched_request trivial ?_
  intro reply
  exact List.append_nil acts

theorem watched_saveFrom {old : Lifecycle} {status : HandleStatus} :
    (saveFrom id old status).run.Ensures (watching id).own
      (fun result acts' => result = .ok () → acts' = acts ++ [.write old status]) acts := by
  refine ensures_saveFrom_iff.2 (watched_request trivial ?_)
  intro reply
  cases reply with
  | error e =>
      intro h
      cases h
  | ok written =>
      cases written with
      | false =>
          intro h
          cases h
      | true =>
          intro _
          rw [accessOf, if_pos rfl]

end Inventory

/-! ## The accesses of a change -/

/-- The accesses that a change may have made when it reports success. -/
inductive Change.Performed (c : Change) : List Access → Prop
  | unseen (hnext : ∀ s, c.next? s = none) (haccepts : ∀ found, c.Accepts found) : c.Performed []
  | seen {s : HandleStatus} (hnext : c.next? s = none) (haccepts : c.Accepts (.ok s)) :
      c.Performed [.read s]
  | written {s : HandleStatus} {next : Instant → HandleStatus} (now : Instant)
      (hnext : c.next? s = some next) :
      c.Performed [.read s, .write s.lifecycle (next now)]

namespace Inventory

theorem watched_move {topic : String} {snapshot : Handle} {target : Lifecycle} :
    (applyEntry topic { snapshot with id := id } target).Ensures (watching id).own
      (fun result acts => result.isSuccess = true →
        (Change.move topic snapshot target).Performed acts) [] := by
  rw [applyEntry]
  by_cases hdeleted : target = .deleted
  · subst hdeleted
    rw [run_move_deleted]
    by_cases hcan : snapshot.lifecycle.canMoveTo .deleted = true
    · have hend : completeDeletion { snapshot with id := id } = .ok snapshot.lifecycle :=
        if_pos hcan
      rw [hend]
      refine watched_announce.bind ?_
      rintro _ _ rfl _
      refine .unseen (fun s => by simp [Change.next?]) fun found => ?_
      simpa [Change.Accepts] using hcan
    · have hend : completeDeletion { snapshot with id := id } =
          .error (.illegalTransition id snapshot.lifecycle .deleted) := if_neg hcan
      rw [hend]
      intro hsuccess
      cases hsuccess
  rw [Program.ensures_bind]
  refine (ensures_move_iff hdeleted).2 (watched_request trivial ?_)
  intro reply
  cases reply with
  | error e =>
      intro hsuccess
      cases hsuccess
  | ok s =>
      rw [accessOf, if_pos rfl]
      refine ⟨?stays, ?refused, ?unexplained, ?writes⟩
      case stays =>
        intro hlife _
        refine .seen (if_pos (Or.inr (Or.inl hlife))) ?_
        rw [Change.Accepts, if_neg hdeleted]
        exact ⟨s, rfl, Or.inl hlife⟩
      case refused =>
        intro _ _ hsuccess
        cases hsuccess
      case unexplained =>
        intro _ _ e _ hsuccess
        cases hsuccess
      case writes =>
        intro hne hcan reason hreason
        have hid := toOption_nextReason_id snapshot id s target
        rw [hreason] at hid
        refine watched_quiet trivial ?_
        intro now
        refine watched_saveFrom.mono ?_
        intro result acts hacts
        cases result with
        | error e =>
            intro hsuccess
            cases hsuccess
        | ok _ =>
            refine watched_announce.bind ?_
            rintro _ _ rfl _
            rw [hacts rfl]
            have hoption : (nextReason snapshot s target).toOption = some reason := hid.symm
            exact .written now (Change.next?_move topic hdeleted hne hcan hoption)

theorem watched_markSynchronized :
    (markSynchronized id).run.Ensures (watching id).own
      (fun result acts => result = .ok () → Change.markSynchronized.Performed acts) [] := by
  refine ensures_markSynchronized_iff.2 (watched_request trivial ?_)
  intro reply
  cases reply with
  | error e =>
      intro h
      cases h
  | ok s =>
      rw [accessOf, if_pos rfl]
      refine ⟨?unready, ?writes⟩
      case unready =>
        intro _ h
        cases h
      case writes =>
        intro hready
        refine watched_quiet trivial ?_
        intro now
        refine watched_saveFrom.mono ?_
        intro result acts hacts hok
        rw [hacts hok, ← hready]
        exact .written now (if_pos hready)

theorem watched_setDataSync {enabled : Bool} :
    (setDataSync id enabled).run.Ensures (watching id).own
      (fun result acts => result = .ok () → (Change.setDataSync enabled).Performed acts) [] := by
  refine ensures_setDataSync_iff.2 (watched_request trivial ?_)
  intro reply
  cases reply with
  | error e =>
      intro h
      cases h
  | ok s =>
      rw [accessOf, if_pos rfl]
      refine ⟨?already, ?unready, ?writes⟩
      case already => exact fun hsame _ => .seen (if_pos (Or.inl hsame)) ⟨s, rfl, Or.inl hsame⟩
      case unready =>
        intro _ _ h
        cases h
      case writes =>
        intro hdiffers hready
        refine watched_quiet trivial ?_
        intro now
        refine watched_saveFrom.mono ?_
        intro result acts hacts
        cases result with
        | error e =>
            intro h
            cases h
        | ok _ =>
            have hperformed : (Change.setDataSync enabled).Performed acts := by
              rw [hacts rfl, ← hready]
              exact .written now (by simp [Change.next?, hdiffers, hready])
            refine ensures_dropData_iff.2 ?_
            split
            · refine watched_request trivial ?_
              intro reply _
              have hnone : accessOf id (.store (.deleteData id)) reply = [] := rfl
              rw [hnone, List.append_nil]
              exact hperformed
            · exact fun _ => hperformed

/-- What a change that reports success did with the status of its handle. -/
theorem watched_change {c : Change} :
    (c.operation id).program.Ensures (watching id).own
      (fun result acts => result.isSuccess = true → c.Performed acts) [] := by
  cases c with
  | move topic snapshot target =>
      have hbatch : (applyBatch topic [({ snapshot with id := id }, target)]).Ensures
          (watching id).own (fun result acts => result.isSuccess = true →
            (Change.move topic snapshot target).Performed acts) [] := by
        rw [applyBatch]
        refine watched_move.bind ?_
        intro here acts hperformed hsuccess
        refine hperformed ?_
        simpa [BatchResult.append, BatchResult.empty, BatchResult.isSuccess] using hsuccess
      exact hbatch.bind fun _ _ h => h
  | markSynchronized =>
      refine watched_markSynchronized.bind ?_
      intro result acts hperformed hsuccess
      cases result with
      | error e => cases hsuccess
      | ok _ => exact hperformed rfl
  | setDataSync enabled =>
      refine watched_setDataSync.bind ?_
      intro result acts hperformed hsuccess
      cases result with
      | error e => cases hsuccess
      | ok _ => exact hperformed rfl

end Inventory

/-! ## Accesses of two members -/

/-- The accesses of two members, each marked with its member, are those of one and those of the other, each
in its order. -/
inductive Shuffle (i j : Nat) : List Access → List Access → List (Nat × Access) → Prop
  | nil : Shuffle i j [] [] []
  | left {xs ys : List Access} {zs : List (Nat × Access)} (x : Access) (rest : Shuffle i j xs ys zs) :
      Shuffle i j (x :: xs) ys ((i, x) :: zs)
  | right {xs ys : List Access} {zs : List (Nat × Access)} (y : Access)
      (rest : Shuffle i j xs ys zs) : Shuffle i j xs (y :: ys) ((j, y) :: zs)

variable {i j : Nat} {xs ys : List Access} {zs : List (Nat × Access)}

theorem Shuffle.swap (h : Shuffle i j xs ys zs) : Shuffle j i ys xs zs := by
  induction h with
  | nil => exact .nil
  | left x rest ih => exact .right x ih
  | right y rest ih => exact .left y ih

theorem Shuffle.left_append (as : List Access) (h : Shuffle i j xs ys zs) :
    Shuffle i j (as ++ xs) ys (as.map (fun act => (i, act)) ++ zs) := by
  induction as with
  | nil => exact h
  | cons a as ih => exact .left a ih

theorem Shuffle.eq_of_nil (h : Shuffle i j [] ys zs) : zs = ys.map fun act => (j, act) := by
  generalize hxs : ([] : List Access) = xs at h
  induction h with
  | nil => rfl
  | left x rest ih => cases hxs
  | right y rest ih => rw [List.map_cons, ih hxs]

theorem Shuffle.mem_left (hij : i ≠ j) (h : Shuffle i j xs ys zs) {act : Access}
    (hact : (i, act) ∈ zs) : act ∈ xs := by
  induction h with
  | nil => cases hact
  | left x rest ih =>
      rcases List.mem_cons.1 hact with heq | hact
      · cases heq
        exact List.mem_cons_self
      · exact List.mem_cons_of_mem _ (ih hact)
  | right y rest ih =>
      rcases List.mem_cons.1 hact with heq | hact
      · cases heq
        exact (hij rfl).elim
      · exact ih hact

/-- The accesses that turns were, each marked with the member. -/
def accesses (id : HandleId) (turns : List (Turn World)) : List (Nat × Access) :=
  turns.flatMap fun t => (accessOf id t.request t.reply).map fun act => (t.member, act)

theorem accesses_snoc (id : HandleId) (turns : List (Turn World)) (t : Turn World) :
    (accesses id (turns ++ [t])).map (·.2) =
      (accesses id turns).map (·.2) ++ accessOf id t.request t.reply := by
  simp [accesses, Function.comp_def]

theorem view_cons (id : HandleId) (t : Turn World) (turns : List (Turn World)) :
    (watching id).view (t :: turns) =
      accessOf id t.request t.reply ++ (watching id).view turns := by
  -- Generalized over what was seen before.
  have hfold : ∀ (before : List Access) (ts : List (Turn World)),
      ts.foldl (fun view t => (watching id).note t.request t.reply view) before =
        before ++ (watching id).view ts := by
    intro before ts
    induction ts generalizing before with
    | nil => exact (List.append_nil before).symm
    | cons t ts ih =>
        have hfirst := ih (accessOf id t.request t.reply)
        rw [List.foldl_cons, ih]
        change (before ++ accessOf id t.request t.reply) ++ _ = before ++ _
        rw [List.append_assoc]
        exact congrArg (before ++ ·) hfirst.symm
  exact hfold (accessOf id t.request t.reply) turns

/-- The accesses of two members are a shuffle of what each of them sees. -/
theorem shuffle_accesses {id : HandleId} {turns : List (Turn World)}
    (h : ∀ t ∈ turns, t.member < 2) :
    Shuffle 0 1 ((watching id).view (turnsOf 0 turns)) ((watching id).view (turnsOf 1 turns))
      (accesses id turns) := by
  induction turns with
  | nil => exact .nil
  | cons t turns ih =>
      have hrest := ih fun t' ht' => h t' (List.mem_cons_of_mem _ ht')
      have hlt := h t List.mem_cons_self
      have hmember : t.member = 0 ∨ t.member = 1 := by omega
      have hall : accesses id (t :: turns) =
          (accessOf id t.request t.reply).map (fun act => (t.member, act)) ++ accesses id turns := by
        rw [accesses, List.flatMap_cons, accesses]
      rcases hmember with hzero | hone
      · have hown : turnsOf 0 (t :: turns) = t :: turnsOf 0 turns := by simp [turnsOf, hzero]
        have hother : turnsOf 1 (t :: turns) = turnsOf 1 turns := by simp [turnsOf, hzero]
        rw [hown, hother, view_cons, hall, hzero]
        exact hrest.left_append _
      · have hown : turnsOf 1 (t :: turns) = t :: turnsOf 1 turns := by simp [turnsOf, hone]
        have hother : turnsOf 0 (t :: turns) = turnsOf 0 turns := by simp [turnsOf, hone]
        rw [hown, hother, view_cons, hall, hone]
        exact (hrest.swap.left_append _).swap

/-- Careful members lead from the status at the start to the one at the end. -/
theorem Interleaved.timeline {α : Type} {id : HandleId} {ps qs : List (Program α)} {w₀ w : World}
    {turns : List (Turn World)} (h : Interleaved (World.Answers fun _ => True) ps w₀ turns qs w)
    (hfollows : ∀ t ∈ turns, t.Follows (watching id)) :
    Timeline (w₀.store.status id) ((accesses id turns).map (·.2)) (w.store.status id) := by
  refine h.along (P := fun turns w =>
    Timeline (w₀.store.status id) ((accesses id turns).map (·.2)) (w.store.status id)) rfl ?_
  intro before t ht hbefore
  have hturn := hfollows t ht
  rcases hturn.allowed with ⟨_, hcareful⟩
  rw [accesses_snoc, timeline_append]
  exact ⟨_, hbefore, timeline_of_answers hcareful hturn.before hturn.answered⟩

/-- Whether the first member wrote after the second one had read and before it wrote. -/
def WritesWithin (i j : Nat) (acts : List (Nat × Access)) : Prop :=
  [(j, false), (i, true), (j, true)].Sublist (acts.map fun act => (act.1, act.2.isWrite))

/-- If one member wrote within the other, then both wrote. -/
theorem WritesWithin.both_write (h : WritesWithin i j zs) :
    (∃ act, act.isWrite = true ∧ (i, act) ∈ zs) ∧ ∃ act, act.isWrite = true ∧ (j, act) ∈ zs := by
  have hmem : ∀ k, (k, true) ∈ [(j, false), (i, true), (j, true)] →
      ∃ act, act.isWrite = true ∧ (k, act) ∈ zs := by
    intro k hk
    rcases List.mem_map.1 (h.subset hk) with ⟨⟨k', act⟩, hact, heq⟩
    rcases Prod.mk.inj heq with ⟨rfl, hwrite⟩
    exact ⟨act, hwrite, hact⟩
  exact ⟨hmem i (by simp), hmem j (by simp)⟩

/-- Nothing is written within another change if one member only reads. -/
theorem Shuffle.not_within (hij : i ≠ j) (hz : Shuffle i j xs ys zs)
    (hreads : ∀ act ∈ xs, act.isWrite = false) : ¬ WritesWithin i j zs ∧ ¬ WritesWithin j i zs := by
  have hnone : ¬ ∃ act, act.isWrite = true ∧ (i, act) ∈ zs := by
    rintro ⟨act, hwrite, hact⟩
    have hread := hreads act (hz.mem_left hij hact)
    rw [hwrite] at hread
    cases hread
  exact ⟨fun h => hnone h.both_write.1, fun h => hnone h.both_write.2⟩

end CmInventory
