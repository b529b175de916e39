import CmInventory.Event.Basic
import Mathlib.Data.List.Chain

/-!
# Lives of handles

What the events of one handle tell when they are read in the order in which they were published. A life
starts when the handle is advised and goes on move by move; a handle that was deleted may be advised again,
which starts another life.

`AreLives` is stated by cutting the events into lives. Its step is `AreLives.snoc`: an event that starts
in the state that was told last (`toldState`) and makes a move that is allowed there may come next.
-/

namespace CmInventory

/-- The lifecycle events of a handle in the order in which they were published. -/
def movesOf (id : HandleId) (events : List Published) : List LifecycleEvent :=
  events.filterMap fun p =>
    match p.event with
    | .lifecycle e => if e.handleId = id then some e else none
    | .outcome _ => none

theorem movesOf_append (id : HandleId) (events more : List Published) :
    movesOf id (events ++ more) = movesOf id events ++ movesOf id more :=
  List.filterMap_append

theorem movesOf_lifecycle (id : HandleId) (topic key : String) (e : LifecycleEvent) :
    movesOf id [⟨topic, key, .lifecycle e⟩] = if e.handleId = id then [e] else [] := by
  by_cases h : e.handleId = id <;> simp [movesOf, h]

/-- Whether a move may come right after another one of the same life. -/
def LifecycleEvent.FollowedBy (e f : LifecycleEvent) : Prop :=
  f.oldState = some e.newState ∧ e.newState.canMoveTo f.newState = true

/-- The moves of one life: the handle is advised, and every later move starts where the one before it
ended and is allowed. -/
structure IsLife (moves : List LifecycleEvent) : Prop where
  birth : ∃ e, moves.head? = some e ∧ e.oldState = none ∧ e.newState = .advised
  chain : moves.IsChain LifecycleEvent.FollowedBy

/-- Where the last move led. -/
def lastState (moves : List LifecycleEvent) : Option Lifecycle :=
  moves.getLast?.map (·.newState)

/-- The moves are lives one after the other, and all of them but the last ended in deleted. -/
def AreLives (moves : List LifecycleEvent) : Prop :=
  ∃ lives : List (List LifecycleEvent), moves = lives.flatten ∧ (∀ life ∈ lives, IsLife life) ∧
    ∀ life ∈ lives.dropLast, lastState life = some .deleted

/-- The state of a handle as its moves tell it: there is none before it is advised and after it was
deleted. -/
def toldState (moves : List LifecycleEvent) : Option Lifecycle :=
  (lastState moves).filter (· ≠ .deleted)

/-- The state that is told by a move into the given one. -/
def Lifecycle.told (s : Lifecycle) : Option Lifecycle :=
  if s = .deleted then none else some s

/-- Whether a handle of which a state is told may move into another one. -/
def MayBecome (told : Option Lifecycle) (new : Lifecycle) : Prop :=
  match told with
  | none => new = .advised
  | some s => s.canMoveTo new = true

/-! ## One more move -/

theorem lastState_snoc (moves : List LifecycleEvent) (e : LifecycleEvent) :
    lastState (moves ++ [e]) = some e.newState := by
  simp [lastState]

theorem toldState_snoc (moves : List LifecycleEvent) (e : LifecycleEvent) :
    toldState (moves ++ [e]) = e.newState.told := by
  simp [toldState, lastState_snoc, Lifecycle.told, Option.filter]

theorem toldState_eq_none {moves : List LifecycleEvent} :
    toldState moves = none ↔ moves = [] ∨ lastState moves = some .deleted := by
  rcases List.eq_nil_or_concat' moves with rfl | ⟨init, e, rfl⟩
  · simp [toldState, lastState]
  · simp [toldState_snoc, lastState_snoc, Lifecycle.told]

theorem toldState_eq_some {moves : List LifecycleEvent} {s : Lifecycle} :
    toldState moves = some s ↔ lastState moves = some s ∧ s ≠ .deleted := by
  simp [toldState, Option.filter_eq_some_iff]

theorem IsLife.ne_nil {life : List LifecycleEvent} (h : IsLife life) : life ≠ [] := by
  rintro rfl
  rcases h.birth with ⟨e, he, -⟩
  cases he

theorem isLife_birth {e : LifecycleEvent} (hold : e.oldState = none) (hnew : e.newState = .advised) :
    IsLife [e] :=
  ⟨⟨e, rfl, hold, hnew⟩, .singleton e⟩

theorem IsLife.snoc {life : List LifecycleEvent} (h : IsLife life) {s : Lifecycle}
    (hlast : lastState life = some s) {e : LifecycleEvent} (hold : e.oldState = some s)
    (hmove : s.canMoveTo e.newState = true) : IsLife (life ++ [e]) := by
  rcases h.birth with ⟨b, hb, hbirth⟩
  refine ⟨⟨b, ?_, hbirth⟩, ?_⟩
  · rw [List.head?_append, hb]
    rfl
  · refine h.chain.append (.singleton e) ?_
    intro f hf g hg
    obtain rfl : e = g := by simpa using hg
    have hs : f.newState = s := by simpa [lastState, Option.mem_def.1 hf] using hlast
    exact ⟨by rw [hs, hold], by rw [hs, hmove]⟩

theorem lastState_flatten_concat {lives : List (List LifecycleEvent)} {life : List LifecycleEvent}
    (h : life ≠ []) : lastState (lives ++ [life]).flatten = lastState life := by
  rcases (List.eq_nil_or_concat' life).resolve_left h with ⟨init, e, rfl⟩
  simp only [List.flatten_append, List.flatten_cons, List.flatten_nil, List.append_nil,
    ← List.append_assoc, lastState_snoc]

/-- The next move starts in the state that was told last. If none is told, it starts another life, and
otherwise it goes on with the last one. -/
theorem AreLives.snoc {moves : List LifecycleEvent} (h : AreLives moves) {e : LifecycleEvent}
    (hold : e.oldState = toldState moves) (hnew : MayBecome (toldState moves) e.newState) :
    AreLives (moves ++ [e]) := by
  rcases h with ⟨lives, rfl, hlife, hended⟩
  cases htold : toldState lives.flatten with
  -- Nothing is told: the last life is over, or there was none.
  | none =>
      rw [htold] at hold hnew
      refine ⟨lives ++ [[e]], by simp, ?_, ?_⟩
      · intro life hmem
        rcases List.mem_append.1 hmem with hmem | hmem
        · exact hlife life hmem
        · rw [List.mem_singleton.1 hmem]
          exact isLife_birth hold hnew
      · rw [List.dropLast_concat]
        rcases List.eq_nil_or_concat' lives with rfl | ⟨init, last, rfl⟩
        · simp
        · have hne := (hlife last (by simp)).ne_nil
          have hdeleted : lastState last = some .deleted := by
            rcases toldState_eq_none.1 htold with hnil | hdel
            · simp [hne] at hnil
            · rwa [lastState_flatten_concat hne] at hdel
          intro life hmem
          rcases List.mem_append.1 hmem with hmem | hmem
          · exact hended life (by simpa using hmem)
          · rw [List.mem_singleton.1 hmem]
            exact hdeleted
  -- A state is told: the last life is not over.
  | some s =>
      rw [htold] at hold hnew
      rcases toldState_eq_some.1 htold with ⟨hlast, -⟩
      rcases List.eq_nil_or_concat' lives with rfl | ⟨init, last, rfl⟩
      · simp [lastState] at hlast
      · have hlive := hlife last (by simp)
        rw [lastState_flatten_concat hlive.ne_nil] at hlast
        refine ⟨init ++ [last ++ [e]], by simp, ?_, ?_⟩
        · intro life hmem
          rcases List.mem_append.1 hmem with hmem | hmem
          · exact hlife life (by simp [hmem])
          · rw [List.mem_singleton.1 hmem]
            exact hlive.snoc hlast hold hnew
        · intro life hmem
          rw [List.dropLast_concat] at hmem
          exact hended life (by simpa using hmem)

theorem areLives_nil : AreLives [] :=
  ⟨[], rfl, by simp, by simp⟩

end CmInventory
