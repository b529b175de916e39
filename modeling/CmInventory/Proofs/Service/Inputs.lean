import CmInventory.Proofs.Consolidation.Runs
import CmInventory.Proofs.Service.ReadBack
import CmInventory.Service.Basic
import Mathlib.Data.Set.List

/-!
# A service and what reaches it

A service is told of forwarded subscriptions, is given answers, and waits. What an input amounts to is a
`Deed`; a body that cannot be used amounts to none. An input is taken in two parts: its deed is done
(`Service.act`), and then all waits end that are due (`Service.performDue_eq`).
-/

namespace CmInventory

open Inventory

/-- The key of the subscription that was forwarded. -/
def ForwardNotice.key (n : ForwardNotice) : String :=
  subscriptionKey n.clientId n.subscriptionName

namespace Service

variable {s : Service}

/-- What reaches a service. -/
inductive Input
  | forwarded (mediaType : Option String) (body : String)
  | answered (mediaType : Option String) (body : String)
  | wait (length : Interval)

/-- What an input amounts to. -/
inductive Deed
  | forward (notice : ForwardNotice)
  | answer (a : PluginAnswer)
  | wait (length : Interval)

namespace Input

def forwardedRequest (mediaType : Option String) (body : String) : ServiceRequest :=
  ⟨"POST", "/api/v1/subscriptions/forwarded", mediaType, body⟩

def answeredRequest (mediaType : Option String) (body : String) : ServiceRequest :=
  ⟨"POST", "/api/v1/subscriptions/responses", mediaType, body⟩

/-- The deed of an input, unless its body cannot be used. -/
def deed? : Input → Option Deed
  | .forwarded mediaType body =>
      (decodeBody ForwardNotice.decoder (forwardedRequest mediaType body)).toOption.map .forward
  | .answered mediaType body =>
      (decodeBody PluginAnswer.decoder (answeredRequest mediaType body)).toOption.map .answer
  | .wait length => some (.wait length)

/-- The input that forwards a notice. -/
def ofNotice (n : ForwardNotice) : Input :=
  .forwarded (some "application/json") n.toJson.render

theorem deed?_ofNotice (n : ForwardNotice) : (ofNotice n).deed? = some (.forward n) := by
  have hjson : MediaType.isJson "application/json" = true := by decide
  rw [ofNotice, deed?, forwardedRequest, decodeBody]
  simp only [Option.map_some, Option.getD_some, hjson, Bool.not_true]
  rw [ForwardNotice.lossless.decode_render (by decide) n]
  rfl

end Input

/-- The service after an input. -/
def feed (c : Circumstances) (s : Service) : Input → Service
  | .forwarded mediaType body => (s.handle c (Input.forwardedRequest mediaType body)).2
  | .answered mediaType body => (s.handle c (Input.answeredRequest mediaType body)).2
  | .wait length => s.advance c length

/-- The service after inputs from its start on. -/
def serve (c : Circumstances) (config : Config) (inputs : List Input) : Service :=
  inputs.foldl (feed c) (start config)

theorem serve_snoc (c : Circumstances) (config : Config) (inputs : List Input) (i : Input) :
    serve c config (inputs ++ [i]) = (serve c config inputs).feed c i := by
  simp [serve]

/-- What a deed does, before anything that is due. -/
def act (c : Circumstances) (s : Service) : Option Deed → Service
  | some (.forward n) => s.acceptForward c n
  | some (.answer a) => (s.run c (Inventory.answer s.consolidation a).run).2
  | some (.wait length) => { s with world := s.world.advance length }
  | none => s

theorem route?_forwarded : route? "/api/v1/subscriptions/forwarded" = some .forwarded := by decide

theorem route?_answered : route? "/api/v1/subscriptions/responses" = some .responses := by decide

theorem run_bind_pure {α β : Type} (c : Circumstances) (s : Service) (x : Action α) (f : α → β) :
    (s.run c (x >>= fun a => (pure (f a) : Action β)).run).2 = (s.run c x.run).2 := by
  have hrun : (x >>= fun a => (pure (f a) : Action β)).run =
      x.run >>= fun result => Program.done (result.map f) := by
    refine congrArg (Bind.bind x.run) (funext fun result => ?_)
    cases result <;> rfl
  rw [run, run, hrun, Program.run_bind]
  rfl

/-- A request for a route changes the service as its handler does, and then does what is due. -/
theorem handle_of_route {c : Circumstances} {s : Service} {r : ServiceRequest} {route : Route}
    (hroute : route? r.path = some route) (hallowed : route.allows r.method = true) :
    (s.handle c r).2 = (s.handleRoute c r route).2.performDue c := by
  have hanswer : (s.answer c r).2 = (s.handleRoute c r route).2 := by
    rw [answer, hroute]
    dsimp only
    rw [if_pos hallowed]
  rw [← hanswer]
  rfl

/-- An input is taken by its deed, and by what is due then. -/
theorem feed_eq (c : Circumstances) (s : Service) (i : Input) :
    s.feed c i = (s.act c i.deed?).performDue c := by
  cases i with
  | forwarded mediaType body =>
      rw [feed, handle_of_route route?_forwarded rfl, handleRoute, Input.deed?]
      cases decodeBody ForwardNotice.decoder (Input.forwardedRequest mediaType body) <;> rfl
  | answered mediaType body =>
      rw [feed, handle_of_route route?_answered rfl, handleRoute, Input.deed?]
      cases decodeBody PluginAnswer.decoder (Input.answeredRequest mediaType body) with
      | error response => rfl
      | ok a =>
          -- The handler puts what the run tells into a body, which does not touch the service.
          have hrespond := run_bind_pure c s (Inventory.answer s.consolidation a)
            fun isComplete => AnswerReceipt.toJson ⟨isComplete⟩
          exact congrArg (performDue c) hrespond
  | wait length => rfl

/-! ## What is due -/

/-- All that waits on the agenda is for the end of a wait for answers. -/
def OnlyWaits (s : Service) : Prop :=
  ∀ x ∈ s.agenda.appointments, ∃ a, x.task = .timeOut a

/-- The world after waits ended, one after the other. -/
def endWaits (c : Circumstances) (settings : Consolidation) (ended : List PluginAnswer) (w : World) :
    World :=
  ended.foldl (fun w a => ((timeOut settings a).run.run (World.reply c) w).2) w

theorem foldl_perform (c : Circumstances) (s : Service) (ended : List PluginAnswer) :
    (ended.map Task.timeOut).foldl (perform c) s =
      { s with world := endWaits c s.consolidation ended s.world } := by
  induction ended generalizing s with
  | nil => rfl
  | cons a rest ih =>
      rw [List.map_cons, List.foldl_cons, ih]
      rfl

/-- The waits that are due are ended, each of them once, and the others stay on the agenda. -/
theorem performDue_eq (h : s.OnlyWaits) (c : Circumstances) :
    ∃ ended : List PluginAnswer,
      (∀ a, a ∈ ended ↔ ∃ x ∈ s.agenda.appointments, x.deadline ≤ s.world.time ∧ x.task = .timeOut a) ∧
      s.performDue c =
        { s with
          agenda := ⟨s.agenda.appointments.filter fun x => !decide (x.deadline ≤ s.world.time)⟩
          world := endWaits c s.consolidation ended s.world } := by
  -- The order in which the waits end is left open: only which of them end is told.
  have hdue : ∀ t, t ∈ (s.agenda.takeDue s.world.time).1 ↔
      ∃ x ∈ s.agenda.appointments, x.deadline ≤ s.world.time ∧ x.task = t := by
    intro t
    simp [Agenda.takeDue, List.mem_mergeSort, and_assoc]
  have hwaits : (s.agenda.takeDue s.world.time).1 ∈ Set.range (List.map Task.timeOut) := by
    rw [Set.range_list_map]
    intro t ht
    rcases (hdue t).1 ht with ⟨x, hx, -, rfl⟩
    rcases h x hx with ⟨a, ha⟩
    exact ⟨a, ha.symm⟩
  rcases hwaits with ⟨ended, hended⟩
  refine ⟨ended, ?_, ?_⟩
  · intro a
    rw [← hdue, ← hended]
    simp
  · have hlater : (s.agenda.takeDue s.world.time).2 =
        ⟨s.agenda.appointments.filter fun x => !decide (x.deadline ≤ s.world.time)⟩ := by
      rw [Agenda.takeDue, List.partition_eq_filter_filter]
      rfl
    rw [performDue]
    dsimp only
    rw [hlater, ← hended]
    exact foldl_perform c _ ended

end Service

end CmInventory
