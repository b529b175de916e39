import CmInventory.Coordination.Agenda
import CmInventory.Inventory.Consolidation
import CmInventory.Inventory.Cycle
import CmInventory.Inventory.Registrar
import CmInventory.Program.World
import CmInventory.Service.Body
import CmInventory.Service.Request

/-!
# The service

One member of the inventory behind an HTTP interface. It answers requests (`Service.handle`), waits for the
answers to the subscriptions that were forwarded, and repeats the cycles of synchronization once they are
started (`Service.startCycles`). Its clock moves by `Service.advance`, which does what has become due.

The interface:

- `GET /api/v1/status`: how many handles are in each lifecycle state;
- `GET /api/v1/ch/ID`: a handle;
- `POST /api/v1/registrations`: a registration of a plugin;
- `POST /api/v1/subscriptions/forwarded`: the notice that a subscription was forwarded;
- `POST /api/v1/subscriptions/responses`: the answer of a plugin to a subscription.
-/

namespace CmInventory

/-- The answer to a request. A body is JSON. -/
structure ServiceResponse where
  status : Nat
  body : Option Json.Value

/-- What the service does later. -/
inductive Task
  /-- Ends the wait for the answers to a subscription. -/
  | timeOut (standIn : PluginAnswer)
  /-- Runs a cycle of data synchronization, and again after the delay. -/
  | dataCycle (delay : Interval)
  /-- Runs a cycle of module synchronization, and again after the delay. -/
  | moduleCycle (delay : Interval)

/-- A running member. -/
structure Service where
  config : Config
  world : World
  agenda : Agenda Task

namespace Service

def start (config : Config) : Service :=
  ⟨config, .empty, .empty⟩

variable {α : Type}

def run (c : Circumstances) (p : Program α) (s : Service) : α × Service :=
  match p.run (World.reply c) s.world with
  | (a, world) => (a, { s with world := world })

/-- The service as a member of the inventory. -/
def member (s : Service) : Member :=
  ⟨s.config.instanceId, s.config.watchdog.markerLife, s.config.watchdog.retryBase,
    s.config.topics.lifecycle⟩

/-- The settings for subscriptions. -/
def consolidation (s : Service) : Consolidation :=
  ⟨s.config.subscription, true, s.config.topics.outcomes⟩

def plan (s : Service) (delay : Interval) (task : Task) : Service :=
  { s with agenda := s.agenda.put (s.world.time + delay.nanos) task }

/-! ## Background work -/

/-- A cycle of data synchronization. -/
def dataCycle (c : Circumstances) (s : Service) : CycleReport × Service :=
  s.run c (Inventory.dataCycle s.member s.world.store.visitBound)

/-- A cycle of module synchronization. -/
def moduleCycle (c : Circumstances) (s : Service) : CycleReport × Service :=
  s.run c (Inventory.moduleCycle s.member s.world.store.visitBound)

/-- Does a task. A cycle is planned anew when it has ended. -/
def perform (c : Circumstances) (s : Service) : Task → Service
  | .timeOut standIn => (s.run c (Inventory.timeOut s.consolidation standIn).run).2
  | .dataCycle delay => (s.dataCycle c).2.plan delay (.dataCycle delay)
  | .moduleCycle delay => (s.moduleCycle c).2.plan delay (.moduleCycle delay)

def performDue (c : Circumstances) (s : Service) : Service :=
  -- A task that is planned anew while the due ones are done waits from the present time on.
  let (due, later) := s.agenda.takeDue s.world.time
  due.foldl (perform c) { s with agenda := later }

/-- Moves the clock on and does what has become due. -/
def advance (c : Circumstances) (s : Service) (length : Interval) : Service :=
  performDue c { s with world := s.world.advance length }

/-- Runs the first cycle of either kind, each of which is repeated after its delay. -/
def startCycles (c : Circumstances) (s : Service) (dataDelay moduleDelay : Interval) : Service :=
  (s.perform c (.dataCycle dataDelay)).perform c (.moduleCycle moduleDelay)

/-! ## Responses -/

/-- A success with a body. -/
def ok (body : Json.Value) : ServiceResponse := ⟨200, some body⟩

/-- A response without a body. -/
def plain (status : Nat) : ServiceResponse := ⟨status, none⟩

def errorStatus : InventoryError → Nat
  | .notFound _ => 404
  | .validation _ | .invalidId _ => 400
  | _ => 500

/-- The response to a request that failed. -/
def failed (e : InventoryError) : ServiceResponse :=
  ⟨errorStatus e, some (ErrorReport.toJson ⟨e.message⟩)⟩

/-- The response to a request that ended in an error or in a body. -/
def ofResult : Except InventoryError Json.Value → ServiceResponse
  | .ok body => ok body
  | .error e => failed e

/-! ## Routes -/

/-- What a path leads to. -/
inductive Route
  | status
  | handle (segment : String)
  | registrations
  | forwarded
  | responses
  deriving DecidableEq, Repr

/-- The pieces of a text between its slashes; `current` is what of the first one was read, from back to
front. -/
def pieces (current : List Char) : List Char → List String
  | [] => [.ofList current.reverse]
  | c :: rest =>
      if c = '/' then .ofList current.reverse :: pieces [] rest else pieces (c :: current) rest

def segments (path : String) : List String :=
  pieces [] path.toList

/-- The route of a path. -/
def route? (path : String) : Option Route :=
  match segments path with
  | ["", "api", "v1", "status"] => some .status
  | ["", "api", "v1", "ch", segment] => if segment.isEmpty then none else some (.handle segment)
  | ["", "api", "v1", "registrations"] => some .registrations
  | ["", "api", "v1", "subscriptions", "forwarded"] => some .forwarded
  | ["", "api", "v1", "subscriptions", "responses"] => some .responses
  | _ => none

/-- Whether a route is read, rather than posted to. -/
def Route.isRead : Route → Bool
  | .status | .handle _ => true
  | .registrations | .forwarded | .responses => false

/-- Whether a method may be used on a route. -/
def Route.allows (r : Route) (method : String) : Bool :=
  if r.isRead then method = "GET" || method = "HEAD" else method = "POST"

/-! ## Handlers -/

def countHandles (instanceId : String) : Action Json.Value := do
  let counts ← Action.store .countByLifecycle
  let counts := Dictionary.ofList (counts.map fun (state, n) => (state.name, n))
  return StatusReport.toJson ⟨instanceId, counts⟩

/-- Looks up a handle. -/
def findHandle (rawId : String) : Action Json.Value := do
  match HandleId.parse rawId with
  | .error _ => throw (.invalidId rawId)
  | .ok id =>
      let h ← Action.store (.get id)
      return h.toJson

/-- What a body holds, or the response to a body that cannot be used. -/
def decodeBody (d : Json.Decoder α) (r : ServiceRequest) : Except ServiceResponse α :=
  if !(r.mediaType.map MediaType.isJson).getD false then .error (plain 415)
  else
    match Json.decode d r.body with
    | .ok a => .ok a
    | .error .malformed => .error (plain 400)
    | .error .mismatch => .error (plain 422)

/-- Runs an action that ends in a body. -/
def respond (c : Circumstances) (s : Service) (action : Action Json.Value) :
    ServiceResponse × Service :=
  let (result, s) := s.run c action.run
  (ofResult result, s)

/-- Notes that a subscription was forwarded, and waits for the answers. -/
def acceptForward (c : Circumstances) (s : Service) (n : ForwardNotice) : Service :=
  let (_, s) := s.run c
    (Inventory.forward s.consolidation n.clientId n.subscriptionName n.plugins)
  -- At the timeout no answer is at hand; this one carries the names of the subscription.
  let standIn : PluginAnswer := ⟨n.clientId, n.subscriptionName, "", subscriptionCreated, []⟩
  s.plan s.config.subscription.timeout (.timeOut standIn)

/-- The response to a request for a route, with a method that the route allows. -/
def handleRoute (c : Circumstances) (s : Service) (r : ServiceRequest) :
    Route → ServiceResponse × Service
  | .status => s.respond c (countHandles s.config.instanceId)
  | .handle segment =>
      match ServiceRequest.segmentText? segment with
      | none => (plain 400, s)
      | some rawId => s.respond c (findHandle rawId)
  | .registrations =>
      match decodeBody Registration.decoder r with
      | .error response => (response, s)
      | .ok registration => s.respond c do
          let response ← Inventory.process s.config.topics.lifecycle registration
          return response.toJson
  | .forwarded =>
      match decodeBody ForwardNotice.decoder r with
      | .error response => (response, s)
      | .ok notice => (plain 202, s.acceptForward c notice)
  | .responses =>
      match decodeBody PluginAnswer.decoder r with
      | .error response => (response, s)
      | .ok answer => s.respond c do
          let isComplete ← Inventory.answer s.consolidation answer
          return AnswerReceipt.toJson ⟨isComplete⟩

/-- The response to a request, with what is due left for later. -/
def answer (c : Circumstances) (s : Service) (r : ServiceRequest) : ServiceResponse × Service :=
  match route? r.path with
  | none => (plain 404, s)
  | some route =>
      if route.allows r.method then
        let (response, s) := s.handleRoute c r route
        (if r.method = "HEAD" then plain response.status else response, s)
      else (plain 405, s)

/-- The response to a request. What has become due by then is done. -/
def handle (c : Circumstances) (s : Service) (r : ServiceRequest) : ServiceResponse × Service :=
  let (response, s) := s.answer c r
  (response, s.performDue c)

end Service
end CmInventory
