import CmInventory.CommandLine
import CmInventory.Plugin.Client
import CmInventory.Service.Console
import Std.Time.DateTime.Timestamp

/-!
# The program

Runs one member of the inventory. Requests are read from the standard input in lines (`Console`), responses
are written to the standard output, and events are reported on the standard error. Background work that has
become due is done when a line arrives. Plugins are not reached.
-/

namespace CmInventory
namespace Launch

/-- A random number below `2 ^ 128`. -/
def randomWord : IO Nat := do
  let bytes ← IO.getRandomBytes 16
  return bytes.toList.foldl (fun n b => n * 256 + b.toNat) 0

/-- The nanoseconds since the start of the year 1970. -/
def wallNanos : IO Nat := do
  let now ← Std.Time.Timestamp.now
  return now.toNanosecondsSinceUnixEpoch.val.toNat

/-- The circumstances of a request that is made now. -/
def circumstances : IO Circumstances := do
  let nanos ← wallNanos
  let random ← randomWord
  return {
    clock := fun _ => (Instant.ofNanos? nanos).getD .epoch
    eventId := fun turn => .timeOrdered (nanos / 1000000) (random + turn)
    choice := fun turn => (mixHash (hash random) (hash turn)).toNat
    storeFailure := fun _ _ => none
    plugin := fun _ call => PluginClient.answer .unreachable call }

/-- Reports the events that were published. -/
def report (s : Service) : IO Service := do
  let (events, s) := Console.takeEvents s
  events.forM fun e => IO.eprintln e.logLine
  return s

/-- Answers lines until the input ends. The clock of the service was moved on last at `before`. -/
partial def serve (before : Nat) (s : Service) : IO Unit := do
  let line ← (← IO.getStdin).getLine
  if line.isEmpty then return
  let now ← IO.monoNanosNow
  let c ← circumstances
  let s := s.advance c (.ofNanos (now - before))
  let (lines, s) := if Text.isBlank line then ([], s) else Console.answer c s line
  lines.forM fun l => IO.println l
  (← IO.getStdout).flush
  serve now (← report s)

/-- The configuration that the command line names, or the defaults. -/
def loadConfig (c : CommandLine) : IO Config := do
  let generatedId := "ncmp-" ++ (EventId.timeOrdered 0 (← randomWord)).render
  match c.configFile with
  | none => return c.adjust (.standard generatedId)
  | some file =>
      let content ← try some <$> IO.FS.readFile file catch _ => pure none
      match Config.ofFile generatedId content with
      | .ok config => return c.adjust config
      | .error fault => throw (.userError s!"Failed to load config from {file}: {fault.message}")

end Launch
end CmInventory

open CmInventory in
/-- Starts a member with the options of the command line. -/
def main (words : List String) : IO UInt32 := do
  match CommandLine.ofWords words with
  | .error flaw =>
      IO.eprintln s!"error: {flaw.message}"
      return 2
  | .ok options =>
      try
        let config ← Launch.loadConfig options
        IO.eprintln s!"INFO NCMP instance {config.instanceId} starting..."
        let c ← Launch.circumstances
        let s := (Service.start config).startCycles c config.watchdog.dataSyncDelay
          config.watchdog.moduleSyncDelay
        Launch.serve (← IO.monoNanosNow) s
        if options.isVerbose then IO.eprintln Published.closingLine
        return 0
      catch e =>
        IO.eprintln s!"Error: {e}"
        return 1
