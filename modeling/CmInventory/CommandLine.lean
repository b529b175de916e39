import CmInventory.Config

/-!
# The command line

The options under which a member is started: `--config FILE` or `-c FILE` names a file with the
configuration, `--instance-id ID` gives the member another id than the configuration does, and `--verbose`
or `-v` reports more. Of an option that is repeated the last counts.
-/

namespace CmInventory

/-- The options under which a member is started. -/
structure CommandLine where
  configFile : Option String
  instanceId : Option String
  isVerbose : Bool
  deriving DecidableEq, Repr

namespace CommandLine

/-- What is wrong with a command line. -/
inductive Flaw
  | unknownWord (word : String)
  | missingValue (option : String)
  deriving DecidableEq, Repr

def Flaw.message : Flaw → String
  | .unknownWord word => s!"unexpected argument {word}"
  | .missingValue option => s!"a value is required for {option}"

def empty : CommandLine := ⟨none, none, false⟩

/-- The options after `c` that words stand for. -/
def read (c : CommandLine) : List String → Except Flaw CommandLine
  | [] => .ok c
  | word :: rest =>
      if word = "--verbose" || word = "-v" then read { c with isVerbose := true } rest
      else if word = "--config" || word = "-c" then
        match rest with
        | file :: rest => read { c with configFile := some file } rest
        | [] => .error (.missingValue word)
      else if word = "--instance-id" then
        match rest with
        | id :: rest => read { c with instanceId := some id } rest
        | [] => .error (.missingValue word)
      else .error (.unknownWord word)

/-- The options that words stand for. -/
def ofWords (words : List String) : Except Flaw CommandLine :=
  empty.read words

/-- The configuration with the id that the command line gives. -/
def adjust (c : CommandLine) (config : Config) : Config :=
  match c.instanceId with
  | some id => { config with instanceId := id }
  | none => config

end CommandLine
end CmInventory
