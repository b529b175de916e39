import CmInventory.Handle.Lifecycle
import CmInventory.Text.DecimalDigit

/-!
# Lock reasons

Why a handle is locked: a category, how many attempts in a row have failed, and a message. As text a
reason is its message, after a marker `Attempt #n failed: ` if it counts attempts. `ofDetails` reads
such a text back; text without the marker counts no attempt.
-/

namespace CmInventory

/-- The categories of reasons to lock a handle. -/
inductive LockCategory
  | misbehaving
  | moduleSyncFailed
  | moduleUpgrade
  | moduleUpgradeFailed
  deriving DecidableEq, Repr, Inhabited

namespace LockCategory

def all : List LockCategory :=
  [.misbehaving, .moduleSyncFailed, .moduleUpgrade, .moduleUpgradeFailed]

/-- The name under which a category is stored and published. -/
def name : LockCategory → String
  | .misbehaving => "LOCKED_MISBEHAVING"
  | .moduleSyncFailed => "MODULE_SYNC_FAILED"
  | .moduleUpgrade => "MODULE_UPGRADE"
  | .moduleUpgradeFailed => "MODULE_UPGRADE_FAILED"

def ofName? (name : String) : Option LockCategory :=
  all.find? fun c => c.name = name

/-- Whether a handle locked for the category is tried again after a while. -/
def isRetryable : LockCategory → Bool
  | .moduleSyncFailed | .moduleUpgradeFailed => true
  | .misbehaving | .moduleUpgrade => false

theorem ofName?_name (c : LockCategory) : ofName? c.name = some c := by
  cases c <;> decide

def toJson (c : LockCategory) : Json.Value :=
  .text c.name

def decoder : Json.Decoder LockCategory :=
  Json.Decoder.enumeration ofName?

end LockCategory

/-- Why a handle is locked. Attempt 0 means that the reason counts no attempts. -/
structure LockReason where
  category : LockCategory
  attempt : UInt32
  message : String
  deriving DecidableEq, Repr, Inhabited

namespace LockReason

/-! ## Counting attempts -/

/-- The attempt after a given one; the greatest number is not exceeded. -/
def nextAttempt (attempt : UInt32) : UInt32 :=
  UInt32.ofNat (min (attempt.toNat + 1) (UInt32.size - 1))

/-- The reason for another failure, which continues the count of the reason before it. -/
def afterFailure (previous : Option LockReason) (category : LockCategory) (message : String) :
    LockReason :=
  ⟨category, nextAttempt ((previous.map (·.attempt)).getD 0), message⟩

/-- The reasons for failures one after the other. -/
def afterFailures (previous : Option LockReason) (category : LockCategory) :
    List String → List LockReason
  | [] => []
  | message :: rest =>
      let reason := afterFailure previous category message
      reason :: afterFailures (some reason) category rest

/-! ## As text -/

/-- What stands before the number of attempts. -/
def markerStart : List Char := "Attempt #".toList

/-- What stands behind the number of attempts. -/
def markerEnd : List Char := " failed:".toList

/-- The reason as text. -/
def details (r : LockReason) : String :=
  if r.attempt = 0 then r.message
  else String.ofList (markerStart ++ Nat.toDigits 10 r.attempt.toNat ++ markerEnd ++ ' ' ::
    r.message.toList)

/-- The text after a given start. -/
def after? : List Char → List Char → Option (List Char)
  | [], cs => some cs
  | _ :: _, [] => none
  | a :: start, c :: cs => if a = c then after? start cs else none

/-- The digits of a marker at the start of a text and the message after it, less one space. -/
def marker? (cs : List Char) : Option (List Char × List Char) := do
  let cs ← after? markerStart cs
  let digits := cs.takeWhile Text.isDecimalDigit
  let message ← after? markerEnd (cs.dropWhile Text.isDecimalDigit)
  if digits.isEmpty then none
  else
    match message with
    | ' ' :: message => some (digits, message)
    | message => some (digits, message)

/-- The number of attempts that digits stand for, read from the left on top of `n`. A digit other than
those of ASCII has no value; a number that grows too large counts as the greatest. -/
def attempts? (n : Nat) : List Char → Option Nat
  | [] => some n
  | c :: rest =>
      if c.isDigit then
        let m := 10 * n + (c.toNat - 48)
        -- What stands behind a number that is too large is not looked at any more.
        if m < UInt32.size then attempts? m rest else some (UInt32.size - 1)
      else none

/-- The reason that a text stands for. -/
def ofDetails (category : LockCategory) (details : String) : LockReason :=
  let read := do
    let (digits, message) ← marker? details.toList
    let n ← attempts? 0 digits
    return (⟨category, UInt32.ofNat n, String.ofList message⟩ : LockReason)
  read.getD ⟨category, 0, details⟩

/-! ## As JSON -/

def toJson (r : LockReason) : Json.Value :=
  .object [("category", r.category.toJson), ("attempt", .natural r.attempt.toNat),
    ("message", .text r.message)]

def decoder : Json.Decoder LockReason := .record <|
  (fun category attempt message => ⟨category, UInt32.ofNat attempt, message⟩)
    <$> .required "category" LockCategory.decoder
    <*> .required "attempt" (.natural UInt32.size)
    <*> .required "message" .text

end LockReason
end CmInventory
