import CmInventory.Handle.Id

/-!
# Registration responses

One answer for every handle of a request, in the order of the request, and the reason of a refusal.
-/

namespace CmInventory

/-- Why a handle of a request was refused. -/
inductive Refusal
  | unknown
  | alreadyExists
  | doesNotExist
  | invalidId
  deriving DecidableEq, Repr

namespace Refusal

def all : List Refusal := [.unknown, .alreadyExists, .doesNotExist, .invalidId]

def name : Refusal → String
  | .unknown => "UNKNOWN_ERROR"
  | .alreadyExists => "CM_HANDLE_ALREADY_EXIST"
  | .doesNotExist => "CM_HANDLE_DOES_NOT_EXIST"
  | .invalidId => "CM_HANDLE_INVALID_ID"

def ofName? (name : String) : Option Refusal :=
  all.find? fun r => r.name = name

theorem ofName?_name (r : Refusal) : ofName? r.name = some r := by
  cases r <;> decide

/-- The number of a refusal. -/
def code : Refusal → String
  | .unknown => "00"
  | .alreadyExists => "01"
  | .doesNotExist => "02"
  | .invalidId => "03"

def message : Refusal → String
  | .unknown => "Unknown error"
  | .alreadyExists => "cm-handle already exists"
  | .doesNotExist => "cm-handle does not exist"
  | .invalidId => "cm-handle has an invalid character(s) in id"

def display (r : Refusal) : String :=
  r.message ++ " (" ++ r.code ++ ")"

def toJson (r : Refusal) : Json.Value :=
  .text r.name

def decoder : Json.Decoder Refusal :=
  Json.Decoder.enumeration ofName?

end Refusal

/-- Whether a handle of a request was processed. -/
inductive ResponseStatus
  | success
  | failure
  deriving DecidableEq, Repr

namespace ResponseStatus

def all : List ResponseStatus := [.success, .failure]

def name : ResponseStatus → String
  | .success => "SUCCESS"
  | .failure => "FAILURE"

def ofName? (name : String) : Option ResponseStatus :=
  all.find? fun s => s.name = name

theorem ofName?_name (s : ResponseStatus) : ofName? s.name = some s := by
  cases s <;> decide

def toJson (s : ResponseStatus) : Json.Value :=
  .text s.name

def decoder : Json.Decoder ResponseStatus :=
  Json.Decoder.enumeration ofName?

end ResponseStatus

/-- The answer for one handle of a request. -/
structure HandleResponse where
  id : HandleId
  status : ResponseStatus
  refusal : Option Refusal
  text : Option String
  deriving DecidableEq, Repr

namespace HandleResponse

/-- The handle was processed. -/
def success (id : HandleId) : HandleResponse :=
  ⟨id, .success, none, none⟩

/-- The handle was refused. -/
def failure (id : HandleId) (refusal : Refusal) : HandleResponse :=
  ⟨id, .failure, some refusal, some refusal.message⟩

/-- The handle was refused for a reason of which only a text is known. -/
def unknownFailure (id : HandleId) (text : String) : HandleResponse :=
  ⟨id, .failure, some .unknown, some text⟩

def isSuccess (r : HandleResponse) : Bool :=
  r.status = .success

def toJson (r : HandleResponse) : Json.Value :=
  .object <|
    [("cm_handle_id", r.id.toJson), ("status", r.status.toJson)] ++
    Json.Value.memberIfAny "registration_error" (r.refusal.map Refusal.toJson) ++
    Json.Value.memberIfAny "error_text" (r.text.map .text)

def decoder : Json.Decoder HandleResponse := .record <|
  HandleResponse.mk <$> .required "cm_handle_id" HandleId.decoder
    <*> .required "status" ResponseStatus.decoder
    <*> .defaulted "registration_error" (.nullable Refusal.decoder) none
    <*> .defaulted "error_text" (.nullable .text) none

end HandleResponse

/-- The answers to a registration. -/
structure RegistrationResponse where
  created : List HandleResponse
  updated : List HandleResponse
  removed : List HandleResponse
  deriving DecidableEq, Repr

namespace RegistrationResponse

def toJson (r : RegistrationResponse) : Json.Value :=
  .object [("created_cm_handles", .array (r.created.map HandleResponse.toJson)),
    ("updated_cm_handles", .array (r.updated.map HandleResponse.toJson)),
    ("removed_cm_handles", .array (r.removed.map HandleResponse.toJson))]

def decoder : Json.Decoder RegistrationResponse := .record <|
  RegistrationResponse.mk <$> .required "created_cm_handles" (.list HandleResponse.decoder)
    <*> .required "updated_cm_handles" (.list HandleResponse.decoder)
    <*> .required "removed_cm_handles" (.list HandleResponse.decoder)

end RegistrationResponse
end CmInventory
