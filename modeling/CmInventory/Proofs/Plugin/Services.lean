import CmInventory.Plugin.Client
import Mathlib.Data.List.DropRight

/-!
# Services and their names

Three places look at the names of the services that a handle is reached through. A registration accepts a choice of
services if one form of it is given (`Endpoints.flaw?_eq_none_iff`), the handle falls back on the combined service
if it has none of its own (`Endpoints.given_of_accepted`), and the client makes the base of its URLs of the name. All
three drop white space, but only the client drops slashes. A name of slashes alone (`Text.IsSlashes`) therefore
counts as given where it is registered, and as missing where it is used (`PluginClient.decides_of_accepted`).
-/

namespace CmInventory

/-! ## Names of slashes alone -/

namespace Text

variable {s : String}

/-- One slash or more, with nothing but white space before and after them. -/
def IsSlashes (s : String) : Prop :=
  ∃ before count after, s.toList = before ++ List.replicate (count + 1) '/' ++ after ∧
    (∀ c ∈ before, isSpace c) ∧ ∀ c ∈ after, isSpace c

theorem dropEndWhile_eq (p : Char → Bool) (cs : List Char) : dropEndWhile p cs = cs.rdropWhile p := rfl

theorem toList_trim (s : String) : (trim s).toList = (s.toList.dropWhile isSpace).rdropWhile isSpace :=
  String.toList_ofList

theorem rdropWhile_append_of_pos {p : Char → Bool} {after : List Char} (h : ∀ c ∈ after, p c)
    (front : List Char) : (front ++ after).rdropWhile p = front.rdropWhile p := by
  have hreverse : ∀ c ∈ after.reverse, p c := fun c hc => h c (List.mem_reverse.1 hc)
  rw [List.rdropWhile, List.reverse_append, List.dropWhile_append_of_pos hreverse]
  rfl

/-- Slashes are what is left of a name of slashes alone. -/
theorem isSlashes_iff_trim : IsSlashes s ↔ ∃ count, (trim s).toList = List.replicate (count + 1) '/' := by
  constructor
  · rintro ⟨before, count, after, hs, hbefore, hafter⟩
    refine ⟨count, ?_⟩
    -- The first and the last slash stop the trimming from either side.
    have hfront : (List.replicate (count + 1) '/' ++ after).dropWhile isSpace =
        List.replicate (count + 1) '/' ++ after := rfl
    have hback : (List.replicate (count + 1) '/').rdropWhile isSpace = List.replicate (count + 1) '/' := by
      rw [List.rdropWhile_eq_self_iff]
      intro hne
      rw [List.getLast_replicate]
      decide
    calc (trim s).toList
        = ((before ++ (List.replicate (count + 1) '/' ++ after)).dropWhile isSpace).rdropWhile isSpace := by
          rw [toList_trim, hs, List.append_assoc]
      _ = (List.replicate (count + 1) '/' ++ after).rdropWhile isSpace := by
          rw [List.dropWhile_append_of_pos hbefore, hfront]
      _ = List.replicate (count + 1) '/' := by rw [rdropWhile_append_of_pos hafter, hback]
  · rintro ⟨count, hcount⟩
    refine ⟨s.toList.takeWhile isSpace, count, (s.toList.dropWhile isSpace).rtakeWhile isSpace, ?_, ?_, ?_⟩
    · rw [← hcount, toList_trim, List.append_assoc, List.rdropWhile_append_rtakeWhile,
        List.takeWhile_append_dropWhile]
    · exact fun c hc => List.mem_takeWhile_imp hc
    · exact fun c hc => List.mem_rtakeWhile_imp hc

end Text

namespace Endpoints

open Text (IsSlashes isBlank)

variable {e : Endpoints} {service : String}

/-! ## The base of a name -/

theorem base?_eq_none_iff_trim : base? service = none ↔ ∀ c ∈ (Text.trim service).toList, c = '/' := by
  have hchars : baseChars service = [] ↔ ∀ c ∈ (Text.trim service).toList, c = '/' := by
    rw [baseChars, Text.dropEndWhile_eq, List.rdropWhile_eq_nil_iff]
    simp
  rw [← hchars, base?]
  cases baseChars service <;> simp

/-- Nothing is left of a name of white space or of slashes alone, and of no other one. -/
theorem base?_eq_none_iff : base? service = none ↔ isBlank service = true ∨ IsSlashes service := by
  rw [base?_eq_none_iff_trim, Text.isBlank_iff_trim, Text.isSlashes_iff_trim]
  constructor
  · intro hall
    have hreplicate := List.eq_replicate_of_mem hall
    -- If not even a slash is left, the name was blank.
    cases hlength : (Text.trim service).toList.length with
    | zero => exact Or.inl (String.toList_eq_nil_iff.1 (List.length_eq_zero_iff.1 hlength))
    | succ count =>
        rw [hlength] at hreplicate
        exact Or.inr ⟨count, hreplicate⟩
  · rintro (hblank | ⟨count, hcount⟩) c hc
    · rw [hblank] at hc
      cases hc
    · rw [hcount] at hc
      exact List.eq_of_mem_replicate hc

/-- A base that is found is not empty. -/
theorem ne_empty_of_base? {base : String} (h : base? service = some base) : base ≠ "" := by
  rw [base?] at h
  split at h
  · cases h
  · rename_i hchars
    rw [← Option.some.inj h, Ne, String.ofList_eq_empty_iff]
    exact hchars

/-! ## Choices of services -/

/-- A choice of services is accepted in two forms: the combined service alone, or both others without it. -/
theorem flaw?_eq_none_iff : e.flaw? = none ↔
    (isBlank e.combined = false ∧ isBlank e.data = true ∧ isBlank e.model = true) ∨
      (isBlank e.combined = true ∧ isBlank e.data = false ∧ isBlank e.model = false) := by
  rw [flaw?]
  cases isBlank e.combined <;> cases isBlank e.data <;> cases isBlank e.model <;> simp

/-- In either form a handle has a service for data and one for models. -/
theorem given_of_accepted (h : e.flaw? = none) :
    isBlank e.dataService = false ∧ isBlank e.modelService = false := by
  rcases flaw?_eq_none_iff.1 h with ⟨hcombined, hdata, hmodel⟩ | ⟨-, hdata, hmodel⟩
  · rw [dataService, modelService, if_pos hdata, if_pos hmodel]
    exact ⟨hcombined, hcombined⟩
  · rw [dataService, modelService, hdata, hmodel]
    exact ⟨hdata, hmodel⟩

end Endpoints

/-! ## Calls of the client -/

namespace PluginClient

open Text (IsSlashes)

variable {h : Handle} {service : String} {transport : Transport}

/-- A result of a call that failed because the handle names no service. -/
def Misses {α : Type} (result : Except PluginError α) : Prop :=
  ∃ id, result = .error (.missingEndpoint id)

theorem post_not_misses {url : String} {parameters : List (String × String)} {body : Json.Value} :
    ¬ Misses (post transport url parameters body) := by
  rintro ⟨id, hpost⟩
  rw [post] at hpost
  split at hpost
  · cases hpost
  · dsimp only at hpost
    split at hpost <;> cases hpost

theorem successBody_not_misses (reply : PluginReply) : ¬ Misses reply.successBody := by
  rintro ⟨id, hbody⟩
  rw [PluginReply.successBody] at hbody
  split at hbody
  · cases hbody
  split at hbody <;> cases hbody

/-- What comes after the base misses nothing, so that the base decides. -/
theorem misses_bind_iff {α β : Type} {x : Except PluginError α} {f : α → Except PluginError β}
    (hf : ∀ a, ¬ Misses (f a)) : Misses (x >>= f) ↔ Misses x := by
  cases x with
  | error e =>
      constructor
      · rintro ⟨id, heq⟩
        exact ⟨id, congrArg Except.error (Except.error.inj heq)⟩
      · rintro ⟨id, heq⟩
        exact ⟨id, congrArg Except.error (Except.error.inj heq)⟩
  | ok a =>
      refine iff_of_false (hf a) ?_
      rintro ⟨id, heq⟩
      cases heq

theorem misses_base_iff : Misses (base h service) ↔ Endpoints.base? service = none := by
  rw [base]
  cases Endpoints.base? service with
  | none => exact iff_of_true ⟨h.id, rfl⟩ rfl
  | some found =>
      refine iff_of_false ?_ (Option.some_ne_none found)
      rintro ⟨id, heq⟩
      cases heq

theorem misses_postData_iff {resource : String} {datastore : Datastore} {body : Json.Value} :
    Misses (postData transport h resource datastore body) ↔
      Endpoints.base? h.endpoints.dataService = none :=
  (misses_bind_iff fun _ => post_not_misses).trans misses_base_iff

theorem misses_modules_iff :
    Misses (modules transport h) ↔ Endpoints.base? h.endpoints.modelService = none := by
  -- After the base come the exchange, the check of the answer and the decoding of its body.
  refine Iff.trans (misses_bind_iff fun base => ?_) misses_base_iff
  rw [misses_bind_iff fun reply => ?_]
  · exact post_not_misses
  rw [misses_bind_iff fun body => ?_]
  · exact successBody_not_misses reply
  rintro ⟨id, hdecoded⟩
  split at hdecoded <;> cases hdecoded

theorem finds_iff :
    (∃ found, base h service = .ok found ∧ found ≠ "") ↔ Endpoints.base? service ≠ none := by
  rw [base]
  cases hfound : Endpoints.base? service with
  | none => simp
  | some found => simpa using Endpoints.ne_empty_of_base? hfound

/-- The names of the services of a handle decide which calls for the handle fail for want of an endpoint: those of
a service whose name is made of slashes alone. -/
structure Decides (h : Handle) : Prop where
  /-- The client finds a base that is not empty for the data service. -/
  data : (∃ found, base h h.endpoints.dataService = .ok found ∧ found ≠ "") ↔
    ¬ IsSlashes h.endpoints.dataService
  model : (∃ found, base h h.endpoints.modelService = .ok found ∧ found ≠ "") ↔
    ¬ IsSlashes h.endpoints.modelService
  read : ∀ transport resource datastore,
    Misses (read transport h resource datastore) ↔ IsSlashes h.endpoints.dataService
  write : ∀ transport resource operation payload contentType,
    Misses (write transport h resource operation payload contentType) ↔ IsSlashes h.endpoints.dataService
  modules : ∀ transport, Misses (modules transport h) ↔ IsSlashes h.endpoints.modelService

theorem decides_of_accepted (haccepted : h.endpoints.flaw? = none) : Decides h := by
  rcases Endpoints.given_of_accepted haccepted with ⟨hdata, hmodel⟩
  -- A name that is given leaves nothing only if it is made of slashes.
  have hnone : ∀ {service}, Text.isBlank service = false →
      (Endpoints.base? service = none ↔ IsSlashes service) := by
    intro service hgiven
    rw [Endpoints.base?_eq_none_iff, hgiven]
    simp
  refine ⟨?_, ?_, ?_, ?_, ?_⟩
  · exact finds_iff.trans (not_congr (hnone hdata))
  · exact finds_iff.trans (not_congr (hnone hmodel))
  · exact fun _ _ _ => misses_postData_iff.trans (hnone hdata)
  · exact fun _ _ _ _ _ => misses_postData_iff.trans (hnone hdata)
  · exact fun _ => misses_modules_iff.trans (hnone hmodel)

end PluginClient
end CmInventory
