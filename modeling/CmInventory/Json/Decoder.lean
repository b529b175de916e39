import CmInventory.Dictionary
import CmInventory.Json.Reader

/-!
# Taking values out of JSON

A `Decoder` takes a value of some type out of the outline of a JSON text. It fails with the fault that
comes first in the text: `malformed`, the text is no JSON, or it is nested too deep, or a number or
string in it has no value; or `mismatch`, the text is JSON of another shape.

A record is described by its members (`Fields`), in the order in which they are declared. It is read
from an object, with the members in any order, unknown ones ignored and none given twice, or from an
array of the members in the declared order.

Main definitions:

- `Decoder.text`, `Decoder.natural`, `Decoder.enumeration`, `Decoder.nullable`, `Decoder.list`,
  `Decoder.dictionary`, `Decoder.value`: the kinds of values;
- `Fields.required`, `Fields.optional`, `Fields.defaulted`: the kinds of members, which are combined as
  an applicative functor;
- `Decoder.record`: a record from its members;
- `decode`: a value from a whole text.
-/

namespace CmInventory
namespace Json

/-- Why no value could be taken out of a text. -/
inductive Fault
  | malformed
  | mismatch
  deriving DecidableEq, Repr

def Fault.message : Fault → String
  | .malformed => "malformed JSON"
  | .mismatch => "JSON of another shape"

/-- How a value is taken: how many more arrays and objects may be entered, and whether the value was
set aside before its kind was known. A name that was set aside may also stand as the only member of
an object with an empty object for its value. -/
structure Context where
  nesting : Nat
  setAside : Bool := false

/-- How deep arrays and objects may be nested in a text. -/
def greatestNesting : Nat := 127

/-- Takes a value out of an outline. -/
abbrev Decoder (α : Type) := Context → Tree → Except Fault α

namespace Tree

/-- The fault of a value that has another kind than the wanted one. -/
def misfit : Tree → Fault
  | .broken | .number none | .text none => .malformed
  | _ => .mismatch

end Tree

/-! ## Members of records -/

/-- A fault and the place, among the members of a record, of the member that holds it. -/
structure Located where
  place : Nat
  fault : Fault
  deriving DecidableEq, Repr

namespace Located

/-- The fault that comes first, `a` of two at the same place. -/
def first (a b : Located) : Located :=
  if b.place < a.place then b else a

end Located

/-- What a record holds for one member. -/
inductive Slot
  /-- The value, and its place among the members. -/
  | filled (place : Nat) (tree : Tree)
  /-- The object ended without the member. -/
  | missing (place : Nat)
  /-- The array ended before the member. -/
  | cut (place : Nat)

/-- The members of a record and how the record is made of them. -/
structure Fields (α : Type) where
  names : List String
  read : Context → List Slot → Except Located α

namespace Fields

variable {α β : Type}

/-- A record of which no member is read. -/
def pure (a : α) : Fields α := ⟨[], fun _ _ => .ok a⟩

/-- The results of reading some members and the members after them, or the first fault in either. -/
def combine (f : Except Located (α → β)) (x : Except Located α) : Except Located β :=
  match f, x with
  | .ok f, .ok a => .ok (f a)
  | .ok _, .error e => .error e
  | .error e, .ok _ => .error e
  | .error e, .error e' => .error (e.first e')

/-- The members of `f` followed by those of `x`. -/
def seq (f : Fields (α → β)) (x : Fields α) : Fields β where
  names := f.names ++ x.names
  read ctx slots :=
    combine (f.read ctx (slots.take f.names.length)) (x.read ctx (slots.drop f.names.length))

instance : Applicative Fields where
  pure := pure
  seq f x := seq f (x ())

/-- The value of a filled slot. -/
def filled (ctx : Context) (d : Decoder α) (place : Nat) (tree : Tree) : Except Located α :=
  match d ctx tree with
  | .ok a => .ok a
  | .error fault => .error ⟨place, fault⟩

/-- A single member, with what stands for it where an object or an array lacks it. -/
def single (name : String) (d : Decoder α) (ifMissing ifCut : Option α) : Fields α where
  names := [name]
  read ctx slots :=
    match slots with
    | .filled place tree :: _ => filled ctx d place tree
    | .missing place :: _ => ifMissing.elim (.error ⟨place, .mismatch⟩) .ok
    | .cut place :: _ => ifCut.elim (.error ⟨place, .mismatch⟩) .ok
    | [] => .error ⟨0, .mismatch⟩

/-- A member that must be there. -/
def required (name : String) (d : Decoder α) : Fields α :=
  single name d none none

/-- A member that has a default. -/
def defaulted (name : String) (d : Decoder α) (default : α) : Fields α :=
  single name d (some default) (some default)

end Fields

/-! ## Kinds of values -/

namespace Decoder

variable {α β : Type}

/-- A value made from another one. -/
def map (f : α → β) (d : Decoder α) : Decoder β :=
  fun ctx tree => (d ctx tree).map f

def text : Decoder String := fun _ tree =>
  match tree with
  | .text (some s) => .ok s
  | other => .error other.misfit

/-- A string that `parse` accepts. -/
def parsedText (parse : String → Option α) : Decoder α := fun _ tree =>
  match tree with
  | .text (some s) =>
      match parse s with
      | some a => .ok a
      | none => .error .mismatch
  | other => .error other.misfit

/-- A truth value. -/
def bool : Decoder Bool := fun _ tree =>
  match tree with
  | .bool b => .ok b
  | other => .error other.misfit

/-- A natural number below `bound`, written with digits alone. -/
def natural (bound : Nat) : Decoder Nat := fun _ tree =>
  match tree with
  | .number (some (.integer i)) =>
      if 0 ≤ i ∧ i < bound then .ok i.toNat else .error .mismatch
  | other => .error other.misfit

/-- A value, or null for none. -/
def nullable (d : Decoder α) : Decoder (Option α) := fun ctx tree =>
  match tree with
  | .null => .ok none
  | other => (d ctx other).map some

/-- The context inside an array or object, unless the nesting is exhausted. -/
def enter (ctx : Context) : Except Fault Context :=
  match ctx.nesting with
  | 0 => .error .malformed
  | n + 1 => .ok { ctx with nesting := n }

/-- Fails unless the end of an array or object was reached. -/
def atEnd (closed : Bool) (a : α) : Except Fault α :=
  if closed then .ok a else .error .malformed

/-- Whether an outline stands for nothing, as the value beside a name has to. -/
def nothing : Decoder Unit := fun ctx tree =>
  match tree with
  | .null => .ok ()
  | .object [] true => if ctx.setAside then .ok () else .error .mismatch
  | other => .error other.misfit

/-- One of several names: a string, or an object that has the name as its only member with null for
its value. -/
def enumeration (ofName? : String → Option α) : Decoder α := fun ctx tree =>
  match tree with
  | .text (some s) =>
      match ofName? s with
      | some a => .ok a
      | none => .error .mismatch
  -- The name stands in front of its value, so an unknown name is found before a broken value.
  | .object ((some name, item) :: rest) closed => do
      let ctx ← enter ctx
      match ofName? name with
      | none => .error .mismatch
      | some a =>
          nothing ctx item
          atEnd (closed && rest.isEmpty) a
  | _ => .error .malformed

/-- The items of an array. -/
def listItems (d : Decoder α) (ctx : Context) : List Tree → Except Fault (List α)
  | [] => .ok []
  | tree :: rest => do
      let a ← d ctx tree
      let as ← listItems d ctx rest
      return a :: as

/-- An array. -/
def list (d : Decoder α) : Decoder (List α) := fun ctx tree =>
  match tree with
  | .array items closed => do
      let ctx ← enter ctx
      let as ← listItems d ctx items
      atEnd closed as
  | other => .error other.misfit

/-- The members of an object put into a dictionary, one after the other. -/
def dictionaryMembers (d : Decoder α) (ctx : Context) (found : Dictionary α) :
    List (Option String × Tree) → Except Fault (Dictionary α)
  | [] => .ok found
  | (none, _) :: _ => .error .malformed
  | (some name, tree) :: rest => do
      let a ← d ctx tree
      dictionaryMembers d ctx (found.insert name a) rest

/-- An object as a dictionary, where the last of several members of one name counts. -/
def dictionary (d : Decoder α) : Decoder (Dictionary α) := fun ctx tree =>
  match tree with
  | .object members closed => do
      let ctx ← enter ctx
      let found ← dictionaryMembers d ctx .empty members
      atEnd closed found
  | other => .error other.misfit

/-! ### Records -/

/-- The first fault in how the members of an object stand, apart from their values: a name without a
value, a name given twice, an ignored member that is no JSON, or a missing end. -/
def memberFault (names seen : List String) (place : Nat) (closed : Bool) :
    List (Option String × Tree) → Option Located
  | [] => if closed then none else some ⟨place, .malformed⟩
  | (none, _) :: _ => some ⟨place, .malformed⟩
  | (some name, tree) :: rest =>
      if names.contains name then
        -- A name that is given twice is noticed before the value behind it is read.
        if seen.contains name then some ⟨place, .mismatch⟩
        else memberFault names (name :: seen) (place + 1) closed rest
      else if tree.isComplete then memberFault names seen (place + 1) closed rest
      else some ⟨place, .malformed⟩

/-- What an object holds for the member of the given name. -/
def memberSlot (name : String) (place : Nat) : List (Option String × Tree) → Slot
  | [] => .missing place
  | (key, tree) :: rest =>
      if key = some name then .filled place tree else memberSlot name (place + 1) rest

/-- What an array holds for the members of a record with `count` more members. -/
def itemSlots (place : Nat) : Nat → List Tree → List Slot
  | 0, _ => []
  | count + 1, [] => .cut place :: itemSlots place count []
  | count + 1, tree :: rest => .filled place tree :: itemSlots (place + 1) count rest

/-- The first fault in how the items of an array stand for the members of a record. -/
def itemFault (count : Nat) (items : List Tree) (closed : Bool) : Option Located :=
  -- An array with more items than members counts as one that does not end where it has to.
  if count < items.length then some ⟨count, .malformed⟩
  else if closed then none
  else some ⟨items.length, .malformed⟩

/-- The record, or the first of the faults in the outline and in the members. -/
def settle (outline : Option Located) (record : Except Located α) : Except Fault α :=
  match outline, record with
  | none, .ok a => .ok a
  | none, .error e => .error e.fault
  | some e, .ok _ => .error e.fault
  | some e, .error e' => .error (e.first e').fault

/-- A record: an object, or an array of its members in the declared order. -/
def record (fields : Fields α) : Decoder α := fun ctx tree =>
  match tree with
  | .object members closed => do
      let ctx ← enter ctx
      settle (memberFault fields.names [] 0 closed members)
        (fields.read ctx (fields.names.map fun name => memberSlot name 0 members))
  | .array items closed => do
      let ctx ← enter ctx
      settle (itemFault fields.names.length items closed)
        (fields.read ctx (itemSlots 0 fields.names.length items))
  | other => .error other.misfit

/-! ### Any value -/

mutual

/-- The value of an outline, where the last of several members of one name counts, at the place of
the first. -/
def valueAt (nesting : Nat) : Tree → Except Fault Value
  | .null => .ok .null
  | .bool b => .ok (.bool b)
  | .number (some n) => .ok (.number n)
  | .text (some s) => .ok (.text s)
  | .array items closed =>
      match nesting with
      | 0 => .error .malformed
      | nesting + 1 => do
          let vs ← itemValues nesting items
          atEnd closed (.array vs)
  | .object members closed =>
      match nesting with
      | 0 => .error .malformed
      | nesting + 1 => do
          let ms ← memberValues nesting [] members
          atEnd closed (.object ms)
  | .broken | .number none | .text none => .error .malformed

/-- The values of the items of an array. -/
def itemValues (nesting : Nat) : List Tree → Except Fault (List Value)
  | [] => .ok []
  | tree :: rest => do
      let v ← valueAt nesting tree
      let vs ← itemValues nesting rest
      return v :: vs

/-- The members of an object, put behind those in `found`. -/
def memberValues (nesting : Nat) (found : List (String × Value)) :
    List (Option String × Tree) → Except Fault (List (String × Value))
  | [] => .ok found
  | (none, _) :: _ => .error .malformed
  | (some name, tree) :: rest => do
      let v ← valueAt nesting tree
      memberValues nesting (Value.putMember name v found) rest

end

/-- Any value. -/
def value : Decoder Value := fun ctx tree => valueAt ctx.nesting tree

/-- A value that is set aside before its kind is known: it is read as any value first. -/
def aside (d : Decoder α) : Decoder α := fun ctx tree => do
  let _ ← value ctx tree
  d { ctx with setAside := true } tree

end Decoder

namespace Fields

/-- A member that may be null and that an object may lack. -/
def optional {α : Type} (name : String) (d : Decoder α) : Fields (Option α) :=
  single name d.nullable (some none) none

end Fields

/-! ## Whole texts -/

/-- The value that a text holds, with nothing but white space after it. -/
def decode {α : Type} (d : Decoder α) (text : String) : Except Fault α :=
  let doc := Document.ofText text
  match d ⟨greatestNesting, false⟩ doc.tree with
  | .ok a => if doc.isWhole then .ok a else .error .malformed
  | .error fault => .error fault

end Json
end CmInventory
