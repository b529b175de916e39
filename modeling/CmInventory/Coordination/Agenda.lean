/-!
# Agendas

Tasks that wait for their time. A task that is put on an agenda is due from its deadline on. The due tasks
are taken in the order of their deadlines, those of one deadline in the order in which they were put.
-/

namespace CmInventory

/-- A task and the time, in nanoseconds, from which it is due. -/
structure Appointment (τ : Type) where
  deadline : Nat
  task : τ

/-- Tasks that wait, in the order in which they were put. -/
structure Agenda (τ : Type) where
  appointments : List (Appointment τ)

namespace Agenda

variable {τ : Type}

def empty : Agenda τ := ⟨[]⟩

instance : Inhabited (Agenda τ) := ⟨empty⟩

/-- Puts a task on the agenda. -/
def put (a : Agenda τ) (deadline : Nat) (task : τ) : Agenda τ :=
  ⟨a.appointments ++ [⟨deadline, task⟩]⟩

/-- The tasks that are due, and the agenda without them. -/
def takeDue (a : Agenda τ) (now : Nat) : List τ × Agenda τ :=
  let (due, later) := a.appointments.partition fun x => x.deadline ≤ now
  -- The sort is stable, so the order of putting decides between equal deadlines.
  ((due.mergeSort fun x y => x.deadline ≤ y.deadline).map (·.task), ⟨later⟩)

end Agenda
end CmInventory
