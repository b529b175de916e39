/-!
# Intervals

A length of time: a whole number of nanoseconds, less than `2 ^ 64` seconds. Multiplication stops at
the greatest interval.
-/

namespace CmInventory

/-- A length of time. -/
structure Interval where
  nanos : Nat
  nanos_lt : nanos < 18446744073709551616 * 1000000000
  deriving DecidableEq

namespace Interval

instance : Inhabited Interval := ⟨⟨0, by decide⟩⟩

def zero : Interval := ⟨0, by decide⟩

/-- The greatest interval. -/
def greatest : Interval := ⟨18446744073709551616 * 1000000000 - 1, by decide⟩

/-- The interval of the given length, or the greatest one if that is too long. -/
def ofNanos (n : Nat) : Interval :=
  if h : n < 18446744073709551616 * 1000000000 then ⟨n, h⟩ else greatest

/-- The interval of a number of seconds below `2 ^ 64`. -/
def ofSeconds (n : UInt64) : Interval :=
  ⟨n.toNat * 1000000000, by have := n.toNat_lt; omega⟩

/-- The interval of a number of milliseconds below `2 ^ 64`. -/
def ofMillis (n : UInt64) : Interval :=
  ⟨n.toNat * 1000000, by have := n.toNat_lt; omega⟩

/-- The interval of seconds and nanoseconds, unless the nanoseconds amount to a second. -/
def ofParts? (seconds : UInt64) (nanos : Nat) : Option Interval :=
  if h : nanos < 1000000000 then
    some ⟨seconds.toNat * 1000000000 + nanos, by have := seconds.toNat_lt; omega⟩
  else none

/-- The whole seconds. -/
def seconds (i : Interval) : Nat :=
  i.nanos / 1000000000

/-- The nanoseconds after the whole seconds. -/
def subNanos (i : Interval) : Nat :=
  i.nanos % 1000000000

/-- The interval taken `n` times, or the greatest one if that is too long. -/
def times (i : Interval) (n : Nat) : Interval :=
  ofNanos (i.nanos * n)

/-- The greatest length of a signed interval, which counts up to `2 ^ 63 - 1` milliseconds. -/
def greatestSigned : Nat := 9223372036854775807 * 1000000

/-- The length as a signed interval, if it is not too long for one. -/
def signed? (i : Interval) : Option Int :=
  if i.nanos ≤ greatestSigned then some i.nanos else none

theorem nanos_ofSeconds (n : UInt64) : (ofSeconds n).nanos = n.toNat * 1000000000 := rfl

theorem nanos_ofNanos (n : Nat) : (ofNanos n).nanos = min n (18446744073709551616 * 1000000000 - 1) := by
  unfold ofNanos
  split
  · simp only; omega
  · simp only [greatest]; omega

end Interval
end CmInventory
