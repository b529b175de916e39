import CmInventory.Json.Decoder
import CmInventory.Text.Blank
import CmInventory.Time.Instant
import CmInventory.Time.Interval

/-!
# Instants and intervals as text

An instant is written as `2020-01-31T12:34:56.789Z`: in universal time, with as many groups of three
fraction digits as it takes to be exact, and a sign in front of a year outside of 0 to 9999.

The reader accepts more than is written: a lower-case letter or a space between date and time, white
space around the marks, fewer digits in a field, any number of fraction digits, of which the first
nine count, and an offset from universal time, which is subtracted.

An interval is written as an array of whole seconds and the nanoseconds after them, or as a number of
seconds or milliseconds alone.
-/

namespace CmInventory
namespace Instant

/-! ## Writing -/

/-- A natural number with at least `width` digits. -/
def padded (width n : Nat) : List Char :=
  let digits := Nat.toDigits 10 n
  List.replicate (width - digits.length) '0' ++ digits

/-- The digits of the fraction of a second and the point before them. -/
def fractionChars (nanosecond : Nat) : List Char :=
  if nanosecond = 0 then []
  else if nanosecond % 1000000 = 0 then '.' :: padded 3 (nanosecond / 1000000)
  else if nanosecond % 1000 = 0 then '.' :: padded 6 (nanosecond / 1000)
  else '.' :: padded 9 nanosecond

/-- A year, with a sign if it is not between 0 and 9999. -/
def yearChars (year : Int) : List Char :=
  if 0 ≤ year ∧ year ≤ 9999 then padded 4 year.toNat
  else if year < 0 then '-' :: padded 4 year.natAbs
  else '+' :: padded 4 year.natAbs

/-- The characters of an instant. -/
def chars (t : Instant) : List Char :=
  yearChars t.year ++ '-' :: (padded 2 t.month ++ '-' :: (padded 2 t.day ++ 'T' ::
    (padded 2 t.hour ++ ':' :: (padded 2 t.minute ++ ':' :: (padded 2 t.second ++
      (fractionChars t.nanosecond ++ ['Z']))))))

def render (t : Instant) : String :=
  String.ofList t.chars

/-! ## Reading -/

/-- The natural number that starts a text, of at most `width` digits and at least one. -/
def number? (width : Nat) (cs : List Char) : Option (Nat × List Char) :=
  let digits := (cs.take width).takeWhile Char.isDigit
  if digits.isEmpty then none
  else
    some (digits.foldl (fun n c => 10 * n + (c.toNat - 48)) 0, cs.drop digits.length)

/-- A field of a date or time: a number after white space. -/
def field? (width : Nat) (cs : List Char) : Option (Nat × List Char) :=
  number? width (Text.trimStart cs)

/-- A year, after white space: up to four digits, or a sign and any number of them. -/
def year? (cs : List Char) : Option (Int × List Char) :=
  match Text.trimStart cs with
  | '-' :: rest => (number? rest.length rest).map fun (n, after) => (-(n : Int), after)
  | '+' :: rest => (number? rest.length rest).map fun (n, after) => ((n : Int), after)
  | rest => (number? 4 rest).map fun (n, after) => ((n : Int), after)

/-- The text after a mark, which white space may precede. -/
def mark? (mark : Char) (cs : List Char) : Option (List Char) :=
  match Text.trimStart cs with
  | c :: rest => if c = mark then some rest else none
  | [] => none

/-- The text after the letter or space between a date and a time. -/
def separator? : List Char → Option (List Char)
  | c :: rest => if c = 'T' ∨ c = 't' ∨ c = ' ' then some rest else none
  | [] => none

/-- A fraction of a second in nanoseconds, zero if there is no decimal point. -/
def fraction? : List Char → Option (Nat × List Char)
  | '.' :: rest =>
      (number? 9 rest).map fun (n, after) =>
        (n * Nat.pow 10 (9 - (rest.length - after.length)), after.dropWhile Char.isDigit)
  | cs => some (0, cs)

def twoDigits? : List Char → Option (Nat × List Char)
  | a :: b :: rest =>
      if a.isDigit && b.isDigit then some (10 * (a.toNat - 48) + (b.toNat - 48), rest) else none
  | _ => none

/-- The hours and minutes of an offset after its sign, in minutes. -/
def offsetMinutes? (cs : List Char) : Option (Nat × List Char) := do
  let (hours, cs) ← twoDigits? cs
  let (minutes, cs) ← twoDigits? (cs.dropWhile fun c => c = ':' || Text.isSpace c)
  if minutes < 60 ∧ hours < 24 then some (60 * hours + minutes, cs) else none

/-- An offset from universal time in minutes. -/
def offset? : List Char → Option (Int × List Char)
  | 'Z' :: rest | 'z' :: rest => some (0, rest)
  | '+' :: rest => (offsetMinutes? rest).map fun (n, after) => ((n : Int), after)
  | '-' :: rest | '\u2212' :: rest => (offsetMinutes? rest).map fun (n, after) => (-(n : Int), after)
  | a :: b :: c :: rest =>
      if [a.toUpper, b.toUpper, c.toUpper] = ['U', 'T', 'C'] then some (0, rest) else none
  | _ => none

/-- The instant that a text stands for. -/
def ofText? (s : String) : Option Instant := do
  let (year, cs) ← year? s.toList
  let (month, cs) ← field? 2 (← mark? '-' cs)
  let (day, cs) ← field? 2 (← mark? '-' cs)
  let (hour, cs) ← field? 2 (← separator? cs)
  let (minute, cs) ← field? 2 (← mark? ':' cs)
  let (second, cs) ← field? 2 (← mark? ':' cs)
  let (nanosecond, cs) ← fraction? cs
  let (offset, cs) ← offset? (Text.trimStart cs)
  if (Text.trimStart cs).isEmpty then
    (← ofFields? year month day hour minute second nanosecond).addMinutes? (-offset)
  else none

def toJson (t : Instant) : Json.Value :=
  .text t.render

def decoder : Json.Decoder Instant :=
  Json.Decoder.parsedText ofText?

end Instant

namespace Interval

/-! ## Intervals -/

def wordDecoder : Json.Decoder UInt64 :=
  (Json.Decoder.natural UInt64.size).map UInt64.ofNat

def millisDecoder : Json.Decoder Interval :=
  wordDecoder.map ofMillis

def secondsDecoder : Json.Decoder Interval :=
  wordDecoder.map ofSeconds

/-- An interval as an array of seconds and nanoseconds. -/
def toJson (i : Interval) : Json.Value :=
  .array [.natural i.seconds, .natural i.subNanos]

/-- An interval from an array of seconds and nanoseconds. -/
def decoder : Json.Decoder Interval := fun ctx tree =>
  match tree with
  | .array [seconds, nanos] true => do
      let seconds ← wordDecoder ctx seconds
      let nanos ← Json.Decoder.natural UInt32.size ctx nanos
      match ofParts? seconds nanos with
      | some i => .ok i
      | none => .error .mismatch
  | other => .error other.misfit

end Interval
end CmInventory
