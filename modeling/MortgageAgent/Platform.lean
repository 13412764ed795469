import Mathlib.Algebra.Order.Ring.Nat
import Mathlib.Data.List.Basic

/-!
# The platform under the services

What the services take from JavaScript and from PostgreSQL, under the names the code
knows it by: identifiers and instants, the numbers and strings a request carries,
`integer` columns with their range, the database errors the code tells apart, and the
calendar month a `date_trunc` falls on.
-/

namespace MortgageAgent

/-- A `uuid`, as a number: uuids compare as their texts do, and a text is written in decimal. -/
abbrev Uuid := Nat

/-- Milliseconds since the epoch, the value of `Date.getTime()`. -/
abbrev Instant := Int

/-- A `date` column, as days since the epoch. -/
abbrev Day := Int

/-- A JavaScript `number` that reaches a validation: integral, or one of the values that
`Number.isSafeInteger` refuses outright (`NaN`, the infinities, a fraction). -/
inductive JsNumber where
  | int (value : Int)
  | nonInteger
  deriving DecidableEq, Repr

/-- The whitespace `String.prototype.trim` removes. -/
def isJsWhitespace (c : Char) : Bool :=
  c.val = 0x20 || (0x09 ≤ c.val && c.val ≤ 0x0D) || c.val = 0xA0 || c.val = 0x1680
    || (0x2000 ≤ c.val && c.val ≤ 0x200A) || c.val = 0x2028 || c.val = 0x2029
    || c.val = 0x202F || c.val = 0x205F || c.val = 0x3000 || c.val = 0xFEFF

/-- Strips the characters that meet `p` from both ends. -/
def trimWhere (p : Char → Bool) (s : String) : String :=
  String.ofList ((s.toList.dropWhile p).reverse.dropWhile p).reverse

/-- `s.trim()`. -/
def jsTrim (s : String) : String := trimWhere isJsWhitespace s

/-- `s.length`: UTF-16 code units. -/
def jsLength (s : String) : Nat :=
  (s.toList.map fun c => if 0x10000 ≤ c.val then 2 else 1).sum

/-- SQL `btrim(s)`: spaces only. -/
def btrim (s : String) : String := trimWhere (· == ' ') s

/-- `/^[A-Z]{3}$/.test(s)`. -/
def isCurrencyCode (s : String) : Bool :=
  s.toList.length = 3 && s.toList.all fun c => 'A' ≤ c && c ≤ 'Z'

/-! ## PostgreSQL -/

/-- The error conditions a statement can raise. Each aborts its transaction, so the rows
stay as they were before it. -/
inductive PgError where
  /-- 23505 -/
  | uniqueViolation
  /-- 23503 -/
  | foreignKeyViolation
  /-- 23514 -/
  | checkViolation
  /-- 22003 -/
  | numericValueOutOfRange
  /-- 25P02: a statement sent to a transaction that has already failed -/
  | inFailedTransaction
  deriving DecidableEq, Repr

/-- The range of an `integer` column. -/
def inInt4 (v : Int) : Bool := -2147483648 ≤ v && v ≤ 2147483647

/-- The result of an `integer` operation, or 22003. -/
def int4 (v : Int) : Except PgError Int :=
  if inInt4 v then .ok v else .error .numericValueOutOfRange

def int4Add (a b : Int) : Except PgError Int := int4 (a + b)

def int4Sub (a b : Int) : Except PgError Int := int4 (a - b)

theorem int4_eq_ok {v w : Int} (h : int4 v = .ok w) : w = v := by
  unfold int4 at h
  split at h
  · cases h; rfl
  · cases h

theorem int4Add_eq_ok {a b w : Int} (h : int4Add a b = .ok w) : w = a + b := int4_eq_ok h

theorem int4Sub_eq_ok {a b w : Int} (h : int4Sub a b = .ok w) : w = a - b := int4_eq_ok h

/-- A `do` block that succeeded ran its first part to success, and then the rest. -/
theorem ok_of_bind_ok {ε α β : Type} {x : Except ε α} {f : α → Except ε β} {b : β}
    (h : x >>= f = .ok b) : ∃ a, x = .ok a ∧ f a = .ok b := by
  match x, h with
  | .ok a, h => exact ⟨a, rfl, h⟩

/-- A short-circuit conjunction that came out true evaluated both sides to true. -/
theorem ok_true_of_andM {ε : Type} {x y : Except ε Bool} (h : (x <&&> y) = .ok true) :
    x = .ok true ∧ y = .ok true := by
  obtain ⟨b, hb, h⟩ := ok_of_bind_ok h
  cases b with
  | true => exact ⟨hb, h⟩
  | false => cases h

/-! ## Calendar -/

/-- Milliseconds in a day. -/
def dayMs : Int := 86400000

/-- The UTC day an instant falls on. -/
def utcDay (t : Instant) : Day := t / dayMs

/-- Year, month and day of a day of the Gregorian calendar, counted through the 400-year era
of 146097 days that begins on a 1 March. -/
def civilDate (day : Day) : Int × Int × Int :=
  let z := day + 719468
  let era := z / 146097
  let doe := z % 146097
  let yoe := (doe - doe / 1460 + doe / 36524 - doe / 146096) / 365
  let doy := doe - (365 * yoe + yoe / 4 - yoe / 100)
  let mp := (5 * doy + 2) / 153
  let month := if mp < 10 then mp + 3 else mp - 9
  (yoe + era * 400 + (if month ≤ 2 then 1 else 0), month, doy - (153 * mp + 2) / 5 + 1)

/-- The day of the month, from 1. -/
def dayOfMonth (day : Day) : Int := (civilDate day).2.2

/-- `date_trunc('month', t AT TIME ZONE 'UTC')::date`. -/
def monthStart (t : Instant) : Day := utcDay t - (dayOfMonth (utcDay t) - 1)

-- 2026-08-15T12:00Z falls in the month that begins on day 20666, 2024-02-29 on 19754.
example : monthStart 1786795200000 = 20666 ∧ monthStart 1709164800000 = 19754 := by decide

/-- The digits of a non-negative number, zero-padded to a width. -/
def padded (width : Nat) (n : Nat) : String :=
  let digits := (toString n).toList
  String.ofList (List.replicate (width - digits.length) '0' ++ digits)

/-- `Date.prototype.toISOString`. -/
def toISOString (t : Instant) : String :=
  let (year, month, day) := civilDate (utcDay t)
  let ms := (t % dayMs).toNat
  let yearText :=
    if 0 ≤ year ∧ year ≤ 9999 then padded 4 year.natAbs
    else (if year < 0 then "-" else "+") ++ padded 6 year.natAbs
  yearText ++ "-" ++ padded 2 month.natAbs ++ "-" ++ padded 2 day.natAbs ++ "T"
    ++ padded 2 (ms / 3600000) ++ ":" ++ padded 2 (ms / 60000 % 60) ++ ":"
    ++ padded 2 (ms / 1000 % 60) ++ "." ++ padded 3 (ms % 1000) ++ "Z"

example : toISOString 1786795200123 = "2026-08-15T12:00:00.123Z" := by decide

end MortgageAgent
