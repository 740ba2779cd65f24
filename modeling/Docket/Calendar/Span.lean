import Docket.Text.Decimal

/-!
# Lengths of time

A span is a whole number of nanoseconds; its seconds fit a 64-bit word.

* `Span.ofMillis`, `Span.times`: milliseconds as a span, and a multiple that stops at `Span.max`;
* `Span.text`: the number in the largest of `s`, `ms`, `µs`, `ns` that keeps it at least one, with
  an exact fraction and no trailing zeros.
-/

namespace Docket

/-- A length of time in nanoseconds. -/
structure Span where
  nanos : Nat
deriving DecidableEq, Repr

namespace Span

/-- Nanoseconds in a second. -/
def perSecond : Nat := 1000000000

/-- The longest span. -/
def max : Span := ⟨(UInt64.size - 1) * perSecond + (perSecond - 1)⟩

/-- `ms` milliseconds. -/
def ofMillis (ms : Nat) : Span := ⟨ms * 1000000⟩

/-- `n` times the span, or the longest span if that is shorter. -/
def times (d : Span) (n : Nat) : Span := ⟨min (d.nanos * n) max.nanos⟩

/-- Whole seconds. -/
def seconds (d : Span) : Nat := d.nanos / perSecond

/-- Whole milliseconds. -/
def millis (d : Span) : Nat := d.nanos / 1000000

/-- `value` in units of `unit`, a one with `places` zeros, with its exact fraction. -/
def inUnits (unit places value : Nat) : List Char :=
  let fraction := (Decimal.padded places (value % unit)).reverse.dropWhile (· == '0')
  let whole := Decimal.digits (value / unit)
  if fraction.isEmpty then whole else whole ++ '.' :: fraction.reverse

/-- The span in its largest unit. -/
def text (d : Span) : String :=
  if perSecond ≤ d.nanos then String.ofList (inUnits perSecond 9 d.nanos) ++ "s"
  else if 1000000 ≤ d.nanos then String.ofList (inUnits 1000000 6 d.nanos) ++ "ms"
  else if 1000 ≤ d.nanos then String.ofList (inUnits 1000 3 d.nanos) ++ "µs"
  else String.ofList (Decimal.digits d.nanos) ++ "ns"

example : (Span.mk 1500000).text = "1.5ms" := by decide +kernel
example : (Span.mk 60000000000).text = "60s" := by decide +kernel

end Span

end Docket
