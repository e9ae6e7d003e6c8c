import DavGateway.Text.Number

/-!
# Spans of time

A span is a whole number of nanoseconds. Its text uses the largest unit that gives a whole part
above zero, and only as many decimals as are needed.
-/

namespace DavGateway

/-- A length of time. -/
structure Span where
  nanos : Nat
deriving DecidableEq, Repr, Inhabited

namespace Span

/-- A span of whole seconds. -/
def ofSeconds (n : Nat) : Span := ⟨n * 1000000000⟩

/-- A span of whole milliseconds. -/
def ofMillis (n : Nat) : Span := ⟨n * 1000000⟩

/-- A span of whole microseconds. -/
def ofMicros (n : Nat) : Span := ⟨n * 1000⟩

/-- The whole seconds of a span. -/
def seconds (s : Span) : Nat := s.nanos / 1000000000

/-- `whole` and the decimals of `part`, of which there are at most `places`, none of them a zero
at the end. -/
def decimals (whole part places : Nat) : String :=
  let digits := (Text.padded places part).toList.reverse.dropWhile (· == '0')
  if part = 0 then toString whole
  else toString whole ++ "." ++ String.ofList digits.reverse

/-- The span in seconds, milliseconds, microseconds or nanoseconds. -/
def text (s : Span) : String :=
  let n := s.nanos
  if 1000000000 ≤ n then decimals (n / 1000000000) (n % 1000000000) 9 ++ "s"
  else if 1000000 ≤ n then decimals (n / 1000000) (n % 1000000) 6 ++ "ms"
  else if 1000 ≤ n then decimals (n / 1000) (n % 1000) 3 ++ "µs"
  else toString n ++ "ns"

end Span

end DavGateway
