/-! Spans of time in whole nanoseconds, and instants as nanoseconds since the
epoch or since a clock was started. -/
namespace Orchestration

structure Duration where
  nanos : Nat
  deriving DecidableEq, Repr, Inhabited

namespace Duration

def zero : Duration := ⟨0⟩

def ofMillis (n : Nat) : Duration := ⟨n * 1000000⟩

def ofSecs (n : Nat) : Duration := ⟨n * 1000000000⟩

def secs (d : Duration) : Nat := d.nanos / 1000000000

def millis (d : Duration) : Nat := d.nanos / 1000000

def padded (width n : Nat) : List Char :=
  let digits := Nat.toDigits 10 n
  List.replicate (width - digits.length) '0' ++ digits

def decimal (whole width fraction : Nat) : String :=
  let kept := ((padded width fraction).reverse.dropWhile (· = '0')).reverse
  toString whole ++ (if kept.isEmpty then "" else "." ++ String.ofList kept)

def text (d : Duration) : String :=
  let n := d.nanos
  if 1000000000 ≤ n then decimal (n / 1000000000) 9 (n % 1000000000) ++ "s"
  else if 1000000 ≤ n then decimal (n / 1000000) 6 (n % 1000000) ++ "ms"
  else if 1000 ≤ n then decimal (n / 1000) 3 (n % 1000) ++ "µs"
  else toString n ++ "ns"

end Duration
end Orchestration
