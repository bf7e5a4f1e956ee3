import Orchestration.Text.Utf8

/-! Places by path. A path is cut at its slashes; a segment that stands for a name is
percent-decoded after the place is found, so an encoded slash does not cut. -/
namespace Orchestration

inductive Route where
  | health
  | event (id : String)
  | workflows
  | workflow (name : String)
  deriving DecidableEq, Repr

namespace Route

def path (target : String) : String :=
  String.ofList (target.toList.takeWhile fun c => c ≠ '?' && c ≠ '#')

def of? (target : String) : Option Route :=
  match (path target).splitOn "/" with
  | ["", "healthz"] => some .health
  | ["", "events", id] => if id.isEmpty then none else some (.event id)
  | ["", "api", "workflows"] => some .workflows
  | ["", "api", "workflows", name] => if name.isEmpty then none else some (.workflow name)
  | _ => none

def methods : Route → List String
  | .event _ => ["POST"]
  | _ => ["GET", "HEAD"]

def hexValue? (b : UInt8) : Option UInt8 :=
  if 0x30 ≤ b && b ≤ 0x39 then some (b - 0x30)
  else if 0x61 ≤ b && b ≤ 0x66 then some (b - 0x57)
  else if 0x41 ≤ b && b ≤ 0x46 then some (b - 0x37)
  else none

/-- A percent sign and two hexadecimal digits are one byte; a percent sign before anything else
stays. -/
def percentDecode : List UInt8 → List UInt8
  | 0x25 :: a :: b :: rest =>
    match hexValue? a, hexValue? b with
    | some high, some low => (high * 16 + low) :: percentDecode rest
    | _, _ => 0x25 :: percentDecode (a :: b :: rest)
  | byte :: rest => byte :: percentDecode rest
  | [] => []

def decoded (segment : String) : Except Text.Utf8Fault String :=
  Text.readUtf8 ⟨(percentDecode segment.toUTF8.toList).toArray⟩

end Route
end Orchestration
