import Orchestration.Decimal.Shortest
import Orchestration.Text.Quoted
import Orchestration.Workflow.Reading
import Orchestration.Yaml.Node
import Orchestration.Yaml.Plain

/-! Definitions from YAML documents. Where a text is wanted any scalar gives its own;
where a collection is wanted nothing written is an empty one. Values for parameters
are read by their spelling and their tags. Collections may be nested 128 deep, and
what an alias stands for counts where the alias stands. -/
namespace Orchestration.Yaml

structure Value where
  node : Node
  depth : Nat
  deriving Repr

namespace Value

def coreTag (name : String) : String := "tag:yaml.org,2002:" ++ name

def isLocalTag (tag : String) : Bool := tag.startsWith "!"

def interpret (tag : Option String) (plain : Bool) (text : String) : Except Misfit Plain :=
  let found := "string " ++ Text.quoted text
  match tag with
  | none => .ok (if plain then Plain.read text else .text)
  | some tag =>
    if tag = coreTag "bool" then
      ((Plain.bool? text).map fun b => .ok (.bool b)).getD (.error (.invalidValue found "a boolean"))
    else if tag = coreTag "int" then
      ((Plain.int? text).map fun n => .ok (.int n)).getD (.error (.invalidValue found "an integer"))
    else if tag = coreTag "float" then
      ((Plain.float? text).map fun x => .ok (.float x)).getD (.error (.invalidValue found "a float"))
    else if tag = coreTag "null" then
      if Plain.isNull text then .ok .null else .error (.invalidValue found "null")
    else .ok (if isLocalTag tag && plain then Plain.read text else .text)

def isInfinite (bits : UInt64) : Bool := bits = Plain.infinity || bits = Plain.negativeInfinity

def floatText (bits : UInt64) : String :=
  (Decimal.text? ⟨-400, 400⟩ bits).getD
    (if bits = Plain.infinity then "inf"
    else if bits = Plain.negativeInfinity then "-inf"
    else "NaN")

def isJsonInt (n : Int) : Bool := -(Nat.pow 2 63) ≤ n && n < Nat.pow 2 64

def intText (n : Int) : String :=
  "integer `" ++ toString n ++ "`" ++
    (if isJsonInt n then "" else if n < 0 then " as i128" else " as u128")

def found (text : String) : Plain → String
  | .null => "unit value"
  | .bool b => "boolean `" ++ (if b then "true" else "false") ++ "`"
  | .int n => intText n
  | .float bits => "floating point `" ++ floatText bits ++ "`"
  | .text => "string " ++ Text.quoted text

def misfit (expected : String) : Node → Misfit
  | .scalar tag plain text => match interpret tag plain text with
    | .error m => m
    | .ok value => .invalidType (found text value) expected
  | .sequence .. => .invalidType "sequence" expected
  | .mapping .. => .invalidType "map" expected
  | .alias _ => .invalidType "alias" expected

def isAbsent : Node → Bool
  | .scalar _ plain text => plain && text.isEmpty
  | _ => false

section
variable (anchors : Anchors)

def resolve : Node → Node
  | .alias number => (anchors.target? number).getD .absent
  | node => node

def inside (depth : Nat) : Except Misfit Nat :=
  match depth with
  | 0 => .error .tooDeep
  | depth + 1 => .ok depth

def text (expected : String) (v : Value) : Except Misfit String :=
  match resolve anchors v.node with
  | .scalar _ _ text => .ok text
  | node => .error (misfit expected node)

def present (v : Value) : Except Misfit (Option Value) :=
  match resolve anchors v.node with
  | .scalar tag plain text =>
    if !plain then .ok (some v)
    else match tag with
      | some tag =>
        if tag = coreTag "null" then
          if Plain.isNull text then .ok none
          else .error (.invalidValue ("string " ++ Text.quoted text) "null")
        else .ok (some v)
      | none => .ok (if text.isEmpty || Plain.isNull text then none else some v)
  | _ => .ok (some v)

def items (v : Value) : Except Misfit (List Value) :=
  match resolve anchors v.node with
  | .sequence _ items => (inside v.depth).map fun depth => items.map (⟨·, depth⟩)
  | node => if isAbsent node then .ok [] else .error (misfit "a sequence" node)

def entriesAs (expected : String) (v : Value) : Except Misfit (List (Value × Value)) :=
  match resolve anchors v.node with
  | .mapping _ entries =>
    (inside v.depth).map fun depth => entries.map fun (key, value) => (⟨key, depth⟩, ⟨value, depth⟩)
  | node => if isAbsent node then .ok [] else .error (misfit expected node)

def record (shape : Shape) (v : Value) : Except Misfit (Members Value) :=
  (entriesAs anchors ("struct " ++ shape.name) v).map fun entries => ⟨entries, .missingField, none⟩

def placeOf : Node → Place
  | .scalar _ _ text => .key text
  | _ => .unnamed

def place (v : Value) : Place := placeOf v.node

def plainJson (text : String) : Plain → Except Misfit Json
  | .null => .ok .null
  | .bool b => .ok (.bool b)
  | .int n => if isJsonInt n then .ok (.int n) else .error .numberOutOfRange
  | .float bits => .ok (if bits = Plain.notANumber || isInfinite bits then .null else .float bits)
  | .text => .ok (.str text)

def jsonFields (read : Node → Read Json) (expected : String) (taken : Payload) :
    List (Node × Node) → Read Payload
  | [] => .ok taken
  | (key, value) :: rest =>
    match resolve anchors key with
    | .scalar _ _ name =>
      match within (placeOf key) (read value) with
      | .error f => .error f
      | .ok value => jsonFields read "a string" (taken.insert name value) rest
    | node => .error ⟨[], misfit expected node⟩

def jsonAt : Nat → Node → Read Json
  | depth, node =>
    let any := "any valid JSON value"
    let untagged (tag : Option String) (value : Read Json) : Read Json :=
      if tag.any isLocalTag then .error ⟨[], .invalidType "enum" any⟩ else value
    match resolve anchors node, depth with
    | .scalar tag plain text, _ =>
      untagged tag (atRoot ((interpret tag plain text).bind (plainJson text)))
    | .sequence tag items, depth + 1 =>
      untagged tag ((Reader.each (jsonAt depth) 0 items).map .arr)
    | .mapping tag entries, depth + 1 =>
      untagged tag ((jsonFields anchors (jsonAt depth) "a string key" .empty entries).map
        Payload.toJson)
    | .sequence tag _, 0 => untagged tag (.error ⟨[], .tooDeep⟩)
    | .mapping tag _, 0 => untagged tag (.error ⟨[], .tooDeep⟩)
    | .alias _, _ => .ok .null
termination_by structural depth => depth

def json (v : Value) : Read Json := jsonAt anchors v.depth v.node

def reader : Reader Value :=
  ⟨text anchors, present anchors, items anchors, record anchors, entriesAs anchors "a map", place,
    json anchors⟩

end

end Value

def maxDepth : Nat := 128

end Yaml

def Definition.ofYaml (bytes : ByteArray) : Except DocumentFault Definition :=
  match Yaml.Document.ofBytes? bytes with
  | none => .error .malformed
  | some document =>
    (Definition.read (Yaml.Value.reader document.anchors) ⟨document.root, Yaml.maxDepth⟩).mapError
      fun f => .unfit f.message

end Orchestration
