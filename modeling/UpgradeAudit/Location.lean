import UpgradeAudit.Bisection
import UpgradeAudit.Compiler.Output
import UpgradeAudit.Node.Basic
import UpgradeAudit.Text.Bytes

/-!
# Places in the sources

Findings and storage variables say where they were found. A `Locator` names the place of a node:
either by its raw location, or by the path of its source and a line, counted in the texts that the
compiler was given.
-/

namespace UpgradeAudit

/-- Names the place of a node. -/
abbrev Locator := Node → String

/-- The raw location of a node, empty if it has none. -/
def rawLocator : Locator := fun node =>
  (Node.src? node).getD ""

/-- The lines of a source: its number in locations, its path, and the bytes at which the lines after
the first one start. -/
structure SourceLines where
  id : UInt32
  path : String
  starts : Array Nat
  increasing : starts.toList.Pairwise (· < ·)
  deriving DecidableEq, Repr

/-- The lines of all sources of an output, in the order of their paths. -/
structure LineIndex where
  sources : List SourceLines
  deriving DecidableEq, Repr

/-- A raw location taken apart: where it starts, and the number of its source. -/
structure RawLocation where
  start : Nat
  source : UInt32
  deriving DecidableEq, Repr

/-- Reads a raw location, whose parts are divided by colons. -/
def RawLocation.parse? (src : String) : Option RawLocation :=
  match Text.splitOn ':' src.toList with
  | first :: _ :: third :: _ => do
    let start ← Text.numeral? 10 Text.maxWord first
    let source ← Text.numeral? 10 Text.maxHalfWord third
    return ⟨start, UInt32.ofNat source⟩
  | _ => none

namespace SourceLines

def ofText (id : UInt32) (path : String) (text : List Char) : SourceLines where
  id := id
  path := path
  starts := (Text.lineStarts 0 text).toArray
  increasing := Text.lineStarts_pairwise 0 text

/-- The lines of a source of an output. A source whose text is not in the input has one line. -/
def ofSource (input : Compiler.Input) (path : String) (source : Compiler.Source) : SourceLines :=
  match input.sources.get? path with
  | some text => ofText source.id path text.content.toList
  | none => ofText source.id path []

/-- The number of the line that holds a byte. -/
def lineOf (lines : SourceLines) (position : Nat) : Nat :=
  1 + bisect (fun start => start ≤ position) lines.starts

end SourceLines

namespace LineIndex

def ofCompilation (input : Compiler.Input) (output : Compiler.Output) : LineIndex where
  sources := output.sources.entries.map fun entry => .ofSource input entry.1 entry.2

/-- The source of a number; of several the last one. -/
def source? (index : LineIndex) (id : UInt32) : Option SourceLines :=
  index.sources.reverse.find? fun source => source.id = id

/-- The path and the line of a raw location. -/
def locate? (index : LineIndex) (src : String) : Option String := do
  let location ← RawLocation.parse? src
  let source ← index.source? location.source
  return source.path ++ ":" ++ toString (source.lineOf location.start)

/-- Names a place by path and line where that is possible, and else by its raw location. -/
def locator (index : LineIndex) : Locator := fun node =>
  (index.locate? (rawLocator node)).getD (rawLocator node)

end LineIndex

end UpgradeAudit
