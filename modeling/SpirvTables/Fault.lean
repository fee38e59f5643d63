import SpirvTables.Grammar.Basic
import SpirvTables.Json.Printer
import SpirvTables.Text.Basic

namespace SpirvTables

abbrev Path := Text

namespace Path

def steps (t : Text) : List Text :=
  (t.splitOnP (· == '/')).filter fun s => s ≠ [] && s ≠ ['.']

/-- What tells two paths apart: their steps, and whether they start at the root or with `.`. -/
def key : Path → List Text
  | '/' :: t => ['/'] :: steps t
  | ['.'] => [['.']]
  | '.' :: '/' :: t => ['.'] :: steps t
  | t => steps t

def bare (p : Path) : Path :=
  match Text.trimEnd (· == '/') p with
  | [] => p
  | q => q

def directory (p : Path) : Path :=
  match Text.trimEnd (· != '/') p with
  | [] => ['.']
  | q => q

end Path

inductive Malformed
  | notJson : Malformed
  | shape : Malformed
  | documentation : Malformed
  | unnamedKind : Nat → Malformed
  | unnamedEnumerant (kind : Text) : Malformed
  | badValue (kind symbol : Text) : Json → Malformed
  | unnamedInstruction : Nat → Malformed
  | missingOpcode (opname : Text) : Malformed

def Malformed.message : Malformed → Text
  | notJson => "invalid JSON"
  | shape => "schema"
  | documentation => "docs"
  | unnamedKind i => "operand kind #" ++ Text.decimal i ++ " has no `kind`"
  | unnamedEnumerant kind => kind ++ ": enumerant without a name"
  | badValue kind symbol v => kind ++ "." ++ symbol ++ ": bad value " ++ v.compact
  | unnamedInstruction i => "instruction #" ++ Text.decimal i ++ " has no `opname`"
  | missingOpcode opname => opname ++ " has no `opcode`"

inductive Obstacle
  | noFile : Obstacle
  | notFound : Obstacle
  | isDirectory : Obstacle
  | notDirectory : Obstacle
  | notText : Obstacle
  | nameTooLong : Obstacle
  | nulInName : Obstacle
  deriving DecidableEq

def Obstacle.message : Obstacle → Text
  | noFile => "no such file"
  | notFound => "No such file or directory (os error 2)"
  | isDirectory => "Is a directory (os error 21)"
  | notDirectory => "Not a directory (os error 20)"
  | notText => "stream did not contain valid UTF-8"
  | nameTooLong => "File name too long (os error 36)"
  | nulInName => "file name contained an unexpected NUL byte"

inductive Mode
  | enums : Mode
  | opcodes : Mode
  | ops : Mode
  deriving DecidableEq

def Mode.task : Mode → Text
  | enums => "enum generation"
  | opcodes => "opcode generation"
  | ops => "op generation"

inductive Fault
  | malformed : Malformed → Fault
  | unsupportedQuantifier (opname kind : Text) : Quantifier → Fault
  | unsupportedKind (opname kind : Text) : Fault
  | variadicEnum (opname kind : Text) : Fault
  | markerMissing (marker : Text) (found : Nat) : Fault
  | markerAmbiguous (marker : Text) (found : Nat) : Fault
  | unclosed (start stop : Text) : Fault
  | definitionCount (found : Nat) : Fault
  | unknownKind (name : Text) : Fault
  | unknownInstruction (opname : Text) : Fault
  | undocumented (opname : Text) : Fault
  | noTarget : Mode → Fault
  | inaccessible : Path → Obstacle → Fault

def Fault.message : Fault → Text
  | malformed m => "malformed SPIR-V grammar: " ++ m.message
  | unsupportedQuantifier opname kind q =>
    opname ++ ": operand kind `" ++ kind ++ "` cannot be " ++ q.phrase
  | unsupportedKind opname kind =>
    opname ++ ": operand kind `" ++ kind ++ "` is not supported yet"
  | variadicEnum opname kind => opname ++ ": enum operand `" ++ kind ++ "` cannot be variadic"
  | markerMissing marker found =>
    "marker `" ++ marker ++ "` must appear twice, found " ++ Text.decimal found
  | markerAmbiguous marker found =>
    "marker `" ++ marker ++ "` is ambiguous: found " ++ Text.decimal found ++ " occurrences"
  | unclosed start stop => "cannot find `" ++ stop ++ "` after `" ++ start ++ "`"
  | definitionCount found =>
    "expected exactly one op definition per block, found " ++ Text.decimal found
  | unknownKind name => "unknown operand kind `" ++ name ++ "`"
  | unknownInstruction opname => "unknown instruction `" ++ opname ++ "`"
  | undocumented opname => "no documentation for `" ++ opname ++ "`"
  | noTarget mode => mode.task ++ " requires a target file path"
  | inaccessible path obstacle => "cannot access " ++ path ++ ": " ++ obstacle.message

def known {α : Type} (found : Option α) (f : Fault) : Except Fault α :=
  match found with
  | some a => return a
  | none => throw f

end SpirvTables
