import SpirvTables.Fault
import SpirvTables.Layout
import SpirvTables.Section
import SpirvTables.Text.Arrange
import SpirvTables.Text.Basic
import SpirvTables.Text.Search

namespace SpirvTables

structure Kept where
  opname : Text := []
  categoryArgs : Option Text := none
  traits : Option Text := none
  assembly : Option Text := none
  arguments : Option Text := none
  results : Option Text := none
  extras : Option Text := none
  deriving DecidableEq

def unsupportedKinds : List Text :=
  [ "LiteralString", "LiteralContextDependentNumber", "LiteralExtInstInteger",
    "LiteralSpecConstantOpInteger", "PairLiteralIntegerIdRef", "PairIdRefLiteralInteger",
    "PairIdRefIdRef" ]

def resultKinds : List Text := ["IdResultType", "IdResult"]

def scalarKinds : List Text := ["IdMemorySemantics", "IdScope"]

namespace Operand

/-- A kind that is none of the listed ones is an enum, carried as an attribute. -/
def argumentType (opname : Text) (o : Operand) : Except Fault Text :=
  if resultKinds.contains o.kind then throw (.unsupportedKind opname o.kind)
  else if o.kind = ("IdRef" : Text) then
    match o.quantifier with
    | .one => return "SPV_Type"
    | .optional => return "SPV_Optional<SPV_Type>"
    | .variadic => return "Variadic<SPV_Type>"
  else if scalarKinds.contains o.kind then
    match o.quantifier with
    | .one => return "I32"
    | q => throw (.unsupportedQuantifier opname o.kind q)
  else if o.kind = ("LiteralInteger" : Text) then
    match o.quantifier with
    | .one => return "I32Attr"
    | .optional => return "OptionalAttr<I32Attr>"
    | .variadic => return "OptionalAttr<I32ArrayAttr>"
  else if unsupportedKinds.contains o.kind then throw (.unsupportedKind opname o.kind)
  else
    match o.quantifier with
    | .one => return "SPV_" ++ o.kind ++ "Attr"
    | .optional => return "OptionalAttr<SPV_" ++ o.kind ++ "Attr>"
    | .variadic => throw (.variadicEnum opname o.kind)

/-- An operand without a name, or with an empty one, is named for its kind. -/
def argumentName (o : Operand) : Text :=
  match o.name with
  | some (c :: t) => Text.identifier (c :: t)
  | _ => Text.lower o.kind

def argument (opname : Text) (o : Operand) : Except Fault Text := do
  return (← o.argumentType opname) ++ ":$" ++ o.argumentName

end Operand

def plainCategory : Text := "Op"

def assemblyTemplate : Text :=
  "\n    ``` \x7b.ebnf\x7d\n    [TODO]\n    ```\n\n    For example:\n\n    ```\n    [TODO]\n    ```\n  "

def opStem (opname : Text) : Text := (Text.after? "Op" opname).getD opname

def renderSummary (layout : Layout) (summary : Text) : Text :=
  let summary := Text.trim Character.isBlank summary
  if summary.length + ("  let summary = \"\";" : Text).length ≤ layout.lineBudget then
    "\"" ++ summary ++ "\""
  else "[\x7b\n" ++ Text.wrap layout.wrapWidth layout.wrapIndent summary ++ "\n  \x7d]"

def renderDescription (layout : Layout) (body : Text) : Text :=
  Text.join "\n\n" (((Text.lines body).filter (!Text.isAllBlank ·)).map
    (Text.wrap layout.wrapWidth layout.wrapIndent))

def splitResultType : List Operand → Bool × List Operand
  | o :: os => if o.kind = ("IdResultType" : Text) then (true, os) else (false, o :: os)
  | [] => (false, [])

def dropResult : List Operand → List Operand
  | o :: os => if o.kind = ("IdResult" : Text) then os else o :: os
  | [] => []

namespace Instruction

def argumentOperands (i : Instruction) : List Operand :=
  dropResult (splitResultType i.operands).2

def derivedArguments (i : Instruction) : Except Fault Text := do
  match ← i.argumentOperands.mapM (·.argument i.opname) with
  | [] => return []
  | args => return "\n    " ++ Text.join ",\n    " args ++ "\n  "

def derivedResults (i : Instruction) : Text :=
  if (splitResultType i.operands).1 then "\n    SPV_Type:$result\n  " else []

/-- The arguments and results of a record, in the plain category only. -/
def renderInterface (i : Instruction) (kept : Kept) (category : Text) : Except Fault Text := do
  if category = plainCategory then
    let arguments ← match kept.arguments with
      | some a => pure a
      | none => i.derivedArguments
    return "\n  let arguments = (ins" ++ arguments ++ ");\n\n  let results = (outs" ++
      kept.results.getD i.derivedResults ++ ");\n"
  else return []

def renderHead (i : Instruction) (kept : Kept) (category : Text) : Text :=
  let stem := opStem i.opname
  let args := Text.trimEnd (fun c => c == ',' || Character.isBlank c) (kept.categoryArgs.getD [])
  "def SPV_" ++ stem ++ "Op : SPV_" ++ category ++ "<\"" ++ stem ++ "\"" ++ args ++ ", [" ++
    kept.traits.getD [] ++ "]> \x7b\n"

def renderTexts (layout : Layout) (kept : Kept) (doc : Text) : Text :=
  let (summary, body) := Text.headLine doc
  "  let summary = " ++ renderSummary layout summary ++ ";\n\n  let description = [\x7b\n" ++
    renderDescription layout body ++ "\n\n    ### Custom assembly form\n" ++
    kept.assembly.getD assemblyTemplate ++ "\x7d];\n"

def render (layout : Layout) (category : Text) (kept : Kept) (doc : Text) (i : Instruction) :
    Except Fault Text := do
  return i.renderHead kept category ++ renderTexts layout kept doc ++
    (← i.renderInterface kept category) ++ kept.extras.getD [] ++ "\x7d\n"

end Instruction

namespace Kept

/-- The arguments of the category and the traits, from the text behind the name in a record's head.
Without a list of traits, the arguments end at the last closing angle bracket. -/
def headParts (t : Text) : Text × Text :=
  (Text.bracketed? t).getD (Text.beforeLast '>' t, [])

def extrasOf (rest : Text) : Text :=
  match Text.trim (fun c => c == ' ' || c == '}' || c == '\n') rest with
  | [] => []
  | extras => "\n  " ++ extras ++ "\n"

def definitionOf (block : Text) : Except Fault (Text × Text) :=
  let found := (identifiersAfter definitionLead block).filterMap fun (word, rest) =>
    (stem? "Op" word).map (·, rest)
  match found with
  | [definition] => return definition
  | _ => throw (.definitionCount found.length)

/-- The head of a record goes to the first brace at the end of a line, its parameters from the
first angle bracket on. -/
def readHead (stem rest : Text) : Except Fault (Text × Text) := do
  let start : Text := definitionLead ++ stem ++ "Op"
  let some (head, _) := Text.cut? "\x7b\n" (definitionLead ++ rest)
    | throw (.unclosed start "\x7b\\n")
  let some (_, params) := Text.cut? "<" head
    | throw (.unclosed start "<")
  let (_, afterName) ← delimited "\"" "\"" params
  return headParts afterName

def ofBlock (block : Text) : Except Fault Kept := do
  let (stem, definition) ← definitionOf block
  let (categoryArgs, traits) ← readHead stem definition
  let (assembly, rest) ← delimited "### Custom assembly form\n" "\x7d];\n" block
  let (arguments, rest) ← delimited "  let arguments = (ins" ");\n" rest
  let (results, rest) ← delimited "  let results = (outs" ");\n" rest
  return {
    opname := "Op" ++ stem
    categoryArgs := categoryArgs
    traits := traits
    assembly := assembly.getD []
    arguments := arguments.getD []
    results := results.getD []
    extras := extrasOf rest }

end Kept

end SpirvTables
