import SpirvTables.Command.Basic

namespace SpirvTables

inductive Query
  | kinds : Query
  | instructions (group : Option Text) : Query
  | enum (kind : Text) : Query
  | opcodes (opnames : List Text) : Query
  | op (opname : Text) (docs : Option Path) (category : Text) : Query
  deriving DecidableEq

inductive Format
  | text : Format
  | json : Format
  deriving DecidableEq

structure Inspect where
  grammar : Path
  format : Format
  out : Option Path
  query : Query
  deriving DecidableEq

structure View where
  text : Text
  json : Json

def View.render (v : View) : Format → Text
  | .text => v.text
  | .json => v.json.pretty 0 ++ "\n"

namespace Query

def kindsView (g : Grammar) : View where
  text :=
    row "kind" "category" "values" ++ g.kinds.flatMap fun k =>
      row k.name k.category.name (Text.decimal k.cases.length)
  json := .array (g.kinds.map fun k => .object
    [ ("name", .string k.name), ("category", .string k.category.name),
      ("values", .integer k.cases.length) ])
where
  row (name category values : Text) : Text :=
    Text.padRight 36 name ++ " " ++ Text.padRight 10 category ++ " " ++ Text.padLeft 6 values ++
      "\n"

def instructionsView (g : Grammar) (group : Option Text) : View where
  text := shown.flatMap fun i =>
    Text.padLeft 5 (Text.decimal i.opcode.toNat) ++ " " ++ Text.padRight 40 i.opname ++ " " ++
      i.group.getD "-" ++ "\n"
  json := .array (shown.map fun i => .object
    [ ("opname", .string i.opname), ("opcode", .integer i.opcode.toNat),
      ("class", i.group.elim .null .string), ("operands", .integer i.operands.length) ])
where
  shown : List Instruction := g.instructions.filter fun i => group.isNone || i.group = group

def enumView (g : Grammar) (kind : Text) : Except Text View :=
  match g.kind? kind with
  | none => throw ("unknown operand kind: " ++ kind)
  | some k =>
    match k.fragment? {} with
    | none => throw (kind ++ " has no enumerants")
    | some f => return {
        text := f.text ++ "\n"
        json := .object [("kind", .string f.kind), ("text", .string f.text)] }

def instruction (g : Grammar) (opname : Text) : Except Text Instruction :=
  match g.instruction? opname with
  | none => throw ("unknown instruction: " ++ opname)
  | some i => return i

def previewJson (name text : Text) : Json :=
  .object [("name", .string name), ("text", .string text)]

def opcodesView (g : Grammar) (opnames : List Text) : Except Text View := do
  let text := opcodeDefinitions {} (← opnames.mapM (instruction g))
  return { text := text ++ "\n", json := previewJson "Opcode" text }

def opView (g : Grammar) (disk : Disk) (opname : Text) (docs : Option Path) (category : Text) :
    Except Text View := do
  let i ← instruction g opname
  let docs ← match docs with
    | none => pure {}
    | some p => do
      let t ← (disk.read p).mapError Obstacle.message
      (Docs.ofText t).mapError fun m => (Fault.malformed m).message
  let text ← (i.render {} category {} ((docs.get? opname).getD [])).mapError Fault.message
  return { text, json := previewJson opname text }

def view (q : Query) (g : Grammar) (disk : Disk) : Except Text View :=
  match q with
  | kinds => return kindsView g
  | instructions group => return instructionsView g group
  | enum kind => enumView g kind
  | opcodes opnames => opcodesView g opnames
  | op opname docs category => opView g disk opname docs category

def names : List Text := ["kinds", "instructions", "enum", "opcodes", "op"]

def switches (name : Text) : List Switch :=
  if name = ("instructions" : Text) then [⟨"class", .one⟩]
  else if name = ("op" : Text) then [⟨"docs", .one⟩, ⟨"inst-category", .one⟩]
  else []

def ofArgs? (name : Text) (as : List Text) : Option Query := do
  let args ← Args.ofList? (switches name) [] as
  if name = ("opcodes" : Text) then return .opcodes args.operands
  else
    match args.operands with
    | [] =>
      if name = ("kinds" : Text) then return .kinds
      else if name = ("instructions" : Text) then return .instructions (← args.value? "class")
      else none
    | [operand] =>
      if name = ("enum" : Text) then return .enum operand
      else if name = ("op" : Text) then
        return .op operand (← args.path? "docs") ((← args.value? "inst-category").getD plainCategory)
      else none
    | _ => none

def paths : Query → List Path
  | op _ docs _ => docs.toList
  | _ => []

end Query

namespace Inspect

def switches : List Switch := [⟨"format", .one⟩, ⟨"out", .one⟩]

def format? : Option Text → Option Format
  | none => some .text
  | some name =>
    if name = ("text" : Text) then some .text
    else if name = ("json" : Text) then some .json
    else none

def ofArgs? (as : List Text) : Option Inspect := do
  let args ← Args.ofList? switches Query.names as
  let (name, rest) ← args.subcommand
  match args.operands with
  | [c :: path] =>
    return {
      grammar := c :: path
      format := ← format? (← args.value? "format")
      out := ← args.path? "out"
      query := ← Query.ofArgs? name rest }
  | _ => none

def view (i : Inspect) (disk : Disk) : Except Text View := do
  let t ← (disk.read i.grammar).mapError Obstacle.message
  let g ← (Grammar.ofText t).mapError fun m => (Fault.malformed m).message
  i.query.view g disk

def execute (i : Inspect) (disk : Disk) : Outcome :=
  match i.view disk with
  | .error message => .failure disk message
  | .ok v =>
    match i.out with
    | none => .success disk (v.render i.format)
    | some p =>
      match disk.write p (v.render i.format) with
      | .error o => .failure disk o.message
      | .ok disk => .success disk []

def paths (i : Inspect) : List Path := i.grammar :: i.out.toList ++ i.query.paths

end Inspect

def inspect (as : List Text) (disk : Disk) : Outcome :=
  match Inspect.ofArgs? as with
  | none => .usage disk
  | some i => i.execute disk

end SpirvTables
