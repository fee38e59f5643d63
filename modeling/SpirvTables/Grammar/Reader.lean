import SpirvTables.Character.Basic
import SpirvTables.Fault
import SpirvTables.Grammar.Basic
import SpirvTables.Json.Basic
import SpirvTables.Json.Reader

/-!
A grammar as its document states it, where names and opcodes may be missing and values may be
anything. A document of another shape is refused before its entries are looked at.
-/

namespace SpirvTables

structure DraftEnumerant where
  symbol : Option Text
  value : Json

structure DraftKind where
  name : Option Text
  category : Category
  enumerants : List DraftEnumerant

structure DraftInstruction where
  opname : Option Text
  opcode : Option UInt32
  group : Option Text
  operands : List Operand

structure Draft where
  kinds : List DraftKind
  instructions : List DraftInstruction

def Category.ofJson? : Option Json → Option Category
  | none => some .other
  | some v => v.choice?.map Category.ofName

def Quantifier.ofJson? : Option Json → Option Quantifier
  | none => some .one
  | some v => do Quantifier.ofMark? (← v.choice?)

def Operand.ofJson? (v : Json) : Option Operand := do
  guard (v.isRecord 3)
  return {
    kind := ← (← v.member? 0 "kind" false).bind Json.text?
    quantifier := ← Quantifier.ofJson? (← v.member? 1 "quantifier" true)
    name := ← Json.textIfAny? (← v.member? 2 "name" true) }

def DraftEnumerant.ofJson? (v : Json) : Option DraftEnumerant := do
  guard (v.isRecord 2)
  return {
    symbol := ← Json.textIfAny? (← v.member? 0 "enumerant" false)
    value := (← v.member? 1 "value" true).getD .null }

def DraftKind.ofJson? (v : Json) : Option DraftKind := do
  guard (v.isRecord 3)
  return {
    name := ← Json.textIfAny? (← v.member? 0 "kind" false)
    category := ← Category.ofJson? (← v.member? 1 "category" true)
    enumerants := ← Json.listIfAny? DraftEnumerant.ofJson? (← v.member? 2 "enumerants" true) }

def DraftInstruction.ofJson? (v : Json) : Option DraftInstruction := do
  guard (v.isRecord 4)
  return {
    opname := ← Json.textIfAny? (← v.member? 0 "opname" false)
    opcode := ← Json.wordIfAny? (← v.member? 1 "opcode" false)
    group := ← Json.textIfAny? (← v.member? 2 "class" false)
    operands := ← Json.listIfAny? Operand.ofJson? (← v.member? 3 "operands" true) }

def Draft.ofJson? (v : Json) : Option Draft := do
  guard (v.isRecord 2)
  return {
    kinds := ← Json.listIfAny? DraftKind.ofJson? (← v.member? 0 "operand_kinds" true)
    instructions := ← Json.listIfAny? DraftInstruction.ofJson? (← v.member? 1 "instructions" true) }

def digitValue? (base : Nat) (c : Char) : Option Nat :=
  let n :=
    if c.isDigit then c.toNat - '0'.toNat
    else if c.isLower then c.toNat - 'a'.toNat + 10
    else if c.isUpper then c.toNat - 'A'.toNat + 10
    else base
  if n < base then some n else none

def digitsValue? (base : Nat) (n : Nat) : Text → Option Nat
  | [] => some n
  | c :: t => do digitsValue? base (n * base + (← digitValue? base c)) t

def numberValue? (base : Nat) (t : Text) : Option UInt32 := do
  let digits := match t with
    | '+' :: ds => ds
    | ds => ds
  guard (digits ≠ [])
  let n ← digitsValue? base 0 digits
  if n < UInt32.size then some (UInt32.ofNat n) else none

/-- The value of an enumerant: a number, or its text in base ten, or in base sixteen behind `0x`. -/
def enumerantValue? : Json → Option UInt32
  | .string s =>
    match Text.trim Character.isBlank s with
    | '0' :: 'x' :: t => numberValue? 16 t
    | '0' :: 'X' :: t => numberValue? 16 t
    | t => numberValue? 10 t
  | v => v.word?

def DraftEnumerant.complete (kind : Text) (e : DraftEnumerant) : Except Malformed Enumerant := do
  let some symbol := e.symbol | throw (.unnamedEnumerant kind)
  let some value := enumerantValue? e.value | throw (.badValue kind symbol e.value)
  return { symbol, value }

def DraftKind.complete (position : Nat) (k : DraftKind) : Except Malformed OperandKind := do
  let some name := k.name | throw (.unnamedKind position)
  return { name, category := k.category, enumerants := ← k.enumerants.mapM (·.complete name) }

def DraftInstruction.complete (position : Nat) (i : DraftInstruction) :
    Except Malformed Instruction := do
  let some opname := i.opname | throw (.unnamedInstruction position)
  let some opcode := i.opcode | throw (.missingOpcode opname)
  return { opname, opcode, group := i.group, operands := i.operands }

/-- Fails at the first entry that lacks something, the operand kinds coming first. -/
def Draft.complete (d : Draft) : Except Malformed Grammar := do
  let kinds ← d.kinds.zipIdx.mapM fun (k, position) => k.complete position
  let instructions ← d.instructions.zipIdx.mapM fun (i, position) => i.complete position
  return { kinds, instructions }

def Grammar.ofJson (v : Json) : Except Malformed Grammar :=
  match Draft.ofJson? v with
  | none => throw .shape
  | some d => d.complete

def Grammar.ofText (t : Text) : Except Malformed Grammar :=
  match Json.ofText? Json.maxDepth t with
  | none => throw .notJson
  | some v => Grammar.ofJson v

structure Docs where
  entries : List (Text × Text) := []
  deriving DecidableEq

def Docs.get? (docs : Docs) (opname : Text) : Option Text := latest? opname docs.entries

def Docs.ofEntries? : List (List Nat × Json.Source) → Option (List (Text × Text))
  | [] => some []
  | (name, .string s) :: es => do
    return (← Json.characters? name, ← Json.characters? s) :: (← ofEntries? es)
  | _ => none

def Docs.ofText (t : Text) : Except Malformed Docs :=
  match Json.Source.ofText? t with
  | some (.object fields) =>
    match Docs.ofEntries? fields with
    | some entries => return { entries := normalEntries entries }
    | none => throw .documentation
  | _ => throw .documentation

end SpirvTables
