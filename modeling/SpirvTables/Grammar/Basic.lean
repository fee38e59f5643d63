import SpirvTables.Text.Basic

namespace SpirvTables

inductive Category
  | bitEnum : Category
  | valueEnum : Category
  | id : Category
  | literal : Category
  | composite : Category
  | other : Category
  deriving DecidableEq

def Category.name : Category → Text
  | bitEnum => "BitEnum"
  | valueEnum => "ValueEnum"
  | id => "Id"
  | literal => "Literal"
  | composite => "Composite"
  | other => "Other"

def Category.ofName (name : Text) : Category :=
  ([bitEnum, valueEnum, id, literal, composite].find? (·.name = name)).getD other

theorem Category.ofName_name (c : Category) : ofName c.name = c := by
  cases c <;> decide

inductive Quantifier
  | one : Quantifier
  | optional : Quantifier
  | variadic : Quantifier
  deriving DecidableEq

def Quantifier.mark : Quantifier → Text
  | one => ""
  | optional => "?"
  | variadic => "*"

def Quantifier.ofMark? (mark : Text) : Option Quantifier :=
  [one, optional, variadic].find? (·.mark = mark)

theorem Quantifier.ofMark?_mark (q : Quantifier) : ofMark? q.mark = some q := by
  cases q <;> decide

def Quantifier.phrase : Quantifier → Text
  | one => "exactly one"
  | optional => "optional"
  | variadic => "variadic"

structure Enumerant where
  symbol : Text
  value : UInt32
  deriving DecidableEq

structure OperandKind where
  name : Text
  category : Category
  enumerants : List Enumerant
  deriving DecidableEq

structure Operand where
  kind : Text
  quantifier : Quantifier := .one
  name : Option Text := none
  deriving DecidableEq

structure Instruction where
  opname : Text
  opcode : UInt32
  group : Option Text
  operands : List Operand
  deriving DecidableEq

structure Grammar where
  kinds : List OperandKind
  instructions : List Instruction
  deriving DecidableEq

def OperandKind.isBitEnum (k : OperandKind) : Bool := k.category = .bitEnum

def distinctValues (seen : List UInt32) : List Enumerant → List Enumerant
  | [] => []
  | e :: es =>
    if e.value ∈ seen then distinctValues seen es
    else e :: distinctValues (e.value :: seen) es

/-- One enumerant a value, under the first symbol of the value. -/
def OperandKind.cases (k : OperandKind) : List Enumerant := distinctValues [] k.enumerants

def Grammar.kind? (g : Grammar) (name : Text) : Option OperandKind :=
  g.kinds.find? (·.name = name)

def Grammar.instruction? (g : Grammar) (opname : Text) : Option Instruction :=
  g.instructions.find? (·.opname = opname)

theorem Grammar.opname_of_instruction? {g : Grammar} {opname : Text} {i : Instruction}
    (h : g.instruction? opname = some i) : i.opname = opname := by
  simpa using List.find?_some h

theorem Grammar.name_of_kind? {g : Grammar} {name : Text} {k : OperandKind}
    (h : g.kind? name = some k) : k.name = name := by
  simpa using List.find?_some h

end SpirvTables
