import SpirvTables.Grammar.Basic
import SpirvTables.Layout
import SpirvTables.Text.Arrange
import SpirvTables.Text.Basic

namespace SpirvTables

def OperandKind.base (k : OperandKind) : Text := if k.isBitEnum then "Bit" else "I32"

def OperandKind.caseOf (k : OperandKind) (e : Enumerant) : Text.Case where
  name := "SPV_" ++ Text.acronym k.name ++ "_" ++ e.symbol
  body := k.base ++ "EnumAttrCase<\"" ++ e.symbol ++ "\", " ++ Text.decimal e.value.toNat ++ ">"

def OperandKind.attribute (layout : Layout) (k : OperandKind) (caseNames : List Text) : Text :=
  "def SPV_" ++ k.name ++ "Attr :\n    " ++
  k.base ++ "EnumAttr<\"" ++ k.name ++ "\", \"valid SPIR-V " ++ k.name ++ "\", [\n" ++
  Text.packedList layout.listIndent layout.lineBudget caseNames ++ "\n    ]> \x7b\n" ++
  "  let returnType = \"::mlir::spirv::" ++ k.name ++ "\";\n" ++
  "  let convertFromStorage = \"static_cast<::mlir::spirv::" ++ k.name ++
    ">($_self.getInt())\";\n" ++
  "  let cppNamespace = \"::mlir::spirv\";\n\x7d"

def OperandKind.definitions? (layout : Layout) (k : OperandKind) : Option Text :=
  match k.cases.map k.caseOf with
  | [] => none
  | cases => some (Text.alignedCases cases ++ "\n\n" ++ k.attribute layout (cases.map (·.name)))

structure EnumFragment where
  kind : Text
  text : Text
  deriving DecidableEq

def OperandKind.fragment? (layout : Layout) (k : OperandKind) : Option EnumFragment :=
  (k.definitions? layout).map fun text => { kind := k.name, text }

def enumBody (fragments : List EnumFragment) : Text :=
  Text.join "\n\n" ((fragments.mergeSort fun a b => !Text.before b.kind a.kind).map (·.text))

def Instruction.opcodeCase (i : Instruction) : Text.Case where
  name := "SPV_OC_" ++ i.opname
  body := "I32EnumAttrCase<\"" ++ i.opname ++ "\", " ++ Text.decimal i.opcode.toNat ++ ">"

def opcodeAttribute (layout : Layout) (caseNames : List Text) : Text :=
  "def SPV_OpcodeAttr :\n    I32EnumAttr<\"Opcode\", \"valid SPIR-V instructions\", [\n" ++
  Text.packedList layout.listIndent layout.lineBudget caseNames ++ "\n      ]> \x7b\n" ++
  "    let returnType = \"::mlir::spirv::Opcode\";\n" ++
  "    let convertFromStorage = \"static_cast<::mlir::spirv::Opcode>($_self.getInt())\";\n" ++
  "    let cppNamespace = \"::mlir::spirv\";\n\x7d"

/-- By opcode; instructions of one opcode keep their order. -/
def byOpcode (instructions : List Instruction) : List Instruction :=
  instructions.mergeSort fun a b => decide (a.opcode.toNat ≤ b.opcode.toNat)

def opcodeDefinitions (layout : Layout) (instructions : List Instruction) : Text :=
  match (byOpcode instructions).map Instruction.opcodeCase with
  | [] => []
  | cases => Text.alignedCases cases ++ "\n\n" ++ opcodeAttribute layout (cases.map (·.name))

end SpirvTables
