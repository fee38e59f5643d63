import SpirvTables.EnumTable
import SpirvTables.Proofs.EnumTable
import SpirvTables.Proofs.Section.Marked

namespace SpirvTables

open Text MarkedSection

def opcodeLead : Text := "def SPV_OC_"

theorem opcodeLead_eq : opcodeLead = definitionLead ++ "OC_" := eq_append_ofList rfl

theorem definedOpcodes_eq (body : Text) : definedOpcodes body = wordsAfter opcodeLead body := by
  rw [opcodeLead_eq]
  rfl

def opcodeOpening : Text :=
  "def SPV_OpcodeAttr :\n    I32EnumAttr<\"Opcode\", \"valid SPIR-V instructions\", [\n"

def opcodeClosing : Text :=
  "\n      ]> \x7b\n" ++ ("    let returnType = \"::mlir::spirv::Opcode\";\n" ++
  ("    let convertFromStorage = \"static_cast<::mlir::spirv::Opcode>($_self.getInt())\";\n" ++
  "    let cppNamespace = \"::mlir::spirv\";\n\x7d"))

def opcodeLits : List Text :=
  ["I32EnumAttrCase<\"", "\", ", ">", "\n\n", opcodeOpening, opcodeClosing]

theorem opcodeAttribute_eq (layout : Layout) (caseNames : List Text) :
    opcodeAttribute layout caseNames = opcodeOpening ++
      (packedList layout.listIndent layout.lineBudget caseNames ++ opcodeClosing) := by
  unfold opcodeAttribute opcodeOpening opcodeClosing
  simp only [List.append_assoc]

theorem mem_byOpcode {instructions : List Instruction} {i : Instruction} :
    i ∈ byOpcode instructions ↔ i ∈ instructions := List.mem_mergeSort

theorem byOpcode_eq_nil_iff {instructions : List Instruction} :
    byOpcode instructions = [] ↔ instructions = [] := by
  rw [← List.length_eq_zero_iff, byOpcode, List.length_mergeSort, List.length_eq_zero_iff]

variable {p : Text} {layout : Layout} {instructions : List Instruction} {i : Instruction}

theorem opcodeDefinitions_eq (layout : Layout) (instructions : List Instruction) :
    opcodeDefinitions layout instructions =
      if instructions = [] then []
      else alignedCases ((byOpcode instructions).map Instruction.opcodeCase) ++ (("\n\n" : Text) ++
        opcodeAttribute layout
          (((byOpcode instructions).map Instruction.opcodeCase).map (·.name))) := by
  rw [opcodeDefinitions]
  cases h : byOpcode instructions with
  | nil => rw [if_pos (byOpcode_eq_nil_iff.1 h), List.map_nil]
  | cons i is =>
    have hne : instructions ≠ [] := fun hnil => by
      rw [byOpcode_eq_nil_iff.2 hnil] at h
      cases h
    rw [if_neg hne, List.map_cons]
    exact List.append_assoc ..

theorem absent_opcodeCase_name {c : Char} (hp : c ∈ p) (hc : Character.isWord c = false)
    (hi : i.opname.all Character.isWord) : ¬ p <:+: i.opcodeCase.name := by
  have hstem : ("SPV_OC_" : Text).all Character.isWord := all_isWord_ofList (by decide)
  apply absent_of_notMem hp
  unfold Instruction.opcodeCase
  rw [List.mem_append, not_or]
  exact ⟨notMem_of_all_isWord hstem hc, notMem_of_all_isWord hi hc⟩

theorem Text.RuledBy.absent_opcodeCase (hp : RuledBy opcodeLits p) (hi : ¬ p <:+: i.opname) :
    ¬ p <:+: i.opcodeCase.body := by
  have hlits := hp.lits
  simp only [opcodeLits, List.forall_mem_cons] at hlits
  obtain ⟨hcase, hvalue, hend, -⟩ := hlits
  unfold Instruction.opcodeCase
  simp only [List.append_assoc]
  apply hcase.absent_left
  apply hvalue.absent hi
  exact hend.absent_right (hp.absent_decimal _)

theorem Text.RuledBy.absent_opcodeAttribute (hp : RuledBy opcodeLits p)
    (h : ∀ i ∈ instructions, ¬ p <:+: i.opcodeCase.name) :
    ¬ p <:+: opcodeAttribute layout
      (((byOpcode instructions).map Instruction.opcodeCase).map (·.name)) := by
  have hlits := hp.lits
  simp only [opcodeLits, List.forall_mem_cons] at hlits
  obtain ⟨-, -, -, -, hopening, hclosing, -⟩ := hlits
  rw [opcodeAttribute_eq]
  apply hopening.absent_left
  apply hclosing.absent_right
  apply hp.packed.absent
  intro t ht
  rw [List.map_map, List.mem_map] at ht
  obtain ⟨i, hi, rfl⟩ := ht
  exact h i (mem_byOpcode.1 hi)

theorem space_mem_opcodeLead : ' ' ∈ opcodeLead := mem_ofList (by decide)

theorem ruledBy_opcodeLead : RuledBy opcodeLits opcodeLead where
  columned := {
    colon := parts_ofList (by decide)
    semicolon := parts_ofList (by decide)
    newline := parts_ofList (by decide)
    noSpace := ⟨'_', getLast?_ofList rfl, by decide⟩ }
  packed := {
    line := parts_ofList (by decide)
    item := parts_ofList (by decide)
    noSpace := ⟨'d', head?_ofList rfl, by decide⟩ }
  lits := by
    unfold opcodeLits opcodeOpening opcodeClosing opcodeLead
    repeat rw [String.toList_ofList]
    decide +kernel
  noDigit := ⟨' ', space_mem_opcodeLead, by decide⟩

theorem wordsAfter_opcodeDefinitions (h : ∀ i ∈ instructions, IsWord i.opname) :
    wordsAfter opcodeLead (opcodeDefinitions layout instructions) =
      (byOpcode instructions).map (·.opname) := by
  have hne : opcodeLead ≠ [] := ruledBy_opcodeLead.columned.ne_nil
  rw [opcodeDefinitions_eq]
  split
  · next hnil =>
    rw [byOpcode_eq_nil_iff.2 hnil]
    exact wordsAfter_of_absent (absent_nil hne)
  · have hlead : opcodeLead = "def " ++ "SPV_OC_" := eq_append_ofList rfl
    have hblank : Parts opcodeLead "\n\n" := parts_ofList (by decide)
    have hcases : wordsAfter opcodeLead
        (alignedCases ((byOpcode instructions).map Instruction.opcodeCase)) =
          (byOpcode instructions).map (·.opname) := by
      apply wordsAfter_alignedCases hlead ruledBy_opcodeLead.columned
      · exact fun i hi => ⟨rfl, h i (mem_byOpcode.1 hi)⟩
      · intro i hi
        apply ruledBy_opcodeLead.absent_opcodeCase
        exact (h i (mem_byOpcode.1 hi)).absent space_mem_opcodeLead (by decide)
    have hattribute : ¬ opcodeLead <:+: opcodeAttribute layout
        (((byOpcode instructions).map Instruction.opcodeCase).map (·.name)) := by
      apply ruledBy_opcodeLead.absent_opcodeAttribute
      exact fun i hi => absent_opcodeCase_name space_mem_opcodeLead (by decide) (h i hi).all
    rw [hblank.wordsAfter_append (stopsWord_ofList (by decide)) hne, hcases,
      wordsAfter_of_absent hattribute, List.append_nil]

theorem ruledBy_exclamation : RuledBy opcodeLits OperandKind.exclamation where
  columned := OperandKind.ruled_exclamation.columned
  packed := OperandKind.ruled_exclamation.packed
  lits := by
    unfold opcodeLits opcodeOpening opcodeClosing
    repeat rw [String.toList_ofList]
    decide +kernel
  noDigit := OperandKind.ruled_exclamation.noDigit

theorem definedOpcodes_framedBody (content : Text) :
    definedOpcodes (framedBody content) = definedOpcodes content := by
  apply wordsAfter_framedBody ruledBy_opcodeLead.columned.ne_nil
  · exact parts_ofList (by decide)
  · exact parts_ofList (by decide)

theorem exclamation_infix_opcodeMarker : OperandKind.exclamation <:+: opcodeMarker :=
  infix_ofList (by decide)

theorem absent_opcodeDefinitions (h : ∀ i ∈ instructions, i.opname.all Character.isWord) :
    ¬ OperandKind.exclamation <:+: opcodeDefinitions layout instructions := by
  have hname : ∀ i ∈ instructions, ¬ OperandKind.exclamation <:+: i.opcodeCase.name := fun i hi =>
    absent_opcodeCase_name OperandKind.mem_exclamation (by decide) (h i hi)
  rw [opcodeDefinitions_eq]
  split
  · exact absent_nil ruledBy_exclamation.columned.ne_nil
  · have hblank : Parts OperandKind.exclamation "\n\n" := parts_ofList (by decide)
    apply hblank.absent
    · apply ruledBy_exclamation.columned.absent (parts_ofList (by decide))
      · exact fun i hi => hname i (mem_byOpcode.1 hi)
      · intro i hi
        apply ruledBy_exclamation.absent_opcodeCase
        exact absent_of_notMem OperandKind.mem_exclamation
          (notMem_of_all_isWord (h i (mem_byOpcode.1 hi)) (by decide))
    · exact ruledBy_exclamation.absent_opcodeAttribute hname

end SpirvTables
