import SpirvTables.Proofs.OpcodeOrder
import SpirvTables.Proofs.OpcodeTable
import SpirvTables.Proofs.Text.Columns

namespace SpirvTables

open Text

variable {g : Grammar} {is js : List Instruction} {i : Instruction} {t : Text}
  {caseNames : List Text}

/-- Nothing for no instructions; else a case for each, in their order, and a list of the cases. -/
structure DefinesOpcodes (is : List Instruction) (t : Text) : Prop where
  nothing : is = [] → t = []
  table : is ≠ [] → ∃ aggregate, Tabulates (is.map Instruction.opcodeCase) aggregate t ∧
    ((∀ i ∈ is, i.opname.all Character.isWord) →
      listedItems aggregate = is.map (·.opcodeCase.name))

def opcodeFront : Text :=
  "def SPV_OpcodeAttr :\n    I32EnumAttr<\"Opcode\", \"valid SPIR-V instructions\", "

theorem listedItems_opcodeAttribute (layout : Layout) (hne : caseNames ≠ [])
    (hwords : ∀ n ∈ caseNames, n.all Character.isWord) :
    listedItems (opcodeAttribute layout caseNames) = caseNames := by
  have hopen : opcodeOpening = opcodeFront ++ "[\n" := eq_append_ofList rfl
  have hbracket : ("[\n" : Text) = ['[', '\n'] := String.toList_ofList
  have hclose : ("\n      ]> \x7b\n" : Text) = "\n      " ++ ']' :: "> \x7b\n" := by simp
  have hfront : '[' ∉ opcodeFront := notMem_ofList (by decide)
  obtain ⟨back, hback⟩ : ∃ back, opcodeAttribute layout caseNames = opcodeFront ++ '[' ::
      (('\n' :: (packedList layout.listIndent layout.lineBudget caseNames ++ "\n      ")) ++
        ']' :: back) := by
    rw [opcodeAttribute_eq, hopen]
    unfold opcodeClosing
    simp only [hbracket, hclose, List.append_assoc, List.cons_append, List.nil_append]
    exact ⟨_, rfl⟩
  rw [hback]
  exact listedItems_packedList hfront (by decide) hne hwords _ _ back

theorem all_isWord_opcodeCase_name (hi : i.opname.all Character.isWord) :
    i.opcodeCase.name.all Character.isWord := by
  have hstem : ("SPV_OC_" : Text).all Character.isWord := all_isWord_ofList (by decide)
  unfold Instruction.opcodeCase
  rw [List.all_append, hstem, hi]
  rfl

theorem legible_opcodeCase (hi : i.opname.all Character.isWord) : i.opcodeCase.Legible where
  noSpace := notMem_of_all_isWord (all_isWord_opcodeCase_name hi) (by decide)
  name_oneLine := notMem_of_all_isWord (all_isWord_opcodeCase_name hi) (by decide)
  body_oneLine := by
    unfold Instruction.opcodeCase
    simp only [List.mem_append, not_or]
    exact ⟨⟨⟨⟨notMem_ofList (by decide), notMem_of_all_isWord hi (by decide)⟩,
      notMem_ofList (by decide)⟩, notMem_decimal (by decide) _⟩, notMem_ofList (by decide)⟩

theorem definesOpcodes_byOpcode (layout : Layout) (is : List Instruction) :
    DefinesOpcodes (byOpcode is) (opcodeDefinitions layout is) where
  nothing h := by rw [opcodeDefinitions_eq, if_pos (byOpcode_eq_nil_iff.1 h)]
  table h := by
    rw [opcodeDefinitions_eq, if_neg (mt byOpcode_eq_nil_iff.2 h)]
    refine ⟨_, tabulates_alignedCases _ _, fun hwords => ?_⟩
    rw [List.map_map]
    apply listedItems_opcodeAttribute
    · simpa using h
    · intro n hn
      obtain ⟨i, hi, rfl⟩ := List.mem_map.1 hn
      exact all_isWord_opcodeCase_name (hwords i hi)

theorem DefinesOpcodes.unique (hi : DefinesOpcodes is t) (hj : DefinesOpcodes js t)
    (hwords : ∀ i ∈ is, i.opname.all Character.isWord)
    (hwords' : ∀ j ∈ js, j.opname.all Character.isWord) :
    is.map (·.opname) = js.map (·.opname) := by
  have hlegible {is : List Instruction} (h : ∀ i ∈ is, i.opname.all Character.isWord) :
      ∀ c ∈ is.map Instruction.opcodeCase, c.Legible :=
    List.forall_mem_map.2 fun i hi => legible_opcodeCase (h i hi)
  by_cases hnil : t = []
  · have hnone {is : List Instruction} (h : DefinesOpcodes is t) : is = [] := by
      by_contra hne
      obtain ⟨aggregate, htable, -⟩ := h.table hne
      exact htable.ne_nil hnil
    rw [hnone hi, hnone hj]
  · obtain ⟨aggregate, htable, -⟩ := hi.table fun h => hnil (hi.nothing h)
    obtain ⟨aggregate', htable', -⟩ := hj.table fun h => hnil (hj.nothing h)
    have hcases := htable.unique htable' (hlegible hwords) (hlegible hwords')
    have hnames (is : List Instruction) : (is.map Instruction.opcodeCase).map (·.name) =
        (is.map (·.opname)).map (("SPV_OC_" : Text) ++ ·) := by
      rw [List.map_map, List.map_map]
      rfl
    have hinj : Function.Injective (("SPV_OC_" : Text) ++ ·) := fun _ _ => List.append_cancel_left
    apply List.map_injective_iff.2 hinj
    rw [← hnames, ← hnames, hcases]

theorem Grammar.map_some_of_known (h : ∀ i ∈ is, g.instruction? i.opname = some i) :
    is.map some = (is.map (·.opname)).map g.instruction? := by
  rw [List.map_map]
  exact List.map_congr_left fun i hi => (h i hi).symm

theorem opcodeDefinitions_eq_iff {layout : Layout}
    (hwords : ∀ i ∈ g.instructions, i.opname.all Character.isWord)
    (hi : ∀ i ∈ is, g.instruction? i.opname = some i)
    (hj : ∀ j ∈ js, g.instruction? j.opname = some j) :
    opcodeDefinitions layout is = opcodeDefinitions layout js ↔ byOpcode is = byOpcode js := by
  constructor
  · intro htext
    have hknown {is : List Instruction} (h : ∀ i ∈ is, g.instruction? i.opname = some i) :
        ∀ i ∈ byOpcode is, g.instruction? i.opname = some i :=
      fun i hi => h i (mem_byOpcode.1 hi)
    have hword {is : List Instruction} (h : ∀ i ∈ is, g.instruction? i.opname = some i) :
        ∀ i ∈ byOpcode is, i.opname.all Character.isWord :=
      fun i hi => hwords i (List.mem_of_find?_eq_some (hknown h i hi))
    have hnames := (definesOpcodes_byOpcode layout is).unique
      (htext ▸ definesOpcodes_byOpcode layout js) (hword hi) (hword hj)
    apply List.map_injective_iff.2 fun i j : Instruction => Option.some.inj
    rw [Grammar.map_some_of_known (hknown hi), Grammar.map_some_of_known (hknown hj), hnames]
  · intro h
    rw [opcodeDefinitions, opcodeDefinitions, h]

end SpirvTables
