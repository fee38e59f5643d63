import SpirvTables.EnumTable
import SpirvTables.Proofs.Section.Cases

namespace SpirvTables

open Text

namespace OperandKind

structure Named (k : OperandKind) : Prop where
  name : IsWord k.name
  symbol : ∀ e ∈ k.enumerants, IsWord e.symbol

instance (k : OperandKind) : Decidable k.Named :=
  decidable_of_iff (IsWord k.name ∧ ∀ e ∈ k.enumerants, IsWord e.symbol)
    ⟨fun h => ⟨h.1, h.2⟩, fun h => ⟨h.name, h.symbol⟩⟩

structure Worded (k : OperandKind) : Prop where
  name : k.name.all Character.isWord
  symbol : ∀ e ∈ k.enumerants, e.symbol.all Character.isWord

instance (k : OperandKind) : Decidable k.Worded :=
  decidable_of_iff (_ ∧ _) ⟨fun h => ⟨h.1, h.2⟩, fun h => ⟨h.name, h.symbol⟩⟩

theorem Named.worded {k : OperandKind} (hk : k.Named) : k.Worded where
  name := hk.name.all
  symbol e he := (hk.symbol e he).all

theorem mem_enumerants_of_mem_cases {k : OperandKind} {e : Enumerant} (h : e ∈ k.cases) :
    e ∈ k.enumerants := by
  have key : ∀ (es : List Enumerant) (seen : List UInt32), e ∈ distinctValues seen es → e ∈ es := by
    intro es
    induction es with
    | nil => simp [distinctValues]
    | cons d es ih =>
      intro seen
      rw [distinctValues]
      split
      · exact fun h => List.mem_cons_of_mem d (ih _ h)
      · intro h
        rcases List.mem_cons.1 h with rfl | h
        · exact List.mem_cons_self
        · exact List.mem_cons_of_mem d (ih _ h)
  exact key k.enumerants [] h

theorem cases_eq_nil_iff {k : OperandKind} : k.cases = [] ↔ k.enumerants = [] := by
  cases h : k.enumerants <;> simp [cases, h, distinctValues]

def caseIdent (k : OperandKind) (e : Enumerant) : Text := acronym k.name ++ "_" ++ e.symbol

def attributeIdent (k : OperandKind) : Text := k.name ++ "Attr"

def attributeRest (layout : Layout) (k : OperandKind) (caseNames : List Text) : Text :=
  " :\n    " ++ (k.base ++ ("EnumAttr<\"" ++ (k.name ++ ("\", \"valid SPIR-V " ++ (k.name ++
    ("\", [\n" ++ (packedList layout.listIndent layout.lineBudget caseNames ++ ("\n    ]> \x7b\n" ++
    ("  let returnType = \"::mlir::spirv::" ++ (k.name ++ ("\";\n" ++
    ("  let convertFromStorage = \"static_cast<::mlir::spirv::" ++ (k.name ++
    (">($_self.getInt())\";\n" ++ "  let cppNamespace = \"::mlir::spirv\";\n\x7d"))))))))))))))

theorem attribute_eq (layout : Layout) (k : OperandKind) (caseNames : List Text) :
    k.attribute layout caseNames =
      definitionLead ++ (k.attributeIdent ++ k.attributeRest layout caseNames) := by
  have h : ("Attr :\n    " : Text) = "Attr" ++ " :\n    " := eq_append_ofList rfl
  unfold OperandKind.attribute attributeRest attributeIdent definitionLead
  rw [h]
  simp only [List.append_assoc]

def definitionLits : List Text :=
  ["EnumAttrCase<\"", "\", ", ">", " :\n    ", "EnumAttr<\"", "\", \"valid SPIR-V ", "\", [\n",
    "\n    ]> \x7b\n", "  let returnType = \"::mlir::spirv::", "\";\n",
    "  let convertFromStorage = \"static_cast<::mlir::spirv::", ">($_self.getInt())\";\n",
    "  let cppNamespace = \"::mlir::spirv\";\n\x7d"]

structure Ruled (p : Text) : Prop extends RuledBy definitionLits p where
  base : ∀ t ∈ [("Bit" : Text), "I32"], ¬ p <:+: t

variable {p : Text} {k : OperandKind} {layout : Layout}

theorem Ruled.absent_base (hp : Ruled p) (k : OperandKind) : ¬ p <:+: k.base := by
  rw [OperandKind.base]
  split
  · exact hp.base _ List.mem_cons_self
  · exact hp.base _ (List.mem_cons_of_mem _ List.mem_cons_self)

theorem Ruled.absent_caseOf (hp : Ruled p) {e : Enumerant} (he : ¬ p <:+: e.symbol) :
    ¬ p <:+: (k.caseOf e).body := by
  have hlits := hp.lits
  simp only [definitionLits, List.forall_mem_cons] at hlits
  obtain ⟨hcase, hvalue, hend, -⟩ := hlits
  unfold caseOf
  simp only [List.append_assoc]
  apply hcase.absent (hp.absent_base k)
  apply hvalue.absent he
  exact hend.absent_right (hp.absent_decimal _)

theorem Ruled.absent_attribute (hp : Ruled p) {ident : Text} (hident : ¬ p <:+: ident)
    (hname : ¬ p <:+: k.name) {caseNames : List Text} (h : ∀ t ∈ caseNames, ¬ p <:+: t) :
    ¬ p <:+: ident ++ k.attributeRest layout caseNames := by
  have hlits := hp.lits
  simp only [definitionLits, List.forall_mem_cons] at hlits
  obtain ⟨-, -, -, hcolon, hbase, hsummary, hopen, hclose, hreturn, hquote, hconvert, hself,
    hnamespace, -⟩ := hlits
  apply hcolon.absent hident
  apply hbase.absent (hp.absent_base k)
  apply hsummary.absent hname
  apply hopen.absent hname
  apply hclose.absent (hp.packed.absent h)
  apply hreturn.absent_left
  apply hquote.absent hname
  apply hconvert.absent_left
  apply hself.absent hname
  exact hnamespace.1

-- The kernel is slow to unpack a literal, so that a long one is unpacked before it is compared.
theorem ruled_definitionLead : Ruled definitionLead where
  columned := {
    colon := parts_ofList (by decide)
    semicolon := parts_ofList (by decide)
    newline := parts_ofList (by decide)
    noSpace := ⟨'_', getLast?_definitionLead, by decide⟩ }
  packed := {
    line := parts_ofList (by decide)
    item := parts_ofList (by decide)
    noSpace := ⟨'d', head?_definitionLead, by decide⟩ }
  lits := by
    unfold definitionLits
    repeat rw [String.toList_ofList]
    decide +kernel
  base := by decide +kernel
  noDigit := ⟨' ', space_mem_definitionLead, by decide⟩

theorem caseOf_name (k : OperandKind) (e : Enumerant) :
    (k.caseOf e).name = "SPV_" ++ k.caseIdent e := by
  unfold caseOf caseIdent
  simp only [List.append_assoc]

theorem Worded.isWord_caseIdent (hk : k.Worded) {e : Enumerant} (he : e ∈ k.cases) :
    IsWord (k.caseIdent e) := by
  have hsep : IsWord "_" := isWord_ofList (by decide)
  unfold caseIdent
  rw [List.append_assoc]
  apply IsWord.of_append_right
  · intro c hc
    exact List.all_eq_true.1 hk.name c (List.mem_of_mem_filter hc)
  · exact hsep.append (hk.symbol e (mem_enumerants_of_mem_cases he))

theorem Worded.isWord_attributeIdent (hk : k.Worded) : IsWord k.attributeIdent := by
  have hattr : IsWord "Attr" := isWord_ofList (by decide)
  exact hattr.of_append_right (List.all_eq_true.1 hk.name)

def idents (k : OperandKind) : List Text := k.cases.map k.caseIdent ++ [k.attributeIdent]

theorem definitions?_eq (layout : Layout) (k : OperandKind) :
    k.definitions? layout =
      if k.cases = [] then none
      else some (alignedCases (k.cases.map k.caseOf) ++ ("\n\n" ++
        k.attribute layout ((k.cases.map k.caseOf).map (·.name)))) := by
  unfold definitions?
  cases k.cases with
  | nil => rfl
  | cons e es => simp only [List.map_cons, List.append_assoc]; rfl

theorem Worded.notMem_caseNames (hk : k.Worded) {c : Char} (hs : c ∉ ("SPV_" : Text))
    (hc : Character.isWord c = false) : ∀ t ∈ (k.cases.map k.caseOf).map (·.name), c ∉ t := by
  have hsep : ("_" : Text).all Character.isWord := all_isWord_ofList (by decide)
  intro t ht
  rw [List.map_map, List.mem_map] at ht
  obtain ⟨e, he, rfl⟩ := ht
  rw [Function.comp_apply, caseOf_name, caseIdent]
  simp only [List.mem_append, not_or]
  exact ⟨hs, ⟨mt List.mem_of_mem_filter (notMem_of_all_isWord hk.name hc),
    notMem_of_all_isWord hsep hc⟩,
    notMem_of_all_isWord (hk.symbol e (mem_enumerants_of_mem_cases he)) hc⟩

theorem Worded.wordsAfter_attribute (hk : k.Worded) :
    wordsAfter definitionLead (k.attribute layout ((k.cases.map k.caseOf).map (·.name))) =
      [k.attributeIdent] := by
  have hident := hk.isWord_attributeIdent
  have hrest : ¬ definitionLead <:+: k.attributeIdent ++
      k.attributeRest layout ((k.cases.map k.caseOf).map (·.name)) := by
    apply ruled_definitionLead.absent_attribute (hident.absent space_mem_definitionLead (by decide))
      (absent_of_notMem space_mem_definitionLead (notMem_of_all_isWord hk.name (by decide)))
    intro t ht
    exact absent_of_notMem space_mem_definitionLead
      (hk.notMem_caseNames (notMem_ofList (by decide)) (by decide) t ht)
  have hstop : StopsWord (k.attributeRest layout ((k.cases.map k.caseOf).map (·.name))) :=
    StopsWord.append (stopsWord_ofList (by decide)) ne_nil_ofList _
  rw [attribute_eq, wordsAfter_lead_append definitionLead_ne_nil, wordsAfter_of_absent hrest,
    startingWord, leadingWord_append hstop, hident.leadingWord_eq]
  simp [hident.ne_nil]

theorem parts_blankLine : Parts definitionLead "\n\n" := parts_ofList (by decide)

theorem Worded.wordsAfter_definitions? (hk : k.Worded) {text : Text}
    (h : k.definitions? layout = some text) : wordsAfter definitionLead text = k.idents := by
  rw [definitions?_eq] at h
  split at h
  · cases h
  · obtain rfl := Option.some.inj h
    have hsymbol : ∀ e ∈ k.cases, ¬ definitionLead <:+: e.symbol := fun e he =>
      absent_of_notMem space_mem_definitionLead
        (notMem_of_all_isWord (hk.symbol e (mem_enumerants_of_mem_cases he)) (by decide))
    have hcases : wordsAfter definitionLead (alignedCases (k.cases.map k.caseOf)) =
        k.cases.map k.caseIdent := by
      have hlead : definitionLead = "def " ++ "SPV_" := eq_append_ofList rfl
      apply wordsAfter_alignedCases hlead ruled_definitionLead.columned
      · exact fun e he => ⟨caseOf_name k e, hk.isWord_caseIdent he⟩
      · exact fun e he => ruled_definitionLead.absent_caseOf (hsymbol e he)
    rw [parts_blankLine.wordsAfter_append (stopsWord_ofList (by decide)) definitionLead_ne_nil,
      hcases, hk.wordsAfter_attribute, idents]

def exclamation : Text := "!"

theorem exclamation_eq : exclamation = ['!'] := String.toList_ofList

theorem mem_exclamation : '!' ∈ exclamation := mem_ofList (by decide)

theorem ruled_exclamation : Ruled exclamation where
  columned := {
    colon := parts_ofList (by decide)
    semicolon := parts_ofList (by decide)
    newline := parts_ofList (by decide)
    noSpace := ⟨'!', congrArg _ exclamation_eq, by decide⟩ }
  packed := {
    line := parts_ofList (by decide)
    item := parts_ofList (by decide)
    noSpace := ⟨'!', congrArg _ exclamation_eq, by decide⟩ }
  lits := by
    unfold definitionLits
    repeat rw [String.toList_ofList]
    decide +kernel
  base := by decide +kernel
  noDigit := ⟨'!', mem_exclamation, by decide⟩

theorem Worded.absent_exclamation (hk : k.Worded) {text : Text}
    (h : k.definitions? layout = some text) : ¬ exclamation <:+: text := by
  rw [definitions?_eq] at h
  split at h
  · cases h
  · obtain rfl := Option.some.inj h
    have hword {t : Text} (ht : t.all Character.isWord) : ¬ exclamation <:+: t :=
      absent_of_notMem mem_exclamation (notMem_of_all_isWord ht (by decide))
    have hnames : ∀ t ∈ (k.cases.map k.caseOf).map (·.name), ¬ exclamation <:+: t := fun t ht =>
      absent_of_notMem mem_exclamation
        (hk.notMem_caseNames (notMem_ofList (by decide)) (by decide) t ht)
    have hblank : Parts exclamation "\n\n" := parts_ofList (by decide)
    have hlead : Parts exclamation definitionLead := parts_ofList (by decide)
    rw [attribute_eq]
    apply hblank.absent
    · apply ruled_exclamation.columned.absent (parts_ofList (by decide))
      · exact fun e he => hnames _ (List.mem_map_of_mem (List.mem_map_of_mem he))
      · intro e he
        apply ruled_exclamation.absent_caseOf
        exact hword (hk.symbol e (mem_enumerants_of_mem_cases he))
    · have hattr : ("Attr" : Text).all Character.isWord := all_isWord_ofList (by decide)
      have hident : k.attributeIdent.all Character.isWord := by
        rw [attributeIdent, List.all_append, hk.name, hattr]
        rfl
      apply hlead.absent_left
      exact ruled_exclamation.absent_attribute (hword hident) (hword hk.name) hnames

end OperandKind

theorem fragment?_eq_none_iff (layout : Layout) {k : OperandKind} :
    k.fragment? layout = none ↔ k.enumerants = [] := by
  rw [OperandKind.fragment?, Option.map_eq_none_iff, OperandKind.definitions?_eq,
    ← OperandKind.cases_eq_nil_iff]
  split <;> simp_all

end SpirvTables
