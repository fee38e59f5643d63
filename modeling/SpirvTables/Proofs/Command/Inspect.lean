import SpirvTables.Command.Inspect
import SpirvTables.Proofs.Refresh.OpcodeSection

namespace SpirvTables

open Text MarkedSection

variable {g : Grammar} {opnames : List Text} {is : List Instruction} {t : Text} {s : MarkedSection}

def Grammar.opcode? (g : Grammar) (n : Text) : Option UInt32 := (g.instruction? n).map (·.opcode)

namespace Query

theorem instruction_eq_ok_iff {n : Text} {i : Instruction} :
    instruction g n = .ok i ↔ g.instruction? n = some i := by
  rw [instruction]
  cases g.instruction? n with
  | none => simp [throw, throwThe, MonadExceptOf.throw]
  | some i' => simp [pure, Except.pure]

/-- The instructions that a preview is for: as they are named, repeats among them. -/
structure Chosen (g : Grammar) (opnames : List Text) (is : List Instruction) : Prop where
  names : is.map (·.opname) = opnames
  known : ∀ i ∈ is, g.instruction? i.opname = some i

theorem exists_chosen (h : ∀ n ∈ opnames, ∃ i, g.instruction? n = some i) :
    ∃ is, opnames.mapM (instruction g) = .ok is ∧ Chosen g opnames is := by
  obtain ⟨is, his, hnames⟩ := exists_mapM_eq_ok (f := instruction g) (p := id) (q := (·.opname))
    fun n hn => (h n hn).imp fun i hi =>
      ⟨instruction_eq_ok_iff.2 hi, g.opname_of_instruction? hi⟩
  refine ⟨is, his, hnames.trans (List.map_id opnames), fun i hi => ?_⟩
  obtain ⟨n, -, hn⟩ := exists_of_mem_mapM his hi
  have hfind := instruction_eq_ok_iff.1 hn
  rwa [g.opname_of_instruction? hfind]

theorem opcodesView_eq (h : opnames.mapM (instruction g) = .ok is) :
    opcodesView g opnames = .ok
      { text := opcodeDefinitions {} is ++ "\n",
        json := previewJson "Opcode" (opcodeDefinitions {} is) } := by
  rw [opcodesView, h]
  rfl

theorem Chosen.inOrder_byOpcode_iff (h : Chosen g opnames is) :
    g.InOrder opnames (byOpcode is) ↔
      opnames.Pairwise fun a b => g.opcode? a = g.opcode? b → g.place a < g.place b := by
  have hopcode (i : Instruction) (hi : i ∈ is) : g.opcode? i.opname = some i.opcode := by
    rw [Grammar.opcode?, h.known i hi, Option.map_some]
  have hnames : (opnames.Pairwise fun a b => g.opcode? a = g.opcode? b → g.place a < g.place b) ↔
      is.Pairwise fun a b => a.opcode = b.opcode → g.place a.opname < g.place b.opname := by
    rw [← h.names, List.pairwise_map]
    apply List.Pairwise.iff_of_mem
    intro a b ha hb
    rw [hopcode a ha, hopcode b hb, Option.some.injEq]
  rw [hnames, ← Grammar.pairwise_before_byOpcode_iff]
  constructor
  · exact fun horder => horder.before
  · exact fun hbefore => {
      known := fun i hi => h.known i (mem_byOpcode.1 hi)
      mem := fun n => by simp [← h.names, mem_byOpcode]
      before := hbefore }

end Query

/-- What a preview shows is what is written into an empty section if and only if, of each opcode,
the names are given in the order of the grammar and none of them twice. -/
theorem opcodes_preview_eq_section_iff
    (hwords : ∀ i ∈ g.instructions, i.opname.all Character.isWord)
    (hnodup : (g.instructions.map (·.opname)).Nodup)
    (hnamed : ∀ n ∈ opnames, n ∈ g.instructions.map (·.opname))
    (hs : ofText opcodeMarker t = .ok s) (hempty : definedOpcodes s.body = []) (disk : Disk) :
    ∃ preview content,
      (Query.opcodes opnames).view g disk = .ok
        { text := preview ++ "\n", json := Query.previewJson "Opcode" preview } ∧
      (refreshOpcodes {} g opnames t).map (·.1) = .ok (s.render content) ∧
      (preview = content ↔
        opnames.Pairwise fun a b => g.opcode? a = g.opcode? b → g.place a < g.place b) := by
  have hknown : ∀ n ∈ opnames, ∃ i, g.instruction? n = some i := by
    intro n hn
    obtain ⟨i, hi, rfl⟩ := List.mem_map.1 (hnamed n hn)
    exact ⟨i, find?_of_nodup_map hnodup hi⟩
  have hunion (n : Text) :
      n ∈ (NameSet.union opnames (definedOpcodes s.body)).names ↔ n ∈ opnames := by
    rw [NameSet.mem_names_union, hempty, or_iff_left List.not_mem_nil]
  have hknown' := fun n hn => hknown n ((hunion n).1 hn)
  obtain ⟨is, his, hchosen⟩ := Query.exists_chosen hknown
  refine ⟨_, _, Query.opcodesView_eq his, map_refreshOpcodes_of_known {} hs hknown', ?_⟩
  have hsection := (Grammar.inOrder_byOpcode hnodup hknown').congr hunion
  rw [opcodeDefinitions_eq_iff hwords hchosen.known
    fun i hi => find?_of_nodup_map hnodup (mem_opcodesNamed.1 hi).1, ← hchosen.inOrder_byOpcode_iff]
  exact ⟨fun h => h ▸ hsection, fun h => h.unique hsection⟩

def blankSection : MarkedSection := ⟨opcodeMarker, [], "\n\n// End ", []⟩

theorem ofText_blankOpcodes : ofText opcodeMarker blankOpcodes = .ok blankSection := by
  rw [← toOption_eq_some_iff]
  decide +kernel

def orderedAlias : List Text :=
  ["OpDecorateStringGOOGLE", "OpNop", "OpDecorateString"]

theorem opcodes_preview_eq_section_iff_ordered :
    (∀ i ∈ aliasGrammar.instructions, i.opname.all Character.isWord) ∧
      (aliasGrammar.instructions.map (·.opname)).Nodup ∧
      (∀ n ∈ orderedAlias, n ∈ aliasGrammar.instructions.map (·.opname)) ∧
      definedOpcodes blankSection.body = [] ∧
      ∃ preview,
        (Query.opcodes orderedAlias).view aliasGrammar {} = .ok
          { text := preview ++ "\n", json := Query.previewJson "Opcode" preview } ∧
        (refreshOpcodes {} aliasGrammar orderedAlias blankOpcodes).map (·.1) =
          .ok (blankSection.render preview) := by
  have hwords : ∀ i ∈ aliasGrammar.instructions, i.opname.all Character.isWord := by
    decide +kernel
  have hnodup : (aliasGrammar.instructions.map (·.opname)).Nodup := by decide +kernel
  have hnamed : ∀ n ∈ orderedAlias, n ∈ aliasGrammar.instructions.map (·.opname) := by
    decide +kernel
  have hempty : definedOpcodes blankSection.body = [] := by decide +kernel
  have hordered : orderedAlias.Pairwise fun a b =>
      aliasGrammar.opcode? a = aliasGrammar.opcode? b →
        aliasGrammar.place a < aliasGrammar.place b := by
    decide +kernel
  obtain ⟨preview, content, hview, hrefresh, hiff⟩ :=
    opcodes_preview_eq_section_iff hwords hnodup hnamed ofText_blankOpcodes hempty {}
  obtain rfl := hiff.2 hordered
  exact ⟨hwords, hnodup, hnamed, hempty, preview, hview, hrefresh⟩

def repeatedAlias : List Text :=
  ["OpDecorateString", "OpDecorateStringGOOGLE", "OpDecorateString"]

theorem opcodes_preview_ne_section_repeated :
    (∀ i ∈ aliasGrammar.instructions, i.opname.all Character.isWord) ∧
      (aliasGrammar.instructions.map (·.opname)).Nodup ∧ repeatedAlias ≠ [] ∧
      (∀ n ∈ repeatedAlias, n ∈ aliasGrammar.instructions.map (·.opname)) ∧
      ofText opcodeMarker blankOpcodes = .ok blankSection ∧
      definedOpcodes blankSection.body = [] ∧
      ∃ preview content,
        (Query.opcodes repeatedAlias).view aliasGrammar {} = .ok
          { text := preview ++ "\n", json := Query.previewJson "Opcode" preview } ∧
        (refreshOpcodes {} aliasGrammar repeatedAlias blankOpcodes).map (·.1) =
          .ok (blankSection.render content) ∧
        preview ≠ content := by
  have hwords : ∀ i ∈ aliasGrammar.instructions, i.opname.all Character.isWord := by
    decide +kernel
  have hnodup : (aliasGrammar.instructions.map (·.opname)).Nodup := by decide +kernel
  have hnamed : ∀ n ∈ repeatedAlias, n ∈ aliasGrammar.instructions.map (·.opname) := by
    decide +kernel
  have hempty : definedOpcodes blankSection.body = [] := by decide +kernel
  have hknown : ∀ n ∈ repeatedAlias, (aliasGrammar.instruction? n).isSome := by decide +kernel
  have hknown' : ∀ n ∈ (NameSet.union repeatedAlias (definedOpcodes blankSection.body)).names,
      (aliasGrammar.instruction? n).isSome := by decide +kernel
  obtain ⟨is, his, hchosen⟩ := Query.exists_chosen fun n hn =>
    Option.isSome_iff_exists.1 (hknown n hn)
  refine ⟨hwords, hnodup, by decide +kernel, hnamed, ofText_blankOpcodes, hempty, _, _,
    Query.opcodesView_eq his, map_refreshOpcodes_of_known {} ofText_blankOpcodes fun n hn =>
      Option.isSome_iff_exists.1 (hknown' n hn), fun hsame => ?_⟩
  -- The same text would define as many opcodes.
  have hsorted := (opcodeDefinitions_eq_iff hwords hchosen.known fun i hi =>
    find?_of_nodup_map hnodup (mem_opcodesNamed.1 hi).1).1 hsame
  have hthree : is.length = repeatedAlias.length := by rw [← hchosen.names, List.length_map]
  have hlength := congrArg List.length hsorted
  rw [byOpcode, byOpcode, List.length_mergeSort, List.length_mergeSort, hthree] at hlength
  exact absurd hlength (by decide +kernel)

end SpirvTables
