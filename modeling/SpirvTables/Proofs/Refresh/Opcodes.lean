import SpirvTables.Proofs.Fault
import SpirvTables.Proofs.NameSet
import SpirvTables.Proofs.OpcodeTable
import SpirvTables.Refresh

namespace SpirvTables

open Text MarkedSection

def opcodeContent (layout : Layout) (g : Grammar) (names : List Text) : Except Fault Text := do
  let _ ← names.mapM (knownInstruction g)
  return opcodeDefinitions layout (g.instructions.filter (names.contains ·.opname))

variable {layout : Layout} {g : Grammar} {names requested : List Text} {content t t' : Text}
  {ns : NameSet}

theorem map_refreshOpcodes (requested : List Text) :
    (refreshOpcodes layout g requested t).map (·.1) = do
      let s ← ofText opcodeMarker t
      let content ← opcodeContent layout g
        (NameSet.union requested (definedOpcodes s.body)).names
      return s.render content := by
  unfold refreshOpcodes opcodeContent
  cases ofText opcodeMarker t with
  | error e => rfl
  | ok s =>
    dsimp only [bind, Except.bind]
    cases (NameSet.union requested (definedOpcodes s.body)).names.mapM (knownInstruction g) <;> rfl

theorem opcodeContent_eq_ok (h : opcodeContent layout g names = .ok content) :
    (∀ n ∈ names, ∃ i, g.instruction? n = some i) ∧
      content = opcodeDefinitions layout (g.instructions.filter (names.contains ·.opname)) := by
  obtain ⟨known, hknown, h⟩ := bind_eq_ok.1 h
  refine ⟨fun n hn => ?_, (Except.ok.inj h).symm⟩
  rw [mapM_eq_ok_iff] at hknown
  have hmem := List.mem_map_of_mem (f := knownInstruction g) hn
  rw [hknown] at hmem
  obtain ⟨i, -, hi⟩ := List.mem_map.1 hmem
  exact ⟨i, known_eq_ok_iff.1 hi.symm⟩

theorem opcodeContent_of_known (layout : Layout)
    (h : ∀ n ∈ names, ∃ i, g.instruction? n = some i) : opcodeContent layout g names =
      .ok (opcodeDefinitions layout (g.instructions.filter (names.contains ·.opname))) := by
  obtain ⟨known, hknown⟩ := exists_mapM_iff.2 fun n hn =>
    (h n hn).imp fun i hi => known_eq_ok_iff.2 hi
  exact bind_eq_ok.2 ⟨known, hknown, rfl⟩

theorem map_refreshOpcodes_of_known {s : MarkedSection} (layout : Layout)
    (hs : ofText opcodeMarker t = .ok s)
    (h : ∀ n ∈ (NameSet.union requested (definedOpcodes s.body)).names,
      ∃ i, g.instruction? n = some i) :
    (refreshOpcodes layout g requested t).map (·.1) =
      .ok (s.render (opcodeDefinitions layout (g.instructions.filter
        ((NameSet.union requested (definedOpcodes s.body)).names.contains ·.opname)))) := by
  rw [map_refreshOpcodes, hs]
  dsimp only [bind, Except.bind]
  rw [opcodeContent_of_known layout h]
  rfl

theorem refreshOpcodes_eq_ok (h : refreshOpcodes layout g requested t = .ok (t', ns)) :
    ∃ s content, ofText opcodeMarker t = .ok s ∧ opcodeContent layout g ns.names = .ok content ∧
      ns = NameSet.union requested (definedOpcodes s.body) ∧ t' = s.render content := by
  obtain ⟨s, hs, h⟩ := bind_eq_ok.1 h
  obtain ⟨known, hknown, h⟩ := bind_eq_ok.1 h
  obtain ⟨rfl, rfl⟩ := Prod.mk.inj (Except.ok.inj h)
  exact ⟨s, _, hs, bind_eq_ok.2 ⟨known, hknown, rfl⟩, rfl, rfl⟩

theorem mem_opcodesNamed {i : Instruction} :
    i ∈ g.instructions.filter (names.contains ·.opname) ↔
      i ∈ g.instructions ∧ i.opname ∈ names := by
  rw [List.mem_filter, List.contains_iff_mem]

theorem mem_map_byOpcode (hknown : ∀ n ∈ names, ∃ i, g.instruction? n = some i) {n : Text} :
    n ∈ (byOpcode (g.instructions.filter (names.contains ·.opname))).map (·.opname) ↔
      n ∈ names := by
  rw [List.mem_map]
  constructor
  · rintro ⟨i, hi, rfl⟩
    exact (mem_opcodesNamed.1 (mem_byOpcode.1 hi)).2
  · intro hn
    obtain ⟨i, hi⟩ := hknown n hn
    have hop := g.opname_of_instruction? hi
    refine ⟨i, mem_byOpcode.2 (mem_opcodesNamed.2 ⟨List.mem_of_find?_eq_some hi, ?_⟩), hop⟩
    rwa [hop]

theorem mem_definedOpcodes_opcodeContent (hw : ∀ n ∈ names, IsWord n)
    (h : opcodeContent layout g names = .ok content) {n : Text} :
    n ∈ definedOpcodes content ↔ n ∈ names := by
  obtain ⟨hknown, rfl⟩ := opcodeContent_eq_ok h
  rw [definedOpcodes_eq, wordsAfter_opcodeDefinitions fun i hi => hw _ (mem_opcodesNamed.1 hi).2]
  exact mem_map_byOpcode hknown

theorem absent_exclamation_opcodeContent (hw : ∀ i ∈ g.instructions, i.opname ∈ names →
    i.opname.all Character.isWord) (h : opcodeContent layout g names = .ok content) :
    ¬ OperandKind.exclamation <:+: content := by
  obtain ⟨-, rfl⟩ := opcodeContent_eq_ok h
  apply absent_opcodeDefinitions
  intro i hi
  obtain ⟨hi, hn⟩ := mem_opcodesNamed.1 hi
  exact hw i hi hn

theorem absent_opcodeContent (hw : ∀ i ∈ g.instructions, i.opname ∈ names →
    i.opname.all Character.isWord) (h : opcodeContent layout g names = .ok content) :
    ¬ opcodeMarker <:+: content :=
  absent_of_part exclamation_infix_opcodeMarker (absent_exclamation_opcodeContent hw h)

theorem isWord_of_mem_union (body : Text) (hr : ∀ n ∈ requested, IsWord n) :
    ∀ n ∈ (NameSet.union requested (definedOpcodes body)).names, IsWord n := by
  intro n hn
  rcases NameSet.mem_names_union.1 hn with hn | hn
  · exact hr n hn
  · exact isWord_of_mem_wordsAfter hn

theorem refreshOpcodes_composes (hr : ∀ n ∈ requested, IsWord n)
    (h : refreshOpcodes layout g requested t = .ok (t', ns)) :
    (refreshOpcodes layout g [] t').map (·.1) = .ok t' ∧
      ∀ requested' : List Text,
        (refreshOpcodes layout g requested' t').map (·.1) =
          (refreshOpcodes layout g (requested ++ requested') t).map (·.1) := by
  obtain ⟨s, content, hs, hcontent, rfl, rfl⟩ := refreshOpcodes_eq_ok h
  have hw := isWord_of_mem_union s.body hr
  have habsent := absent_opcodeContent (fun i _ hn => (hw _ hn).all) hcontent
  have hcomposes (requested' : List Text) :
      (refreshOpcodes layout g requested' (s.render content)).map (·.1) =
        (refreshOpcodes layout g (requested ++ requested') t).map (·.1) := by
    rw [map_refreshOpcodes, map_refreshOpcodes, hs, ofText_render framed_opcodeMarker hs habsent]
    dsimp only [bind, Except.bind]
    simp only [render_body, definedOpcodes_framedBody]
    -- What is read back is what was written, so that both refreshes are for the same names.
    have hnames : (NameSet.union requested' (definedOpcodes content)).names =
        (NameSet.union (requested ++ requested') (definedOpcodes s.body)).names := by
      apply NameSet.names_eq_of_mem_iff
      intro n
      rw [mem_definedOpcodes_opcodeContent hw hcontent, NameSet.mem_names_union, List.mem_append]
      tauto
    rw [hnames]
  refine ⟨?_, hcomposes⟩
  rw [hcomposes, List.append_nil, h]
  rfl

def blankOpcodes : Text := opcodeMarker ++ "\n\n// End " ++ opcodeMarker

def aliasGrammar : Grammar :=
  ⟨[], [⟨"OpDecorateStringGOOGLE", 5632, none, []⟩, ⟨"OpDecorateString", 5632, none, []⟩,
    ⟨"OpNop", 0, none, []⟩]⟩

def decorateString : List Text :=
  ["OpDecorateString"]

def decorateAlias : List Text :=
  ["OpNop", "OpDecorateStringGOOGLE"]

theorem refreshOpcodes_composes_alias :
    (∀ n ∈ decorateString, IsWord n) ∧
      ∃ t' ns, refreshOpcodes {} aliasGrammar decorateString blankOpcodes = .ok (t', ns) ∧
        (refreshOpcodes {} aliasGrammar [] t').map (·.1) = .ok t' ∧
        (refreshOpcodes {} aliasGrammar decorateAlias t').map (·.1) =
          (refreshOpcodes {} aliasGrammar (decorateString ++ decorateAlias)
            blankOpcodes).map (·.1) := by
  have hwords : ∀ n ∈ decorateString, IsWord n := by decide +kernel
  have hok : (refreshOpcodes {} aliasGrammar decorateString blankOpcodes).isOk := by
    decide +kernel
  refine ⟨hwords, ?_⟩
  cases h : refreshOpcodes {} aliasGrammar decorateString blankOpcodes with
  | error e =>
    rw [h] at hok
    cases hok
  | ok r =>
    obtain ⟨hid, hcomposes⟩ := refreshOpcodes_composes hwords h
    exact ⟨r.1, r.2, rfl, hid, hcomposes decorateAlias⟩

end SpirvTables
