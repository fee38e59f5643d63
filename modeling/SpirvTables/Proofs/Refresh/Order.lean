import SpirvTables.Proofs.OpcodeOrder
import SpirvTables.Proofs.Refresh.Opcodes
import SpirvTables.Proofs.Refresh.Ops

namespace SpirvTables

open Text

variable {layout : Layout} {g g' : Grammar} {docs : Docs} {category t n : Text}
  {requested requested' names blocks : List Text} {ks ks' : List Kept} {s : BlockSection}

theorem refresh_requested_congr (hr : ∀ n, n ∈ requested ↔ n ∈ requested') (layout : Layout)
    (g : Grammar) (docs : Docs) (category t : Text) :
    refreshEnums layout g requested t = refreshEnums layout g requested' t ∧
      refreshOpcodes layout g requested t = refreshOpcodes layout g requested' t ∧
      refreshOps layout g docs category requested t =
        refreshOps layout g docs category requested' t := by
  have hunion (found : List Text) : NameSet.union requested found =
      NameSet.union requested' found := NameSet.union_congr hr fun _ => Iff.rfl
  unfold refreshEnums refreshOpcodes refreshOps
  simp only [hunion, and_self]

theorem keptOf_perm (hp : ks.Perm ks') (hnodup : (ks.map (·.opname)).Nodup) (n : Text) :
    keptOf ks n = keptOf ks' n := by
  have hnames := hp.map (·.opname)
  by_cases hn : n ∈ ks.map (·.opname)
  · obtain ⟨k, hk, rfl⟩ := List.mem_map.1 hn
    rw [keptOf_of_mem hnodup hk, keptOf_of_mem (hnames.nodup_iff.1 hnodup) (hp.mem_iff.1 hk)]
  · rw [keptOf_of_notMem hn, keptOf_of_notMem fun hn' => hn (hnames.mem_iff.2 hn')]

theorem refreshOps_perm (hs : BlockSection.ofText BlockSection.separator t = .ok s)
    (hks : s.blocks.mapM Kept.ofBlock = .ok ks) (hnodup : (ks.map (·.opname)).Nodup)
    (hp : s.blocks.Perm blocks) (layout : Layout) (g : Grammar) (docs : Docs) (category : Text)
    (requested : List Text) :
    refreshOps layout g docs category requested (s.render blocks) =
      refreshOps layout g docs category requested t := by
  obtain ⟨-, ⟨-, hends⟩, -⟩ := BlockSection.ofText_separator_eq_ok_iff.1 hs
  have hs' := BlockSection.ofText_render hs fun b hb => hends b (hp.mem_iff.2 hb)
  obtain ⟨ks', hks', hperm⟩ := exists_mapM_of_perm hp hks
  have hunion : NameSet.union requested (ks'.map (·.opname)) =
      NameSet.union requested (ks.map (·.opname)) :=
    NameSet.union_congr (fun _ => Iff.rfl) fun n => (hperm.map (·.opname)).mem_iff.symm
  have hrender (n : Text) : renderOp layout g docs category ks' n =
      renderOp layout g docs category ks n := by
    unfold renderOp
    rw [keptOf_perm hperm hnodup]
  rw [refreshOps_of_ok hs' hks', refreshOps_of_ok hs hks, hunion,
    mapM_congr_of_mem fun n _ => hrender n]
  rfl

theorem bind_knownInstruction {α : Type} (g : Grammar) (n : Text) (x : Except Fault α) :
    (knownInstruction g n >>= fun _ => x) =
      if (g.instruction? n).isSome then x else throw (.unknownInstruction n) := by
  unfold knownInstruction
  cases g.instruction? n <;> rfl

theorem bind_mapM_knownInstruction_congr {α : Type}
    (h : ∀ n, (g.instruction? n).isSome = (g'.instruction? n).isSome) (x : Except Fault α) :
    (names.mapM (knownInstruction g) >>= fun _ => x) =
      names.mapM (knownInstruction g') >>= fun _ => x := by
  induction names with
  | nil => rfl
  | cons n names ih =>
    simp only [List.mapM_cons, bind_assoc, pure_bind]
    rw [ih, bind_knownInstruction, bind_knownInstruction, h]

theorem Reordered.isSome_instruction? (h : Reordered g.instructions g'.instructions) (n : Text) :
    (g.instruction? n).isSome = (g'.instruction? n).isSome := by
  rw [Bool.eq_iff_iff, Grammar.instruction?, Grammar.instruction?, List.find?_isSome,
    List.find?_isSome]
  simp only [h.perm.mem_iff]

theorem refreshOpcodes_reordered (h : Reordered g.instructions g'.instructions) (layout : Layout)
    (requested : List Text) (t : Text) :
    refreshOpcodes layout g' requested t = refreshOpcodes layout g requested t := by
  have hcases (names : NameSet) :
      opcodeDefinitions layout (g'.instructions.filter (names.contains ·.opname)) =
        opcodeDefinitions layout (g.instructions.filter (names.contains ·.opname)) := by
    unfold opcodeDefinitions
    rw [byOpcode_congr]
    intro c
    unfold ofOpcode
    rw [List.filter_comm, List.filter_comm _ _ g.instructions]
    exact congrArg _ (h.ofOpcode_eq c).symm
  unfold refreshOpcodes
  apply bind_congr
  intro s
  dsimp only
  rw [bind_mapM_knownInstruction_congr h.isSome_instruction?, hcases]

/-- Nothing that a refresh gives, be it a text, the names or a fault, depends on the order in which
names are requested or on how often; on the order of the blocks of a file that are read as records
of different ops; or on the order of the instructions of different opcodes. -/
theorem refresh_unordered (layout : Layout) (g : Grammar) (docs : Docs) (category t : Text) :
    (∀ requested requested' : List Text, (∀ n, n ∈ requested ↔ n ∈ requested') →
      refreshEnums layout g requested t = refreshEnums layout g requested' t ∧
        refreshOpcodes layout g requested t = refreshOpcodes layout g requested' t ∧
        refreshOps layout g docs category requested t =
          refreshOps layout g docs category requested' t) ∧
      (∀ s ks blocks, BlockSection.ofText BlockSection.separator t = .ok s →
        s.blocks.mapM Kept.ofBlock = .ok ks → (ks.map (·.opname)).Nodup → s.blocks.Perm blocks →
          ∀ requested, refreshOps layout g docs category requested (s.render blocks) =
            refreshOps layout g docs category requested t) ∧
      ∀ g' : Grammar, Reordered g.instructions g'.instructions →
        ∀ requested, refreshOpcodes layout g' requested t = refreshOpcodes layout g requested t :=
  ⟨fun _ _ hr => refresh_requested_congr hr layout g docs category t,
    fun _ _ _ hs hks hnodup hp => refreshOps_perm hs hks hnodup hp layout g docs category,
    fun _ h requested => refreshOpcodes_reordered h layout requested t⟩

def nopBlock : Text :=
  "def SPV_NopOp : SPV_Op<\"Nop\", []> \x7b\n  let results = (outs);\n\x7d\n"

def nopKept : Kept := ⟨"OpNop", some ", ", some [], some [], some [], some [], some []⟩

def pairFile : Text := BlockSection.render ⟨[], [undefBlock], []⟩ [undefBlock, nopBlock]

def ascendingGrammar : Grammar :=
  ⟨[], [⟨"OpNop", 0, none, []⟩, ⟨"OpDecorateStringGOOGLE", 5632, none, []⟩,
    ⟨"OpDecorateString", 5632, none, []⟩]⟩

theorem refresh_unordered_pair :
    (∀ n, n ∈ decorateAlias ↔ n ∈ decorateAlias.reverse ++ decorateAlias) ∧
      refreshOpcodes {} aliasGrammar decorateAlias blankOpcodes =
        refreshOpcodes {} aliasGrammar (decorateAlias.reverse ++ decorateAlias) blankOpcodes ∧
      (∃ s ks, BlockSection.ofText BlockSection.separator pairFile = .ok s ∧
        s.blocks.mapM Kept.ofBlock = .ok ks ∧ (ks.map (·.opname)).Nodup ∧
        s.blocks.Perm [nopBlock, undefBlock] ∧
        refreshOps {} undefGrammar undefDocs plainCategory [] (s.render [nopBlock, undefBlock]) =
          refreshOps {} undefGrammar undefDocs plainCategory [] pairFile) ∧
      Reordered aliasGrammar.instructions ascendingGrammar.instructions ∧
      refreshOpcodes {} ascendingGrammar decorateAlias blankOpcodes =
        refreshOpcodes {} aliasGrammar decorateAlias blankOpcodes := by
  have hr (n : Text) : n ∈ decorateAlias ↔ n ∈ decorateAlias.reverse ++ decorateAlias := by
    simp
  have hreordered : Reordered aliasGrammar.instructions ascendingGrammar.instructions := by
    decide +kernel
  have hs : BlockSection.ofText BlockSection.separator pairFile =
      .ok ⟨[], [undefBlock, nopBlock], []⟩ :=
    BlockSection.ofText_separator_eq_ok_iff.2 ⟨rfl, by decide +kernel⟩
  have hks : [undefBlock, nopBlock].mapM Kept.ofBlock = .ok [undefKept, nopKept] :=
    toOption_eq_some_iff.1 (by decide +kernel)
  have hnodup : ([undefKept, nopKept].map (·.opname)).Nodup := by decide +kernel
  have hswap : [undefBlock, nopBlock].Perm [nopBlock, undefBlock] := List.Perm.swap _ _ _
  obtain ⟨hrequested, -, hgrammar⟩ :=
    refresh_unordered {} aliasGrammar undefDocs plainCategory blankOpcodes
  obtain ⟨-, hblocks, -⟩ := refresh_unordered {} undefGrammar undefDocs plainCategory pairFile
  exact ⟨hr, (hrequested _ _ hr).2.1,
    ⟨_, _, hs, hks, hnodup, hswap, hblocks _ _ _ hs hks hnodup hswap []⟩,
    hreordered, hgrammar _ hreordered _⟩

end SpirvTables
