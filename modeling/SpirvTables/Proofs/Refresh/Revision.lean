import SpirvTables.Proofs.Refresh.Ops

namespace SpirvTables

open Text Record

variable {layout : Layout} {g g' : Grammar} {docs : Docs} {category doc block t n : Text}
  {requested : List Text} {ks : List Kept} {k : Kept} {i j : Instruction}

/-- Parts that leave nothing of a record to be filled in. -/
def Kept.Full (k : Kept) : Prop :=
  ∀ field ∈ [k.categoryArgs, k.traits, k.assembly, k.arguments, k.results, k.extras], field.isSome

instance (k : Kept) : Decidable k.Full := List.decidableBAll _ _

theorem Kept.full_of_ofBlock (h : Kept.ofBlock block = .ok k) : k.Full := by
  obtain ⟨stem, definition, args, traits, assembly, rest₁, arguments, rest₂, results, rest₃, -, -,
    -, -, -, rfl⟩ := ofBlock_eq_ok h
  simp [Kept.Full]

theorem Kept.Full.renderInterface_congr (hk : k.Full) (i j : Instruction) (category : Text) :
    i.renderInterface k category = j.renderInterface k category := by
  have harguments := hk k.arguments (by simp)
  have hresults := hk k.results (by simp)
  obtain ⟨a, ha⟩ := Option.isSome_iff_exists.1 harguments
  obtain ⟨r, hr⟩ := Option.isSome_iff_exists.1 hresults
  unfold Instruction.renderInterface
  rw [ha, hr]
  rfl

theorem Kept.Full.render_congr (hk : k.Full) (h : i.opname = j.opname) (layout : Layout)
    (category doc : Text) : i.render layout category k doc = j.render layout category k doc := by
  have hhead : i.renderHead k category = j.renderHead k category := by
    unfold Instruction.renderHead
    rw [h]
  unfold Instruction.render
  rw [hhead, hk.renderInterface_congr i j]

theorem renderOp_congr (hg : g.instruction? n = some i) (hg' : g'.instruction? n = some j)
    (hk : (keptOf ks n).Full) :
    renderOp layout g docs category ks n = renderOp layout g' docs category ks n := by
  have hopname : i.opname = j.opname :=
    (Grammar.opname_of_instruction? hg).trans (Grammar.opname_of_instruction? hg').symm
  unfold renderOp knownInstruction
  rw [hg, hg']
  exact bind_congr fun doc => hk.render_congr hopname layout category doc

/-- An op that one of the blocks of a file is read as. -/
def HasOp (t n : Text) : Prop :=
  ∃ s b k, BlockSection.ofText BlockSection.separator t = .ok s ∧ b ∈ s.blocks ∧
    Kept.ofBlock b = .ok k ∧ k.opname = n

theorem hasOp_iff {s : BlockSection} (hs : BlockSection.ofText BlockSection.separator t = .ok s)
    (hks : s.blocks.mapM Kept.ofBlock = .ok ks) : HasOp t n ↔ n ∈ ks.map (·.opname) := by
  constructor
  · rintro ⟨s', b, k, hs', hb, hk, rfl⟩
    obtain rfl := Except.ok.inj (hs.symm.trans hs')
    exact List.mem_map_of_mem (mem_of_mapM hks hb hk)
  · intro hn
    obtain ⟨k, hk, rfl⟩ := List.mem_map.1 hn
    obtain ⟨b, hb, hbk⟩ := exists_of_mem_mapM hks hk
    exact ⟨s, b, k, hs, hb, hbk, rfl⟩

/-- Two grammars that know the ops of a file cannot be told apart by refreshing these, whatever the
operands, the opcode and the group of an instruction are in each. -/
theorem refreshOps_congr_of_known (layout : Layout) (docs : Docs) (category : Text)
    (hrequested : ∀ n ∈ requested, HasOp t n) (hg : ∀ n, HasOp t n → (g.instruction? n).isSome)
    (hg' : ∀ n, HasOp t n → (g'.instruction? n).isSome) :
    refreshOps layout g docs category requested t =
      refreshOps layout g' docs category requested t := by
  cases hs : BlockSection.ofText BlockSection.separator t with
  | error f =>
    unfold refreshOps
    rw [hs]
    rfl
  | ok s =>
    cases hks : s.blocks.mapM Kept.ofBlock with
    | error f =>
      unfold refreshOps
      rw [hs]
      dsimp only [bind, Except.bind]
      rw [hks]
    | ok ks =>
      rw [refreshOps_of_ok hs hks, refreshOps_of_ok hs hks]
      apply congrArg (Except.map _)
      apply mapM_congr_of_mem
      intro n hn
      have hop : HasOp t n :=
        (NameSet.mem_names_union.1 hn).elim (hrequested n) (hasOp_iff hs hks).2
      obtain ⟨i, hi⟩ := Option.isSome_iff_exists.1 (hg n hop)
      obtain ⟨j, hj⟩ := Option.isSome_iff_exists.1 (hg' n hop)
      obtain ⟨b, -, hb⟩ := exists_of_mem_mapM hks (keptOf_mem ((hasOp_iff hs hks).1 hop)).1
      exact renderOp_congr hi hj (Kept.full_of_ofBlock hb)

def revisedGrammar : Grammar :=
  ⟨[], [⟨"OpUndef", 7, some "Miscellaneous",
    [⟨"IdResultType", .one, none⟩, ⟨"LiteralString", .variadic, none⟩]⟩]⟩

theorem hasOp_undefFile {n : Text} : HasOp undefFile n ↔ n = "OpUndef" := by
  rw [hasOp_iff ofText_undefFile mapM_ofBlock_undefFile]
  exact List.mem_singleton

theorem refreshOps_congr_of_known_undef :
    (∀ n ∈ [("OpUndef" : Text)], HasOp undefFile n) ∧
      (∀ n, HasOp undefFile n → (undefGrammar.instruction? n).isSome) ∧
      (∀ n, HasOp undefFile n → (revisedGrammar.instruction? n).isSome) ∧
      (∀ i ∈ revisedGrammar.instructions, ¬ i.derivedArguments.isOk) ∧
      refreshOps {} undefGrammar undefDocs plainCategory ["OpUndef"] undefFile =
        refreshOps {} revisedGrammar undefDocs plainCategory ["OpUndef"] undefFile := by
  have hrequested : ∀ n ∈ [("OpUndef" : Text)], HasOp undefFile n :=
    List.forall_mem_singleton.2 (hasOp_undefFile.2 rfl)
  have hg (n : Text) (hn : HasOp undefFile n) : (undefGrammar.instruction? n).isSome := by
    obtain rfl := hasOp_undefFile.1 hn
    decide +kernel
  have hg' (n : Text) (hn : HasOp undefFile n) : (revisedGrammar.instruction? n).isSome := by
    obtain rfl := hasOp_undefFile.1 hn
    decide +kernel
  exact ⟨hrequested, hg, hg', by decide +kernel,
    refreshOps_congr_of_known {} undefDocs plainCategory hrequested hg hg'⟩

end SpirvTables
