import Mathlib.Data.List.Infix
import Mathlib.Tactic.Tauto
import SpirvTables.Proofs.Fault
import SpirvTables.Proofs.NameSet
import SpirvTables.Proofs.OpRecord.Kept
import SpirvTables.Proofs.OpRecord.Operands
import SpirvTables.Refresh

/-!
Refreshing op records twice is refreshing them once for both requests: what is read back of a
written record, hand-written parts included, writes the same record again.
-/

namespace SpirvTables

open Text Record

structure Kept.Clean (k : Kept) : Prop where
  lead : ∀ field ∈ [k.assembly, k.arguments, k.results, k.extras],
    ∀ t ∈ field, ¬ definitionLead <:+: t
  bracket : ∀ t ∈ k.categoryArgs, '[' ∉ t
  hashes : ∀ field ∈ [k.categoryArgs, k.traits], ∀ t ∈ field, ¬ ("###" : Text) <:+: t

def IsPlain (doc : Text) : Prop := ∀ p ∈ [("SPV_" : Text), "###", dashes], ¬ p <:+: doc

instance (k : Kept) : Decidable k.Clean :=
  decidable_of_iff (_ ∧ _ ∧ _) ⟨fun ⟨l, b, s⟩ => ⟨l, b, s⟩, fun h => ⟨h.lead, h.bracket, h.hashes⟩⟩

instance (doc : Text) : Decidable (IsPlain doc) := List.decidableBAll _ _

section

variable {k : Kept} {doc arguments : Text} {i : Instruction}

structure Expected (i : Instruction) (k : Kept) : Prop where
  opname : IsOpname i.opname
  fit : k.Fit
  whole : k.Whole
  arguments : ∀ a, i.recordArguments k = .ok a →
    definedOps a = [] ∧ ¬ listStop <:+: a ∧ ¬ BlockSection.separator <:+: a

theorem Kept.IsRead.fit (hr : k.IsRead) (hc : k.Clean) : k.Fit := by
  have hops := hr.ops
  have hlead := hc.lead
  simp only [List.forall_mem_cons] at hops hlead
  constructor
  · simp only [List.forall_mem_cons]
    exact ⟨hops.1, hops.2.1, fun t ht => definedOps_of_absent (hlead.1 t ht),
      fun t ht => definedOps_of_absent (hlead.2.2.1 t ht),
      fun t ht => definedOps_of_absent (hlead.2.2.2.1 t ht), by simp⟩
  · exact fun field hf t ht => ⟨hr.brace field hf t ht, hc.hashes field hf t ht⟩
  · exact hc.bracket
  · exact hr.closed
  · exact hr.assembly
  · exact hr.results
  · exact hr.extras

theorem Kept.IsRead.expected (hr : k.IsRead) (hc : k.Clean) (hop : i.opname = k.opname) :
    Expected i k where
  opname := hop ▸ hr.opname
  fit := hr.fit hc
  whole := hr.whole
  arguments a ha := by
    obtain ⟨x, hx, hstop, hseparator⟩ := hr.arguments
    have harguments : i.recordArguments k = .ok x :=
      Instruction.recordArguments_eq_ok_iff.2 (.inl hx)
    obtain rfl := Except.ok.inj (harguments.symm.trans ha)
    exact ⟨definedOps_of_absent (hc.lead _ (by simp) x hx), hstop, hseparator⟩

def Instruction.WordKinds (i : Instruction) : Prop :=
  ∀ o ∈ i.operands, o.kind.all Character.isWord

instance (i : Instruction) : Decidable i.WordKinds := List.decidableBAll _ _

theorem Instruction.WordKinds.absent_derivedArguments (h : i.WordKinds)
    (ha : i.derivedArguments = .ok arguments) :
    definedOps arguments = [] ∧ ¬ listStop <:+: arguments ∧
      ¬ BlockSection.separator <:+: arguments := by
  have key (c : Char) (p : Text) (hc : IsFence c) (hp : c ∈ p)
      (hl : ∀ lit ∈ argumentListLits, Parts p lit) : ¬ p <:+: arguments := by
    apply hc.absent_derivedArguments hp hl _ ha
    intro o ho hm
    have := List.all_eq_true.1 (h o ho) c hm
    rw [hc.notWord] at this
    cases this
  refine ⟨definedOps_of_absent ?_, ?_, ?_⟩
  · exact key ' ' _ (isFence_of_mem (by simp)) space_mem_definitionLead (by decide +kernel)
  · apply absent_of_part (q := [')']) (by decide +kernel)
    exact key ')' _ (isFence_of_mem (by simp)) List.mem_cons_self (by decide +kernel)
  · apply absent_of_part (q := ['/']) (by decide +kernel)
    exact key '/' _ (isFence_of_mem (by simp)) List.mem_cons_self (by decide +kernel)

theorem expected_empty (hop : IsOpname i.opname) (hkinds : i.WordKinds) : Expected i {} where
  opname := hop
  fit := Kept.fit_empty
  whole := Kept.whole_empty
  arguments _ := hkinds.absent_derivedArguments

theorem Expected.record (h : Expected i k) (layout : Layout) (hdoc : IsPlain doc)
    (ha : i.recordArguments k = .ok arguments) :
    (i.record layout k doc arguments).Readable ∧ (i.record layout k doc arguments).Separate := by
  obtain ⟨hops, hstop, hseparator⟩ := h.arguments arguments ha
  have hword := h.opname.isWord_opStem
  constructor
  · exact Instruction.readable_record layout hword (hdoc _ (by decide +kernel))
      (hdoc _ (by decide +kernel)) h.fit ⟨hops, hstop⟩
  · exact Instruction.separate_record layout hword (hdoc _ (by decide +kernel)) h.whole hseparator

end

section

variable {layout : Layout} {g : Grammar} {docs : Docs} {ks : List Kept} {k : Kept}
  {n text : Text} {names records : List Text}

theorem keptOf_of_mem (hnodup : (ks.map (·.opname)).Nodup) (hk : k ∈ ks) :
    keptOf ks k.opname = k := by
  rw [keptOf, find?_of_nodup_map hnodup hk, Option.getD_some]

theorem keptOf_of_notMem (h : n ∉ ks.map (·.opname)) : keptOf ks n = {} := by
  have hnone : ks.find? (·.opname = n) = none := by
    rw [List.find?_eq_none]
    intro k hk hn
    exact h (List.mem_map.2 ⟨k, hk, by simpa using hn⟩)
  rw [keptOf, hnone, Option.getD_none]

theorem keptOf_mem (h : n ∈ ks.map (·.opname)) : keptOf ks n ∈ ks ∧ (keptOf ks n).opname = n := by
  unfold keptOf
  cases hk : ks.find? (·.opname = n) with
  | none =>
    obtain ⟨k, hmem, rfl⟩ := List.mem_map.1 h
    have := List.find?_eq_none.1 hk k hmem
    simp at this
  | some k => exact ⟨List.mem_of_find?_eq_some hk, by simpa using List.find?_some hk⟩

theorem renderOp_eq_ok_iff {category : Text} :
    renderOp layout g docs category ks n = .ok text ↔
      ∃ i doc, g.instruction? n = some i ∧ docs.get? n = some doc ∧
        i.render layout category (keptOf ks n) doc = .ok text := by
  simp only [renderOp, bind_eq_ok, knownInstruction, knownDoc, known_eq_ok_iff]
  constructor
  · rintro ⟨i, hi, doc, hdoc, h⟩
    exact ⟨i, doc, hi, hdoc, h⟩
  · rintro ⟨i, doc, hi, hdoc, h⟩
    exact ⟨i, hi, doc, hdoc, h⟩

structure Settled (layout : Layout) (g : Grammar) (docs : Docs) (r : Record) : Prop where
  readable : r.Readable
  separate : r.Separate
  again : ∀ ks, keptOf ks r.kept.opname = r.kept →
    renderOp layout g docs plainCategory ks r.kept.opname = .ok r.text

theorem settled_of_renderOp (hk : ∀ i, g.instruction? n = some i → Expected i (keptOf ks n))
    (hdocs : ∀ doc, docs.get? n = some doc → IsPlain doc)
    (h : renderOp layout g docs plainCategory ks n = .ok text) :
    ∃ r : Record, r.text = text ∧ r.kept.opname = n ∧ Settled layout g docs r := by
  obtain ⟨i, doc, hi, hdoc, h⟩ := renderOp_eq_ok_iff.1 h
  rw [Instruction.render_plainCategory, map_eq_ok] at h
  obtain ⟨a, ha, rfl⟩ := h
  obtain ⟨hr, hs⟩ := (hk i hi).record layout (hdocs doc hdoc) ha
  have hopname : (i.record layout (keptOf ks n) doc a).kept.opname = n :=
    (hk i hi).opname.append_opStem.trans (Grammar.opname_of_instruction? hi)
  refine ⟨_, rfl, hopname, hr, hs, fun ks' hks' => ?_⟩
  obtain ⟨ha', hagain⟩ := Instruction.record_kept (rfl : i.record layout (keptOf ks n) doc a = _)
  rw [hopname] at hks' ⊢
  refine renderOp_eq_ok_iff.2 ⟨i, doc, hi, hdoc, ?_⟩
  rw [Instruction.render_plainCategory, hks', ha', Except.map, hagain]

theorem exists_records_of_mapM {f : Text → Except Fault Text} {P : Record → Prop}
    (hf : ∀ n ∈ names, ∀ text, f n = .ok text →
      ∃ r : Record, r.text = text ∧ r.kept.opname = n ∧ P r)
    (h : names.mapM f = .ok records) :
    ∃ rs : List Record, rs.map (·.text) = records ∧ rs.map (·.kept.opname) = names ∧
      ∀ r ∈ rs, P r := by
  induction names generalizing records with
  | nil =>
    obtain rfl := Except.ok.inj h
    exact ⟨[], rfl, rfl, by simp⟩
  | cons n names ih =>
    rw [List.mapM_cons] at h
    obtain ⟨text, htext, h⟩ := bind_eq_ok.1 h
    obtain ⟨texts, htexts, h⟩ := bind_eq_ok.1 h
    obtain rfl := Except.ok.inj h
    rw [List.forall_mem_cons] at hf
    obtain ⟨r, rfl, hname, hr⟩ := hf.1 text htext
    obtain ⟨rs, rfl, hnames, hrs⟩ := ih hf.2 htexts
    exact ⟨r :: rs, rfl, by rw [List.map_cons, hname, hnames], List.forall_mem_cons.2 ⟨hr, hrs⟩⟩

end

section

variable {layout : Layout} {g : Grammar} {docs : Docs} {requested : List Text} {t t' : Text}
  {category : Text} {ns : NameSet} {ks : List Kept} {s : BlockSection}

theorem map_refreshOps (requested : List Text) :
    (refreshOps layout g docs category requested t).map (·.1) = do
      let s ← BlockSection.ofText BlockSection.separator t
      let ks ← s.blocks.mapM Kept.ofBlock
      let names := (NameSet.union requested (ks.map (·.opname))).names
      let records ← names.mapM (renderOp layout g docs category ks)
      return s.render records := by
  unfold refreshOps
  cases BlockSection.ofText BlockSection.separator t with
  | error e => rfl
  | ok s =>
    dsimp only [bind, Except.bind]
    cases s.blocks.mapM Kept.ofBlock with
    | error e => rfl
    | ok ks =>
      dsimp only
      cases (NameSet.union requested (ks.map (·.opname))).names.mapM
        (renderOp layout g docs category ks) <;> rfl

theorem refreshOps_of_ok (hs : BlockSection.ofText BlockSection.separator t = .ok s)
    (hks : s.blocks.mapM Kept.ofBlock = .ok ks) (layout : Layout) (g : Grammar) (docs : Docs)
    (category : Text) (requested : List Text) :
    refreshOps layout g docs category requested t =
      ((NameSet.union requested (ks.map (·.opname))).names.mapM
        (renderOp layout g docs category ks)).map
          fun records => (s.render records, NameSet.union requested (ks.map (·.opname))) := by
  unfold refreshOps
  rw [hs]
  dsimp only [bind, Except.bind]
  rw [hks]
  dsimp only
  cases (NameSet.union requested (ks.map (·.opname))).names.mapM
    (renderOp layout g docs category ks) <;> rfl

theorem refreshOps_eq_ok_iff :
    refreshOps layout g docs category requested t = .ok (t', ns) ↔
      ∃ s ks records, BlockSection.ofText BlockSection.separator t = .ok s ∧
        s.blocks.mapM Kept.ofBlock = .ok ks ∧
        ns = NameSet.union requested (ks.map (·.opname)) ∧
        ns.names.mapM (renderOp layout g docs category ks) = .ok records ∧
        t' = s.render records := by
  unfold refreshOps
  constructor
  · intro h
    obtain ⟨s, hs, h⟩ := bind_eq_ok.1 h
    obtain ⟨ks, hks, h⟩ := bind_eq_ok.1 h
    obtain ⟨records, hrecords, h⟩ := bind_eq_ok.1 h
    obtain ⟨rfl, rfl⟩ := Prod.mk.inj (Except.ok.inj h)
    exact ⟨s, ks, records, hs, hks, rfl, hrecords, rfl⟩
  · rintro ⟨s, ks, records, hs, hks, rfl, hrecords, rfl⟩
    exact bind_eq_ok.2 ⟨s, hs, bind_eq_ok.2 ⟨ks, hks, bind_eq_ok.2 ⟨records, hrecords, rfl⟩⟩⟩

theorem isRead_keptOf {n : Text} (hs : BlockSection.ofText BlockSection.separator t = .ok s)
    (hks : s.blocks.mapM Kept.ofBlock = .ok ks) (hn : n ∈ ks.map (·.opname)) :
    (keptOf ks n).opname = n ∧ (keptOf ks n).IsRead ∧
      ∃ b ∈ s.blocks, Kept.ofBlock b = .ok (keptOf ks n) := by
  obtain ⟨-, ⟨-, hends⟩, -⟩ := BlockSection.ofText_separator_eq_ok_iff.1 hs
  obtain ⟨hmem, hname⟩ := keptOf_mem hn
  obtain ⟨b, hb, hk⟩ := exists_of_mem_mapM hks hmem
  exact ⟨hname, isRead_of_ofBlock hk (hends b hb).absent, b, hb, hk⟩

theorem expected_of_mem_names
    (hr : ∀ n ∈ requested, IsOpname n)
    (hs : BlockSection.ofText BlockSection.separator t = .ok s)
    (hks : s.blocks.mapM Kept.ofBlock = .ok ks)
    (hclean : ∀ b ∈ s.blocks, ∀ k, Kept.ofBlock b = .ok k → k.Clean)
    (hkinds : ∀ n ∈ (NameSet.union requested (ks.map (·.opname))).names,
      ∀ i, g.instruction? n = some i → i.WordKinds) :
    ∀ n ∈ (NameSet.union requested (ks.map (·.opname))).names,
      ∀ i, g.instruction? n = some i → Expected i (keptOf ks n) := by
  intro n hn i hi
  have hop := Grammar.opname_of_instruction? hi
  by_cases hfound : n ∈ ks.map (·.opname)
  · obtain ⟨hname, hread, b, hb, hk⟩ := isRead_keptOf hs hks hfound
    exact hread.expected (hclean b hb _ hk) (hop.trans hname.symm)
  · have hrequested := (NameSet.mem_names_union.1 hn).resolve_right hfound
    rw [keptOf_of_notMem hfound]
    exact expected_empty (hop ▸ hr n hrequested) (hkinds n hn i hi)

section

variable {rs : List Record}

theorem ofText_render_records (hs : BlockSection.ofText BlockSection.separator t = .ok s)
    (hrs : ∀ r ∈ rs, r.Separate) :
    BlockSection.ofText BlockSection.separator (s.render (rs.map (·.text))) =
      .ok { s with blocks := rs.map (·.text) } := by
  apply BlockSection.ofText_render hs
  intro b hb
  obtain ⟨r, hmem, rfl⟩ := List.mem_map.1 hb
  exact (hrs r hmem).ends_text

theorem mapM_ofBlock_records (hrs : ∀ r ∈ rs, r.Readable) :
    (rs.map (·.text)).mapM Kept.ofBlock = .ok (rs.map (·.kept)) := by
  rw [mapM_eq_ok_iff, List.map_map, List.map_map]
  exact List.map_congr_left fun r hmem => (hrs r hmem).ofBlock_text

theorem renderOp_records (hrs : ∀ r ∈ rs, Settled layout g docs r)
    (hrecords : ∀ r ∈ rs, renderOp layout g docs plainCategory ks r.kept.opname = .ok r.text)
    (hnodup : ((rs.map (·.kept)).map (·.opname)).Nodup)
    (hks : ∀ n ∈ ks.map (·.opname), n ∈ (rs.map (·.kept)).map (·.opname)) (n : Text) :
    renderOp layout g docs plainCategory (rs.map (·.kept)) n =
      renderOp layout g docs plainCategory ks n := by
  by_cases hn : n ∈ (rs.map (·.kept)).map (·.opname)
  · obtain ⟨k, hk, rfl⟩ := List.mem_map.1 hn
    obtain ⟨r, hmem, rfl⟩ := List.mem_map.1 hk
    rw [(hrs r hmem).again _ (keptOf_of_mem hnodup hk), hrecords r hmem]
  · have hks' : n ∉ ks.map (·.opname) := fun hmem => hn (hks n hmem)
    unfold renderOp
    rw [keptOf_of_notMem hn, keptOf_of_notMem hks']

end

/-- Two refreshes of the ops come to one for both requests, as long as what was written by hand
can be told from what is generated. -/
theorem refreshOps_composes
    (hr : ∀ n ∈ requested, IsOpname n)
    (hclean : ∀ s, BlockSection.ofText BlockSection.separator t = .ok s →
      ∀ b ∈ s.blocks, ∀ k, Kept.ofBlock b = .ok k → k.Clean)
    (h : refreshOps layout g docs plainCategory requested t = .ok (t', ns))
    (hkinds : ∀ n ∈ ns.names, ∀ i, g.instruction? n = some i → i.WordKinds)
    (hdocs : ∀ n ∈ ns.names, ∀ doc, docs.get? n = some doc → IsPlain doc)
    (requested' : List Text) :
    (refreshOps layout g docs plainCategory requested' t').map (·.1) =
      (refreshOps layout g docs plainCategory (requested ++ requested') t).map (·.1) := by
  obtain ⟨s, ks, records, hs, hks, rfl, hrecords, rfl⟩ := refreshOps_eq_ok_iff.1 h
  have hexpected := expected_of_mem_names hr hs hks (hclean s hs) hkinds
  obtain ⟨rs, rfl, hnames, hrs⟩ := exists_records_of_mapM
    (fun n hn text => settled_of_renderOp (hexpected n hn) (hdocs n hn)) hrecords
  have hopnames : (rs.map (·.kept)).map (·.opname) =
      (NameSet.union requested (ks.map (·.opname))).names := by
    rw [← hnames, List.map_map]
    rfl
  have hunion : (NameSet.union requested' ((rs.map (·.kept)).map (·.opname))).names =
      (NameSet.union (requested ++ requested') (ks.map (·.opname))).names := by
    apply NameSet.names_eq_of_mem_iff
    intro n
    rw [hopnames, NameSet.mem_names_union, List.mem_append]
    tauto
  have hagain : ∀ n, renderOp layout g docs plainCategory (rs.map (·.kept)) n =
      renderOp layout g docs plainCategory ks n := by
    rw [mapM_eq_ok_iff, ← hnames, List.map_map, List.map_map, List.map_inj_left] at hrecords
    apply renderOp_records hrs hrecords
    · rw [hopnames]
      exact (NameSet.sortedLT_names_union _ _).nodup
    · intro n hn
      rw [hopnames, NameSet.mem_names_union]
      exact .inr hn
  rw [map_refreshOps, map_refreshOps, ofText_render_records hs fun r hr => (hrs r hr).separate, hs]
  dsimp only [bind, Except.bind]
  rw [mapM_ofBlock_records fun r hr => (hrs r hr).readable, hks]
  dsimp only
  rw [hunion, mapM_congr_of_mem fun n _ => hagain n]
  rfl

theorem Docs.mem_of_get? {n doc : Text} (h : docs.get? n = some doc) : (n, doc) ∈ docs.entries := by
  unfold Docs.get? at h
  generalize docs.entries = entries at h ⊢
  induction entries with
  | nil => cases h
  | cons e entries ih =>
    rw [latest?, Option.or_eq_some_iff] at h
    rcases h with h | ⟨-, h⟩
    · exact List.mem_cons_of_mem e (ih h)
    · obtain ⟨rfl, hdoc⟩ := Option.ite_none_right_eq_some.1 h
      obtain rfl := Option.some.inj hdoc
      exact List.mem_cons_self

def undefBlock : Text :=
  "def SPV_UndefOp : SPV_Op<\"Undef\", [Pure]> \x7b\n  let results = (outs);\n\x7d\n"

def undefKept : Kept := ⟨"OpUndef", some ", ", some "Pure", some [], some [], some [], some []⟩

def undefGrammar : Grammar := ⟨[], [⟨"OpNop", 0, none, []⟩, Instruction.undefInstruction]⟩

def undefDocs : Docs := ⟨[("OpNop", "Do nothing."), ("OpUndef", "Make a value.")]⟩

def undefFile : Text := BlockSection.render ⟨[], [undefBlock], []⟩ [undefBlock]

theorem ofText_undefFile : BlockSection.ofText BlockSection.separator undefFile =
    .ok ⟨[], [undefBlock], []⟩ :=
  BlockSection.ofText_separator_eq_ok_iff.2 ⟨rfl, by decide +kernel⟩

theorem ofBlock_undefBlock : Kept.ofBlock undefBlock = .ok undefKept :=
  toOption_eq_some_iff.1 (by decide +kernel)

theorem mapM_ofBlock_undefFile : [undefBlock].mapM Kept.ofBlock = .ok [undefKept] :=
  mapM_eq_ok_iff.2 (congrArg (fun r => [r]) ofBlock_undefBlock)

theorem wordKinds_undefGrammar {n : Text} {i : Instruction}
    (h : undefGrammar.instruction? n = some i) : i.WordKinds := by
  have hkinds : ∀ i ∈ undefGrammar.instructions, i.WordKinds := by decide +kernel
  exact hkinds i (List.mem_of_find?_eq_some h)

theorem isPlain_undefDocs {n doc : Text} (h : undefDocs.get? n = some doc) : IsPlain doc := by
  have hdocs : ∀ e ∈ undefDocs.entries, IsPlain e.2 := by decide +kernel
  exact hdocs _ (Docs.mem_of_get? h)

theorem isOpname_nop : ∀ n ∈ [("OpNop" : Text)], IsOpname n :=
  List.forall_mem_singleton.2 ⟨"Nop",
    ⟨ne_nil_ofList, List.all_eq_true.1 (all_isWord_ofList (by decide))⟩, eq_append_ofList rfl⟩

theorem refreshOps_undefFile : ∃ t', refreshOps {} undefGrammar undefDocs plainCategory ["OpNop"]
    undefFile = .ok (t', NameSet.union ["OpNop"] ["OpUndef"]) := by
  have hok : ((NameSet.union ["OpNop"] ["OpUndef"]).names.mapM
      (renderOp {} undefGrammar undefDocs plainCategory [undefKept])).isOk := by decide +kernel
  obtain ⟨records, hrecords⟩ := exists_eq_ok_of_isOk hok
  exact ⟨_, refreshOps_eq_ok_iff.2
    ⟨_, _, records, ofText_undefFile, mapM_ofBlock_undefFile, rfl, hrecords, rfl⟩⟩

theorem refreshOps_composes_undef :
    ∃ t t' ns, BlockSection.ofText BlockSection.separator t = .ok ⟨[], [undefBlock], []⟩ ∧
      refreshOps {} undefGrammar undefDocs plainCategory ["OpNop"] t = .ok (t', ns) ∧
      ∀ requested' : List Text,
        (refreshOps {} undefGrammar undefDocs plainCategory requested' t').map (·.1) =
          (refreshOps {} undefGrammar undefDocs plainCategory
            ([("OpNop" : Text)] ++ requested') t).map (·.1) := by
  obtain ⟨t', h⟩ := refreshOps_undefFile
  refine ⟨_, _, _, ofText_undefFile, h, refreshOps_composes isOpname_nop ?_ h
    (fun _ _ _ => wordKinds_undefGrammar) (fun _ _ _ => isPlain_undefDocs)⟩
  intro s hs b hb k hk
  obtain rfl := Except.ok.inj (ofText_undefFile.symm.trans hs)
  obtain rfl := List.mem_singleton.1 hb
  obtain rfl := Except.ok.inj (ofBlock_undefBlock.symm.trans hk)
  decide +kernel

end

end SpirvTables
