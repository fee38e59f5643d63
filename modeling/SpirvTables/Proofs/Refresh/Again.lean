import Mathlib.Data.List.Forall2
import SpirvTables.Proofs.OpRecord.Separate
import SpirvTables.Proofs.Refresh.Ops

/-!
A file of op records that was written by a refresh can be refreshed again, exactly as long as what
was kept of its blocks defines no op. A part that defines one, as the definition of a block that is
taken for its extras, makes two definitions of one record.
-/

namespace SpirvTables

open Text Record

section

variable {k : Kept} {doc arguments : Text} {i : Instruction}

structure Kept.Sound (k : Kept) : Prop where
  ops : ∀ field ∈ [k.categoryArgs, k.traits], ∀ t ∈ field, definedOps t = []
  brace : ∀ field ∈ [k.categoryArgs, k.traits], ∀ t ∈ field, ¬ ("\x7b\n" : Text) <:+: t
  arguments : ∀ t ∈ k.arguments, ¬ BlockSection.separator <:+: t
  whole : k.Whole

theorem Kept.IsRead.sound (h : k.IsRead) : k.Sound where
  ops := h.ops
  brace := h.brace
  arguments t ht := by
    obtain ⟨a, ha, -, hseparator⟩ := h.arguments
    obtain rfl := Option.some.inj (ha.symm.trans ht)
    exact hseparator
  whole := h.whole

theorem Kept.sound_empty : Sound {} where
  ops := by simp
  brace := by simp
  arguments := by simp
  whole := whole_empty

theorem definedOps_getD_eq_nil_iff {o : Option Text} {d : Text} (hd : definedOps d = []) :
    definedOps (o.getD d) = [] ↔ ∀ t ∈ o, definedOps t = [] := by
  cases o <;> simp [hd]

namespace Instruction

theorem WordKinds.absent_recordArguments (h : i.WordKinds) (hk : k.Sound)
    (ha : i.recordArguments k = .ok arguments) : ¬ BlockSection.separator <:+: arguments := by
  rcases recordArguments_eq_ok_iff.1 ha with hkept | ⟨-, hderived⟩
  · exact hk.arguments _ hkept
  · exact (h.absent_derivedArguments hderived).2.2

theorem WordKinds.definedOps_recordArguments_eq_nil_iff (h : i.WordKinds)
    (ha : i.recordArguments k = .ok arguments) :
    definedOps arguments = [] ↔ ∀ t ∈ k.arguments, definedOps t = [] := by
  rcases recordArguments_eq_ok_iff.1 ha with hkept | ⟨hkept, hderived⟩
  · simp [hkept]
  · simp [hkept, (h.absent_derivedArguments hderived).1]

theorem definedOps_definition_record_eq_nil_iff {layout : Layout} (hkinds : i.WordKinds)
    (hr : (i.record layout k doc arguments).Headed) (ha : i.recordArguments k = .ok arguments) :
    definedOps (i.record layout k doc arguments).definition = [] ↔ k.DefinesNone := by
  have hassembly : definedOps (k.assembly.getD assemblyTemplate) = [] ↔
      ∀ t ∈ k.assembly, definedOps t = [] :=
    definedOps_getD_eq_nil_iff definedOps_assemblyTemplate
  have hresults : definedOps (k.results.getD i.derivedResults) = [] ↔
      ∀ t ∈ k.results, definedOps t = [] :=
    definedOps_getD_eq_nil_iff definedOps_derivedResults
  have hextras : definedOps (k.extras.getD []) = [] ↔ ∀ t ∈ k.extras, definedOps t = [] :=
    definedOps_getD_eq_nil_iff definedOps_nil
  have harguments := hkinds.definedOps_recordArguments_eq_nil_iff ha
  rw [hr.definedOps_definition, List.append_eq_nil_iff, List.append_eq_nil_iff,
    List.append_eq_nil_iff]
  constructor
  · rintro ⟨ha, hi, ho, he⟩
    exact ⟨hassembly.1 ha, harguments.1 hi, hresults.1 ho, hextras.1 he⟩
  · rintro ⟨ha, hi, ho, he⟩
    exact ⟨hassembly.2 ha, harguments.2 hi, hresults.2 ho, hextras.2 he⟩

end Instruction

end

section

variable {layout : Layout} {g : Grammar} {docs : Docs} {ks : List Kept} {n text : Text}

structure Written (g : Grammar) (docs : Docs) (ks : List Kept) (r : Record) : Prop where
  headed : r.Headed
  separate : r.Separate
  known : ∃ i doc, g.instruction? r.kept.opname = some i ∧ docs.get? r.kept.opname = some doc
  ops : definedOps r.definition = [] ↔ (keptOf ks r.kept.opname).DefinesNone

theorem written_of_renderOp (hn : IsOpname n) (hk : (keptOf ks n).Sound)
    (hkinds : ∀ i, g.instruction? n = some i → i.WordKinds)
    (hdocs : ∀ doc, docs.get? n = some doc → IsPlain doc)
    (h : renderOp layout g docs plainCategory ks n = .ok text) :
    ∃ r : Record, r.text = text ∧ r.kept.opname = n ∧ Written g docs ks r := by
  obtain ⟨i, doc, hi, hdoc, h⟩ := renderOp_eq_ok_iff.1 h
  rw [Instruction.render_plainCategory, map_eq_ok] at h
  obtain ⟨a, ha, rfl⟩ := h
  have hop := Grammar.opname_of_instruction? hi
  have hword : IsWord (opStem i.opname) := hop ▸ hn.isWord_opStem
  have hplain := hdocs doc hdoc
  have hr := Instruction.headed_record layout hword (hplain _ (by decide +kernel)) hk.ops hk.brace a
  have hopname : (i.record layout (keptOf ks n) doc a).kept.opname = n := by
    rw [← hop] at hn ⊢
    exact hn.append_opStem
  refine ⟨_, rfl, hopname, hr, ?_, ?_, ?_⟩
  · exact Instruction.separate_record layout hword (hplain _ (by decide +kernel)) hk.whole
      ((hkinds i hi).absent_recordArguments hk ha)
  · rw [hopname]
    exact ⟨i, doc, hi, hdoc⟩
  · rw [hopname]
    exact Instruction.definedOps_definition_record_eq_nil_iff (hkinds i hi) hr ha

theorem exists_renderOp_eq_ok {i : Instruction} {doc a : Text} (hi : g.instruction? n = some i)
    (hdoc : docs.get? n = some doc) (ha : (keptOf ks n).arguments = some a) :
    ∃ text, renderOp layout g docs plainCategory ks n = .ok text := by
  have harguments : i.recordArguments (keptOf ks n) = .ok a :=
    Instruction.recordArguments_eq_ok_iff.2 (.inl ha)
  have hrender : i.render layout plainCategory (keptOf ks n) doc =
      .ok (i.record layout (keptOf ks n) doc a).text := by
    rw [Instruction.render_plainCategory, harguments]
    rfl
  exact ⟨_, renderOp_eq_ok_iff.2 ⟨i, doc, hi, hdoc, hrender⟩⟩

end

section

variable {layout : Layout} {g : Grammar} {docs : Docs} {requested : List Text} {t t' : Text}
  {ns : NameSet} {ks : List Kept} {s : BlockSection} {rs : List Record}

theorem sound_keptOf (hs : BlockSection.ofText BlockSection.separator t = .ok s)
    (hks : s.blocks.mapM Kept.ofBlock = .ok ks) (n : Text) : (keptOf ks n).Sound := by
  by_cases hn : n ∈ ks.map (·.opname)
  · exact (isRead_keptOf hs hks hn).2.1.sound
  · rw [keptOf_of_notMem hn]
    exact Kept.sound_empty

theorem forall_mem_names {P : Text → Prop} (hP : ∀ n, IsOpname n → P n)
    (hr : ∀ n ∈ requested, P n) (hs : BlockSection.ofText BlockSection.separator t = .ok s)
    (hks : s.blocks.mapM Kept.ofBlock = .ok ks) :
    ∀ n ∈ (NameSet.union requested (ks.map (·.opname))).names, P n := by
  intro n hn
  rcases NameSet.mem_names_union.1 hn with hn | hn
  · exact hr n hn
  · obtain ⟨hname, hread, -⟩ := isRead_keptOf hs hks hn
    exact hname ▸ hP _ hread.opname

theorem definedOps_of_refreshOps (hs : BlockSection.ofText BlockSection.separator t = .ok s)
    (hrs : ∀ r ∈ rs, Written g docs ks r)
    (h : refreshOps layout g docs plainCategory [] (s.render (rs.map (·.text))) = .ok (t', ns)) :
    ∀ r ∈ rs, definedOps r.definition = [] := by
  obtain ⟨s', ks', -, hs', hks', -⟩ := refreshOps_eq_ok_iff.1 h
  rw [ofText_render_records hs fun r hr => (hrs r hr).separate] at hs'
  obtain rfl := Except.ok.inj hs'
  rw [mapM_eq_ok_iff] at hks'
  intro r hr
  have hmem : Kept.ofBlock r.text ∈ (rs.map (·.text)).map Kept.ofBlock :=
    List.mem_map_of_mem (List.mem_map_of_mem hr)
  rw [hks'] at hmem
  obtain ⟨k, -, hk⟩ := List.mem_map.1 hmem
  exact (hrs r hr).headed.definedOps_of_ofBlock hk.symm

theorem exists_refreshOps_records (hs : BlockSection.ofText BlockSection.separator t = .ok s)
    (hrs : ∀ r ∈ rs, Written g docs ks r) (hops : ∀ r ∈ rs, definedOps r.definition = []) :
    ∃ t'', refreshOps layout g docs plainCategory [] (s.render (rs.map (·.text))) =
      .ok (t'', NameSet.union [] (rs.map (·.kept.opname))) := by
  have hs' := ofText_render_records hs fun r hr => (hrs r hr).separate
  obtain ⟨ks', hks', hnames⟩ : ∃ ks', (rs.map (·.text)).mapM Kept.ofBlock = .ok ks' ∧
      ks'.map (·.opname) = rs.map (·.kept.opname) := by
    rw [List.mapM_map]
    exact exists_mapM_eq_ok fun r hr => (hrs r hr).headed.exists_ofBlock_eq_ok (hops r hr)
  have hrender : ∀ n ∈ (NameSet.union [] (ks'.map (·.opname))).names,
      ∃ text, renderOp layout g docs plainCategory ks' n = .ok text := by
    intro n hn
    have hfound := (NameSet.mem_names_union.1 hn).resolve_left List.not_mem_nil
    obtain ⟨-, hread, -⟩ := isRead_keptOf hs' hks' hfound
    obtain ⟨a, ha, -⟩ := hread.arguments
    rw [hnames] at hfound
    obtain ⟨r, hr, rfl⟩ := List.mem_map.1 hfound
    obtain ⟨i, doc, hi, hdoc⟩ := (hrs r hr).known
    exact exists_renderOp_eq_ok hi hdoc ha
  obtain ⟨records, hrecords, -⟩ := exists_mapM_eq_ok (p := fun _ => ()) (q := fun _ => ())
    fun n hn => (hrender n hn).imp fun _ h => ⟨h, rfl⟩
  rw [← hnames]
  exact ⟨_, refreshOps_eq_ok_iff.2 ⟨_, ks', records, hs', hks', rfl, hrecords, rfl⟩⟩

/-- A file that was refreshed can be refreshed again if and only if no part that was kept of an op
defines one, and the ops are then the same. -/
theorem refreshOps_again_iff_definesNone (hr : ∀ n ∈ requested, IsOpname n)
    (h : refreshOps layout g docs plainCategory requested t = .ok (t', ns))
    (hkinds : ∀ n ∈ ns.names, ∀ i, g.instruction? n = some i → i.WordKinds)
    (hdocs : ∀ n ∈ ns.names, ∀ doc, docs.get? n = some doc → IsPlain doc) :
    ∃ s ks, BlockSection.ofText BlockSection.separator t = .ok s ∧
      s.blocks.mapM Kept.ofBlock = .ok ks ∧
      ((refreshOps layout g docs plainCategory [] t').isOk ↔
        ∀ n ∈ ns.names, (keptOf ks n).DefinesNone) ∧
      ((∀ n ∈ ns.names, (keptOf ks n).DefinesNone) →
        ∃ t'', refreshOps layout g docs plainCategory [] t' =
          .ok (t'', ⟨ns.names.map (·, .discovered)⟩)) := by
  obtain ⟨s, ks, records, hs, hks, rfl, hrecords, rfl⟩ := refreshOps_eq_ok_iff.1 h
  have hopnames := forall_mem_names (fun _ hn => hn) hr hs hks
  obtain ⟨rs, rfl, hnames, hrs⟩ := exists_records_of_mapM (fun n hn text =>
    written_of_renderOp (hopnames n hn) (sound_keptOf hs hks n) (hkinds n hn) (hdocs n hn)) hrecords
  have hops : (∀ r ∈ rs, definedOps r.definition = []) ↔
      ∀ n ∈ (NameSet.union requested (ks.map (·.opname))).names, (keptOf ks n).DefinesNone := by
    rw [← hnames, List.forall_mem_map]
    exact forall₂_congr fun r hmem => (hrs r hmem).ops
  have hagain (hnone : ∀ n ∈ (NameSet.union requested (ks.map (·.opname))).names,
      (keptOf ks n).DefinesNone) :
      ∃ t'', refreshOps layout g docs plainCategory [] (s.render (rs.map (·.text))) =
        .ok (t'', ⟨(NameSet.union requested (ks.map (·.opname))).names.map (·, .discovered)⟩) := by
    rw [← NameSet.union_nil_of_sortedLT (NameSet.sortedLT_names_union _ _), ← hnames]
    exact exists_refreshOps_records hs hrs (hops.2 hnone)
  refine ⟨s, ks, hs, hks, ⟨fun hok => ?_, fun hnone => ?_⟩, hagain⟩
  · cases h' : refreshOps layout g docs plainCategory [] (s.render (rs.map (·.text))) with
    | error f =>
      rw [h'] at hok
      cases hok
    | ok r => exact hops.1 (definedOps_of_refreshOps hs hrs h')
  · obtain ⟨t'', h'⟩ := hagain hnone
    rw [h']
    rfl

theorem refreshOps_again_iff_definesNone_undef :
    ∃ t' t'', refreshOps {} undefGrammar undefDocs plainCategory ["OpNop"] undefFile =
        .ok (t', NameSet.union ["OpNop"] ["OpUndef"]) ∧
      refreshOps {} undefGrammar undefDocs plainCategory [] t' =
        .ok (t'', ⟨[("OpNop", .discovered), ("OpUndef", .discovered)]⟩) := by
  obtain ⟨t', h⟩ := refreshOps_undefFile
  obtain ⟨s, ks, hs, hks, -, hagain⟩ := refreshOps_again_iff_definesNone isOpname_nop h
    (fun _ _ _ => wordKinds_undefGrammar) (fun _ _ _ => isPlain_undefDocs)
  obtain rfl := Except.ok.inj (ofText_undefFile.symm.trans hs)
  rw [mapM_eq_ok_iff, List.map_singleton, ofBlock_undefBlock] at hks
  obtain rfl : ks = [undefKept] := by simpa using hks.symm
  have hnone : ∀ n ∈ (NameSet.union ["OpNop"] ["OpUndef"]).names,
      (keptOf [undefKept] n).DefinesNone := by decide +kernel
  have hnames : (⟨(NameSet.union ["OpNop"] ["OpUndef"]).names.map (·, .discovered)⟩ : NameSet) =
      ⟨[("OpNop", .discovered), ("OpUndef", .discovered)]⟩ := by decide +kernel
  obtain ⟨t'', h'⟩ := hagain hnone
  exact ⟨t', t'', h, hnames ▸ h'⟩

def bareBlock : Text := "def SPV_NopOp : SPV_Op<\"Nop\", []> \x7b\n\x7d\n"

def bareFile : Text := BlockSection.render ⟨[], [bareBlock], []⟩ [bareBlock]

theorem not_refreshOps_again_bare :
    (∀ i ∈ undefGrammar.instructions, i.WordKinds) ∧ (∀ e ∈ undefDocs.entries, IsPlain e.2) ∧
      ∃ t' ns, refreshOps {} undefGrammar undefDocs plainCategory [] bareFile = .ok (t', ns) ∧
        (refreshOps {} undefGrammar undefDocs plainCategory [] t').isOk = false := by
  have hfails : (refreshOps {} undefGrammar undefDocs plainCategory [] bareFile).toOption.map
      (fun r => (refreshOps {} undefGrammar undefDocs plainCategory [] r.1).isOk) = some false := by
    decide +kernel
  refine ⟨by decide +kernel, by decide +kernel, ?_⟩
  cases h : refreshOps {} undefGrammar undefDocs plainCategory [] bareFile with
  | error f =>
    rw [h] at hfails
    cases hfails
  | ok r =>
    rw [h] at hfails
    exact ⟨r.1, r.2, rfl, Option.some.inj hfails⟩

end

open BlockSection

variable {layout : Layout} {g : Grammar} {docs : Docs} {category : Text} {requested : List Text}
  {t t' : Text} {ns : NameSet} {s : BlockSection} {ks : List Kept} {n b : Text}

theorem ends_renderOp (hs : ofText separator t = .ok s) (hks : s.blocks.mapM Kept.ofBlock = .ok ks)
    (hn : n.all Character.isWord) (hc : category.all Character.isWord)
    (hkinds : ∀ i, g.instruction? n = some i → i.WordKinds)
    (hdocs : ∀ doc, docs.get? n = some doc → ¬ dashes <:+: doc)
    (h : renderOp layout g docs category ks n = .ok b) : Ends b := by
  obtain ⟨i, doc, hi, hdoc, h⟩ := renderOp_eq_ok_iff.1 h
  have hsound := sound_keptOf hs hks n
  have hop : i.opname.all Character.isWord := Grammar.opname_of_instruction? hi ▸ hn
  exact Instruction.ends_render hop hc (hdocs doc hdoc) hsound.whole
    (fun _ ha => (hkinds i hi).absent_recordArguments hsound ha) h

/-- A file is read as its header, its blocks and its footer, and what a refresh makes of it as the
same header and footer around a block for each name, in ascending order. -/
theorem refreshOps_reblocks :
    BlockSection.Codec ∧
      ∀ (layout : Layout) (g : Grammar) (docs : Docs) (category : Text) (requested : List Text)
        (t t' : Text) (ns : NameSet), category.all Character.isWord →
        (∀ n ∈ requested, n.all Character.isWord) →
        (∀ n ∈ ns.names, ∀ i, g.instruction? n = some i → i.WordKinds) →
        (∀ n ∈ ns.names, ∀ doc, docs.get? n = some doc → ¬ dashes <:+: doc) →
        refreshOps layout g docs category requested t = .ok (t', ns) →
        ∃ s ks records, ofText separator t = .ok s ∧ s.blocks.mapM Kept.ofBlock = .ok ks ∧
          ofText separator t' = .ok { s with blocks := records } ∧
          ns.names.SortedLT ∧
          (∀ n, n ∈ ns.names ↔ n ∈ requested ∨ n ∈ ks.map (·.opname)) ∧
          List.Forall₂ (fun n b => ∃ i doc, g.instruction? n = some i ∧ docs.get? n = some doc ∧
            i.render layout category (keptOf ks n) doc = .ok b) ns.names records := by
  refine ⟨codec, ?_⟩
  intro layout g docs category requested t t' ns hc hr hkinds hdocs h
  obtain ⟨s, ks, records, hs, hks, rfl, hrecords, rfl⟩ := refreshOps_eq_ok_iff.1 h
  have hwords := forall_mem_names (fun _ hn => hn.all_isWord) hr hs hks
  have hends : ∀ b ∈ records, Ends b := by
    intro b hb
    obtain ⟨n, hn, hrender⟩ := exists_of_mem_mapM hrecords hb
    exact ends_renderOp hs hks (hwords n hn) hc (hkinds n hn) (hdocs n hn) hrender
  refine ⟨s, ks, records, hs, hks, ofText_render hs hends, NameSet.sortedLT_names_union _ _,
    fun n => NameSet.mem_names_union, ?_⟩
  exact (mapM_eq_ok_iff_forall₂.1 hrecords).imp fun _ _ => renderOp_eq_ok_iff.1

theorem refreshOps_reblocks_undef :
    BlockSection.Codec ∧ ∃ t' ns records,
      refreshOps {} undefGrammar undefDocs plainCategory ["OpNop"] undefFile = .ok (t', ns) ∧
      ofText separator t' = .ok ⟨[], records, []⟩ ∧ ns.names.SortedLT ∧
      (∀ n, n ∈ ns.names ↔ n ∈ [("OpNop" : Text)] ∨ n ∈ [("OpUndef" : Text)]) ∧
      List.Forall₂ (fun n b => ∃ i doc, undefGrammar.instruction? n = some i ∧
        undefDocs.get? n = some doc ∧
        i.render {} plainCategory (keptOf [undefKept] n) doc = .ok b) ns.names records := by
  obtain ⟨t', h⟩ := refreshOps_undefFile
  have hcategory : plainCategory.all Character.isWord := all_isWord_ofList (by decide)
  have hrequested : ∀ n ∈ [("OpNop" : Text)], n.all Character.isWord :=
    List.forall_mem_singleton.2 (all_isWord_ofList (by decide))
  obtain ⟨hcodec, hblocks⟩ := refreshOps_reblocks
  obtain ⟨s, ks, records, hs, hks, ht', hsorted, hnames, hrecords⟩ := hblocks _ _ _ _ _ _ _ _
    hcategory hrequested (fun _ _ _ => wordKinds_undefGrammar)
    (fun n _ doc hdoc => isPlain_undefDocs hdoc dashes (by simp)) h
  obtain rfl := Except.ok.inj (ofText_undefFile.symm.trans hs)
  obtain rfl : ks = [undefKept] := by
    rw [mapM_eq_ok_iff, List.map_singleton, ofBlock_undefBlock] at hks
    simpa using hks.symm
  exact ⟨hcodec, t', _, records, h, ht', hsorted, hnames, hrecords⟩

end SpirvTables
