import SpirvTables.Proofs.OpRecord.Codec
import SpirvTables.Proofs.Section.Blocks

namespace SpirvTables

open Text BlockSection

def dashes : Text := "-----"

section

variable {head documentation assembly interface extras arguments results : Text}

def IsInterface (interface : Text) : Prop :=
  interface = [] ∨ ∃ arguments results : Text,
    ¬ separator <:+: arguments ∧ ¬ separator <:+: results ∧
      interface = "\n  let arguments = (ins" ++ (arguments ++ (");\n\n  let results = (outs" ++
        (results ++ ");\n")))

theorem absent_back (hassembly : ¬ separator <:+: '\n' :: assembly)
    (hinterface : IsInterface interface) (hextras : ¬ separator <:+: '\n' :: extras) :
    ¬ separator <:+: ('\n' :: assembly) ++ ("\x7d];\n" ++ (interface ++ (extras ++
      ("\x7d\n" ++ separator.dropLast)))) := by
  have hbrace : Parts separator "\x7d" := parts_ofList (by decide)
  have hend : ¬ separator <:+: ('\n' :: extras) ++ ("\x7d" ++ ('\n' :: separator.dropLast)) :=
    hbrace.absent hextras (by decide +kernel)
  have hlast : ("\x7d\n" : Text) = "\x7d" ++ ['\n'] := by decide +kernel
  rcases hinterface with rfl | ⟨arguments, results, hins, houts, rfl⟩
  · have hstop : ("\x7d];\n" : Text) = "\x7d];" ++ ['\n'] := by decide +kernel
    have hparts : Parts separator "\x7d];" := parts_ofList (by decide)
    rw [hstop, hlast]
    simpa only [List.append_assoc, List.cons_append, List.nil_append] using
      hparts.absent hassembly hend
  · have hstop : ("\x7d];\n" : Text) ++ "\n  let arguments = (ins" =
        "\x7d];\n\n  let arguments = (ins" := (eq_append_ofList rfl).symm
    have hlist : (");\n" : Text) = ");" ++ ['\n'] := by decide +kernel
    have hparts : Parts separator "\x7d];\n\n  let arguments = (ins" := parts_ofList (by decide)
    have hresults : Parts separator ");\n\n  let results = (outs" := parts_ofList (by decide)
    have hclose : Parts separator ");" := parts_ofList (by decide)
    have hwhole := hparts.absent hassembly (hresults.absent hins (hclose.absent houts hend))
    rw [hlist, hlast]
    rw [← hstop] at hwhole
    simpa only [List.append_assoc, List.cons_append, List.nil_append] using hwhole

theorem ends_of_parts (hhead : ¬ separator <:+: head) (hdocumentation : ¬ dashes <:+: documentation)
    (hassembly : ¬ separator <:+: '\n' :: assembly) (hinterface : IsInterface interface)
    (hextras : ¬ separator <:+: '\n' :: extras) :
    Ends (definitionLead ++ (head ++ ("\x7b\n  let summary = " ++ (documentation ++
      ("### Custom assembly form\n" ++ (assembly ++ ("\x7d];\n" ++ (interface ++
        (extras ++ "\x7d\n"))))))))) := by
  have hlits : ∀ lit ∈ [definitionLead, "\x7b\n  let summary = ", "### Custom assembly form"],
      Parts separator lit := by decide +kernel
  simp only [List.forall_mem_cons] at hlits
  obtain ⟨hlead, hsummary, hform, -⟩ := hlits
  have hstart : ("### Custom assembly form\n" : Text) = "### Custom assembly form" ++ ['\n'] := by
    decide +kernel
  have hback := absent_back hassembly hinterface hextras
  rw [Ends, hstart]
  simp only [List.append_assoc, List.cons_append, List.nil_append] at hback ⊢
  apply hlead.absent_left
  apply hsummary.absent hhead
  apply hform.absent (absent_of_part (q := dashes) (by decide +kernel) hdocumentation)
  exact hback

end

namespace Record

/-- A record whose parts hold no separator, with the newlines written before two of them. -/
structure Separate (r : Record) : Prop where
  stem : IsWord r.stem
  args : ¬ separator <:+: r.args
  traits : ¬ separator <:+: r.traits
  summary : ¬ dashes <:+: r.summary
  description : ¬ dashes <:+: r.description
  assembly : ¬ separator <:+: '\n' :: r.assembly
  arguments : ¬ separator <:+: r.arguments
  results : ¬ separator <:+: r.results
  extras : ¬ separator <:+: '\n' :: r.extras

variable {r : Record}

theorem text_eq_parts (r : Record) :
    r.text = definitionLead ++ (r.head ++ ("\x7b\n  let summary = " ++ (r.documentation ++
      ("### Custom assembly form\n" ++ (r.assembly ++ ("\x7d];\n" ++
        (("\n  let arguments = (ins" ++ (r.arguments ++ (");\n\n  let results = (outs" ++
          (r.results ++ ");\n")))) ++ (r.extras ++ "\x7d\n")))))))) := by
  have hsummary : ("\x7b\n  let summary = " : Text) = "\x7b\n" ++ "  let summary = " := by
    decide +kernel
  have harguments : ("\n  let arguments = (ins" : Text) = "\n" ++ argumentsStart := by
    decide +kernel
  have hresults : (");\n\n  let results = (outs" : Text) = listStop ++ ("\n" ++ resultsStart) := by
    decide +kernel
  unfold text definition texts interface tail
  rw [hsummary, harguments, hresults]
  simp only [List.append_assoc]
  rfl

theorem Separate.ends_text (h : r.Separate) : Ends r.text := by
  rw [text_eq_parts]
  apply ends_of_parts _ _ h.assembly _ h.extras
  · apply good_head (seams_absent separator_ne_nil (by decide +kernel))
    · exact h.stem.absent (c := '/') (by decide +kernel) (by decide)
    · exact (h.stem.append (by decide +kernel)).absent (c := '/') (by decide +kernel) (by decide)
    · exact h.args
    · exact h.traits
  · exact good_documentation (seams_absent (by decide +kernel) (by decide +kernel)) h.summary
      h.description
  · exact .inr ⟨_, _, h.arguments, h.results, rfl⟩

end Record

variable {x : Text}

theorem absent_append_newline (h : ¬ separator <:+: x) (hlast : ∀ c ∈ x.getLast?, c ≠ '\n') :
    ¬ separator <:+: x ++ ['\n'] := by
  rw [List.infix_concat_iff]
  rintro (hsuffix | hx)
  · obtain ⟨u, hu⟩ := hsuffix
    have hseparator : separator = separator.dropLast ++ ['\n'] := by decide +kernel
    rw [hseparator, ← List.append_assoc] at hu
    obtain rfl := List.append_inj_left' hu rfl
    apply hlast '\n' _ rfl
    rw [List.getLast?_append_of_ne_nil _ (by decide +kernel)]
    decide +kernel
  · exact h hx

theorem absent_newline_extrasOf {rest : Text} (h : ¬ separator <:+: rest) :
    ¬ separator <:+: '\n' :: Kept.extrasOf rest := by
  have htrim : ¬ separator <:+: trim isMargin rest := fun ht => h (ht.trans (trim_infix_self _ _))
  have hlast : ∀ c ∈ (trim isMargin rest).getLast?, c ≠ '\n' := by
    rintro c hc rfl
    exact absurd (last_trim _ hc) (by decide)
  have hindent : Parts separator "  " :=
    parts_ofList (by decide)
  unfold Kept.extrasOf
  split
  · decide +kernel
  · have hcons (x : Text) : '\n' :: ("\n  " ++ x ++ "\n") =
        ['\n', '\n'] ++ ("  " ++ (x ++ ['\n'])) := by
      have hnewline : ("\n  " : Text) = '\n' :: "  " := by decide +kernel
      rw [hnewline]
      simp
    rw [hcons]
    exact hindent.absent (by decide +kernel) (absent_append_newline htrim hlast)

structure Kept.Whole (k : Kept) : Prop where
  args : ∀ t ∈ k.categoryArgs, ¬ separator <:+: t
  traits : ∀ t ∈ k.traits, ¬ separator <:+: t
  assembly : ∀ t ∈ k.assembly, ¬ separator <:+: '\n' :: t
  results : ∀ t ∈ k.results, ¬ separator <:+: t
  extras : ∀ t ∈ k.extras, ¬ separator <:+: '\n' :: t

theorem Kept.whole_empty : Whole {} := by
  constructor <;> simp

namespace Kept.Whole

variable {k : Kept}

theorem assembly_getD (hk : k.Whole) : ¬ separator <:+: '\n' :: k.assembly.getD assemblyTemplate :=
  Kept.getD_of_forall_mem (P := fun t => ¬ separator <:+: '\n' :: t) hk.assembly (by
    unfold separator assemblyTemplate
    repeat rw [String.toList_ofList]
    decide +kernel)

theorem results_getD (hk : k.Whole) (i : Instruction) :
    ¬ separator <:+: k.results.getD i.derivedResults :=
  Kept.getD_of_forall_mem hk.results
    (Instruction.absent_derivedResults separator_ne_nil (by decide +kernel))

theorem extras_getD (hk : k.Whole) : ¬ separator <:+: '\n' :: k.extras.getD [] :=
  Kept.getD_of_forall_mem (P := fun t => ¬ separator <:+: '\n' :: t) hk.extras (by decide +kernel)

end Kept.Whole

theorem Instruction.separate_record {i : Instruction} {k : Kept} {doc arguments : Text}
    (layout : Layout) (hop : IsWord (opStem i.opname)) (hdash : ¬ dashes <:+: doc) (hk : k.Whole)
    (harguments : ¬ separator <:+: arguments) : (i.record layout k doc arguments).Separate := by
  have hdash := absent_texts layout (by decide +kernel) (by decide +kernel) hdash
  exact ⟨hop, Kept.absent_args separator_ne_nil hk.args,
    Kept.getD_of_forall_mem hk.traits (absent_nil separator_ne_nil), hdash.1, hdash.2,
    hk.assembly_getD, harguments, hk.results_getD i, hk.extras_getD⟩

variable {p n doc arguments : Text} {layout : Layout} {category : Text} {kept : Kept}
  {i : Instruction}

theorem all_isWord_opStem (h : n.all Character.isWord) : (opStem n).all Character.isWord := by
  unfold opStem
  cases hn : after? "Op" n with
  | none => exact h
  | some stem =>
    rw [after?_eq_some_iff.1 hn, List.all_append, Bool.and_eq_true] at h
    exact h.2

namespace Instruction

def headLine (i : Instruction) (kept : Kept) (category : Text) : Text :=
  opStem i.opname ++ ("Op : SPV_" ++ (category ++ ("<\"" ++ (opStem i.opname ++ ("\"" ++
    (kept.args ++ (", [" ++ (kept.traits.getD [] ++ "]> "))))))))

def documentation (layout : Layout) (doc : Text) : Text :=
  renderSummary layout (Text.headLine doc).1 ++ (";\n\n  let description = [\x7b\n" ++
    (renderDescription layout (Text.headLine doc).2 ++ "\n\n    "))

theorem renderInterface_eq_ok {interface : Text}
    (h : i.renderInterface kept category = .ok interface) :
    interface = [] ∨ ∃ a, i.recordArguments kept = .ok a ∧
      interface = "\n  let arguments = (ins" ++ a ++ ");\n\n  let results = (outs" ++
        kept.results.getD i.derivedResults ++ ");\n" := by
  unfold renderInterface at h
  unfold recordArguments
  split at h
  · cases hk : kept.arguments with
    | some a =>
      rw [hk] at h
      exact .inr ⟨a, rfl, (Except.ok.inj h).symm⟩
    | none =>
      rw [hk] at h
      obtain ⟨a, ha, h⟩ := bind_eq_ok.1 h
      exact .inr ⟨a, ha, (Except.ok.inj h).symm⟩
  · exact .inl (Except.ok.inj h).symm

theorem isInterface {interface : Text} (hk : kept.Whole)
    (harguments : ∀ a, i.recordArguments kept = .ok a → ¬ separator <:+: a)
    (h : i.renderInterface kept category = .ok interface) : IsInterface interface := by
  rcases renderInterface_eq_ok h with rfl | ⟨a, ha, rfl⟩
  · exact .inl rfl
  · exact .inr ⟨a, _, harguments a ha, hk.results_getD i, by simp only [List.append_assoc]⟩

theorem render_eq_parts (interface : Text) :
    i.renderHead kept category ++ renderTexts layout kept doc ++ interface ++
        kept.extras.getD [] ++ "\x7d\n" =
      definitionLead ++ (i.headLine kept category ++ ("\x7b\n  let summary = " ++
        (documentation layout doc ++ ("### Custom assembly form\n" ++
          (kept.assembly.getD assemblyTemplate ++ ("\x7d];\n" ++ (interface ++
            (kept.extras.getD [] ++ "\x7d\n")))))))) := by
  have hbrace : ("]> \x7b\n" : Text) = "]> " ++ "\x7b\n" := eq_append_ofList rfl
  have hsummary : ("\x7b\n  let summary = " : Text) = "\x7b\n" ++ "  let summary = " :=
    eq_append_ofList rfl
  have hassembly : ("\n\n    ### Custom assembly form\n" : Text) =
      "\n\n    " ++ "### Custom assembly form\n" := eq_append_ofList rfl
  unfold renderHead renderTexts headLine documentation definitionLead Kept.args isArgsEnd
  dsimp only
  rw [hbrace, hsummary, hassembly]
  simp only [List.append_assoc]

theorem absent_headLine (hop : i.opname.all Character.isWord) (hc : category.all Character.isWord)
    (hk : kept.Whole) : ¬ separator <:+: i.headLine kept category := by
  have hword {t : Text} (ht : t.all Character.isWord) : ¬ separator <:+: t :=
    absent_of_notMem (mem_ofList (c := '/') (by decide)) (notMem_of_all_isWord ht (by decide))
  have hop := hword (all_isWord_opStem hop)
  have hlits : ∀ lit ∈ [("Op : SPV_" : Text), "<\"", "\"", ", [", "]> "], Parts separator lit := by
    decide +kernel
  simp only [List.forall_mem_cons] at hlits
  obtain ⟨hcolon, hangle, hquote, hopen, hclose, -⟩ := hlits
  apply hcolon.absent hop
  apply hangle.absent (hword hc)
  apply hquote.absent hop
  apply hopen.absent (Kept.absent_args separator_ne_nil hk.args)
  exact hclose.absent_right (Kept.getD_of_forall_mem hk.traits (absent_nil separator_ne_nil))

theorem absent_documentation (layout : Layout) (hdash : ¬ dashes <:+: doc) :
    ¬ dashes <:+: documentation layout doc := by
  obtain ⟨hsummary, hdescription⟩ :=
    absent_texts layout (by decide +kernel) (by decide +kernel) hdash
  have hseams : Seams (¬ dashes <:+: ·) Record.documentationLits :=
    seams_absent (by decide +kernel) (by decide +kernel)
  exact hseams.append _ (by decide +kernel) hsummary
    (hseams.append_lit (by decide +kernel) hdescription)

theorem ends_render {b : Text} (hop : i.opname.all Character.isWord)
    (hc : category.all Character.isWord) (hdash : ¬ dashes <:+: doc) (hk : kept.Whole)
    (harguments : ∀ a, i.recordArguments kept = .ok a → ¬ separator <:+: a)
    (h : i.render layout category kept doc = .ok b) : Ends b := by
  obtain ⟨interface, hinterface, h⟩ := bind_eq_ok.1 h
  obtain rfl := Except.ok.inj h
  rw [render_eq_parts]
  exact ends_of_parts (absent_headLine hop hc hk) (absent_documentation layout hdash)
    hk.assembly_getD (isInterface hk harguments hinterface) hk.extras_getD

end Instruction

end SpirvTables
