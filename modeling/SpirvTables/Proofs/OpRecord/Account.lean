import SpirvTables.Proofs.Fault
import SpirvTables.Proofs.OpRecord.Record
import SpirvTables.Proofs.Text.Paragraph

namespace SpirvTables

open Text

variable {layout : Layout} {kept : Kept} {category doc record s t : Text} {i : Instruction}

namespace Text

theorem unblanked_filter (ts : List Text) :
    unblanked (ts.filter (!·.isAllBlank)).flatten = unblanked ts.flatten := by
  induction ts with
  | nil => rfl
  | cons t ts ih =>
    rw [List.flatten_cons, unblanked_append, ← ih]
    by_cases ht : t.isAllBlank
    · simp [ht, unblanked_eq_nil_iff.2 ht]
    · simp [ht]

theorem unblanked_flatten_lines (t : Text) : unblanked (lines t).flatten = unblanked t := by
  rw [lines, flatten_splitOnP, unblanked, unblanked, List.filter_filter]
  congr 1
  funext c
  by_cases hc : c = '\n'
  · subst hc
    decide
  · simp [hc]

theorem unblanked_trim (t : Text) : unblanked (trim Character.isBlank t) = unblanked t := by
  obtain ⟨a, b, ht, ha, hb⟩ := exists_eq_append_trim Character.isBlank t
  conv => rhs; rw [ht]
  rw [unblanked_append, unblanked_append, unblanked_of_blank ha, unblanked_of_blank hb,
    List.nil_append, List.append_nil]

theorem newline_notMem_headLine (t : Text) : '\n' ∉ (headLine t).1 := by
  intro h
  have := List.mem_takeWhile_imp h
  simp at this

theorem exists_lines_eq (t : Text) :
    ∃ rest, lines t = (headLine t).1 :: rest ∧
      rest.filter (!·.isAllBlank) = (lines (headLine t).2).filter (!·.isAllBlank) := by
  induction t with
  | nil => exact ⟨[], rfl, rfl⟩
  | cons c t ih =>
    obtain ⟨rest, hlines, hrest⟩ := ih
    by_cases hc : c = '\n'
    · subst hc
      exact ⟨lines t, by simp [lines, headLine, List.splitOnP_cons_eq_if_modifyHead], rfl⟩
    · have hhead : headLine (c :: t) = (c :: (headLine t).1, (headLine t).2) := by
        simp [headLine, hc]
      refine ⟨rest, ?_, by rw [hhead, hrest]⟩
      unfold lines at hlines ⊢
      rw [hhead, List.splitOnP_cons_eq_if_modifyHead, hlines]
      simp [hc]

end Text

def wrapLimit (layout : Layout) : Nat := max layout.wrapWidth (layout.wrapIndent + 1)

theorem length_le_wrapLimit (layout : Layout) (t : Text) :
    ∀ l ∈ lines (wrap layout.wrapWidth layout.wrapIndent t), l.length ≤ wrapLimit layout := by
  intro l hl
  by_cases ht : t.isAllBlank
  · rw [(wrap_eq_nil_iff _ _ t).2 ht] at hl
    obtain rfl : l = [] := List.mem_singleton.1 hl
    exact Nat.zero_le _
  · obtain ⟨content, rfl, hcontent⟩ := exists_content ht hl
    have := hcontent.length_le
    rw [length_indent, wrapLimit]
    unfold roomFor at this
    omega

structure IsParagraph (layout : Layout) (line paragraph : Text) : Prop where
  complete : unblanked paragraph = unblanked line
  noBlankLine : ∀ l ∈ lines paragraph, ¬ l.isAllBlank
  within : ∀ l ∈ lines paragraph, l.length ≤ wrapLimit layout

theorem isParagraph_wrap (layout : Layout) (h : ¬ t.isAllBlank) :
    IsParagraph layout t (wrap layout.wrapWidth layout.wrapIndent t) where
  complete := unblanked_wrap _ _ t
  noBlankLine l hl := by
    obtain ⟨content, rfl, hcontent⟩ := exists_content h hl
    obtain ⟨c, rest, hc⟩ := List.exists_cons_of_ne_nil hcontent.ne_nil
    have hhead := hcontent.head c (by rw [hc]; rfl)
    rw [← unblanked_eq_nil_iff, unblanked_indent, unblanked, List.filter_eq_nil_iff]
    intro hall
    have := hall c (hc ▸ List.mem_cons_self)
    simp [hhead] at this
  within := length_le_wrapLimit layout t

/-- What a record says of its op: its summary and the paragraphs of its description, and how the
summary is written. -/
structure Account where
  summary : Text
  written : Text
  paragraphs : List Text

namespace Account

def description (a : Account) : Text := join "\n\n" a.paragraphs

def quoted (summary : Text) : Text := "\"" ++ summary ++ "\""

def block (summary : Text) : Text := "[\x7b\n" ++ summary ++ "\n  \x7d]"

def OnLine (layout : Layout) (summary : Text) : Prop :=
  ("  let summary = " ++ quoted summary ++ ";").length ≤ layout.lineBudget

instance (layout : Layout) (summary : Text) : Decidable (OnLine layout summary) :=
  Nat.decLe _ _

def opening (doc : Text) : Text := trim Character.isBlank ((lines doc).headD [])

/-- An account that leaves out nothing of a documentation. -/
structure Covers (layout : Layout) (doc : Text) (a : Account) : Prop where
  complete : unblanked (a.summary ++ a.description) = unblanked doc
  quoted_iff : (∃ s, a.written = quoted s) ↔ OnLine layout (opening doc)
  onLine : OnLine layout (opening doc) →
    a.written = quoted a.summary ∧ a.summary = opening doc ∧ '\n' ∉ a.summary
  inBlock : ¬ OnLine layout (opening doc) →
    a.written = block a.summary ∧ ∀ l ∈ lines a.summary, l.length ≤ wrapLimit layout
  paragraphs :
    List.Forall₂ (IsParagraph layout) ((lines doc).tail.filter (!·.isAllBlank)) a.paragraphs

theorem onLine_iff :
    OnLine layout s ↔ s.length + ("  let summary = \"\";" : Text).length ≤ layout.lineBudget := by
  have hlits : ("  let summary = " : Text).length + (("\"" : Text).length + ("\"" : Text).length) +
      (";" : Text).length = ("  let summary = \"\";" : Text).length := by decide +kernel
  unfold OnLine quoted
  rw [← hlits]
  simp only [List.length_append]
  omega

theorem block_ne_quoted (s t : Text) : block s ≠ quoted t := by
  intro h
  have hbracket : ("[\x7b\n" : Text) = '[' :: "\x7b\n" := by decide +kernel
  have hquote : ("\"" : Text) = ['"'] := by decide +kernel
  unfold block quoted at h
  rw [hbracket, hquote] at h
  exact absurd (List.cons.inj h).1 (by decide)

def summaryText (layout : Layout) (summary : Text) : Text :=
  if OnLine layout summary then summary else wrap layout.wrapWidth layout.wrapIndent summary

theorem renderSummary_eq (layout : Layout) (t : Text) :
    renderSummary layout t =
      if OnLine layout (trim Character.isBlank t) then
        quoted (summaryText layout (trim Character.isBlank t))
      else block (summaryText layout (trim Character.isBlank t)) := by
  unfold renderSummary summaryText
  simp only [onLine_iff]
  split <;> rfl

theorem unblanked_summaryText (layout : Layout) (t : Text) :
    unblanked (summaryText layout (trim Character.isBlank t)) = unblanked t := by
  unfold summaryText
  split
  · exact unblanked_trim t
  · rw [unblanked_wrap, unblanked_trim]

def ofDoc (layout : Layout) (doc : Text) : Account where
  summary := summaryText layout (trim Character.isBlank (headLine doc).1)
  written := renderSummary layout (headLine doc).1
  paragraphs := ((lines (headLine doc).2).filter (!·.isAllBlank)).map
    (wrap layout.wrapWidth layout.wrapIndent)

theorem unblanked_description (layout : Layout) (ls : List Text) :
    unblanked (join "\n\n" (ls.map (wrap layout.wrapWidth layout.wrapIndent))) =
      unblanked ls.flatten := by
  have hblank : ∀ c ∈ ("\n\n" : Text), Character.isBlank c :=
    List.all_eq_true.1 (by decide +kernel)
  rw [unblanked_join hblank]
  induction ls with
  | nil => rfl
  | cons l ls ih =>
    rw [List.map_cons, List.flatten_cons, List.flatten_cons, unblanked_append, unblanked_append,
      unblanked_wrap, ih]

theorem covers_ofDoc (layout : Layout) (doc : Text) : (ofDoc layout doc).Covers layout doc := by
  obtain ⟨rest, hlines, hrest⟩ := exists_lines_eq doc
  have hopening : opening doc = trim Character.isBlank (headLine doc).1 := by
    rw [opening, hlines]
    rfl
  have hwritten : (ofDoc layout doc).written =
      if OnLine layout (opening doc) then quoted (ofDoc layout doc).summary
      else block (ofDoc layout doc).summary := by
    rw [hopening]
    exact renderSummary_eq layout (headLine doc).1
  have hsummary : (ofDoc layout doc).summary = summaryText layout (opening doc) := by
    rw [hopening]
    rfl
  constructor
  · rw [unblanked_append, hsummary, hopening, unblanked_summaryText]
    unfold ofDoc description
    rw [unblanked_description, ← hrest, unblanked_filter, ← unblanked_append, ← List.flatten_cons,
      ← hlines, unblanked_flatten_lines]
  · rw [hwritten]
    split
    · next h => exact ⟨fun _ => h, fun _ => ⟨_, rfl⟩⟩
    · next h => exact ⟨fun ⟨s, hs⟩ => absurd hs (block_ne_quoted _ s), fun h' => absurd h' h⟩
  · intro hfits
    have hself : (ofDoc layout doc).summary = opening doc := hsummary.trans (if_pos hfits)
    refine ⟨by rw [hwritten, if_pos hfits], hself, ?_⟩
    rw [hself, hopening]
    exact fun h => newline_notMem_headLine doc ((trim_infix_self _ _).subset h)
  · intro hwide
    refine ⟨by rw [hwritten, if_neg hwide], ?_⟩
    rw [hsummary, summaryText, if_neg hwide]
    exact length_le_wrapLimit layout (opening doc)
  · unfold ofDoc
    rw [hlines, List.tail_cons, hrest, List.forall₂_map_right_iff, List.forall₂_same]
    intro l hl
    apply isParagraph_wrap
    simpa using (List.mem_filter.1 hl).2

end Account

/-- A record tells all of a documentation. The summary is what its first line says, in quotes if it
has a place on its line and wrapped in a block otherwise. The description is a paragraph for each
other line that is not blank, with a blank line between each two. -/
theorem render_covers_doc (h : i.render layout category kept doc = .ok record) :
    ∃ a : Account, ∃ back, a.Covers layout doc ∧
      record = i.renderHead kept category ++ ("  let summary = " ++ (a.written ++
        (";\n\n  let description = [\x7b\n" ++ (a.description ++
          ("\n\n    ### Custom assembly form\n" ++ back))))) := by
  obtain ⟨interface, -, h⟩ := bind_eq_ok.1 h
  obtain rfl := Except.ok.inj h
  refine ⟨Account.ofDoc layout doc, kept.assembly.getD assemblyTemplate ++
    ("\x7d];\n" ++ (interface ++ (kept.extras.getD [] ++ "\x7d\n"))),
    Account.covers_ofDoc layout doc, ?_⟩
  unfold Instruction.renderTexts Account.ofDoc Account.description
  simp only [List.append_assoc]
  rfl

def phiDoc : Text :=
  "\tThe SSA phi function.\n\nIts result is selected.\n \u3000\nSee control-flow-dependences.\n"

def phiLayout : Layout where
  lineBudget := 36
  wrapWidth := 14

theorem render_covers_doc_phi :
    ∃ record, (⟨"OpPhi", 245, none, []⟩ : Instruction).render phiLayout plainCategory {} phiDoc =
        .ok record ∧ ¬ Account.OnLine phiLayout (Account.opening phiDoc) ∧
      ∃ a : Account, ∃ back, a.Covers phiLayout phiDoc ∧ a.paragraphs.length = 2 ∧
        record = (⟨"OpPhi", 245, none, []⟩ : Instruction).renderHead {} plainCategory ++
          ("  let summary = " ++ (a.written ++ (";\n\n  let description = [\x7b\n" ++
            (a.description ++ ("\n\n    ### Custom assembly form\n" ++ back))))) := by
  obtain ⟨record, hrecord⟩ := exists_eq_ok_of_isOk
    (x := (⟨"OpPhi", 245, none, []⟩ : Instruction).render phiLayout plainCategory {} phiDoc)
    (by decide +kernel)
  obtain ⟨a, back, hcovers, hparts⟩ := render_covers_doc hrecord
  have hlength : ((lines phiDoc).tail.filter (!·.isAllBlank)).length = 2 := by decide +kernel
  exact ⟨record, hrecord, by decide +kernel, a, back, hcovers,
    hcovers.paragraphs.length_eq ▸ hlength, hparts⟩

end SpirvTables
