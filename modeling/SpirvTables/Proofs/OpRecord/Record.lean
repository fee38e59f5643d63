import SpirvTables.OpRecord
import SpirvTables.Proofs.Text.Word
import SpirvTables.Proofs.Text.Wrap
import SpirvTables.Section

namespace SpirvTables

open Text

structure Record where
  stem : Text
  args : Text
  traits : Text
  summary : Text
  description : Text
  assembly : Text
  arguments : Text
  results : Text
  extras : Text

namespace Record

def assemblyStart : Text := "### Custom assembly form\n"

def assemblyStop : Text := "\x7d];\n"

def argumentsStart : Text := "  let arguments = (ins"

def resultsStart : Text := "  let results = (outs"

def listStop : Text := ");\n"

def tail (r : Record) : Text :=
  "\n" ++ (resultsStart ++ (r.results ++ (listStop ++ (r.extras ++ "\x7d\n"))))

def interface (r : Record) : Text :=
  "\n" ++ (argumentsStart ++ (r.arguments ++ (listStop ++ r.tail)))

def documentation (r : Record) : Text :=
  r.summary ++ (";\n\n  let description = [\x7b\n" ++ (r.description ++ "\n\n    "))

def texts (r : Record) : Text :=
  "  let summary = " ++ (r.documentation ++ (assemblyStart ++ (r.assembly ++
    (assemblyStop ++ r.interface))))

def params (r : Record) : Text :=
  "\"" ++ (r.stem ++ ("\"" ++ (r.args ++ (", " ++ ('[' :: (r.traits ++ (']' :: "> ")))))))

def head (r : Record) : Text := r.stem ++ ("Op" ++ (" : SPV_Op" ++ ("<" ++ r.params)))

def definition (r : Record) : Text := r.head ++ ("\x7b\n" ++ r.texts)

def text (r : Record) : Text := definitionLead ++ r.definition

def kept (r : Record) : Kept where
  opname := "Op" ++ r.stem
  categoryArgs := some (r.args ++ ", ")
  traits := some r.traits
  assembly := some r.assembly
  arguments := some r.arguments
  results := some r.results
  extras := some r.extras

end Record

def IsOpname (n : Text) : Prop := ∃ stem, IsWord stem ∧ n = "Op" ++ stem

theorem opStem_append (stem : Text) : opStem ("Op" ++ stem) = stem := by
  rw [opStem, after?_append, Option.getD_some]

theorem IsOpname.isWord_opStem {n : Text} (h : IsOpname n) : IsWord (opStem n) := by
  obtain ⟨stem, hstem, rfl⟩ := h
  rwa [opStem_append]

theorem IsOpname.append_opStem {n : Text} (h : IsOpname n) : "Op" ++ opStem n = n := by
  obtain ⟨stem, -, rfl⟩ := h
  rw [opStem_append]

theorem IsOpname.all_isWord {n : Text} (h : IsOpname n) : n.all Character.isWord := by
  obtain ⟨stem, hstem, rfl⟩ := h
  have hlead : ("Op" : Text).all Character.isWord := all_isWord_ofList (by decide)
  rw [List.all_append, hlead, hstem.all]
  rfl

def isArgsEnd (c : Char) : Bool := c == ',' || Character.isBlank c

def Kept.args (kept : Kept) : Text := trimEnd isArgsEnd (kept.categoryArgs.getD [])

namespace Instruction

def recordArguments (i : Instruction) (kept : Kept) : Except Fault Text :=
  match kept.arguments with
  | some a => return a
  | none => i.derivedArguments

def record (layout : Layout) (kept : Kept) (doc : Text) (i : Instruction) (arguments : Text) :
    Record where
  stem := opStem i.opname
  args := kept.args
  traits := kept.traits.getD []
  summary := renderSummary layout (headLine doc).1
  description := renderDescription layout (headLine doc).2
  assembly := kept.assembly.getD assemblyTemplate
  arguments := arguments
  results := kept.results.getD i.derivedResults
  extras := kept.extras.getD []

variable {layout : Layout} {kept : Kept} {doc arguments : Text} {i : Instruction}

theorem renderHead_eq (r : Record) (h : r = i.record layout kept doc arguments) :
    i.renderHead kept plainCategory =
      definitionLead ++ (r.head ++ "\x7b\n") := by
  have hcategory (y : Text) : ("Op : SPV_" : Text) ++ (plainCategory ++ ("<\"" ++ y)) =
      "Op" ++ (" : SPV_Op" ++ ("<" ++ ("\"" ++ y))) := by
    have h : ("Op : SPV_" : Text) ++ (plainCategory ++ "<\"") =
      "Op" ++ (" : SPV_Op" ++ ("<" ++ "\"")) := by decide +kernel
    simpa only [List.append_assoc] using congrArg (· ++ y) h
  have hlist : (", [" : Text) = ", " ++ ['['] := by decide +kernel
  have hend : ("]> \x7b\n" : Text) = ']' :: ("> " ++ "\x7b\n") := by decide +kernel
  subst h
  unfold renderHead Record.head Record.params record definitionLead Kept.args isArgsEnd
  dsimp only
  rw [hlist, hend]
  simp only [List.append_assoc, List.cons_append, List.nil_append]
  rw [hcategory]

theorem recordArguments_eq_ok_iff :
    i.recordArguments kept = .ok arguments ↔ kept.arguments = some arguments ∨
      kept.arguments = none ∧ i.derivedArguments = .ok arguments := by
  unfold recordArguments
  cases kept.arguments with
  | some a => simp [pure, Except.pure]
  | none => simp

theorem render_plainCategory :
    i.render layout plainCategory kept doc =
      (i.recordArguments kept).map fun a => (i.record layout kept doc a).text := by
  have hassembly : ("\n\n    ### Custom assembly form\n" : Text) =
      "\n\n    " ++ Record.assemblyStart := by decide +kernel
  have hstop : ("\x7d];\n" : Text) = Record.assemblyStop := rfl
  have harguments : ("\n  let arguments = (ins" : Text) = "\n" ++ Record.argumentsStart := by
    decide +kernel
  have hresults : (");\n\n  let results = (outs" : Text) =
      Record.listStop ++ ("\n" ++ Record.resultsStart) := by decide +kernel
  have hlist : (");\n" : Text) = Record.listStop := rfl
  have key (a : Text) : i.renderHead kept plainCategory ++ renderTexts layout kept doc ++
      ("\n  let arguments = (ins" ++ a ++ ");\n\n  let results = (outs" ++
        kept.results.getD i.derivedResults ++ ");\n") ++ kept.extras.getD [] ++ "\x7d\n" =
      (i.record layout kept doc a).text := by
    rw [renderHead_eq _ (rfl : _ = i.record layout kept doc a), harguments, hresults, hlist]
    unfold renderTexts Record.text Record.definition Record.texts Record.documentation
      Record.interface Record.tail record
    dsimp only
    rw [hassembly, hstop]
    simp only [List.append_assoc]
  unfold render renderInterface recordArguments
  rw [if_pos rfl]
  cases kept.arguments with
  | some a => exact congrArg Except.ok (key a)
  | none =>
    cases h : i.derivedArguments with
    | error e => rfl
    | ok a => exact congrArg Except.ok (key a)

theorem record_kept {r : Record} (h : r = i.record layout kept doc arguments) :
    i.recordArguments r.kept = .ok r.arguments ∧ i.record layout r.kept doc r.arguments = r := by
  have hcomma : ∀ c ∈ (", " : Text), isArgsEnd c := List.all_eq_true.1 (by decide +kernel)
  refine ⟨rfl, ?_⟩
  subst h
  unfold record Record.kept Kept.args
  dsimp only
  rw [Option.getD_some, trimEnd_append hcomma, trimEnd_trimEnd]
  rfl

end Instruction

def documentLits : List Text := ["\"", "[\x7b\n", "\n  \x7d]", "\n\n"]

variable {p doc t : Text} {layout : Layout}

theorem headLine_fst_infix_self (t : Text) : (headLine t).1 <:+: t :=
  (List.takeWhile_prefix _).isInfix

theorem headLine_snd_infix_self (t : Text) : (headLine t).2 <:+: t :=
  ((List.drop_suffix _ _).trans (List.dropWhile_suffix _)).isInfix

theorem Text.Unbroken.absent_renderSummary (hp : Unbroken p)
    (hl : ∀ lit ∈ documentLits, Parts p lit) (h : ¬ p <:+: t) :
    ¬ p <:+: renderSummary layout t := by
  have ht : ¬ p <:+: trim Character.isBlank t := fun hpt =>
    h (hpt.trans (trim_infix_self _ t))
  unfold renderSummary
  dsimp only
  split
  · have hquote := hl "\"" (by decide +kernel)
    exact hquote.absent_right (hquote.absent_left ht)
  · apply (hl "\n  \x7d]" (by decide +kernel)).absent_right
    exact (hl "[\x7b\n" (by decide +kernel)).absent_left (hp.absent_wrap ht _ _)

theorem Text.Unbroken.absent_renderDescription (hp : Unbroken p)
    (hl : ∀ lit ∈ documentLits, Parts p lit) (h : ¬ p <:+: t) :
    ¬ p <:+: renderDescription layout t := by
  apply absent_join (hl "\n\n" (by decide +kernel))
  intro s hs
  obtain ⟨l, hline, rfl⟩ := List.mem_map.1 hs
  apply hp.absent_wrap
  exact fun hpl => h (hpl.trans (infix_of_mem_lines (List.mem_filter.1 hline).1))

theorem absent_texts (layout : Layout) (hp : Unbroken p) (hl : ∀ lit ∈ documentLits, Parts p lit)
    (h : ¬ p <:+: doc) :
    ¬ p <:+: renderSummary layout (headLine doc).1 ∧
      ¬ p <:+: renderDescription layout (headLine doc).2 :=
  ⟨hp.absent_renderSummary hl fun hpt => h (hpt.trans (headLine_fst_infix_self doc)),
    hp.absent_renderDescription hl fun hpt => h (hpt.trans (headLine_snd_infix_self doc))⟩

end SpirvTables
