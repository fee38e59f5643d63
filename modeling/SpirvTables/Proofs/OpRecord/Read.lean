import SpirvTables.OpRecord
import SpirvTables.Proofs.Fault
import SpirvTables.Proofs.OpRecord.Record
import SpirvTables.Proofs.Section.Blocks
import SpirvTables.Proofs.Section.Cases
import SpirvTables.Proofs.Text.Bracket

namespace SpirvTables

open Text

def definedOps (t : Text) : List Text := (wordsAfter definitionLead t).filterMap (stem? "Op")

def opOf? (found : Text × Text) : Option (Text × Text) := (stem? "Op" found.1).map (·, found.2)

theorem definedOps_eq_map (t : Text) :
    definedOps t = ((identifiersAfter definitionLead t).filterMap opOf?).map (·.1) := by
  rw [definedOps, wordsAfter, List.filterMap_map, List.map_filterMap]
  congr 1
  funext found
  simp [opOf?, Function.comp_def]

theorem definedOps_eq_nil_iff {t : Text} :
    definedOps t = [] ↔ (identifiersAfter definitionLead t).filterMap opOf? = [] := by
  rw [definedOps_eq_map, List.map_eq_nil_iff]

theorem definitionOf_eq_ok_iff {block : Text} {d : Text × Text} :
    Kept.definitionOf block = .ok d ↔
      (identifiersAfter definitionLead block).filterMap opOf? = [d] := by
  unfold Kept.definitionOf
  dsimp only
  split
  · next d' hd =>
    change List.filterMap opOf? _ = [d'] at hd
    rw [hd]
    constructor
    · intro h
      rw [Except.ok.inj h]
    · intro h
      rw [(List.cons.inj h).1]
      rfl
  · next hd =>
    constructor
    · intro h
      cases h
    · intro h
      exact absurd h (hd d)

theorem definedOps_of_absent {t : Text} (h : ¬ definitionLead <:+: t) : definedOps t = [] := by
  rw [definedOps, wordsAfter_of_absent h, List.filterMap_nil]

theorem definedOps_nil : definedOps [] = [] :=
  definedOps_of_absent (absent_nil definitionLead_ne_nil)

structure Neutral (lit : Text) : Prop where
  parts : Parts definitionLead lit
  stopsWord : StopsWord lit

instance (lit : Text) : Decidable (Neutral lit) :=
  decidable_of_iff (_ ∧ _) ⟨fun ⟨p, s⟩ => ⟨p, s⟩, fun h => ⟨h.parts, h.stopsWord⟩⟩

theorem neutral_cons {c : Char} {l : List Char}
    (h : Parts ['d', 'e', 'f', ' ', 'S', 'P', 'V', '_'] (c :: l) ∧ Character.isWord c = false) :
    Neutral (c :: l) where
  parts := definitionLead_eq ▸ h.1
  stopsWord := stopsWord_cons h.2 l

theorem neutral_ofList {c : Char} {l : List Char}
    (h : Parts ['d', 'e', 'f', ' ', 'S', 'P', 'V', '_'] (c :: l) ∧ Character.isWord c = false) :
    Neutral (String.ofList (c :: l)).toList := by
  rw [String.toList_ofList]
  exact neutral_cons h

namespace Neutral

variable {lit : Text}

theorem definedOps_append (h : Neutral lit) (x y : Text) :
    definedOps (x ++ (lit ++ y)) = definedOps x ++ definedOps y := by
  unfold definedOps
  rw [h.parts.wordsAfter_append h.stopsWord definitionLead_ne_nil, List.filterMap_append]

theorem definedOps_left (h : Neutral lit) (y : Text) : definedOps (lit ++ y) = definedOps y := by
  have := h.definedOps_append [] y
  rwa [definedOps_nil, List.nil_append] at this

theorem definedOps_right (h : Neutral lit) (x : Text) : definedOps (x ++ lit) = definedOps x := by
  have := h.definedOps_append x []
  rwa [definedOps_nil, List.append_nil, List.append_nil] at this

end Neutral

theorem definedOps_of_noWord {a b : Text} (ha : ∀ c ∈ a, Character.isWord c = false)
    (hb : ∀ c ∈ b, Character.isWord c = false) (t : Text) :
    definedOps (a ++ (t ++ b)) = definedOps t := by
  have hhead : 'd' ∉ a := fun hm => by
    have := ha 'd' hm
    revert this
    decide
  have hlast : '_' ∉ b := fun hm => by
    have := hb '_' hm
    revert this
    decide
  have hstops : StopsWord b := by
    cases b with
    | nil => rfl
    | cons c b => exact stopsWord_cons (hb c List.mem_cons_self) b
  rw [definedOps, wordsAfter_append_of_head head?_definitionLead hhead,
    wordsAfter_append_of_last getLast?_definitionLead hlast hstops, definedOps]

theorem seams_definedOps {lits : List Text} (h : ∀ lit ∈ lits, Neutral lit) :
    Seams (definedOps · = []) lits where
  nil := definedOps_nil
  append lit hl x y hx hy := by
    rw [(h lit hl).definedOps_append, hx, hy, List.append_nil]

def isMargin (c : Char) : Bool := c == ' ' || c == '\x7d' || c == '\n'

def IsExtras (t : Text) : Prop :=
  t = [] ∨ ∃ x, t = "\n  " ++ (x ++ "\n") ∧ x ≠ [] ∧
    (∀ c ∈ x.head?, isMargin c = false) ∧ ∀ c ∈ x.getLast?, isMargin c = false

theorem extrasOf_append_brace {t : Text} (h : IsExtras t) : Kept.extrasOf (t ++ "\x7d\n") = t := by
  have hstart : ∀ c ∈ ("\n  " : Text), isMargin c := List.all_eq_true.1 (by decide +kernel)
  have hend : ∀ c ∈ ("\n\x7d\n" : Text), isMargin c := List.all_eq_true.1 (by decide +kernel)
  rcases h with rfl | ⟨x, rfl, hne, hhead, hlast⟩
  · decide +kernel
  · have htrim : trim isMargin ("\n  " ++ (x ++ "\n") ++ "\x7d\n") = x := by
      have heq : ("\n  " : Text) ++ (x ++ "\n") ++ "\x7d\n" = "\n  " ++ (x ++ "\n\x7d\n") := by
        have : ("\n\x7d\n" : Text) = "\n" ++ "\x7d\n" := eq_append_ofList rfl
        rw [this]
        simp only [List.append_assoc]
      rw [heq, trim_append hstart hend, trim_eq_self hhead hlast]
    obtain ⟨c, x, rfl⟩ := List.exists_cons_of_ne_nil hne
    unfold isMargin at htrim
    unfold Kept.extrasOf
    rw [htrim, ← List.append_assoc]

theorem isWord_of_isMargin {c : Char} (h : isMargin c) : Character.isWord c = false := by
  simp only [isMargin, Bool.or_eq_true, beq_iff_eq] at h
  obtain (rfl | rfl) | rfl := h <;> decide

theorem definedOps_extrasOf (rest : Text) : definedOps (Kept.extrasOf rest) = definedOps rest := by
  obtain ⟨a, b, hrest, ha, hb⟩ := exists_eq_append_trim isMargin rest
  have htrim : definedOps rest = definedOps (trim isMargin rest) := by
    conv_lhs => rw [hrest]
    exact definedOps_of_noWord (fun c hc => isWord_of_isMargin (ha c hc))
      (fun c hc => isWord_of_isMargin (hb c hc)) _
  rw [htrim]
  unfold isMargin Kept.extrasOf
  split
  · next h => rw [h]
  · have hstart : ∀ c ∈ ("\n  " : Text), isMargin c := List.all_eq_true.1 (by decide +kernel)
    have hend : ∀ c ∈ ("\n" : Text), isMargin c := List.all_eq_true.1 (by decide +kernel)
    rw [List.append_assoc]
    exact definedOps_of_noWord (fun c hc => isWord_of_isMargin (hstart c hc))
      (fun c hc => isWord_of_isMargin (hend c hc)) _

theorem isExtras_extrasOf (rest : Text) : IsExtras (Kept.extrasOf rest) := by
  have hhead := head_trim (f := isMargin) (t := rest)
  have hlast := last_trim (f := isMargin) (t := rest)
  unfold Kept.extrasOf
  split
  · exact .inl rfl
  · next hne => exact .inr ⟨_, List.append_assoc .., hne, hhead, hlast⟩

namespace Record

def marks : List Text :=
  [assemblyStart, assemblyStop, argumentsStart, resultsStart, listStop]

theorem neutral_marks : ∀ m ∈ marks, Neutral m := by
  simp only [marks, List.forall_mem_cons]
  exact ⟨neutral_ofList (by decide), neutral_ofList (by decide), neutral_ofList (by decide),
    neutral_ofList (by decide), neutral_ofList (by decide), nofun⟩

theorem marks_ne_nil : ∀ m ∈ marks, m ≠ [] := fun m hm => (neutral_marks m hm).parts.lit_ne_nil

def headLits : List Text := ["\"", ", ", ['['], ']' :: "> ", " : SPV_Op", "<"]

def documentationLits : List Text := [";\n\n  let description = [\x7b\n", "\n\n    "]

section

variable {Good : Text → Prop} {r : Record}

theorem good_head (h : Seams Good headLits) (hstem : Good r.stem) (hop : Good (r.stem ++ "Op"))
    (hargs : Good r.args) (htraits : Good r.traits) : Good r.head := by
  unfold head params
  rw [← List.append_assoc]
  apply h.append _ (by decide +kernel) hop
  apply h.lit_append (by decide +kernel)
  apply h.lit_append (by decide +kernel)
  apply h.append _ (by decide +kernel) hstem
  apply h.append _ (by decide +kernel) hargs
  rw [← List.singleton_append (x := '[')]
  apply h.lit_append (by decide +kernel)
  exact h.append_lit (by decide +kernel) htraits

theorem good_documentation (h : Seams Good documentationLits) (hsummary : Good r.summary)
    (hdescription : Good r.description) : Good r.documentation := by
  unfold documentation
  apply h.append _ (by decide +kernel) hsummary
  exact h.append_lit (by decide +kernel) hdescription

end

structure Headed (r : Record) : Prop where
  stem : IsWord r.stem
  ops : ∀ x ∈ [r.args, r.traits, r.summary, r.description], definedOps x = []
  brace : ∀ x ∈ [r.args, r.traits], ¬ ("\x7b\n" : Text) <:+: x

section

variable {r : Record}

theorem Headed.isWord_ident (h : r.Headed) : IsWord (r.stem ++ "Op") :=
  h.stem.append (all_isWord_ofList (by decide))

theorem Headed.definedOps_head (h : r.Headed) : definedOps r.head = [] := by
  have hops := h.ops
  simp only [List.forall_mem_cons] at hops
  apply good_head (seams_definedOps (by decide +kernel))
  · exact definedOps_of_absent (h.stem.absent space_mem_definitionLead (by decide))
  · exact definedOps_of_absent (h.isWord_ident.absent space_mem_definitionLead (by decide))
  · exact hops.1
  · exact hops.2.1

theorem Headed.definedOps_documentation (h : r.Headed) : definedOps r.documentation = [] := by
  have hops := h.ops
  simp only [List.forall_mem_cons] at hops
  exact good_documentation (seams_definedOps (by decide +kernel)) hops.2.2.1 hops.2.2.2.1

theorem Headed.definedOps_definition (h : r.Headed) :
    definedOps r.definition = definedOps r.assembly ++ (definedOps r.arguments ++
      (definedOps r.results ++ definedOps r.extras)) := by
  have hbrace : Neutral "\x7b\n" := neutral_ofList (by decide)
  have hsummary : Neutral "  let summary = " := neutral_ofList (by decide)
  have hnewline : Neutral "\n" := neutral_ofList (by decide)
  have hend : Neutral "\x7d\n" := neutral_ofList (by decide)
  have hmarks := neutral_marks
  simp only [marks, List.forall_mem_cons] at hmarks
  obtain ⟨hform, hformStop, harguments, hresults, hlistStop, -⟩ := hmarks
  unfold definition texts interface tail
  rw [hbrace.definedOps_append, h.definedOps_head, hsummary.definedOps_left,
    hform.definedOps_append, h.definedOps_documentation,
    hformStop.definedOps_append, hnewline.definedOps_left,
    harguments.definedOps_left, hlistStop.definedOps_append,
    hnewline.definedOps_left, hresults.definedOps_left,
    hlistStop.definedOps_append, hend.definedOps_right]
  rfl

theorem Headed.absent_brace (h : r.Headed) :
    ¬ ("\x7b\n" : Text) <:+: definitionLead ++ r.head := by
  have hbrace := h.brace
  simp only [List.forall_mem_cons] at hbrace
  have hlead : Parts "\x7b\n" definitionLead :=
    parts_ofList (by decide)
  apply hlead.absent_left
  apply good_head (seams_absent (by decide +kernel) (by decide +kernel))
  · exact h.stem.absent (mem_ofList (c := '\n') (by decide)) (by decide)
  · exact h.isWord_ident.absent (mem_ofList (c := '\n') (by decide)) (by decide)
  · exact hbrace.1
  · exact hbrace.2.1

theorem Headed.startingWord_definition (h : r.Headed) :
    startingWord r.definition = [r.stem ++ "Op"] := by
  have hstop (y : Text) : StopsWord (" : SPV_Op" ++ y) :=
    StopsWord.append (stopsWord_ofList (by decide)) ne_nil_ofList y
  have heq (x y z : Text) :
      r.stem ++ ("Op" ++ (x ++ y)) ++ z = r.stem ++ "Op" ++ (x ++ (y ++ z)) := by
    simp only [List.append_assoc]
  unfold startingWord definition head
  rw [heq, leadingWord_append (hstop _), h.isWord_ident.leadingWord_eq]
  simp

theorem Headed.definitionOf_text_eq_ok_iff (h : r.Headed) {d : Text × Text} :
    Kept.definitionOf r.text = .ok d ↔
      d = (r.stem, r.definition) ∧ definedOps r.definition = [] := by
  have hstem : opOf? (r.stem ++ "Op", r.definition) = some (r.stem, r.definition) := by
    rw [opOf?, stem?_eq_some_iff.2 ⟨rfl, h.stem.ne_nil⟩]
    rfl
  rw [definitionOf_eq_ok_iff, definedOps_eq_nil_iff, text,
    identifiersAfter_lead_append definitionLead_ne_nil, h.startingWord_definition,
    List.map_singleton, List.singleton_append, List.filterMap_cons_some hstem, List.cons.injEq,
    eq_comm (a := d)]

theorem Headed.readHead_definition (h : r.Headed) :
    Kept.readHead r.stem r.definition =
      .ok (Kept.headParts (r.args ++ (", " ++ ('[' :: (r.traits ++ (']' :: "> ")))))) := by
  have hhead : cut? "\x7b\n" (definitionLead ++ r.definition) =
      some (definitionLead ++ r.head, r.texts) := by
    unfold definition
    rw [← List.append_assoc]
    exact Borderless.cut?_append (borderless_ofList (by decide)) ne_nil_ofList h.absent_brace
  have hangle : cut? "<" (definitionLead ++ r.head) =
      some (definitionLead ++ (r.stem ++ ("Op" ++ " : SPV_Op")), r.params) := by
    have heq : definitionLead ++ r.head =
        definitionLead ++ (r.stem ++ ("Op" ++ " : SPV_Op")) ++ ("<" ++ r.params) := by
      unfold head
      simp only [List.append_assoc]
    rw [heq]
    apply Borderless.cut?_append (borderless_ofList (by decide)) ne_nil_ofList
    apply absent_of_notMem (mem_ofList (c := '<') (by decide))
    simp only [List.mem_append, not_or]
    exact ⟨notMem_ofList (by decide), h.stem.notMem (by decide), notMem_ofList (by decide),
      notMem_ofList (by decide)⟩
  have hname : delimited "\"" "\"" r.params =
      .ok (some r.stem, r.args ++ (", " ++ ('[' :: (r.traits ++ (']' :: "> "))))) := by
    apply delimited_append (x := []) ne_nil_ofList (by decide +kernel) ne_nil_ofList
    apply absent_of_notMem (mem_ofList (c := '"') (by decide))
    simp only [List.mem_append, not_or]
    exact ⟨h.stem.notMem (by decide), by decide +kernel⟩
  unfold Kept.readHead
  simp only [hhead, hangle, hname, bind, Except.bind, pure, Except.pure]

end

/-- A record whose parts can be told from what is written around them. -/
structure Readable (r : Record) : Prop where
  stem : IsWord r.stem
  ops : ∀ x ∈ [r.args, r.traits, r.summary, r.description, r.assembly, r.arguments, r.results,
    r.extras], definedOps x = []
  brace : ∀ x ∈ [r.args, r.traits], ¬ ("\x7b\n" : Text) <:+: x
  hashes : ∀ x ∈ [r.args, r.traits, r.summary, r.description], ¬ ("###" : Text) <:+: x
  bracket : '[' ∉ r.args
  traits : ∀ y, upToClose 0 (r.traits ++ ']' :: y) = some r.traits
  assembly : ¬ assemblyStop <:+: r.assembly
  arguments : ¬ listStop <:+: r.arguments
  results : ¬ listStop <:+: r.results
  extras : IsExtras r.extras

variable {r : Record}

theorem Readable.headed (h : r.Readable) : r.Headed where
  stem := h.stem
  ops x hx := h.ops x (by simp only [List.mem_cons] at hx ⊢; tauto)
  brace := h.brace

theorem Readable.definedOps_definition (h : r.Readable) : definedOps r.definition = [] := by
  have hops := h.ops
  simp only [List.forall_mem_cons] at hops
  obtain ⟨-, -, -, -, hassembly, harguments, hresults, hextras, -⟩ := hops
  rw [h.headed.definedOps_definition, hassembly, harguments, hresults, hextras]
  rfl

def front (r : Record) : Text :=
  definitionLead ++ (r.head ++ ("\x7b\n  let summary = " ++ r.documentation))

theorem Readable.absent_hashes (h : r.Readable) : ¬ ("###" : Text) <:+: r.front := by
  have hhashes := h.hashes
  simp only [List.forall_mem_cons] at hhashes
  obtain ⟨hargs, htraits, hsummary, hdescription, -⟩ := hhashes
  have hlead : Parts "###" definitionLead :=
    parts_ofList (by decide)
  have hsum : Parts "###" "\x7b\n  let summary = " :=
    parts_ofList (by decide)
  apply hlead.absent_left
  apply hsum.absent
  · apply good_head (seams_absent (by decide +kernel) (by decide +kernel))
    · exact h.stem.absent (mem_ofList (c := '#') (by decide)) (by decide)
    · exact h.headed.isWord_ident.absent (mem_ofList (c := '#') (by decide)) (by decide)
    · exact hargs
    · exact htraits
  · exact good_documentation (seams_absent (by decide +kernel) (by decide +kernel)) hsummary
      hdescription

theorem Readable.headParts (h : r.Readable) :
    Kept.headParts (r.args ++ (", " ++ ('[' :: (r.traits ++ (']' :: "> "))))) =
      (r.args ++ ", ", r.traits) := by
  have hcut : cut? ['['] (r.args ++ ", " ++ (['['] ++ (r.traits ++ (']' :: "> ")))) =
      some (r.args ++ ", ", r.traits ++ (']' :: "> ")) := by
    apply cut?_append (List.cons_ne_nil _ _)
    apply absent_of_notMem List.mem_cons_self
    simp only [List.dropLast_singleton, List.append_nil, List.mem_append, not_or]
    exact ⟨h.bracket, notMem_ofList (by decide)⟩
  rw [Kept.headParts, bracketed?, ← List.append_assoc]
  simp only [List.cons_append, List.nil_append] at hcut
  rw [hcut]
  simp [h.traits]

theorem ofBlock_eq (block : Text) :
    Kept.ofBlock block = do
      let (stem, definition) ← Kept.definitionOf block
      let (args, traits) ← Kept.readHead stem definition
      let (assembly, rest) ← delimited assemblyStart assemblyStop block
      let (arguments, rest) ← delimited argumentsStart listStop rest
      let (results, rest) ← delimited resultsStart listStop rest
      return {
        opname := "Op" ++ stem
        categoryArgs := args
        traits := traits
        assembly := assembly.getD []
        arguments := arguments.getD []
        results := results.getD []
        extras := Kept.extrasOf rest } := rfl

theorem ofBlock_eq_ok {block : Text} {k : Kept} (h : Kept.ofBlock block = .ok k) :
    ∃ stem definition args traits assembly rest₁ arguments rest₂ results rest₃,
      Kept.definitionOf block = .ok (stem, definition) ∧
      Kept.readHead stem definition = .ok (args, traits) ∧
      delimited assemblyStart assemblyStop block = .ok (assembly, rest₁) ∧
      delimited argumentsStart listStop rest₁ = .ok (arguments, rest₂) ∧
      delimited resultsStart listStop rest₂ = .ok (results, rest₃) ∧
      k = {
        opname := "Op" ++ stem
        categoryArgs := args
        traits := traits
        assembly := assembly.getD []
        arguments := arguments.getD []
        results := results.getD []
        extras := Kept.extrasOf rest₃ } := by
  rw [ofBlock_eq] at h
  obtain ⟨⟨stem, definition⟩, hdefinition, h⟩ := bind_eq_ok.1 h
  obtain ⟨⟨args, traits⟩, hhead, h⟩ := bind_eq_ok.1 h
  obtain ⟨⟨assembly, rest₁⟩, hassembly, h⟩ := bind_eq_ok.1 h
  obtain ⟨⟨arguments, rest₂⟩, harguments, h⟩ := bind_eq_ok.1 h
  obtain ⟨⟨results, rest₃⟩, hresults, h⟩ := bind_eq_ok.1 h
  exact ⟨stem, definition, args, traits, assembly, rest₁, arguments, rest₂, results, rest₃,
    hdefinition, hhead, hassembly, harguments, hresults, (Except.ok.inj h).symm⟩

theorem text_eq_front (r : Record) :
    r.text = r.front ++ (assemblyStart ++ (r.assembly ++ (assemblyStop ++ r.interface))) := by
  have hsum : ("\x7b\n  let summary = " : Text) = "\x7b\n" ++ "  let summary = " :=
    eq_append_ofList rfl
  unfold text definition texts front
  rw [hsum]
  simp only [List.append_assoc]

theorem Headed.exists_ofBlock_eq_ok (h : r.Headed) (hops : definedOps r.definition = []) :
    ∃ k, Kept.ofBlock r.text = .ok k ∧ k.opname = "Op" ++ r.stem := by
  obtain ⟨assembly, v, hassembly⟩ :=
    exists_delimited_append assemblyStart assemblyStop r.front r.assembly r.interface
  obtain ⟨arguments, w, harguments⟩ :=
    exists_delimited_append argumentsStart listStop (v ++ "\n") r.arguments r.tail
  obtain ⟨results, z, hresults⟩ :=
    exists_delimited_append resultsStart listStop (w ++ "\n") r.results (r.extras ++ "\x7d\n")
  rw [← text_eq_front] at hassembly
  rw [List.append_assoc, ← interface] at harguments
  rw [List.append_assoc, ← tail] at hresults
  rw [ofBlock_eq]
  simp only [h.definitionOf_text_eq_ok_iff.2 ⟨rfl, hops⟩, h.readHead_definition, hassembly,
    harguments, hresults, bind, Except.bind]
  exact ⟨_, rfl, rfl⟩

theorem Headed.definedOps_of_ofBlock (h : r.Headed) {k : Kept} (hk : Kept.ofBlock r.text = .ok k) :
    definedOps r.definition = [] := by
  rw [ofBlock_eq] at hk
  obtain ⟨d, hd, -⟩ := bind_eq_ok.1 hk
  exact (h.definitionOf_text_eq_ok_iff.1 hd).2

theorem Readable.ofBlock_text (h : r.Readable) : Kept.ofBlock r.text = .ok r.kept := by
  have hassembly : delimited assemblyStart assemblyStop r.text =
      .ok (some r.assembly, r.interface) := by
    have hstart : ¬ assemblyStart <:+: r.front :=
      absent_of_part (q := "###") (infix_ofList (by decide)) h.absent_hashes
    rw [text_eq_front]
    apply delimited_append ne_nil_ofList _ ne_nil_ofList
    · exact Borderless.absent (borderless_ofList (by decide)) ne_nil_ofList h.assembly
    · exact Borderless.absent (borderless_ofList (by decide)) ne_nil_ofList hstart
  have hlist : Borderless listStop := borderless_ofList (by decide)
  have harguments : delimited argumentsStart listStop r.interface =
      .ok (some r.arguments, r.tail) :=
    delimited_append (x := "\n") ne_nil_ofList (by decide +kernel) ne_nil_ofList
      (hlist.absent ne_nil_ofList h.arguments) _
  have hresults : delimited resultsStart listStop r.tail =
      .ok (some r.results, r.extras ++ "\x7d\n") :=
    delimited_append (x := "\n") ne_nil_ofList (by decide +kernel) ne_nil_ofList
      (hlist.absent ne_nil_ofList h.results) _
  rw [ofBlock_eq]
  have hdefinition : Kept.definitionOf r.text = .ok (r.stem, r.definition) :=
    h.headed.definitionOf_text_eq_ok_iff.2 ⟨rfl, h.definedOps_definition⟩
  simp only [hdefinition, h.headed.readHead_definition, h.headParts, hassembly, harguments,
    hresults, bind, Except.bind]
  rw [extrasOf_append_brace h.extras]
  rfl

end Record

end SpirvTables
