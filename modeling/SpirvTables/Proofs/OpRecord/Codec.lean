import SpirvTables.Proofs.OpRecord.Read
import SpirvTables.Proofs.OpRecord.Record
import SpirvTables.Proofs.Text.Lower

namespace SpirvTables

open Text Record

namespace Kept

/-- Parts that can be told from what a record writes around them, the arguments aside. -/
structure Writable (k : Kept) : Prop where
  lead : ∀ field ∈ [k.categoryArgs, k.traits, k.assembly, k.results, k.extras],
    ∀ t ∈ field, ¬ definitionLead <:+: t
  head : ∀ field ∈ [k.categoryArgs, k.traits],
    ∀ t ∈ field, ¬ ("\x7b\n" : Text) <:+: t ∧ ¬ ("###" : Text) <:+: t
  bracket : ∀ t ∈ k.categoryArgs, '[' ∉ t
  balanced : ∀ t ∈ k.traits, BracketBalanced t
  assembly : ∀ t ∈ k.assembly, ¬ assemblyStop <:+: t
  results : ∀ t ∈ k.results, ¬ listStop <:+: t
  extras : ∀ t ∈ k.extras, IsExtras t

/-- Parts that are found again in the record they are written to, the arguments aside. -/
structure Fit (k : Kept) : Prop where
  ops : ∀ field ∈ [k.categoryArgs, k.traits, k.assembly, k.results, k.extras],
    ∀ t ∈ field, definedOps t = []
  head : ∀ field ∈ [k.categoryArgs, k.traits],
    ∀ t ∈ field, ¬ ("\x7b\n" : Text) <:+: t ∧ ¬ ("###" : Text) <:+: t
  bracket : ∀ t ∈ k.categoryArgs, '[' ∉ t
  closed : ∀ t ∈ k.traits, ∀ y, upToClose 0 (t ++ ']' :: y) = some t
  assembly : ∀ t ∈ k.assembly, ¬ assemblyStop <:+: t
  results : ∀ t ∈ k.results, ¬ listStop <:+: t
  extras : ∀ t ∈ k.extras, IsExtras t

theorem Writable.fit {k : Kept} (h : k.Writable) : k.Fit where
  ops field hf t ht := definedOps_of_absent (h.lead field hf t ht)
  head := h.head
  bracket := h.bracket
  closed t ht y := (h.balanced t ht).upToClose_append y
  assembly := h.assembly
  results := h.results
  extras := h.extras

theorem fit_empty : Fit {} := by
  constructor <;> simp

variable {kept : Kept} {p d : Text} {P : Text → Prop}

theorem forall_mem_some {t : Text} : (∀ x ∈ some t, P x) ↔ P t := by
  simp

theorem getD_of_forall_mem {o : Option Text} (ho : ∀ t ∈ o, P t) (hd : P d) : P (o.getD d) := by
  cases o with
  | none => exact hd
  | some t => exact ho t rfl

theorem absent_args (hp : p ≠ []) (h : ∀ t ∈ kept.categoryArgs, ¬ p <:+: t) :
    ¬ p <:+: kept.args := by
  have hgetD : ¬ p <:+: kept.categoryArgs.getD [] := getD_of_forall_mem h (absent_nil hp)
  exact fun hargs => hgetD (hargs.trans (trimEnd_prefix_self _ _).isInfix)

theorem definedOps_args (h : ∀ t ∈ kept.categoryArgs, definedOps t = []) :
    definedOps kept.args = [] := by
  have hgetD : definedOps (kept.categoryArgs.getD []) = [] := getD_of_forall_mem h definedOps_nil
  obtain ⟨y, hy, hall⟩ := exists_eq_trimEnd_append isArgsEnd (kept.categoryArgs.getD [])
  have hnoWord (c : Char) (hc : c ∈ y) : Character.isWord c = false := by
    rcases Bool.or_eq_true _ _ ▸ hall c hc with hcomma | hblank
    · rw [beq_iff_eq.1 hcomma]
      decide
    · exact Character.isWord_of_isBlank hblank
  rw [hy] at hgetD
  exact (definedOps_of_noWord (a := []) (by simp) hnoWord _).symm.trans hgetD

end Kept

namespace Instruction

variable {layout : Layout} {kept : Kept} {doc stem arguments block : Text} {i : Instruction}

theorem absent_derivedResults {p : Text} (hp : p ≠ [])
    (h : ¬ p <:+: ("\n    SPV_Type:$result\n  " : Text)) : ¬ p <:+: i.derivedResults := by
  unfold derivedResults
  split
  · exact h
  · exact absent_nil hp

theorem definedOps_assemblyTemplate : definedOps assemblyTemplate = [] :=
  definedOps_of_absent (absent_ofList (by decide +kernel))

theorem definedOps_derivedResults : definedOps i.derivedResults = [] :=
  definedOps_of_absent (absent_derivedResults definitionLead_ne_nil (absent_ofList (by decide)))

theorem headed_record (layout : Layout) (hop : IsWord (opStem i.opname))
    (hspv : ¬ ("SPV_" : Text) <:+: doc)
    (hops : ∀ field ∈ [kept.categoryArgs, kept.traits], ∀ t ∈ field, definedOps t = [])
    (hbrace : ∀ field ∈ [kept.categoryArgs, kept.traits], ∀ t ∈ field, ¬ ("\x7b\n" : Text) <:+: t)
    (arguments : Text) : (i.record layout kept doc arguments).Headed := by
  simp only [List.forall_mem_cons] at hops hbrace
  have hspv := absent_texts layout (by decide +kernel) (by decide +kernel) hspv
  have hpart : ("SPV_" : Text) <:+: definitionLead := infix_ofList (by decide)
  refine ⟨hop, ?_, ?_⟩
  · simp only [List.forall_mem_cons]
    refine ⟨Kept.definedOps_args hops.1, Kept.getD_of_forall_mem hops.2.1 ?_, ?_, ?_, by simp⟩
    · exact definedOps_nil
    · exact definedOps_of_absent (absent_of_part hpart hspv.1)
    · exact definedOps_of_absent (absent_of_part hpart hspv.2)
  · simp only [List.forall_mem_cons]
    refine ⟨Kept.absent_args ne_nil_ofList hbrace.1, ?_, by simp⟩
    exact Kept.getD_of_forall_mem hbrace.2.1 (absent_nil ne_nil_ofList)

theorem readable_record (layout : Layout) (hop : IsWord (opStem i.opname))
    (hspv : ¬ ("SPV_" : Text) <:+: doc) (hhash : ¬ ("###" : Text) <:+: doc) (hk : kept.Fit)
    (harguments : definedOps arguments = [] ∧ ¬ listStop <:+: arguments) :
    (i.record layout kept doc arguments).Readable := by
  have hheaded : (i.record layout kept doc arguments).Headed := by
    apply headed_record layout hop hspv
    · intro field hf
      apply hk.ops
      simp only [List.mem_cons] at hf ⊢
      tauto
    · exact fun field hf t ht => (hk.head field hf t ht).1
  have hops := hk.ops
  have hhead := hk.head
  have hheadOps := hheaded.ops
  simp only [List.forall_mem_cons] at hops hhead hheadOps
  obtain ⟨-, -, hassembly, hresults, hextras, -⟩ := hops
  have hhash := absent_texts layout (by decide +kernel) (by decide +kernel) hhash
  constructor
  · exact hop
  · simp only [List.forall_mem_cons]
    refine ⟨hheadOps.1, hheadOps.2.1, hheadOps.2.2.1, hheadOps.2.2.2.1, ?_, harguments.1, ?_, ?_,
      by simp⟩
    · exact Kept.getD_of_forall_mem hassembly definedOps_assemblyTemplate
    · exact Kept.getD_of_forall_mem hresults definedOps_derivedResults
    · exact Kept.getD_of_forall_mem hextras definedOps_nil
  · exact hheaded.brace
  · simp only [List.forall_mem_cons]
    refine ⟨?_, ?_, hhash.1, hhash.2, by simp⟩
    · exact Kept.absent_args ne_nil_ofList fun t ht => (hhead.1 t ht).2
    · exact Kept.getD_of_forall_mem (fun t ht => (hhead.2.1 t ht).2) (absent_nil ne_nil_ofList)
  · intro hb
    exact Kept.getD_of_forall_mem hk.bracket List.not_mem_nil
      ((trimEnd_prefix_self isArgsEnd _).subset hb)
  · exact Kept.getD_of_forall_mem hk.closed fun y => rfl
  · exact Kept.getD_of_forall_mem hk.assembly (absent_ofList (by decide +kernel))
  · exact harguments.2
  · exact Kept.getD_of_forall_mem hk.results
      (absent_derivedResults ne_nil_ofList (absent_ofList (by decide)))
  · exact Kept.getD_of_forall_mem hk.extras (.inl rfl)

/-- Reading a written record gives back what was kept, and what was filled in for the rest. The
arguments it is written with are those kept or those of the operands. -/
theorem ofBlock_of_render (hop : i.opname = "Op" ++ stem) (hstem : IsWord stem)
    (hspv : ¬ ("SPV_" : Text) <:+: doc) (hhash : ¬ ("###" : Text) <:+: doc) (hk : kept.Writable)
    (harguments : ∀ a, i.recordArguments kept = .ok a →
      ¬ listStop <:+: a ∧ ¬ definitionLead <:+: a)
    (h : i.render layout plainCategory kept doc = .ok block) :
    ∃ a, i.recordArguments kept = .ok a ∧ Kept.ofBlock block = .ok {
      opname := i.opname
      categoryArgs := some (kept.args ++ ", ")
      traits := some (kept.traits.getD [])
      assembly := some (kept.assembly.getD assemblyTemplate)
      arguments := some a
      results := some (kept.results.getD i.derivedResults)
      extras := some (kept.extras.getD []) } := by
  rw [render_plainCategory] at h
  cases ha : i.recordArguments kept with
  | error e =>
    rw [ha] at h
    cases h
  | ok a =>
    rw [ha] at h
    obtain rfl := Except.ok.inj h
    refine ⟨a, rfl, ?_⟩
    have hword : IsWord (opStem i.opname) := IsOpname.isWord_opStem ⟨stem, hstem, hop⟩
    obtain ⟨hstop, hlead⟩ := harguments a ha
    have hr := readable_record layout hword hspv hhash hk.fit ⟨definedOps_of_absent hlead, hstop⟩
    rw [hr.ofBlock_text]
    unfold Record.kept record
    rw [hop, opStem_append]

def undefInstruction : Instruction := ⟨"OpUndef", 1, none, [⟨"IdResultType", .one, none⟩]⟩

def editedKept : Kept where
  categoryArgs := some ", Foo, "
  traits := some "Traits<[Pure]>"
  extras := some "\n  let hasVerifier = 0;\n"

theorem writable_editedKept : editedKept.Writable where
  lead := by decide +kernel
  head := by decide +kernel
  bracket := by decide +kernel
  balanced := by decide +kernel
  assembly := by decide +kernel
  results := by decide +kernel
  extras := by
    intro t ht
    obtain rfl := Option.some.inj ht
    have heq : Kept.extrasOf "let hasVerifier = 0;" = "\n  let hasVerifier = 0;\n" := by
      decide +kernel
    exact heq ▸ isExtras_extrasOf _

theorem ofBlock_of_render_undef :
    ∃ block, undefInstruction.render {} plainCategory editedKept "Make a value." = .ok block ∧
      Kept.ofBlock block = .ok {
        opname := "OpUndef"
        categoryArgs := some ", Foo, "
        traits := some "Traits<[Pure]>"
        assembly := some assemblyTemplate
        arguments := some []
        results := some "\n    SPV_Type:$result\n  "
        extras := some "\n  let hasVerifier = 0;\n" } := by
  have hop : undefInstruction.opname = "Op" ++ "Undef" := by decide +kernel
  have hnone : undefInstruction.recordArguments editedKept = .ok [] := rfl
  have harguments (a : Text) (ha : undefInstruction.recordArguments editedKept = .ok a) : a = [] :=
    Except.ok.inj (ha.symm.trans hnone)
  have hrender : undefInstruction.render {} plainCategory editedKept "Make a value." =
      .ok (undefInstruction.record {} editedKept "Make a value." []).text := by
    rw [render_plainCategory, hnone]
    rfl
  obtain ⟨a, ha, hblock⟩ := ofBlock_of_render hop (by decide +kernel) (by decide +kernel)
    (by decide +kernel) writable_editedKept (fun a ha => by
      rw [harguments a ha]
      decide +kernel) hrender
  refine ⟨_, hrender, ?_⟩
  rw [hblock, harguments a ha]
  exact congrArg Except.ok (by decide +kernel)

def brokenInstruction : Instruction := ⟨"OpBroken", 1, none, [⟨"X);\n", .one, none⟩]⟩

theorem not_ofBlock_of_render_broken :
    IsWord "Broken" ∧ brokenInstruction.opname = "Op" ++ "Broken" ∧ Kept.Writable {} ∧
      ∃ block a, brokenInstruction.render {} plainCategory {} [] = .ok block ∧
        brokenInstruction.recordArguments {} = .ok a ∧
        (Kept.ofBlock block).toOption.map (·.arguments) ≠ some (some a) := by
  have hempty : Kept.Writable {} := by
    constructor <;> simp
  have hread : ((brokenInstruction.render {} plainCategory {} []).bind
      Kept.ofBlock).toOption.map (·.arguments) =
        some (some ("\n    SPV_X" : Text)) := by decide +kernel
  have harguments : (brokenInstruction.recordArguments {}).toOption =
      some ("\n    SPV_X);\nAttr:$x);\n\n  " : Text) := by decide +kernel
  refine ⟨by decide +kernel, by decide +kernel, hempty, ?_⟩
  cases h : brokenInstruction.render {} plainCategory {} [] with
  | error e =>
    rw [h] at hread
    cases hread
  | ok block =>
    cases ha : brokenInstruction.recordArguments {} with
    | error e =>
      rw [ha] at harguments
      cases harguments
    | ok a =>
      rw [h] at hread
      rw [ha] at harguments
      obtain rfl := Option.some.inj harguments
      refine ⟨block, _, rfl, rfl, ?_⟩
      rw [show (Except.ok block).bind Kept.ofBlock = Kept.ofBlock block from rfl] at hread
      rw [hread]
      decide +kernel

end Instruction

end SpirvTables
