import SpirvTables.Proofs.Fault
import SpirvTables.Proofs.OpRecord.Record
import SpirvTables.Proofs.Text.Lower

namespace SpirvTables

variable {opname t : Text} {o : Operand} {layout : Layout} {category : Text} {kept : Kept}
  {doc : Text} {i : Instruction}

namespace Operand

/-- An operand that an argument stands for: any but results, kinds that have no type, scalars that
are not exactly one, and enums in any number. -/
structure IsArgument (o : Operand) : Prop where
  notResult : o.kind ∉ resultKinds
  supported : o.kind ∉ unsupportedKinds
  scalar : o.kind ∈ scalarKinds → o.quantifier = .one
  variadic : o.quantifier = .variadic →
    o.kind = ("IdRef" : Text) ∨ o.kind = ("LiteralInteger" : Text)

theorem isArgument_of_kind (h : o.kind = ("IdRef" : Text) ∨ o.kind = ("LiteralInteger" : Text)) :
    o.IsArgument := by
  have hother : ∀ kind ∈ [("IdRef" : Text), "LiteralInteger"],
      kind ∉ resultKinds ∧ kind ∉ unsupportedKinds ∧ kind ∉ scalarKinds := by decide +kernel
  obtain ⟨hresult, hkind, hscalar⟩ :=
    hother o.kind (List.mem_cons.2 (h.imp_right List.mem_singleton.2))
  exact ⟨hresult, hkind, fun hs => absurd hs hscalar, fun _ => h⟩

theorem isArgument_scalar_iff (h : o.kind ∈ scalarKinds) :
    o.IsArgument ↔ o.quantifier = .one := by
  have hother : ∀ kind ∈ scalarKinds, kind ∉ resultKinds ∧ kind ∉ unsupportedKinds := by
    decide +kernel
  refine ⟨fun ho => ho.scalar h, fun hq => ⟨(hother _ h).1, (hother _ h).2, fun _ => hq, ?_⟩⟩
  rw [hq]
  exact nofun

def argumentTypes : List Text :=
  ["SPV_Type", "SPV_Optional<SPV_Type>", "Variadic<SPV_Type>", "I32", "I32Attr",
    "OptionalAttr<I32Attr>", "OptionalAttr<I32ArrayAttr>"]

inductive IsType (kind : Text) : Text → Prop
  | listed {t : Text} : t ∈ argumentTypes → IsType kind t
  | one : IsType kind ("SPV_" ++ kind ++ "Attr")
  | optional : IsType kind ("OptionalAttr<SPV_" ++ kind ++ "Attr>")

theorem argumentType_cases (opname : Text) (o : Operand) :
    (o.IsArgument ∧ ∃ t, o.argumentType opname = .ok t ∧ IsType o.kind t) ∨
      (¬ o.IsArgument ∧ ∃ fault, o.argumentType opname = .error fault) := by
  unfold argumentType
  simp only [List.contains_iff_mem]
  split
  · next hresult => exact .inr ⟨fun h => h.notResult hresult, _, rfl⟩
  · next hresult =>
    split
    · next href =>
      split <;> exact .inl ⟨isArgument_of_kind (.inl href), _, rfl, .listed (by decide +kernel)⟩
    · next href =>
      split
      · next hscalar =>
        rw [isArgument_scalar_iff hscalar]
        split
        · next hq => exact .inl ⟨hq, _, rfl, .listed (by decide +kernel)⟩
        · next hq => exact .inr ⟨hq, _, rfl⟩
      · next hscalar =>
        split
        · next hint =>
          split <;> exact .inl ⟨isArgument_of_kind (.inr hint), _, rfl, .listed (by decide +kernel)⟩
        · next hint =>
          split
          · next hkind => exact .inr ⟨fun h => h.supported hkind, _, rfl⟩
          · next hkind =>
            have henum (hq : o.quantifier ≠ .variadic) : o.IsArgument :=
              ⟨hresult, hkind, fun hs => absurd hs hscalar, fun h => absurd h hq⟩
            split
            · next hq => exact .inl ⟨henum (by rw [hq]; exact nofun), _, rfl, .one⟩
            · next hq => exact .inl ⟨henum (by rw [hq]; exact nofun), _, rfl, .optional⟩
            · next hq => exact .inr ⟨fun h => (h.variadic hq).elim href hint, _, rfl⟩

theorem isType_of_argumentType (h : o.argumentType opname = .ok t) : IsType o.kind t := by
  rcases o.argumentType_cases opname with ⟨-, t', ht', htype⟩ | ⟨-, fault, hfault⟩
  · obtain rfl := Except.ok.inj (ht'.symm.trans h)
    exact htype
  · cases hfault.symm.trans h

theorem exists_argument_iff (opname : Text) (o : Operand) :
    (∃ a, o.argument opname = .ok a) ↔ o.IsArgument := by
  rcases o.argumentType_cases opname with ⟨ho, t, ht, -⟩ | ⟨ho, fault, hfault⟩
  · exact iff_of_true ⟨_, bind_eq_ok.2 ⟨t, ht, rfl⟩⟩ ho
  · refine iff_of_false ?_ ho
    rintro ⟨a, ha⟩
    obtain ⟨t, ht, -⟩ := bind_eq_ok.1 ha
    cases hfault.symm.trans ht

end Operand

/-- Operands that start with the type of the result and then the result, each if it is there. -/
structure Leading (os : List Operand) (type result : Option Operand) (rest : List Operand) :
    Prop where
  operands : os = type.toList ++ (result.toList ++ rest)
  isType : ∀ o ∈ type, o.kind = ("IdResultType" : Text)
  noType : type = none → ∀ o ∈ os.head?, o.kind ≠ ("IdResultType" : Text)
  isResult : ∀ o ∈ result, o.kind = ("IdResult" : Text)
  noResult : result = none → ∀ o ∈ rest.head?, o.kind ≠ ("IdResult" : Text)

theorem exists_resultType (os : List Operand) :
    ∃ type : Option Operand, os = type.toList ++ (splitResultType os).2 ∧
      type.isSome = (splitResultType os).1 ∧ (∀ o ∈ type, o.kind = ("IdResultType" : Text)) ∧
        (type = none → ∀ o ∈ os.head?, o.kind ≠ ("IdResultType" : Text)) := by
  cases os with
  | nil => exact ⟨none, rfl, rfl, nofun, nofun⟩
  | cons o os =>
    rw [splitResultType]
    split
    · next ho => exact ⟨some o, rfl, rfl, fun _ h => Option.some.inj h ▸ ho, nofun⟩
    · next ho => exact ⟨none, rfl, rfl, nofun, fun _ _ h => Option.some.inj h ▸ ho⟩

theorem exists_result (os : List Operand) :
    ∃ result : Option Operand, os = result.toList ++ dropResult os ∧
      (∀ o ∈ result, o.kind = ("IdResult" : Text)) ∧
        (result = none → ∀ o ∈ (dropResult os).head?, o.kind ≠ ("IdResult" : Text)) := by
  cases os with
  | nil => exact ⟨none, rfl, nofun, nofun⟩
  | cons o os =>
    rw [dropResult]
    split
    · next ho => exact ⟨some o, rfl, fun _ h => Option.some.inj h ▸ ho, nofun⟩
    · next ho => exact ⟨none, rfl, nofun, fun _ _ h => Option.some.inj h ▸ ho⟩

def argumentList : List Text → Text
  | [] => []
  | args => "\n    " ++ Text.join ",\n    " args ++ "\n  "

def resultList (type : Option Operand) : Text :=
  if type.isSome then "\n    SPV_Type:$result\n  " else []

namespace Instruction

theorem exists_leading (i : Instruction) :
    ∃ type result, Leading i.operands type result i.argumentOperands ∧
      i.derivedResults = resultList type := by
  obtain ⟨type, hos, hsome, htype, hnoType⟩ := exists_resultType i.operands
  obtain ⟨result, hrest, hresult, hnoResult⟩ := exists_result (splitResultType i.operands).2
  refine ⟨type, result, ⟨?_, htype, hnoType, hresult, hnoResult⟩, ?_⟩
  · unfold argumentOperands
    rw [← hrest, ← hos]
  · unfold derivedResults resultList
    rw [hsome]

theorem derivedArguments_eq (i : Instruction) :
    i.derivedArguments =
      (i.argumentOperands.mapM (Operand.argument i.opname)).map argumentList := by
  unfold derivedArguments
  cases i.argumentOperands.mapM (Operand.argument i.opname) with
  | error e => rfl
  | ok args => cases args <;> rfl

def DerivesArguments (category : Text) (kept : Kept) : Prop :=
  category = plainCategory ∧ kept.arguments = none

theorem render_eq_map (h : DerivesArguments category kept) :
    i.render layout category kept doc =
      (i.argumentOperands.mapM (Operand.argument i.opname)).map fun args =>
        (i.record layout kept doc (argumentList args)).text := by
  obtain ⟨rfl, hk⟩ := h
  rw [render_plainCategory, recordArguments, hk]
  change i.derivedArguments.map _ = _
  rw [derivedArguments_eq]
  cases i.argumentOperands.mapM (Operand.argument i.opname) <;> rfl

theorem exists_render (layout : Layout) (doc : Text) (i : Instruction)
    (h : ¬ DerivesArguments category kept) :
    ∃ record, i.render layout category kept doc = .ok record := by
  by_cases hc : category = plainCategory
  · obtain ⟨a, ha⟩ := Option.ne_none_iff_exists'.1 fun hk => h ⟨hc, hk⟩
    subst hc
    rw [render_plainCategory, recordArguments, ha]
    exact ⟨_, rfl⟩
  · unfold render renderInterface
    rw [if_neg hc]
    exact ⟨_, rfl⟩

end Instruction

open Instruction

/-- Each operand of an op is the type of its result, its result or one of the rest, which become the
arguments of its record one by one. A record fails only if it derives them and one of the rest is no
argument, for the first that is none. -/
theorem render_places_operands (i : Instruction) :
    ∃ type result rest, Leading i.operands type result rest ∧
      (∀ o ∈ rest, (∃ a, o.argument i.opname = .ok a) ↔ o.IsArgument) ∧
      ∀ (layout : Layout) (category : Text) (kept : Kept) (doc : Text),
        ((∃ record, i.render layout category kept doc = .ok record) ↔
          (DerivesArguments category kept → ∀ o ∈ rest, o.IsArgument)) ∧
        (∀ fault, i.render layout category kept doc = .error fault ↔
          DerivesArguments category kept ∧ ∃ before o after, rest = before ++ o :: after ∧
            (∀ b ∈ before, b.IsArgument) ∧ o.argument i.opname = .error fault) ∧
        (∀ record, DerivesArguments category kept → i.render layout category kept doc = .ok record →
          ∃ args, List.Forall₂ (fun o a => o.argument i.opname = .ok a) rest args ∧
            record = { i.record layout kept doc (argumentList args) with
              results := kept.results.getD (resultList type) }.text) := by
  obtain ⟨type, result, hleading, hresults⟩ := i.exists_leading
  have hargument := Operand.exists_argument_iff i.opname
  refine ⟨type, result, i.argumentOperands, hleading, fun o _ => hargument o, ?_⟩
  intro layout category kept doc
  by_cases h : DerivesArguments category kept
  · rw [render_eq_map h]
    refine ⟨?_, fun fault => ?_, fun record _ hrecord => ?_⟩
    · have hmap : (∃ args, i.argumentOperands.mapM (Operand.argument i.opname) = .ok args) ↔
          ∀ o ∈ i.argumentOperands, o.IsArgument := by
        simp only [exists_mapM_iff, hargument]
      rw [forall_prop_of_true h, ← hmap]
      simp [map_eq_ok]
    · rw [map_eq_error, mapM_eq_error_iff, and_iff_right h]
      simp only [hargument]
    · obtain ⟨args, hargs, rfl⟩ := map_eq_ok.1 hrecord
      refine ⟨args, mapM_eq_ok_iff_forall₂.1 hargs, ?_⟩
      rw [← hresults]
      rfl
  · obtain ⟨record, hrecord⟩ := exists_render layout doc i h
    refine ⟨iff_of_true ⟨record, hrecord⟩ fun h' => absurd h' h, fun fault => ?_,
      fun _ h' => absurd h' h⟩
    exact iff_of_false (by rw [hrecord]; exact nofun) fun h' => h h'.1

def phiInstruction : Instruction where
  opname := "OpPhi"
  opcode := 245
  group := none
  operands := [⟨"IdResultType", .one, none⟩, ⟨"IdResult", .one, none⟩,
    ⟨"PairIdRefIdRef", .variadic, none⟩, ⟨"IdResult", .one, none⟩]

example : phiInstruction.render {} plainCategory {} [] =
      .error (.unsupportedKind "OpPhi" "PairIdRefIdRef") ∧
    (phiInstruction.render {} plainCategory { arguments := some [] } []).isOk := by
  exact ⟨rfl, by decide +kernel⟩

open Text

def argumentLits : List Text :=
  ["SPV_Type", "SPV_Optional<SPV_Type>", "Variadic<SPV_Type>", "I32", "I32Attr",
    "OptionalAttr<I32Attr>", "OptionalAttr<I32ArrayAttr>", "SPV_", "Attr", "OptionalAttr<SPV_",
    "Attr>", ":$"]

def argumentListLits : List Text := ["\n    ", ",\n    ", "\n  "]

structure IsFence (c : Char) : Prop where
  fence : Character.isFence c
  notWord : Character.isWord c = false
  lits : ∀ lit ∈ argumentLits, c ∉ lit

theorem isFence_of_mem {c : Char} (hc : c ∈ [' ', ')', '/']) : IsFence c := by
  simp only [List.mem_cons, List.not_mem_nil, or_false] at hc
  rcases hc with rfl | rfl | rfl <;>
  · refine ⟨by decide, by decide, ?_⟩
    unfold argumentLits
    repeat rw [String.toList_ofList]
    decide +kernel

variable {c : Char} {p : Text} {i : Instruction}

theorem IsFence.notMem_argumentType (hc : IsFence c) (hk : c ∉ o.kind)
    (h : o.argumentType opname = .ok t) : c ∉ t := by
  have hlits := hc.lits
  simp only [argumentLits, List.forall_mem_cons] at hlits
  obtain ⟨htype, hoptional, hvariadic, hscalar, hliteral, hliteral', hliterals, hspv, hattr,
    hspv', hattr', -⟩ := hlits
  cases Operand.isType_of_argumentType h with
  | listed ht =>
    have hlisted : ∀ t ∈ Operand.argumentTypes, c ∉ t := by
      simp only [Operand.argumentTypes, List.forall_mem_cons]
      exact ⟨htype, hoptional, hvariadic, hscalar, hliteral, hliteral', hliterals, nofun⟩
    exact hlisted t ht
  | one =>
    simp only [List.mem_append, not_or]
    exact ⟨⟨hspv, hk⟩, hattr⟩
  | optional =>
    simp only [List.mem_append, not_or]
    exact ⟨⟨hspv', hk⟩, hattr'⟩

theorem IsFence.notMem_argument (hc : IsFence c) (hk : c ∉ o.kind)
    (h : o.argument opname = .ok t) : c ∉ t := by
  obtain ⟨type, ht, h⟩ := bind_eq_ok.1 h
  obtain rfl := Except.ok.inj h
  have hcolon : c ∉ (":$" : Text) := hc.lits _ (by simp only [argumentLits, List.mem_cons, true_or,
    or_true])
  simp only [List.mem_append, not_or]
  refine ⟨⟨hc.notMem_argumentType hk ht, hcolon⟩, ?_⟩
  unfold Operand.argumentName
  split
  · exact notMem_identifier hc.fence hc.notWord
  · exact notMem_lower hc.fence hk

theorem argumentOperands_subset (i : Instruction) : i.argumentOperands ⊆ i.operands := by
  obtain ⟨type, result, hleading, -⟩ := i.exists_leading
  rw [hleading.operands]
  exact List.Subset.trans (List.subset_append_right _ _) (List.subset_append_right _ _)

theorem IsFence.absent_derivedArguments (hc : IsFence c) (hp : c ∈ p)
    (hl : ∀ lit ∈ argumentListLits, Parts p lit) (hk : ∀ o ∈ i.operands, c ∉ o.kind)
    (h : i.derivedArguments = .ok t) : ¬ p <:+: t := by
  obtain ⟨args, hm, h⟩ := bind_eq_ok.1 h
  have hargs : ∀ a ∈ args, ¬ p <:+: a := by
    intro a ha
    obtain ⟨o, ho, hoa⟩ := exists_of_mem_mapM hm ha
    exact absent_of_notMem hp (hc.notMem_argument (hk o (argumentOperands_subset i ho)) hoa)
  split at h
  · obtain rfl := Except.ok.inj h
    exact absent_of_notMem hp List.not_mem_nil
  · obtain rfl := Except.ok.inj h
    simp only [argumentListLits, List.forall_mem_cons] at hl
    obtain ⟨hopen, hcomma, hclose, -⟩ := hl
    exact hclose.absent_right (hopen.absent_left (absent_join hcomma hargs))

end SpirvTables
