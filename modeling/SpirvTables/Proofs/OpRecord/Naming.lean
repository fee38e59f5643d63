import SpirvTables.Proofs.OpRecord.Operands
import SpirvTables.Proofs.Text.Identifier

namespace SpirvTables

variable {opname t type : Text} {o : Operand}

namespace Operand

/-- A name for the argument of an operand: a word, which is the kind of the operand in lower case
where the name of the operand, if it has one, makes no identifier. -/
structure Names (o : Operand) (name : Text) : Prop where
  isWord : Text.IsWord name
  fallback : Text.identifier (o.name.getD []) = [] → name = Text.lower o.kind

def WellNamed (o : Operand) : Prop :=
  o.name.getD [] = [] ∨
    (∃ c ∈ o.name.getD [], Character.isWord c) ∧ 'İ' ∉ o.name.getD []

theorem argumentName_eq (o : Operand) :
    o.argumentName =
      if o.name.getD [] = [] then Text.lower o.kind else Text.identifier (o.name.getD []) := by
  unfold argumentName
  rcases o.name with _ | _ | ⟨c, t⟩ <;> rfl

theorem IsType.dollar_notMem (h : IsType o.kind type) (hkind : '$' ∉ o.kind) : '$' ∉ type := by
  cases h with
  | listed ht =>
    have hlisted : ∀ t ∈ argumentTypes, '$' ∉ t := by decide +kernel
    exact hlisted type ht
  | one =>
    simp only [List.mem_append, not_or]
    exact ⟨⟨by decide +kernel, hkind⟩, by decide +kernel⟩
  | optional =>
    simp only [List.mem_append, not_or]
    exact ⟨⟨by decide +kernel, hkind⟩, by decide +kernel⟩

theorem exists_cut?_argument (hkind : '$' ∉ o.kind) (h : o.argument opname = .ok t) :
    ∃ type, Text.cut? ":$" t = some (type, o.argumentName) := by
  obtain ⟨type, htype, h⟩ := bind_eq_ok.1 h
  obtain rfl := Except.ok.inj h
  have hdollar := (isType_of_argumentType htype).dollar_notMem hkind
  refine ⟨type, ?_⟩
  rw [List.append_assoc]
  apply Text.cut?_append (by decide +kernel)
  apply Text.absent_of_notMem (c := '$') (by decide +kernel)
  rw [List.mem_append, not_or]
  exact ⟨hdollar, by decide +kernel⟩

theorem names_argumentName_iff (hne : o.kind ≠ []) (hkind : ∀ c ∈ o.kind, c.isAlphanum) :
    o.Names o.argumentName ↔ o.WellNamed := by
  unfold WellNamed
  rw [argumentName_eq]
  split
  · next hname =>
    have hword : ∀ c ∈ o.kind, Character.isWord c :=
      fun c hc => Character.isWord_of_isAlphanum (hkind c hc)
    have hdot : 'İ' ∉ o.kind := fun hmem => absurd (hkind 'İ' hmem) (by decide)
    exact iff_of_true
      ⟨⟨mt Text.lower_eq_nil_iff.1 hne, (Text.isWord_lower_iff hword).2 hdot⟩, fun _ => rfl⟩
      (.inl hname)
  · next hname =>
    rw [or_iff_right hname, ← Text.all_isWord_identifier_iff]
    have hnil : Text.identifier (o.name.getD []) ≠ [] ↔
        ∃ c ∈ o.name.getD [], Character.isWord c := by
      rw [ne_eq, Text.identifier_eq_nil_iff]
      simp
    rw [← hnil]
    exact ⟨fun h => ⟨h.isWord.ne_nil, h.isWord.isWord⟩, fun h => ⟨⟨h.1, h.2⟩, (absurd · h.1)⟩⟩

/-- Behind the mark of an argument stands a name for it if and only if the operand has a name that
one can be made of, or none. -/
theorem argument_names_iff (hne : o.kind ≠ []) (hkind : ∀ c ∈ o.kind, c.isAlphanum)
    (h : o.argument opname = .ok t) :
    (∃ type name, Text.cut? ":$" t = some (type, name) ∧ o.Names name) ↔ o.WellNamed := by
  have hdollar : '$' ∉ o.kind := fun hmem => absurd (hkind '$' hmem) (by decide)
  obtain ⟨type, hcut⟩ := exists_cut?_argument hdollar h
  rw [← names_argumentName_iff hne hkind, hcut]
  constructor
  · rintro ⟨_, name, heq, hnames⟩
    obtain ⟨-, rfl⟩ := Prod.mk.inj (Option.some.inj heq)
    exact hnames
  · exact fun hnames => ⟨type, _, rfl, hnames⟩

def pointerOperand : Operand where
  kind := "IdRef"
  name := some "'Pointer'"

theorem argument_names_pointer :
    pointerOperand.argument "OpLoad" = .ok "SPV_Type:$pointer" ∧
      ∃ type name, Text.cut? ":$" "SPV_Type:$pointer" = some (type, name) ∧
        pointerOperand.Names name := by
  have hargument : pointerOperand.argument "OpLoad" = .ok "SPV_Type:$pointer" :=
    toOption_eq_some_iff.1 (by decide +kernel)
  have hkind : ∀ c ∈ pointerOperand.kind, c.isAlphanum := List.all_eq_true.1 (by decide +kernel)
  refine ⟨hargument, (argument_names_iff (by decide +kernel) hkind hargument).2 (.inr ⟨?_, ?_⟩)⟩
  · exact ⟨'P', by decide +kernel⟩
  · decide +kernel

def dottedOperand : Operand where
  kind := "IdRef"
  name := some "..."

theorem not_argument_names_dots :
    dottedOperand.kind ≠ [] ∧ (∀ c ∈ dottedOperand.kind, c.isAlphanum) ∧
      dottedOperand.argument "OpPhi" = .ok "SPV_Type:$" ∧
      ¬ ∃ type name, Text.cut? ":$" "SPV_Type:$" = some (type, name) ∧
        dottedOperand.Names name := by
  refine ⟨by decide +kernel, List.all_eq_true.1 (by decide +kernel),
    toOption_eq_some_iff.1 (by decide +kernel), ?_⟩
  rintro ⟨type, name, hcut, hnames⟩
  have hend : Text.cut? ":$" "SPV_Type:$" = some (("SPV_Type" : Text), []) := by decide +kernel
  obtain ⟨-, rfl⟩ := Prod.mk.inj (Option.some.inj (hend.symm.trans hcut))
  exact hnames.isWord.ne_nil rfl

example : argumentName { kind := "IdRef", name := some "İ" } = ['i', '\u0307'] ∧
    Character.isWord '\u0307' = false := by decide +kernel

end Operand

end SpirvTables
