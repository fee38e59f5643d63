import SpirvTables.Proofs.Grammar.Shape

namespace SpirvTables

section Completion

variable {α β : Type} {f : Nat → α → Except Malformed β} {complete : α → Prop}
  {completes : α → β → Prop} {offends : Nat → α → Malformed → Prop}

structure IsCompletion (f : Nat → α → Except Malformed β) (complete : α → Prop)
    (completes : α → β → Prop) (offends : Nat → α → Malformed → Prop) : Prop where
  ok_iff (i : Nat) (a : α) (b : β) : f i a = .ok b ↔ completes a b
  error_iff (i : Nat) (a : α) (m : Malformed) : f i a = .error m ↔ offends i a m
  exists_completes_iff (a : α) : (∃ b, completes a b) ↔ complete a

theorem IsCompletion.exists_iff (h : IsCompletion f complete completes offends) (i : Nat) (a : α) :
    (∃ b, f i a = .ok b) ↔ complete a := by
  simp only [h.ok_iff, h.exists_completes_iff]

theorem exists_forall₂_iff (h : ∀ a, (∃ b, completes a b) ↔ complete a) (as : List α) :
    (∃ bs, List.Forall₂ completes as bs) ↔ ∀ a ∈ as, complete a := by
  induction as with
  | nil => simp
  | cons a as ih =>
    rw [List.forall_mem_cons, ← h, ← ih]
    constructor
    · rintro ⟨_, _ | ⟨hb, hbs⟩⟩
      exact ⟨⟨_, hb⟩, ⟨_, hbs⟩⟩
    · rintro ⟨⟨b, hb⟩, ⟨bs, hbs⟩⟩
      exact ⟨b :: bs, .cons hb hbs⟩

def OffendsFirst (complete : α → Prop) (offends : Nat → α → Malformed → Prop) (as : List α)
    (m : Malformed) : Prop :=
  ∃ before a after, as = before ++ a :: after ∧ (∀ b ∈ before, complete b) ∧
    offends before.length a m

theorem IsCompletion.mapM {f : α → Except Malformed β} {offends : α → Malformed → Prop}
    (h : IsCompletion (fun _ => f) complete completes fun _ => offends) :
    IsCompletion (fun _ as => as.mapM f) (fun as => ∀ a ∈ as, complete a)
      (List.Forall₂ completes) (fun _ => OffendsFirst complete fun _ => offends) where
  ok_iff i as bs := by simp only [mapM_eq_ok_iff_forall₂, h.ok_iff 0]
  error_iff i as m := by
    simp only [mapM_eq_error_iff, h.exists_iff 0, h.error_iff 0]
    rfl
  exists_completes_iff := exists_forall₂_iff h.exists_completes_iff

theorem IsCompletion.mapM_zipIdx (h : IsCompletion f complete completes offends) :
    IsCompletion (fun _ as => as.zipIdx.mapM fun (a, i) => f i a) (fun as => ∀ a ∈ as, complete a)
      (List.Forall₂ completes) (fun _ => OffendsFirst complete offends) where
  ok_iff i as bs := by
    simp only [mapM_eq_ok_iff_forall₂, h.ok_iff]
    conv_rhs => rw [← List.zipIdx_map_fst 0 as, List.forall₂_map_left_iff]
  error_iff i as m := by
    have hfst (before : List α) :
        (∀ b ∈ before.zipIdx, complete b.1) ↔ ∀ b ∈ before, complete b := by
      conv_rhs => rw [← List.zipIdx_map_fst 0 before, List.forall_mem_map]
    simp only [mapM_eq_error_iff, h.exists_iff, h.error_iff]
    constructor
    · rintro ⟨before, ⟨a, i⟩, after, has, hbefore, ha⟩
      obtain ⟨before, as', rfl, rfl, has'⟩ := List.zipIdx_eq_append_iff.1 has
      obtain ⟨a, after, rfl, heq, rfl⟩ := List.zipIdx_eq_cons_iff.1 has'.symm
      obtain ⟨rfl, rfl⟩ := Prod.mk.inj heq
      rw [Nat.zero_add] at ha
      exact ⟨before, _, after, rfl, (hfst before).1 hbefore, ha⟩
    · rintro ⟨before, a, after, rfl, hbefore, ha⟩
      refine ⟨before.zipIdx, (a, before.length), after.zipIdx (before.length + 1), ?_,
        (hfst before).2 hbefore, ha⟩
      rw [List.zipIdx_append, List.zipIdx_cons, Nat.zero_add]
  exists_completes_iff := exists_forall₂_iff h.exists_completes_iff

end Completion

namespace DraftEnumerant

structure IsComplete (e : DraftEnumerant) : Prop where
  named : e.symbol.isSome
  valued : (enumerantValue? e.value).isSome

structure Completes (e : DraftEnumerant) (e' : Enumerant) : Prop where
  symbol : e.symbol = some e'.symbol
  value : enumerantValue? e.value = some e'.value

inductive Offends (kind : Text) (e : DraftEnumerant) : Malformed → Prop
  | unnamed : e.symbol = none → Offends kind e (.unnamedEnumerant kind)
  | badValue {symbol : Text} : e.symbol = some symbol → enumerantValue? e.value = none →
      Offends kind e (.badValue kind symbol e.value)

theorem complete_eq (kind : Text) (e : DraftEnumerant) : e.complete kind =
    e.symbol.elim (.error (.unnamedEnumerant kind)) fun symbol =>
      (enumerantValue? e.value).elim (.error (.badValue kind symbol e.value)) fun value =>
        .ok { symbol, value } := by
  unfold complete
  cases e.symbol with
  | none => rfl
  | some => cases enumerantValue? e.value <;> rfl

theorem isCompletion (kind : Text) :
    IsCompletion (fun _ => complete kind) IsComplete Completes fun _ => Offends kind where
  ok_iff _ e e' := by
    simp only [complete_eq, elim_eq_ok_iff]
    constructor
    · rintro ⟨symbol, hsymbol, value, hvalue, h⟩
      obtain rfl := Except.ok.inj h
      exact ⟨hsymbol, hvalue⟩
    · rintro ⟨hsymbol, hvalue⟩
      exact ⟨_, hsymbol, _, hvalue, rfl⟩
  error_iff _ e m := by
    simp only [complete_eq, elim_eq_error_iff]
    constructor
    · rintro (⟨hsymbol, rfl⟩ | ⟨symbol, hsymbol, ⟨hvalue, rfl⟩ | ⟨_, -, h⟩⟩)
      · exact .unnamed hsymbol
      · exact .badValue hsymbol hvalue
      · cases h
    · rintro (hsymbol | ⟨hsymbol, hvalue⟩)
      · exact .inl ⟨hsymbol, rfl⟩
      · exact .inr ⟨_, hsymbol, .inl ⟨hvalue, rfl⟩⟩
  exists_completes_iff e := by
    constructor
    · rintro ⟨e', hsymbol, hvalue⟩
      exact ⟨Option.isSome_of_mem hsymbol, Option.isSome_of_mem hvalue⟩
    · rintro ⟨hsymbol, hvalue⟩
      obtain ⟨symbol, hsymbol⟩ := Option.isSome_iff_exists.1 hsymbol
      obtain ⟨value, hvalue⟩ := Option.isSome_iff_exists.1 hvalue
      exact ⟨⟨symbol, value⟩, hsymbol, hvalue⟩

end DraftEnumerant

namespace DraftKind

structure IsComplete (k : DraftKind) : Prop where
  named : k.name.isSome
  enumerants : ∀ e ∈ k.enumerants, e.IsComplete

structure Completes (k : DraftKind) (k' : OperandKind) : Prop where
  name : k.name = some k'.name
  category : k.category = k'.category
  enumerants : List.Forall₂ DraftEnumerant.Completes k.enumerants k'.enumerants

inductive Offends (position : Nat) (k : DraftKind) : Malformed → Prop
  | unnamed : k.name = none → Offends position k (.unnamedKind position)
  | enumerant {name : Text} {m : Malformed} : k.name = some name →
      OffendsFirst DraftEnumerant.IsComplete (fun _ => DraftEnumerant.Offends name)
        k.enumerants m →
      Offends position k m

theorem complete_eq (position : Nat) (k : DraftKind) : k.complete position =
    k.name.elim (.error (.unnamedKind position)) fun name =>
      k.enumerants.mapM (·.complete name) >>= fun enumerants =>
        .ok { name, category := k.category, enumerants } := by
  unfold complete
  cases k.name <;> rfl

theorem isCompletion : IsCompletion complete IsComplete Completes Offends where
  ok_iff position k k' := by
    have henumerants (name : Text) := (DraftEnumerant.isCompletion name).mapM.ok_iff 0 k.enumerants
    simp only [complete_eq, elim_eq_ok_iff, bind_eq_ok, henumerants]
    constructor
    · rintro ⟨name, hname, enumerants, hcompletes, h⟩
      obtain rfl := Except.ok.inj h
      exact ⟨hname, rfl, hcompletes⟩
    · rintro ⟨hname, hcategory, hcompletes⟩
      exact ⟨_, hname, _, hcompletes, hcategory ▸ rfl⟩
  error_iff position k m := by
    have henumerants (name : Text) :=
      (DraftEnumerant.isCompletion name).mapM.error_iff 0 k.enumerants m
    simp only [complete_eq, elim_eq_error_iff, bind_eq_error, henumerants]
    constructor
    · rintro (⟨hname, rfl⟩ | ⟨name, hname, hfirst | ⟨_, -, h⟩⟩)
      · exact .unnamed hname
      · exact .enumerant hname hfirst
      · cases h
    · rintro (hname | ⟨hname, hfirst⟩)
      · exact .inl ⟨hname, rfl⟩
      · exact .inr ⟨_, hname, .inl hfirst⟩
  exists_completes_iff k := by
    have henumerants :=
      exists_forall₂_iff (DraftEnumerant.isCompletion []).exists_completes_iff k.enumerants
    constructor
    · rintro ⟨k', hname, -, hcompletes⟩
      exact ⟨Option.isSome_of_mem hname, henumerants.1 ⟨_, hcompletes⟩⟩
    · rintro ⟨hname, hcomplete⟩
      obtain ⟨name, hname⟩ := Option.isSome_iff_exists.1 hname
      obtain ⟨enumerants, hcompletes⟩ := henumerants.2 hcomplete
      exact ⟨⟨name, k.category, enumerants⟩, hname, rfl, hcompletes⟩

end DraftKind

namespace DraftInstruction

structure IsComplete (i : DraftInstruction) : Prop where
  named : i.opname.isSome
  numbered : i.opcode.isSome

structure Completes (i : DraftInstruction) (i' : Instruction) : Prop where
  opname : i.opname = some i'.opname
  opcode : i.opcode = some i'.opcode
  group : i.group = i'.group
  operands : i.operands = i'.operands

inductive Offends (position : Nat) (i : DraftInstruction) : Malformed → Prop
  | unnamed : i.opname = none → Offends position i (.unnamedInstruction position)
  | missingOpcode {opname : Text} : i.opname = some opname → i.opcode = none →
      Offends position i (.missingOpcode opname)

theorem complete_eq (position : Nat) (i : DraftInstruction) : i.complete position =
    i.opname.elim (.error (.unnamedInstruction position)) fun opname =>
      i.opcode.elim (.error (.missingOpcode opname)) fun opcode =>
        .ok { opname, opcode, group := i.group, operands := i.operands } := by
  unfold complete
  cases i.opname with
  | none => rfl
  | some => cases i.opcode <;> rfl

theorem isCompletion : IsCompletion complete IsComplete Completes Offends where
  ok_iff position i i' := by
    simp only [complete_eq, elim_eq_ok_iff]
    constructor
    · rintro ⟨opname, hopname, opcode, hopcode, h⟩
      obtain rfl := Except.ok.inj h
      exact ⟨hopname, hopcode, rfl, rfl⟩
    · rintro ⟨hopname, hopcode, hgroup, hoperands⟩
      exact ⟨_, hopname, _, hopcode, by rw [hgroup, hoperands]⟩
  error_iff position i m := by
    simp only [complete_eq, elim_eq_error_iff]
    constructor
    · rintro (⟨hopname, rfl⟩ | ⟨opname, hopname, ⟨hopcode, rfl⟩ | ⟨_, -, h⟩⟩)
      · exact .unnamed hopname
      · exact .missingOpcode hopname hopcode
      · cases h
    · rintro (hopname | ⟨hopname, hopcode⟩)
      · exact .inl ⟨hopname, rfl⟩
      · exact .inr ⟨_, hopname, .inl ⟨hopcode, rfl⟩⟩
  exists_completes_iff i := by
    constructor
    · rintro ⟨i', hopname, hopcode, -, -⟩
      exact ⟨Option.isSome_of_mem hopname, Option.isSome_of_mem hopcode⟩
    · rintro ⟨hopname, hopcode⟩
      obtain ⟨opname, hopname⟩ := Option.isSome_iff_exists.1 hopname
      obtain ⟨opcode, hopcode⟩ := Option.isSome_iff_exists.1 hopcode
      exact ⟨⟨opname, opcode, i.group, i.operands⟩, hopname, hopcode, rfl, rfl⟩

end DraftInstruction

namespace Draft

structure IsComplete (d : Draft) : Prop where
  kinds : ∀ k ∈ d.kinds, k.IsComplete
  instructions : ∀ i ∈ d.instructions, i.IsComplete

structure Completes (d : Draft) (g : Grammar) : Prop where
  kinds : List.Forall₂ DraftKind.Completes d.kinds g.kinds
  instructions : List.Forall₂ DraftInstruction.Completes d.instructions g.instructions

/-- Instructions are looked at when all operand kinds are complete. -/
inductive Offends (d : Draft) : Malformed → Prop
  | kind {m : Malformed} : OffendsFirst DraftKind.IsComplete DraftKind.Offends d.kinds m →
      Offends d m
  | instruction {m : Malformed} : (∀ k ∈ d.kinds, k.IsComplete) →
      OffendsFirst DraftInstruction.IsComplete DraftInstruction.Offends d.instructions m →
      Offends d m

theorem isCompletion :
    IsCompletion (fun _ => complete) IsComplete Completes fun _ => Offends where
  ok_iff _ d g := by
    have hkinds := DraftKind.isCompletion.mapM_zipIdx.ok_iff 0 d.kinds
    have hinstructions := DraftInstruction.isCompletion.mapM_zipIdx.ok_iff 0 d.instructions
    simp only [complete, bind_eq_ok, hkinds, hinstructions]
    constructor
    · rintro ⟨kinds, hkinds, instructions, hinstructions, h⟩
      obtain rfl := Except.ok.inj h
      exact ⟨hkinds, hinstructions⟩
    · rintro ⟨hkinds, hinstructions⟩
      exact ⟨_, hkinds, _, hinstructions, rfl⟩
  error_iff _ d m := by
    have hkinds := DraftKind.isCompletion.mapM_zipIdx.error_iff 0 d.kinds m
    have hcomplete := DraftKind.isCompletion.mapM_zipIdx.exists_iff 0 d.kinds
    have hinstructions := DraftInstruction.isCompletion.mapM_zipIdx.error_iff 0 d.instructions m
    simp only [complete, bind_eq_error, hkinds, hinstructions]
    constructor
    · rintro (hfirst | ⟨kinds, hok, hfirst | ⟨_, -, h⟩⟩)
      · exact .kind hfirst
      · exact .instruction (hcomplete.1 ⟨kinds, hok⟩) hfirst
      · cases h
    · rintro (hfirst | ⟨hall, hfirst⟩)
      · exact .inl hfirst
      · obtain ⟨kinds, hok⟩ := hcomplete.2 hall
        exact .inr ⟨kinds, hok, .inl hfirst⟩
  exists_completes_iff d := by
    have hkinds := exists_forall₂_iff DraftKind.isCompletion.exists_completes_iff d.kinds
    have hinstructions :=
      exists_forall₂_iff DraftInstruction.isCompletion.exists_completes_iff d.instructions
    constructor
    · rintro ⟨g, hks, his⟩
      exact ⟨hkinds.1 ⟨_, hks⟩, hinstructions.1 ⟨_, his⟩⟩
    · rintro ⟨hks, his⟩
      obtain ⟨kinds, hks⟩ := hkinds.2 hks
      obtain ⟨instructions, his⟩ := hinstructions.2 his
      exact ⟨⟨kinds, instructions⟩, hks, his⟩

end Draft

def Malformed.entry? : Malformed → Option Text
  | unnamedKind i => some ("#" ++ Text.decimal i)
  | unnamedEnumerant kind => some kind
  | badValue kind symbol _ => some (kind ++ "." ++ symbol)
  | unnamedInstruction i => some ("#" ++ Text.decimal i)
  | missingOpcode opname => some opname
  | _ => none

theorem Malformed.infix_message {m : Malformed} {entry : Text} (h : m.entry? = some entry) :
    entry <:+: m.message := by
  cases m with
  | notJson | shape | documentation => cases h
  | unnamedKind i =>
    obtain rfl := Option.some.inj h
    exact ⟨"operand kind ", " has no `kind`", rfl⟩
  | unnamedEnumerant kind =>
    obtain rfl := Option.some.inj h
    exact ⟨[], ": enumerant without a name", rfl⟩
  | badValue kind symbol v =>
    obtain rfl := Option.some.inj h
    exact ⟨[], ": bad value " ++ v.compact, (List.append_assoc _ _ _).symm⟩
  | unnamedInstruction i =>
    obtain rfl := Option.some.inj h
    exact ⟨"instruction ", " has no `opname`", rfl⟩
  | missingOpcode opname =>
    obtain rfl := Option.some.inj h
    exact ⟨[], " has no `opcode`", rfl⟩

theorem Draft.Offends.exists_entry {d : Draft} {m : Malformed} (h : d.Offends m) :
    ∃ entry, m.entry? = some entry := by
  obtain ⟨_, _, _, -, -, hkind⟩ | ⟨-, _, _, _, -, -, hinstruction⟩ := h
  · obtain _ | ⟨-, _, _, _, -, -, henumerant⟩ := hkind
    · exact ⟨_, rfl⟩
    · cases henumerant <;> exact ⟨_, rfl⟩
  · cases hinstruction <;> exact ⟨_, rfl⟩

namespace Grammar

variable {v : Json} {d : Draft}

theorem ofJson_eq_complete (h : d.ReadFrom v) : ofJson v = d.complete := by
  unfold ofJson
  rw [Draft.ofJson?_eq_some_iff.2 h]

theorem ofJson_eq_shape_iff : ofJson v = .error .shape ↔ ∀ d, ¬ Draft.ReadFrom v d := by
  constructor
  · intro h d hread
    rw [ofJson_eq_complete hread, Draft.isCompletion.error_iff 0] at h
    obtain ⟨entry, hentry⟩ := h.exists_entry
    cases hentry
  · intro h
    have hnone : Draft.ofJson? v = none :=
      Option.eq_none_iff_forall_ne_some.2 fun d hread => h d (Draft.ofJson?_eq_some_iff.1 hread)
    unfold ofJson
    rw [hnone]
    rfl

/-- A document that states a draft gives the grammar with the same entries in the same order if
nothing is missing, and is else refused for the first entry that lacks something. -/
theorem ofJson_completes_or_blames_first (h : d.ReadFrom v) :
    ((∃ g, ofJson v = .ok g) ↔ d.IsComplete) ∧
      (∀ g, ofJson v = .ok g ↔ d.Completes g) ∧
      (∀ m, ofJson v = .error m ↔ d.Offends m) ∧
      ∀ m, ofJson v = .error m → ∃ entry, m.entry? = some entry ∧ entry <:+: m.message := by
  rw [ofJson_eq_complete h]
  have hcompletion := Draft.isCompletion
  refine ⟨hcompletion.exists_iff 0 d, hcompletion.ok_iff 0 d, hcompletion.error_iff 0 d, ?_⟩
  intro m hm
  obtain ⟨entry, hentry⟩ := ((hcompletion.error_iff 0 d m).1 hm).exists_entry
  exact ⟨entry, hentry, Malformed.infix_message hentry⟩

def dimOne : DraftEnumerant where
  symbol := some "1D"
  value := .string "0x0000"

def dimTwo : DraftEnumerant where
  symbol := some "2D"
  value := .string "two"

def dimDraft : Draft where
  kinds := [
    { name := some "Dim", category := .valueEnum, enumerants := [dimOne] },
    { name := some "Dim", category := .other,
      enumerants := [dimOne, dimTwo, { symbol := none, value := .null }] },
    { name := none, category := .id, enumerants := [] }]
  instructions := [{ opname := none, opcode := some 0, group := none, operands := [] }]

def dimDocument : Json := .object [
  ("operand_kinds", .array [
    .object [("category", .string "ValueEnum"), ("kind", .string "Dim"), ("enumerants", .array [
      .object [("enumerant", .string "1D"), ("value", .string "0x0000")]])],
    .object [("kind", .string "Dim"), ("enumerants", .array [
      .object [("enumerant", .string "1D"), ("value", .string "0x0000")],
      .object [("enumerant", .string "2D"), ("value", .string "two")],
      .object []])],
    .object [("category", .string "Id")]]),
  ("instructions", .array [.object [("opcode", .integer 0)]])]

theorem ofJson_blames_first_dim :
    dimDraft.ReadFrom dimDocument ∧
      ofJson dimDocument = .error (.badValue "Dim" "2D" (.string "two")) := by
  have hread : dimDraft.ReadFrom dimDocument := Draft.ofJson?_eq_some_iff.1 rfl
  obtain ⟨-, -, hblames, -⟩ := ofJson_completes_or_blames_first hread
  have hone : dimOne.IsComplete := ⟨rfl, by decide +kernel⟩
  refine ⟨hread, (hblames _).2 (.kind ⟨[_], _, [_], rfl, ?_, .enumerant rfl ?_⟩)⟩
  · exact List.forall_mem_singleton.2 ⟨rfl, List.forall_mem_singleton.2 hone⟩
  · exact ⟨[dimOne], dimTwo, [_], rfl, List.forall_mem_singleton.2 hone,
      .badValue rfl (by decide +kernel)⟩

end Grammar

end SpirvTables
