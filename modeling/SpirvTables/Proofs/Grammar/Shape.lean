import Mathlib.Data.Option.Basic
import SpirvTables.Grammar.Reader
import SpirvTables.Proofs.Fault

namespace SpirvTables

variable {α : Type} {v : Json} {f : Option Json} {least most place : Nat} {name : Text}

namespace Json

def entry? (place : Nat) (name : Text) : Json → Option Json
  | object fields => latest? name fields
  | array items => items[place]?
  | _ => none

inductive IsRecord (least most : Nat) : Json → Prop
  | object (fields : List (Text × Json)) : IsRecord least most (.object fields)
  | array {items : List Json} : least ≤ items.length → items.length ≤ most →
      IsRecord least most (.array items)

inductive IsTextIfAny : Option Json → Option Text → Prop
  | missing : IsTextIfAny none none
  | null : IsTextIfAny (some .null) none
  | text (t : Text) : IsTextIfAny (some (.string t)) (some t)

inductive IsWordIfAny : Option Json → Option UInt32 → Prop
  | missing : IsWordIfAny none none
  | null : IsWordIfAny (some .null) none
  | word (w : UInt32) : IsWordIfAny (some (.integer w.toNat)) (some w)

inductive IsListIfAny (reads : Json → α → Prop) : Option Json → List α → Prop
  | missing : IsListIfAny reads none []
  | array {items : List Json} {as : List α} : List.Forall₂ reads items as →
      IsListIfAny reads (some (.array items)) as

inductive IsChoice : Json → Text → Prop
  | text (name : Text) : IsChoice (.string name) name
  | key (name : Text) : IsChoice (.object [(name, .null)]) name

theorem member?_array (place : Nat) (name : Text) (omissible : Bool) (items : List Json) :
    member? place name omissible (.array items) =
      if omissible = true ∨ place < items.length then some items[place]? else none := by
  unfold member?
  by_cases hplace : place < items.length
  · simp [hplace]
  · cases omissible <;> simp [hplace]

theorem IsRecord.member?_required (h : v.IsRecord least most) (hplace : place < least)
    (name : Text) : v.member? place name false = some (v.entry? place name) := by
  cases h with
  | object => rfl
  | array hleast =>
    rw [member?_array, if_pos (.inr (Nat.lt_of_lt_of_le hplace hleast))]
    rfl

theorem IsRecord.member?_omissible (h : v.IsRecord least most) (place : Nat) (name : Text) :
    v.member? place name true = some (v.entry? place name) := by
  cases h with
  | object => rfl
  | array =>
    rw [member?_array, if_pos (.inl rfl)]
    rfl

theorem isRecord_iff : v.isRecord most = true ↔ v.IsRecord 0 most := by
  constructor
  · intro h
    unfold isRecord at h
    split at h
    · exact .object _
    · exact .array (Nat.zero_le _) (of_decide_eq_true h)
    · cases h
  · rintro (_ | ⟨-, hmost⟩)
    · rfl
    · exact decide_eq_true hmost

theorem IsRecord.isRecord (h : v.IsRecord least most) : v.isRecord most = true := by
  cases h with
  | object => rfl
  | array _ hmost => exact decide_eq_true hmost

theorem IsRecord.of_member? (h : v.IsRecord 0 most) (hf : v.member? place name false = some f) :
    v.IsRecord (place + 1) most := by
  cases h with
  | object => exact .object _
  | @array items _ hmost =>
    refine .array ?_ hmost
    by_contra hplace
    have hnone : ¬ (false = true ∨ place < items.length) := by
      simpa using Nat.le_of_not_lt hplace
    rw [member?_array, if_neg hnone] at hf
    cases hf

theorem textIfAny?_eq_some_iff {t : Option Text} : textIfAny? f = some t ↔ IsTextIfAny f t := by
  constructor
  · intro h
    unfold textIfAny? at h
    split at h
    · exact Option.some.inj h ▸ .missing
    · exact Option.some.inj h ▸ .null
    · next v _ =>
      obtain ⟨t, ht, rfl⟩ := Option.map_eq_some_iff.1 h
      cases v <;> cases ht
      exact .text t
  · rintro (_ | _ | t) <;> rfl

theorem text?_eq_some_iff {t : Text} : v.text? = some t ↔ v = .string t := by
  cases v <;> simp [text?]

theorem word?_eq_some_iff {w : UInt32} : v.word? = some w ↔ v = .integer w.toNat := by
  unfold word?
  constructor
  · intro h
    obtain ⟨n, hn, rfl⟩ := Option.map_eq_some_iff.1 h
    unfold natBelow? at hn
    split at hn
    · split at hn
      · next hlt =>
        obtain rfl := Option.some.inj hn
        rw [UInt32.toNat_ofNat_of_lt' hlt]
        rfl
      · cases hn
    · cases hn
  · rintro rfl
    change Option.map UInt32.ofNat (if w.toNat < UInt32.size then some w.toNat else none) = some w
    rw [if_pos w.toNat_lt_size, Option.map_some, UInt32.ofNat_toNat]

theorem wordIfAny?_eq_some_iff {w : Option UInt32} : wordIfAny? f = some w ↔ IsWordIfAny f w := by
  constructor
  · intro h
    unfold wordIfAny? at h
    split at h
    · exact Option.some.inj h ▸ .missing
    · exact Option.some.inj h ▸ .null
    · obtain ⟨w, hw, rfl⟩ := Option.map_eq_some_iff.1 h
      exact word?_eq_some_iff.1 hw ▸ .word w
  · rintro (_ | _ | w)
    · rfl
    · rfl
    · exact congrArg (Option.map some) (word?_eq_some_iff.2 rfl)

theorem listIfAny?_eq_some_iff {item? : Json → Option α} {reads : Json → α → Prop}
    (h : ∀ v a, item? v = some a ↔ reads v a) {as : List α} :
    listIfAny? item? f = some as ↔ IsListIfAny reads f as := by
  have hitems {items : List Json} : items.mapM item? = some as ↔ List.Forall₂ reads items as := by
    simp only [mapM_eq_some_iff_forall₂, h]
  constructor
  · intro hread
    unfold listIfAny? at hread
    split at hread
    · exact Option.some.inj hread ▸ .missing
    · next v =>
      obtain ⟨items, hv, hread⟩ := Option.bind_eq_some_iff.1 hread
      cases v <;> cases hv
      exact .array (hitems.1 hread)
  · rintro (_ | hread)
    · rfl
    · exact hitems.2 hread

theorem choice?_eq_some_iff : v.choice? = some name ↔ IsChoice v name := by
  constructor
  · intro h
    unfold choice? at h
    split at h
    · exact Option.some.inj h ▸ .text _
    · exact Option.some.inj h ▸ .key _
    · cases h
  · rintro (_ | _) <;> rfl

end Json

namespace Category

inductive ReadFrom : Option Json → Category → Prop
  | missing : ReadFrom none .other
  | named {v : Json} {name : Text} : v.IsChoice name → ReadFrom (some v) (.ofName name)

theorem ofJson?_eq_some_iff {c : Category} : ofJson? f = some c ↔ ReadFrom f c := by
  constructor
  · intro h
    unfold ofJson? at h
    split at h
    · exact Option.some.inj h ▸ .missing
    · obtain ⟨name, hname, rfl⟩ := Option.map_eq_some_iff.1 h
      exact .named (Json.choice?_eq_some_iff.1 hname)
  · rintro (_ | hname)
    · rfl
    · exact congrArg (Option.map ofName) (Json.choice?_eq_some_iff.2 hname)

end Category

namespace Quantifier

inductive ReadFrom : Option Json → Quantifier → Prop
  | missing : ReadFrom none .one
  | marked {v : Json} {q : Quantifier} : v.IsChoice q.mark → ReadFrom (some v) q

theorem ofJson?_eq_some_iff {q : Quantifier} : ofJson? f = some q ↔ ReadFrom f q := by
  constructor
  · intro h
    unfold ofJson? at h
    split at h
    · exact Option.some.inj h ▸ .missing
    · obtain ⟨mark, hmark, h⟩ := Option.bind_eq_some_iff.1 h
      obtain rfl : q.mark = mark := by simpa using List.find?_some h
      exact .marked (Json.choice?_eq_some_iff.1 hmark)
  · rintro (_ | hmark)
    · rfl
    · exact Option.bind_eq_some_iff.2 ⟨_, Json.choice?_eq_some_iff.2 hmark, q.ofMark?_mark⟩

end Quantifier

structure Operand.ReadFrom (v : Json) (o : Operand) : Prop where
  record : v.IsRecord 1 3
  kind : v.entry? 0 "kind" = some (.string o.kind)
  quantifier : Quantifier.ReadFrom (v.entry? 1 "quantifier") o.quantifier
  name : Json.IsTextIfAny (v.entry? 2 "name") o.name

theorem Operand.ofJson?_eq_some_iff {o : Operand} : ofJson? v = some o ↔ ReadFrom v o := by
  simp only [ofJson?, bind, Option.bind_eq_some_iff, Option.guard_eq_some',
    Quantifier.ofJson?_eq_some_iff, Json.textIfAny?_eq_some_iff, Json.text?_eq_some_iff]
  constructor
  · rintro ⟨-, hrecord, kind?, hkind?, kind, ⟨w, hw, rfl⟩, quantifier?, hquantifier?, quantifier,
      hquantifier, name?, hname?, name, hname, h⟩
    obtain rfl := Option.some.inj h
    have hrecord := (Json.isRecord_iff.1 hrecord).of_member? hkind?
    rw [hrecord.member?_required Nat.zero_lt_one, Option.some_inj] at hkind?
    rw [hrecord.member?_omissible, Option.some_inj] at hquantifier? hname?
    subst hkind? hquantifier? hname?
    exact ⟨hrecord, hw, hquantifier, hname⟩
  · rintro ⟨hrecord, hkind, hquantifier, hname⟩
    exact ⟨(), hrecord.isRecord, _, hrecord.member?_required Nat.zero_lt_one _, _,
      ⟨_, hkind, rfl⟩, _, hrecord.member?_omissible _ _, _, hquantifier,
      _, hrecord.member?_omissible _ _, _, hname, rfl⟩

structure DraftEnumerant.ReadFrom (v : Json) (e : DraftEnumerant) : Prop where
  record : v.IsRecord 1 2
  symbol : Json.IsTextIfAny (v.entry? 0 "enumerant") e.symbol
  value : e.value = (v.entry? 1 "value").getD .null

theorem DraftEnumerant.ofJson?_eq_some_iff {e : DraftEnumerant} :
    ofJson? v = some e ↔ ReadFrom v e := by
  simp only [ofJson?, bind, Option.bind_eq_some_iff, Option.guard_eq_some',
    Json.textIfAny?_eq_some_iff]
  constructor
  · rintro ⟨-, hrecord, symbol?, hsymbol?, symbol, hsymbol, value?, hvalue?, h⟩
    obtain rfl := Option.some.inj h
    have hrecord := (Json.isRecord_iff.1 hrecord).of_member? hsymbol?
    rw [hrecord.member?_required Nat.zero_lt_one, Option.some_inj] at hsymbol?
    rw [hrecord.member?_omissible, Option.some_inj] at hvalue?
    subst hsymbol? hvalue?
    exact ⟨hrecord, hsymbol, rfl⟩
  · rintro ⟨hrecord, hsymbol, hvalue⟩
    exact ⟨(), hrecord.isRecord, _, hrecord.member?_required Nat.zero_lt_one _, _, hsymbol,
      _, hrecord.member?_omissible _ _, hvalue ▸ rfl⟩

structure DraftKind.ReadFrom (v : Json) (k : DraftKind) : Prop where
  record : v.IsRecord 1 3
  name : Json.IsTextIfAny (v.entry? 0 "kind") k.name
  category : Category.ReadFrom (v.entry? 1 "category") k.category
  enumerants : Json.IsListIfAny DraftEnumerant.ReadFrom (v.entry? 2 "enumerants") k.enumerants

theorem DraftKind.ofJson?_eq_some_iff {k : DraftKind} : ofJson? v = some k ↔ ReadFrom v k := by
  simp only [ofJson?, bind, Option.bind_eq_some_iff, Option.guard_eq_some',
    Json.textIfAny?_eq_some_iff, Category.ofJson?_eq_some_iff,
    Json.listIfAny?_eq_some_iff fun _ _ => DraftEnumerant.ofJson?_eq_some_iff]
  constructor
  · rintro ⟨-, hrecord, name?, hname?, name, hname, category?, hcategory?, category, hcategory,
      enumerants?, henumerants?, enumerants, henumerants, h⟩
    obtain rfl := Option.some.inj h
    have hrecord := (Json.isRecord_iff.1 hrecord).of_member? hname?
    rw [hrecord.member?_required Nat.zero_lt_one, Option.some_inj] at hname?
    rw [hrecord.member?_omissible, Option.some_inj] at hcategory? henumerants?
    subst hname? hcategory? henumerants?
    exact ⟨hrecord, hname, hcategory, henumerants⟩
  · rintro ⟨hrecord, hname, hcategory, henumerants⟩
    exact ⟨(), hrecord.isRecord, _, hrecord.member?_required Nat.zero_lt_one _, _, hname,
      _, hrecord.member?_omissible _ _, _, hcategory,
      _, hrecord.member?_omissible _ _, _, henumerants, rfl⟩

structure DraftInstruction.ReadFrom (v : Json) (i : DraftInstruction) : Prop where
  record : v.IsRecord 3 4
  opname : Json.IsTextIfAny (v.entry? 0 "opname") i.opname
  opcode : Json.IsWordIfAny (v.entry? 1 "opcode") i.opcode
  group : Json.IsTextIfAny (v.entry? 2 "class") i.group
  operands : Json.IsListIfAny Operand.ReadFrom (v.entry? 3 "operands") i.operands

theorem DraftInstruction.ofJson?_eq_some_iff {i : DraftInstruction} :
    ofJson? v = some i ↔ ReadFrom v i := by
  simp only [ofJson?, bind, Option.bind_eq_some_iff, Option.guard_eq_some',
    Json.textIfAny?_eq_some_iff, Json.wordIfAny?_eq_some_iff,
    Json.listIfAny?_eq_some_iff fun _ _ => Operand.ofJson?_eq_some_iff]
  constructor
  · rintro ⟨-, hrecord, opname?, hopname?, opname, hopname, opcode?, hopcode?, opcode, hopcode,
      group?, hgroup?, group, hgroup, operands?, hoperands?, operands, hoperands, h⟩
    obtain rfl := Option.some.inj h
    have hrecord := (Json.isRecord_iff.1 hrecord).of_member? hgroup?
    rw [hrecord.member?_required (by decide), Option.some_inj] at hopname? hopcode? hgroup?
    rw [hrecord.member?_omissible, Option.some_inj] at hoperands?
    subst hopname? hopcode? hgroup? hoperands?
    exact ⟨hrecord, hopname, hopcode, hgroup, hoperands⟩
  · rintro ⟨hrecord, hopname, hopcode, hgroup, hoperands⟩
    exact ⟨(), hrecord.isRecord, _, hrecord.member?_required (by decide) _, _, hopname,
      _, hrecord.member?_required (by decide) _, _, hopcode,
      _, hrecord.member?_required (by decide) _, _, hgroup,
      _, hrecord.member?_omissible _ _, _, hoperands, rfl⟩

structure Draft.ReadFrom (v : Json) (d : Draft) : Prop where
  record : v.IsRecord 0 2
  kinds : Json.IsListIfAny DraftKind.ReadFrom (v.entry? 0 "operand_kinds") d.kinds
  instructions :
    Json.IsListIfAny DraftInstruction.ReadFrom (v.entry? 1 "instructions") d.instructions

theorem Draft.ofJson?_eq_some_iff {d : Draft} : ofJson? v = some d ↔ ReadFrom v d := by
  simp only [ofJson?, bind, Option.bind_eq_some_iff, Option.guard_eq_some',
    Json.listIfAny?_eq_some_iff fun _ _ => DraftKind.ofJson?_eq_some_iff,
    Json.listIfAny?_eq_some_iff fun _ _ => DraftInstruction.ofJson?_eq_some_iff]
  constructor
  · rintro ⟨-, hrecord, kinds?, hkinds?, kinds, hkinds, instructions?, hinstructions?,
      instructions, hinstructions, h⟩
    obtain rfl := Option.some.inj h
    have hrecord := Json.isRecord_iff.1 hrecord
    rw [hrecord.member?_omissible, Option.some_inj] at hkinds? hinstructions?
    subst hkinds? hinstructions?
    exact ⟨hrecord, hkinds, hinstructions⟩
  · rintro ⟨hrecord, hkinds, hinstructions⟩
    exact ⟨(), hrecord.isRecord, _, hrecord.member?_omissible _ _, _, hkinds,
      _, hrecord.member?_omissible _ _, _, hinstructions, rfl⟩

end SpirvTables
