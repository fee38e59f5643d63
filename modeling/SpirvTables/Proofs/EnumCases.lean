import SpirvTables.Proofs.EnumTable
import SpirvTables.Proofs.Text.Columns

namespace SpirvTables

open Text

structure Firsts (es firsts : List Enumerant) : Prop where
  values : firsts.map (·.value) = (es.map (·.value)).eraseDups
  first : ∀ e ∈ firsts, es.find? (·.value = e.value) = some e

theorem map_value_distinctValues (seen : List UInt32) (es : List Enumerant) :
    (distinctValues seen es).map (·.value) =
      ((es.map (·.value)).filter (· ∉ seen)).eraseDups := by
  induction es generalizing seen with
  | nil => rfl
  | cons e es ih =>
    rw [distinctValues, List.map_cons, List.filter_cons]
    split
    · next hseen => rw [ih, if_neg (by simpa using hseen)]
    · next hseen =>
      have hfilter : (es.map (·.value)).filter (· ∉ e.value :: seen) =
          ((es.map (·.value)).filter (· ∉ seen)).filter (!· == e.value) := by
        rw [List.filter_filter]
        apply List.filter_congr
        intro v _
        simp [not_or, beq_eq_decide]
      rw [if_pos (by simpa using hseen), List.eraseDups_cons, List.map_cons, ih, hfilter]

theorem find?_of_mem_distinctValues {seen : List UInt32} {es : List Enumerant} {e : Enumerant}
    (h : e ∈ distinctValues seen es) :
    e.value ∉ seen ∧ es.find? (·.value = e.value) = some e := by
  induction es generalizing seen with
  | nil => simp [distinctValues] at h
  | cons d es ih =>
    rw [distinctValues] at h
    split at h
    · next hseen =>
      obtain ⟨hnew, hfind⟩ := ih h
      have hne : d.value ≠ e.value := fun heq => hnew (heq ▸ hseen)
      exact ⟨hnew, by rwa [List.find?_cons_of_neg (by simpa using hne)]⟩
    · next hseen =>
      rcases List.mem_cons.1 h with rfl | h
      · exact ⟨hseen, List.find?_cons_of_pos (by simp)⟩
      · obtain ⟨hnew, hfind⟩ := ih h
        obtain ⟨hne, hnew⟩ := not_or.1 (mt List.mem_cons.2 hnew)
        exact ⟨hnew, by rwa [List.find?_cons_of_neg (by simpa using Ne.symm hne)]⟩

namespace OperandKind

variable {k k' : OperandKind} {e e' : Enumerant} {layout : Layout}

theorem firsts_cases (k : OperandKind) : Firsts k.enumerants k.cases where
  values := by simpa [cases] using map_value_distinctValues [] k.enumerants
  first _ he := (find?_of_mem_distinctValues he).2

theorem Worded.all_isWord_caseOf_name (hk : k.Worded) (he : e ∈ k.cases) :
    (k.caseOf e).name.all Character.isWord := by
  have hstem : ("SPV_" : Text).all Character.isWord := all_isWord_ofList (by decide)
  rw [caseOf_name, List.all_append, hstem, (hk.isWord_caseIdent he).all]
  rfl

theorem base_cases (k : OperandKind) : k.base = "Bit" ∨ k.base = "I32" := by
  rw [base]
  split
  · exact .inl rfl
  · exact .inr rfl

theorem notMem_base {c : Char} (hbit : c ∉ ("Bit" : Text)) (hint : c ∉ ("I32" : Text))
    (k : OperandKind) : c ∉ k.base := by
  rcases k.base_cases with h | h
  · rwa [h]
  · rwa [h]

theorem Worded.legible_caseOf (hk : k.Worded) (he : e ∈ k.cases) : (k.caseOf e).Legible where
  noSpace := notMem_of_all_isWord (hk.all_isWord_caseOf_name he) (by decide)
  name_oneLine := notMem_of_all_isWord (hk.all_isWord_caseOf_name he) (by decide)
  body_oneLine := by
    unfold caseOf
    simp only [List.mem_append, not_or]
    exact ⟨⟨⟨⟨⟨notMem_base (notMem_ofList (by decide)) (notMem_ofList (by decide)) k,
      notMem_ofList (by decide)⟩,
      notMem_of_all_isWord (hk.symbol e (mem_enumerants_of_mem_cases he)) (by decide)⟩,
      notMem_ofList (by decide)⟩, notMem_decimal (by decide) _⟩, notMem_ofList (by decide)⟩

theorem decimal_inj {m n : Nat} (h : decimal m = decimal n) : m = n := by
  have hread := congrArg (Nat.ofDigitChars 10 · 0) h
  simpa only [decimal, Nat.ofDigitChars_ten_toDigits] using hread

theorem eq_of_caseOf_eq (hname : k.name = k'.name) (h : k.caseOf e = k'.caseOf e') :
    k.isBitEnum = k'.isBitEnum ∧ e = e' := by
  obtain ⟨hcase, hbody⟩ := Case.mk.inj h
  rw [hname] at hcase
  have hsymbol : e.symbol = e'.symbol := List.append_cancel_left hcase
  rw [hsymbol] at hbody
  simp only [List.append_assoc] at hbody
  have hlength (k : OperandKind) : k.base.length = 3 := by
    rcases k.base_cases with h | h <;> rw [h] <;> rfl
  obtain ⟨hbase, hrest⟩ := List.append_inj hbody ((hlength k).trans (hlength k').symm)
  have hvalue := decimal_inj (List.append_cancel_right (List.append_cancel_left
    (List.append_cancel_left (List.append_cancel_left hrest))))
  constructor
  · have hne : ("Bit" : Text) ≠ "I32" := by decide +kernel
    unfold base at hbase
    cases hk : k.isBitEnum <;> cases hk' : k'.isBitEnum <;> simp_all
  · cases e
    cases e'
    exact congrArg₂ Enumerant.mk hsymbol (UInt32.toNat_inj.1 hvalue)

theorem eq_of_map_caseOf_eq (hname : k.name = k'.name) (hne : k.cases ≠ [])
    (h : k.cases.map k.caseOf = k'.cases.map k'.caseOf) :
    k.isBitEnum = k'.isBitEnum ∧ k.cases = k'.cases := by
  have key : ∀ es es' : List Enumerant, es.map k.caseOf = es'.map k'.caseOf → es = es' := by
    intro es
    induction es with
    | nil => exact fun es' h => (List.map_eq_nil_iff.1 h.symm).symm
    | cons e es ih =>
      intro es' h
      obtain ⟨e', es', rfl, he, hes⟩ := List.map_eq_cons_iff.1 h.symm
      rw [(eq_of_caseOf_eq hname he.symm).2, ih es' hes.symm]
  obtain ⟨e, es, he⟩ := List.exists_cons_of_ne_nil hne
  rw [he] at h
  obtain ⟨e', es', -, he', -⟩ := List.map_eq_cons_iff.1 h.symm
  rw [← he] at h
  exact ⟨(eq_of_caseOf_eq hname he'.symm).1, key _ _ h⟩

def attributeFront (k : OperandKind) : Text :=
  "def SPV_" ++ (k.name ++ ("Attr :\n    " ++ (k.base ++ ("EnumAttr<\"" ++ (k.name ++
    ("\", \"valid SPIR-V " ++ (k.name ++ "\", ")))))))

theorem Worded.notMem_attributeFront (hk : k.Worded) : '[' ∉ k.attributeFront := by
  have hname := notMem_of_all_isWord hk.name (c := '[') (by decide)
  unfold attributeFront
  simp only [List.mem_append, not_or]
  exact ⟨notMem_ofList (by decide), hname, notMem_ofList (by decide),
    notMem_base (notMem_ofList (by decide)) (notMem_ofList (by decide)) k,
    notMem_ofList (by decide), hname, notMem_ofList (by decide), hname, notMem_ofList (by decide)⟩

theorem Worded.listedItems_attribute (hk : k.Worded) {caseNames : List Text}
    (hne : caseNames ≠ []) (hwords : ∀ n ∈ caseNames, n.all Character.isWord) :
    listedItems (k.attribute layout caseNames) = caseNames := by
  have hopen : ("\", [\n" : Text) = "\", " ++ ['[', '\n'] := by simp
  have hclose : ("\n    ]> \x7b\n" : Text) = "\n    " ++ ']' :: "> \x7b\n" := by simp
  obtain ⟨back, hback⟩ : ∃ back, k.attribute layout caseNames = k.attributeFront ++ '[' ::
      (('\n' :: (packedList layout.listIndent layout.lineBudget caseNames ++ "\n    ")) ++
        ']' :: back) := by
    unfold OperandKind.attribute attributeFront
    simp only [hopen, hclose, List.append_assoc, List.cons_append, List.nil_append]
    exact ⟨_, rfl⟩
  rw [hback]
  exact listedItems_packedList hk.notMem_attributeFront (by decide) hne hwords _ _ back

def caseNames (k : OperandKind) : List Text := (k.cases.map k.caseOf).map (·.name)

theorem fragment?_eq_some {f : EnumFragment} (h : k.fragment? layout = some f) :
    k.cases ≠ [] ∧ f.text =
      alignedCases (k.cases.map k.caseOf) ++ ("\n\n" ++ k.attribute layout k.caseNames) := by
  obtain ⟨text, htext, rfl⟩ := Option.map_eq_some_iff.1 h
  rw [definitions?_eq] at htext
  split at htext
  · cases htext
  · next hne => exact ⟨hne, (Option.some.inj htext).symm⟩

theorem tabulates_fragment {f : EnumFragment} (h : k.fragment? layout = some f) :
    Tabulates (k.cases.map k.caseOf) (k.attribute layout k.caseNames) f.text := by
  rw [(fragment?_eq_some h).2]
  exact tabulates_alignedCases _ _

theorem name_eq_of_fragment? (hk : k.Worded) (hk' : k'.Worded) {layout' : Layout}
    {f f' : EnumFragment} (h : k.fragment? layout = some f) (h' : k'.fragment? layout' = some f')
    (htext : f.text = f'.text) : k.name = k'.name := by
  obtain ⟨text, hdef, rfl⟩ := Option.map_eq_some_iff.1 h
  obtain ⟨text', hdef', rfl⟩ := Option.map_eq_some_iff.1 h'
  obtain rfl : text = text' := htext
  have hidents : k.idents = k'.idents :=
    (hk.wordsAfter_definitions? hdef).symm.trans (hk'.wordsAfter_definitions? hdef')
  have hlast := (List.append_inj' hidents rfl).2
  exact List.append_cancel_right (List.cons.inj hlast).1

/-- A kind has a fragment if and only if it has enumerants. Its fragment begins with a case for each
value, under the first symbol of the value, and goes on with an attribute that lists these cases,
in any layout. Two kinds with the same fragment have one name, one base and the same cases. -/
theorem fragment?_tabulates_cases (hk : k.Worded) (layout : Layout) :
    (k.fragment? layout = none ↔ k.enumerants = []) ∧ Firsts k.enumerants k.cases ∧
      (∀ f, k.fragment? layout = some f →
        Tabulates (k.cases.map k.caseOf) (k.attribute layout k.caseNames) f.text ∧
          listedItems (k.attribute layout k.caseNames) = k.caseNames) ∧
      ∀ (k' : OperandKind) (layout' : Layout) (f f' : EnumFragment), k'.Worded →
        k.fragment? layout = some f → k'.fragment? layout' = some f' → f.text = f'.text →
          k.name = k'.name ∧ k.isBitEnum = k'.isBitEnum ∧ k.cases = k'.cases := by
  have hlegible {k : OperandKind} (hk : k.Worded) : ∀ c ∈ k.cases.map k.caseOf, c.Legible :=
    List.forall_mem_map.2 fun e he => hk.legible_caseOf he
  refine ⟨fragment?_eq_none_iff layout, k.firsts_cases, fun f hf => ⟨tabulates_fragment hf, ?_⟩,
    fun k' layout' f f' hk' hf hf' htext => ?_⟩
  · apply hk.listedItems_attribute
    · simpa [caseNames] using (fragment?_eq_some hf).1
    · intro n hn
      rw [caseNames, List.map_map] at hn
      obtain ⟨e, he, rfl⟩ := List.mem_map.1 hn
      exact hk.all_isWord_caseOf_name he
  · have hname := name_eq_of_fragment? hk hk' hf hf' htext
    have hcases := (tabulates_fragment hf).unique (htext ▸ tabulates_fragment hf')
      (hlegible hk) (hlegible hk')
    exact ⟨hname, eq_of_map_caseOf_eq hname (fragment?_eq_some hf).1 hcases⟩

def aliasKind : OperandKind :=
  ⟨"StorageClass", .valueEnum,
    [⟨"Generic", 8⟩, ⟨"CallableDataNV", 5328⟩, ⟨"CallableDataKHR", 5328⟩]⟩

def plainKind : OperandKind :=
  ⟨"StorageClass", .valueEnum, [⟨"Generic", 8⟩, ⟨"CallableDataNV", 5328⟩]⟩

theorem fragment?_tabulates_cases_alias :
    aliasKind.Worded ∧ plainKind.Worded ∧ Firsts aliasKind.enumerants aliasKind.cases ∧
      ∃ f f', aliasKind.fragment? {} = some f ∧ plainKind.fragment? {} = some f' ∧
        f.text = f'.text ∧
        Tabulates (aliasKind.cases.map aliasKind.caseOf)
          (aliasKind.attribute {} aliasKind.caseNames) f.text ∧
        listedItems (aliasKind.attribute {} aliasKind.caseNames) = aliasKind.caseNames ∧
        aliasKind.cases = plainKind.cases := by
  have hworded : aliasKind.Worded := by decide +kernel
  have hplain : plainKind.Worded := by decide +kernel
  have hsome : (aliasKind.fragment? {}).isSome := by decide +kernel
  have hsame : plainKind.fragment? {} = aliasKind.fragment? {} := by decide +kernel
  obtain ⟨-, hfirsts, htable, hunique⟩ := fragment?_tabulates_cases hworded {}
  obtain ⟨f, hf⟩ := Option.isSome_iff_exists.1 hsome
  have hf' := hsame.trans hf
  obtain ⟨htabulates, hlisted⟩ := htable f hf
  obtain ⟨-, -, hcases⟩ := hunique plainKind {} f f hplain hf hf' rfl
  exact ⟨hworded, hplain, hfirsts, f, f, hf, hf', rfl, htabulates, hlisted, hcases⟩

end OperandKind

end SpirvTables
