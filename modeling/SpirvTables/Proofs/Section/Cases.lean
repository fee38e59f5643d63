import Mathlib.Data.List.Basic
import SpirvTables.Proofs.Section.Defined
import SpirvTables.Text.Arrange

namespace SpirvTables

open Text

theorem definitionLead_ne_nil : definitionLead ≠ [] := ne_nil_ofList

theorem definitionLead_eq : definitionLead = ['d', 'e', 'f', ' ', 'S', 'P', 'V', '_'] :=
  String.toList_ofList

theorem head?_definitionLead : definitionLead.head? = some 'd' := head?_ofList rfl

theorem getLast?_definitionLead : definitionLead.getLast? = some '_' := getLast?_ofList rfl

theorem space_mem_definitionLead : ' ' ∈ definitionLead := mem_ofList (by decide)

namespace Text

variable {p lead : Text} {α : Type} {es : List α} {toCase : α → Case} {ident : α → Text}

theorem notMem_decimal {c : Char} (hc : c.isDigit = false) (n : Nat) : c ∉ decimal n := by
  intro hm
  rw [Nat.isDigit_of_mem_toDigits (by decide) (by decide) hm] at hc
  cases hc

theorem absent_decimal (n : Nat) {c : Char} (hp : c ∈ p) (hc : c.isDigit = false) :
    ¬ p <:+: decimal n :=
  absent_of_notMem hp (notMem_decimal hc n)

theorem notMem_spaces {c : Char} (hc : c ≠ ' ') (n : Nat) : c ∉ spaces n :=
  fun h => hc (List.eq_of_mem_replicate h)

structure Packed (p : Text) : Prop where
  line : Parts p ",\n"
  item : Parts p ", "
  noSpace : ∃ c, p.head? = some c ∧ c ≠ ' '

theorem Packed.absent (hp : Packed p) {indentation budget : Nat} {items : List Text}
    (h : ∀ t ∈ items, ¬ p <:+: t) : ¬ p <:+: packedList indentation budget items := by
  obtain ⟨c, hc, hs⟩ := hp.noSpace
  apply absent_join hp.line
  intro t ht
  obtain ⟨line, hline, rfl⟩ := List.mem_map.1 ht
  rw [indent, infix_append_iff_of_head hc (notMem_spaces hs _)]
  apply absent_join hp.item
  intro item hi
  apply h
  rw [← flatten_pack budget items]
  exact List.mem_flatten_of_mem hline hi

structure Columned (p : Text) : Prop where
  colon : Parts p " : "
  semicolon : Parts p ";"
  newline : Parts p "\n"
  noSpace : ∃ c, p.getLast? = some c ∧ c ≠ ' '

theorem Columned.ne_nil (hp : Columned p) : p ≠ [] := by
  obtain ⟨c, hc, -⟩ := hp.noSpace
  rintro rfl
  cases hc

theorem Columned.absent_padRight (hp : Columned p) {name : Text} (h : ¬ p <:+: name)
    (width : Nat) : ¬ p <:+: padRight width name := by
  obtain ⟨c, hc, hs⟩ := hp.noSpace
  rw [padRight, infix_append_iff_of_last hc (notMem_spaces hs _)]
  exact h

theorem Columned.absent (hp : Columned p) (hdef : Parts p "def ")
    (hname : ∀ e ∈ es, ¬ p <:+: (toCase e).name) (hbody : ∀ e ∈ es, ¬ p <:+: (toCase e).body) :
    ¬ p <:+: alignedCases (es.map toCase) := by
  unfold alignedCases
  apply absent_join hp.newline
  simp only [List.mem_map, forall_exists_index, and_imp]
  rintro t c e he rfl rfl
  unfold Case.line
  simp only [List.append_assoc]
  exact hdef.absent_left (hp.colon.absent (hp.absent_padRight (hname e he) _)
    (hp.semicolon.absent_right (hbody e he)))

structure RuledBy (literals : List Text) (p : Text) : Prop where
  columned : Columned p
  packed : Packed p
  lits : ∀ lit ∈ literals, Parts p lit
  noDigit : ∃ c ∈ p, c.isDigit = false

theorem RuledBy.absent_decimal {literals : List Text} (hp : RuledBy literals p) (n : Nat) :
    ¬ p <:+: decimal n := by
  obtain ⟨c, hc, hd⟩ := hp.noDigit
  exact Text.absent_decimal n hc hd

theorem wordsAfter_line {stem : Text} (hlead : lead = "def " ++ stem) (hl : Columned lead)
    {name body : Text} (hid : IsWord name) (hbody : ¬ lead <:+: body) (width : Nat) :
    wordsAfter lead (Case.line width ⟨stem ++ name, body⟩) = [name] := by
  obtain ⟨n, hn⟩ : ∃ n, padRight width (stem ++ name) = stem ++ (name ++ spaces n) :=
    ⟨_, by rw [padRight, List.append_assoc]⟩
  have hline : Case.line width ⟨stem ++ name, body⟩ =
      lead ++ ((name ++ spaces n) ++ (" : " ++ (body ++ ";"))) := by
    unfold Case.line
    dsimp only
    rw [hn, hlead]
    simp only [List.append_assoc]
  have hname : ¬ lead <:+: name ++ spaces n := by
    obtain ⟨c, hc, hs⟩ := hl.noSpace
    rw [infix_append_iff_of_last hc (notMem_spaces hs n)]
    apply hid.absent (c := ' ') _ (by decide)
    rw [hlead]
    exact List.mem_append_left _ (mem_ofList (by decide))
  have hstop : StopsWord (spaces n ++ (" : " ++ (body ++ ";"))) := by
    cases n with
    | zero => exact StopsWord.append (stopsWord_ofList (by decide)) ne_nil_ofList _
    | succ n => exact stopsWord_cons (by decide) _
  rw [hline, wordsAfter_lead_append hl.ne_nil,
    wordsAfter_of_absent (hl.colon.absent hname (hl.semicolon.absent_right hbody)), startingWord,
    List.append_assoc, leadingWord_append hstop, hid.leadingWord_eq]
  simp [hid.ne_nil]

theorem wordsAfter_alignedCases {stem : Text} (hlead : lead = "def " ++ stem) (hl : Columned lead)
    (hname : ∀ e ∈ es, (toCase e).name = stem ++ ident e ∧ IsWord (ident e))
    (hbody : ∀ e ∈ es, ¬ lead <:+: (toCase e).body) :
    wordsAfter lead (alignedCases (es.map toCase)) = es.map ident := by
  rw [alignedCases]
  refine (wordsAfter_join hl.newline (stopsWord_ofList (by decide)) hl.ne_nil _).trans ?_
  generalize widest (es.map toCase) = width
  rw [List.flatMap_map, List.flatMap_map, List.map_eq_flatMap]
  apply List.flatMap_congr
  intro e he
  obtain ⟨hn, hw⟩ := hname e he
  have hcase : toCase e = ⟨stem ++ ident e, (toCase e).body⟩ := congrArg (Case.mk · _) hn
  rw [hcase]
  exact wordsAfter_line hlead hl hw (hbody e he) _

end Text

end SpirvTables
