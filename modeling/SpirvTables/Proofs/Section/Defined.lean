import SpirvTables.Proofs.Text.Split
import SpirvTables.Proofs.Text.Word
import SpirvTables.Section

namespace SpirvTables

namespace Text

theorem restsAfter_of_le {p t : Text} (hp : p ≠ []) {n m : Nat} (hn : t.length ≤ n)
    (hm : t.length ≤ m) : restsAfter p n t = restsAfter p m t := by
  refine eq_of_length_le (fun _ b rests => b :: rests) hp ?_ ?_ hn hm
  · intro n t h
    cases n <;> simp [restsAfter, h]
  · intro n t a b h
    simp [restsAfter, h]

end Text

open Text

theorem stem?_eq_some_iff {ending word z : Text} :
    stem? ending word = some z ↔ word = z ++ ending ∧ z ≠ [] := by
  rw [← upTo?_eq_some_iff, stem?]
  cases upTo? ending word with
  | none => simp
  | some r =>
    cases r with
    | nil => simp
    | cons c r =>
      simp only [Option.some.injEq, iff_self_and]
      rintro rfl
      exact List.cons_ne_nil c r

def startingWord (t : Text) : List Text := [leadingWord t].filter (· ≠ [])

def wordsAfter (lead t : Text) : List Text := (identifiersAfter lead t).map (·.1)

variable {lead t : Text}

theorem isWord_of_mem_wordsAfter {w : Text} (h : w ∈ wordsAfter lead t) : IsWord w := by
  obtain ⟨⟨w, rest⟩, hmem, rfl⟩ := List.mem_map.1 h
  obtain ⟨rest', -, hw⟩ := List.mem_filterMap.1 hmem
  split at hw
  · cases hw
  · next hne =>
    obtain ⟨rfl, rfl⟩ := Prod.mk.inj (Option.some.inj hw)
    exact ⟨hne, List.all_eq_true.1 List.all_takeWhile⟩

theorem identifiersAfter_of_absent (h : ¬ lead <:+: t) : identifiersAfter lead t = [] := by
  simp [identifiersAfter, restsAfter, cut?_eq_none_iff.2 h]

theorem identifiersAfter_of_cut? (hl : lead ≠ []) {a b : Text} (h : cut? lead t = some (a, b)) :
    identifiersAfter lead t =
      (startingWord b).map (·, b) ++ identifiersAfter lead b := by
  have hlt := length_lt_of_cut? hl h
  rw [identifiersAfter, restsAfter, h]
  simp only [List.filterMap_cons]
  rw [restsAfter_of_le hl (by omega) (by omega : b.length ≤ b.length + 1), ← identifiersAfter]
  cases hw : leadingWord b <;> simp [startingWord, hw]

theorem wordsAfter_of_absent (h : ¬ lead <:+: t) : wordsAfter lead t = [] := by
  simp [wordsAfter, identifiersAfter_of_absent h]

theorem wordsAfter_of_cut? (hl : lead ≠ []) {a b : Text} (h : cut? lead t = some (a, b)) :
    wordsAfter lead t = startingWord b ++ wordsAfter lead b := by
  simp [wordsAfter, identifiersAfter_of_cut? hl h, Function.comp_def]

theorem cut?_lead_append (hl : lead ≠ []) (t : Text) : cut? lead (lead ++ t) = some ([], t) := by
  refine cut?_append (x := []) hl fun h => ?_
  have := h.length_le
  have := List.length_pos_iff.2 hl
  simp at *; omega

theorem identifiersAfter_lead_append (hl : lead ≠ []) (t : Text) :
    identifiersAfter lead (lead ++ t) =
      (startingWord t).map (·, t) ++ identifiersAfter lead t :=
  identifiersAfter_of_cut? hl (cut?_lead_append hl t)

theorem wordsAfter_lead_append (hl : lead ≠ []) (t : Text) :
    wordsAfter lead (lead ++ t) = startingWord t ++ wordsAfter lead t :=
  wordsAfter_of_cut? hl (cut?_lead_append hl t)

theorem Text.Parts.wordsAfter_append {lit : Text} (h : Parts lead lit) (hs : StopsWord lit)
    (hl : lead ≠ []) (x y : Text) :
    wordsAfter lead (x ++ (lit ++ y)) = wordsAfter lead x ++ wordsAfter lead y := by
  have hstop : StopsWord (lit ++ y) := by
    refine hs.append ?_ y
    rintro rfl
    exact h.2.1 List.nil_infix
  induction x using cut?_induction hl with
  | found x a b hcut ih =>
    have hx := eq_append_of_cut? hcut
    have hwhole : cut? lead (x ++ (lit ++ y)) = some (a, b ++ (lit ++ y)) := by
      rw [hx, List.append_assoc, List.append_assoc]
      exact cut?_append hl (absent_of_cut? hl hcut)
    rw [wordsAfter_of_cut? hl hwhole, wordsAfter_of_cut? hl hcut, ih, startingWord, startingWord,
      leadingWord_append hstop, List.append_assoc]
  | absent x hx =>
    rw [wordsAfter_of_absent hx, List.nil_append]
    cases hy : cut? lead y with
    | none =>
      have hy := cut?_eq_none_iff.1 hy
      rw [wordsAfter_of_absent hy, wordsAfter_of_absent (h.absent hx hy)]
    | some ab =>
      obtain ⟨a, b⟩ := ab
      have hwhole : cut? lead (x ++ (lit ++ y)) = some (x ++ (lit ++ a), b) := by
        rw [eq_append_of_cut? hy]
        have := cut?_append (x := x ++ (lit ++ a)) (y := b) hl (by
          simpa using h.absent hx (absent_of_cut? hl hy))
        simpa using this
      rw [wordsAfter_of_cut? hl hwhole, wordsAfter_of_cut? hl hy]

theorem wordsAfter_append_of_head {c : Char} {x : Text} (hl : lead.head? = some c) (hc : c ∉ x)
    (y : Text) : wordsAfter lead (x ++ y) = wordsAfter lead y := by
  have hne : lead ≠ [] := by
    rintro rfl
    cases hl
  cases hcut : cut? lead y with
  | some ab =>
    obtain ⟨a, b⟩ := ab
    have hwhole : cut? lead (x ++ y) = some (x ++ a, b) := by
      rw [eq_append_of_cut? hcut, List.append_assoc, ← List.append_assoc]
      apply cut?_append hne
      rw [List.append_assoc]
      exact mt (infix_append_iff_of_head hl hc).1 (absent_of_cut? hne hcut)
    rw [wordsAfter_of_cut? hne hwhole, wordsAfter_of_cut? hne hcut]
  | none =>
    have hy := cut?_eq_none_iff.1 hcut
    rw [wordsAfter_of_absent hy, wordsAfter_of_absent (mt (infix_append_iff_of_head hl hc).1 hy)]

theorem wordsAfter_append_of_last {c : Char} {y : Text} (hl : lead.getLast? = some c) (hc : c ∉ y)
    (hs : StopsWord y) (x : Text) : wordsAfter lead (x ++ y) = wordsAfter lead x := by
  have hne : lead ≠ [] := by
    rintro rfl
    cases hl
  induction x using cut?_induction hne with
  | found x a b hcut ih =>
    have hwhole : cut? lead (x ++ y) = some (a, b ++ y) := by
      rw [eq_append_of_cut? hcut, List.append_assoc, List.append_assoc]
      exact cut?_append hne (absent_of_cut? hne hcut)
    rw [wordsAfter_of_cut? hne hwhole, wordsAfter_of_cut? hne hcut, ih, startingWord, startingWord,
      leadingWord_append hs]
  | absent x hx =>
    rw [wordsAfter_of_absent hx,
      wordsAfter_of_absent (mt (infix_append_iff_of_last hl hc).1 hx)]

theorem wordsAfter_join {sep : Text} (h : Parts lead sep) (hs : StopsWord sep) (hl : lead ≠ [])
    (pieces : List Text) :
    wordsAfter lead (join sep pieces) = pieces.flatMap (wordsAfter lead) := by
  induction pieces with
  | nil =>
    refine wordsAfter_of_absent ?_
    rw [join, List.intercalate_nil, List.infix_nil]
    exact hl
  | cons t ts ih =>
    cases ts with
    | nil => simp
    | cons t' ts =>
      rw [join, List.intercalate_cons_cons, List.append_assoc, h.wordsAfter_append hs hl,
        List.flatMap_cons]
      exact congrArg _ ih

end SpirvTables
