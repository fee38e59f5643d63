import SpirvTables.Proofs.Character
import SpirvTables.Proofs.Text.Word
import SpirvTables.Proofs.Text.Words

namespace SpirvTables

namespace Text

variable {c x : Char} {t : Text}

theorem lowerAt_ne_nil (before : Text) (c : Char) (after : Text) : lowerAt before c after ≠ [] := by
  unfold lowerAt Character.lower
  grind

theorem lower_eq_nil_iff : lower t = [] ↔ t = [] := by
  cases t with
  | nil => exact iff_of_true rfl rfl
  | cons c t =>
    refine iff_of_false (fun h => ?_) (List.cons_ne_nil c t)
    exact lowerAt_ne_nil [] c t (List.append_eq_nil_iff.1 h).1

theorem lowerAt_eq (h : Character.Lowered c) (before after : Text) :
    lowerAt before c after = [c] := by
  rw [lowerAt, if_neg h.ne_sigma, h.lower_eq]

theorem lower_eq_self (h : ∀ c ∈ t, Character.Lowered c) : lower t = t := by
  have key : ∀ (t before : Text), (∀ c ∈ t, Character.Lowered c) → lowerFrom before t = t := by
    intro t
    induction t with
    | nil => exact fun _ _ => rfl
    | cons c t ih =>
      intro before h
      obtain ⟨hc, ht⟩ := List.forall_mem_cons.1 h
      rw [lowerFrom, lowerAt_eq hc, ih _ ht, List.singleton_append]
  exact key t [] h

theorem lowered_of_mem_lower (hx : x ∈ lower t) : Character.Lowered x := by
  obtain ⟨s, c, r, -, hx⟩ := mem_lowerFrom.1 hx
  obtain ⟨-, rfl | rfl⟩ | ⟨hc, hx⟩ := sigma_or_of_mem_lowerAt hx
  · decide +kernel
  · decide +kernel
  · exact Character.lowered_of_mem_lower hc hx

theorem isWord_lower_iff (h : ∀ c ∈ t, Character.isWord c) :
    (∀ c ∈ lower t, Character.isWord c) ↔ 'İ' ∉ t := by
  constructor
  · intro hlower hmem
    obtain ⟨s, r, rfl⟩ := List.append_of_mem hmem
    have hdot := hlower '\u0307' (mem_lowerFrom.2 ⟨s, 'İ', r, rfl, by simp [lowerAt, Character.lower]⟩)
    exact absurd hdot (by decide +kernel)
  · intro hmem x hx
    obtain ⟨s, c, r, rfl, hx'⟩ := mem_lowerFrom.1 hx
    have hc : c ∈ s ++ c :: r := List.mem_append_cons_self
    obtain ⟨-, rfl | rfl⟩ | ⟨-, hx'⟩ := sigma_or_of_mem_lowerAt hx'
    · decide +kernel
    · decide +kernel
    · exact Character.isWord_of_mem_lower (h c hc) (fun heq => hmem (heq ▸ hc)) hx'

def keptWords (t : Text) : List Text :=
  words (t.filter fun c => Character.isWord c || Character.isBlank c)

theorem identifier_eq (t : Text) : identifier t = join ['_'] ((keptWords t).map lower) := rfl

theorem isWord_of_mem_keptWords {w : Text} (hw : w ∈ keptWords t) : IsWord w where
  ne_nil := ne_nil_of_mem_words hw
  isWord c hc := by
    have hkept := List.of_mem_filter ((infix_of_mem_words hw).subset hc)
    rwa [(solid_of_mem_words hw).noBlank c hc, Bool.or_false] at hkept

theorem subset_of_mem_keptWords {w : Text} (hw : w ∈ keptWords t) : w ⊆ t :=
  List.Subset.trans (infix_of_mem_words hw).subset List.filter_sublist.subset

theorem exists_mem_keptWords (hmem : c ∈ t) (hc : Character.isWord c) :
    ∃ w ∈ keptWords t, c ∈ w := by
  apply List.mem_flatten.1
  rw [keptWords, flatten_words, unblanked, List.filter_filter]
  exact List.mem_filter.2 ⟨hmem, by simp [hc, Character.isBlank_of_isWord hc]⟩

theorem identifier_eq_nil_iff : identifier t = [] ↔ ∀ c ∈ t, Character.isWord c = false := by
  rw [identifier_eq]
  constructor
  · intro h c hmem
    by_contra hc
    obtain ⟨w, hw, hcw⟩ := exists_mem_keptWords hmem (Bool.of_not_eq_false hc)
    have hlower := infix_join ['_'] (List.mem_map_of_mem (f := lower) hw)
    rw [h, List.infix_nil, lower_eq_nil_iff] at hlower
    exact (isWord_of_mem_keptWords hw).ne_nil hlower
  · intro h
    have hnone : keptWords t = [] := by
      apply List.eq_nil_iff_forall_not_mem.2
      intro w hw
      obtain ⟨c, hc⟩ := List.exists_mem_of_ne_nil w (isWord_of_mem_keptWords hw).ne_nil
      have hword := (isWord_of_mem_keptWords hw).isWord c hc
      rw [h c (subset_of_mem_keptWords hw hc)] at hword
      cases hword
    rw [hnone]
    rfl

theorem all_isWord_identifier_iff : (∀ c ∈ identifier t, Character.isWord c) ↔ 'İ' ∉ t := by
  rw [identifier_eq]
  constructor
  · intro h hmem
    obtain ⟨w, hw, hcw⟩ := exists_mem_keptWords hmem (by decide +kernel)
    apply (isWord_lower_iff (isWord_of_mem_keptWords hw).isWord).1 _ hcw
    exact fun c hc => h c ((infix_join _ (List.mem_map_of_mem hw)).subset hc)
  · intro hmem c hc
    rcases mem_or_of_mem_join hc with hc | ⟨x, hx, hc⟩
    · rw [List.mem_singleton.1 hc]
      decide +kernel
    · obtain ⟨w, hw, rfl⟩ := List.mem_map.1 hx
      have hdot : 'İ' ∉ w := fun h => hmem (subset_of_mem_keptWords hw h)
      exact (isWord_lower_iff (isWord_of_mem_keptWords hw).isWord).2 hdot c hc

theorem IsWord.identifier_eq (h : IsWord t) : identifier t = lower t := by
  have hkept : t.filter (fun c => Character.isWord c || Character.isBlank c) = t :=
    List.filter_eq_self.2 fun c hc => by simp [h.isWord c hc]
  have hsolid : Solid t := ⟨h.ne_nil, fun c hc => Character.isBlank_of_isWord (h.isWord c hc)⟩
  rw [Text.identifier_eq, keptWords, hkept, hsolid.words_eq]
  exact List.intercalate_singleton

theorem lowered_of_mem_identifier (hx : x ∈ identifier t) : Character.Lowered x := by
  rw [identifier_eq] at hx
  rcases mem_or_of_mem_join hx with hx | ⟨s, hs, hx⟩
  · rw [List.mem_singleton.1 hx]
    decide +kernel
  · obtain ⟨w, -, rfl⟩ := List.mem_map.1 hs
    exact lowered_of_mem_lower hx

theorem identifier_eq_self (hword : ∀ c ∈ t, Character.isWord c)
    (hlowered : ∀ c ∈ t, Character.Lowered c) : identifier t = t := by
  rcases eq_or_ne t [] with rfl | hne
  · rfl
  · have h : IsWord t := ⟨hne, hword⟩
    rw [h.identifier_eq, lower_eq_self hlowered]

theorem identifier_eq_self_iff :
    identifier t = t ↔ ∀ c ∈ t, Character.isWord c ∧ Character.Lowered c := by
  constructor
  · intro h
    have hlowered : ∀ c ∈ t, Character.Lowered c := fun c hc =>
      lowered_of_mem_identifier (h.symm ▸ hc)
    have hdotted : 'İ' ∉ t := fun hc => absurd (hlowered _ hc) (by decide +kernel)
    have hword := all_isWord_identifier_iff.2 hdotted
    rw [h] at hword
    exact fun c hc => ⟨hword c hc, hlowered c hc⟩
  · intro h
    exact identifier_eq_self (fun c hc => (h c hc).1) (fun c hc => (h c hc).2)

theorem identifier_identifier_eq_iff : identifier (identifier t) = identifier t ↔ 'İ' ∉ t := by
  rw [identifier_eq_self_iff, ← all_isWord_identifier_iff]
  exact ⟨fun h c hc => (h c hc).1, fun h c hc => ⟨h c hc, lowered_of_mem_identifier hc⟩⟩

/-- An identifier is made of word characters, and stays as it is when made an identifier again,
unless a dotted capital I is among what it is made from. -/
theorem identifier_settled_iff (t : Text) :
    ((∀ c ∈ identifier t, Character.isWord c) ↔ 'İ' ∉ t) ∧
      (identifier (identifier t) = identifier t ↔ 'İ' ∉ t) :=
  ⟨all_isWord_identifier_iff, identifier_identifier_eq_iff⟩

theorem not_identifier_settled_dotted :
    ¬ (∀ c ∈ identifier ['İ'], Character.isWord c) ∧
      identifier (identifier ['İ']) ≠ identifier ['İ'] := by
  have honce : identifier ['İ'] = ['i', '\u0307'] := by decide +kernel
  have htwice : identifier ['i', '\u0307'] = ['i'] := by decide +kernel
  rw [honce, htwice]
  refine ⟨fun h => ?_, by decide⟩
  exact absurd (h '\u0307' (by decide)) (by decide +kernel)

end Text

end SpirvTables
