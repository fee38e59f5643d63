import Mathlib.Data.List.DropRight
import SpirvTables.Proofs.Text.Occurrence
import SpirvTables.Text.Basic

namespace SpirvTables.Text

variable {f : Char → Bool} {a b t x : Text}

theorem trimEnd_prefix_self (f : Char → Bool) (t : Text) : trimEnd f t <+: t :=
  List.rdropWhile_prefix f t

theorem trim_infix_self (f : Char → Bool) (t : Text) : trim f t <:+: t :=
  (trimEnd_prefix_self f _).isInfix.trans (List.dropWhile_suffix f).isInfix

@[simp] theorem trimEnd_trimEnd : trimEnd f (trimEnd f t) = trimEnd f t :=
  List.rdropWhile_idempotent f t

theorem exists_eq_trimEnd_append (f : Char → Bool) (t : Text) :
    ∃ y, t = trimEnd f t ++ y ∧ ∀ c ∈ y, f c :=
  ⟨t.rtakeWhile f, List.rdropWhile_append_rtakeWhile.symm, fun _ => List.mem_rtakeWhile_imp⟩

theorem exists_eq_append_trim (f : Char → Bool) (t : Text) :
    ∃ a b, t = a ++ (trim f t ++ b) ∧ (∀ c ∈ a, f c) ∧ ∀ c ∈ b, f c := by
  obtain ⟨b, hb, hall⟩ := exists_eq_trimEnd_append f (trimStart f t)
  refine ⟨t.takeWhile f, b, ?_, fun _ => List.mem_takeWhile_imp, hall⟩
  rw [trim, ← hb]
  exact List.takeWhile_append_dropWhile.symm

theorem trimEnd_append (hb : ∀ c ∈ b, f c) : trimEnd f (x ++ b) = trimEnd f x := by
  rw [trimEnd, List.reverse_append, List.dropWhile_append_of_pos, trimEnd]
  exact fun c hc => hb c (List.mem_reverse.1 hc)

theorem trim_append (ha : ∀ c ∈ a, f c) (hb : ∀ c ∈ b, f c) :
    trim f (a ++ (x ++ b)) = trim f x := by
  unfold trim trimStart
  rw [List.dropWhile_append_of_pos ha, List.dropWhile_append]
  split
  · next h =>
    rw [List.isEmpty_iff] at h
    rw [h, List.dropWhile_eq_nil_iff.2 hb]
  · exact trimEnd_append hb

theorem trim_eq_self (hhead : ∀ c ∈ x.head?, f c = false) (hlast : ∀ c ∈ x.getLast?, f c = false) :
    trim f x = x := by
  have hstart : trimStart f x = x := by
    cases x with
    | nil => rfl
    | cons c x => exact List.dropWhile_cons_of_neg (by simp [hhead c rfl])
  rw [trim, hstart]
  apply List.rdropWhile_eq_self_iff.2
  intro hne
  simp [hlast _ (List.getLast?_eq_some_getLast hne)]

theorem head_trim : ∀ c ∈ (trim f t).head?, f c = false := by
  intro c hc
  -- The head of what is left at the end is the head of what was left at the start.
  have hstart : (trimStart f t).head? = some c := by
    obtain ⟨y, hy⟩ := trimEnd_prefix_self f (trimStart f t)
    rw [← hy, List.head?_append, ← trim, hc]
    rfl
  have := List.head?_dropWhile_not f t
  rw [show t.dropWhile f = trimStart f t from rfl, hstart] at this
  exact this

theorem last_trim : ∀ c ∈ (trim f t).getLast?, f c = false := by
  intro c hc
  have hne : trim f t ≠ [] := by
    intro h
    rw [h] at hc
    cases hc
  have hlast := List.rdropWhile_last_not f (trimStart f t) hne
  rw [List.getLast?_eq_some_getLast hne] at hc
  obtain rfl := Option.some.inj hc
  exact Bool.of_not_eq_true hlast

structure IsWord (t : Text) : Prop where
  ne_nil : t ≠ []
  isWord : ∀ c ∈ t, Character.isWord c

instance (t : Text) : Decidable (IsWord t) :=
  decidable_of_iff (t ≠ [] ∧ t.all Character.isWord)
    ⟨fun h => ⟨h.1, List.all_eq_true.1 h.2⟩, fun h => ⟨h.ne_nil, List.all_eq_true.2 h.isWord⟩⟩

variable {s p : Text}

theorem notMem_of_all_isWord (h : t.all Character.isWord) {c : Char}
    (hc : Character.isWord c = false) : c ∉ t := by
  intro hm
  rw [List.all_eq_true.1 h c hm] at hc
  cases hc

theorem all_isWord_ofList {l : List Char} (h : l.all Character.isWord) :
    (String.ofList l).toList.all Character.isWord := by
  rwa [String.toList_ofList]

theorem isWord_ofList {l : List Char} (h : IsWord l) : IsWord (String.ofList l).toList := by
  rwa [String.toList_ofList]

theorem IsWord.all (h : IsWord t) : t.all Character.isWord := List.all_eq_true.2 h.isWord

theorem IsWord.notMem (h : IsWord t) {c : Char} (hc : Character.isWord c = false) : c ∉ t :=
  notMem_of_all_isWord h.all hc

theorem IsWord.absent (h : IsWord t) {c : Char} (hp : c ∈ p) (hc : Character.isWord c = false) :
    ¬ p <:+: t := absent_of_notMem hp (h.notMem hc)

theorem IsWord.append (hs : IsWord s) (ht : t.all Character.isWord) : IsWord (s ++ t) where
  ne_nil := by simp [hs.ne_nil]
  isWord c hc := (List.mem_append.1 hc).elim (hs.isWord c) (List.all_eq_true.1 ht c)

theorem IsWord.of_append_right (hs : ∀ c ∈ s, Character.isWord c) (ht : IsWord t) :
    IsWord (s ++ t) where
  ne_nil := by simp [ht.ne_nil]
  isWord c hc := (List.mem_append.1 hc).elim (hs c) (ht.isWord c)

theorem IsWord.leadingWord_eq (h : IsWord t) : leadingWord t = t := by
  have h' : (t ++ []).takeWhile Character.isWord = t ++ List.takeWhile Character.isWord [] :=
    List.takeWhile_append_of_pos h.isWord
  simpa [leadingWord] using h'

def StopsWord (t : Text) : Prop := t.head?.all (!Character.isWord ·)

instance (t : Text) : Decidable (StopsWord t) := inferInstanceAs (Decidable (_ = _))

theorem stopsWord_cons {c : Char} (hc : Character.isWord c = false) (t : Text) :
    StopsWord (c :: t) := by
  simp [StopsWord, hc]

theorem stopsWord_ofList {c : Char} {l : List Char} (hc : Character.isWord c = false) :
    StopsWord (String.ofList (c :: l)).toList := by
  rw [String.toList_ofList]
  exact stopsWord_cons hc l

theorem StopsWord.append (hs : StopsWord s) (hne : s ≠ []) (t : Text) : StopsWord (s ++ t) := by
  cases s with
  | nil => exact absurd rfl hne
  | cons c s => exact hs

theorem leadingWord_append (ht : StopsWord t) : leadingWord (s ++ t) = leadingWord s := by
  induction s with
  | nil =>
    cases t with
    | nil => rfl
    | cons c t =>
      have hc : Character.isWord c = false := by simpa [StopsWord] using ht
      simp [leadingWord, hc]
  | cons c s ih =>
    unfold leadingWord at ih ⊢
    simp only [List.cons_append, List.takeWhile_cons, ih]

end SpirvTables.Text
