import SpirvTables.Proofs.Text.Bracket
import SpirvTables.Proofs.Text.Lower
import SpirvTables.Proofs.Text.Packing
import SpirvTables.Proofs.Text.Split
import SpirvTables.Proofs.Text.Word

namespace SpirvTables.Text

variable {a b s t x y : Text} {c : Char} {items items' : List Text}

def listedItems (t : Text) : List Text :=
  match bracketed? t with
  | none => []
  | some (_, inner) => (splitOn [','] inner).map (trim Character.isBlank)

inductive Listed : List Text → Text → Prop
  | last {a b item : Text} : a.isAllBlank → b.isAllBlank → Listed [item] (a ++ (item ++ b))
  | comma {a b t item : Text} {items : List Text} : a.isAllBlank → b.isAllBlank → Listed items t →
    Listed (item :: items) (a ++ (item ++ b) ++ ',' :: t)

theorem isAllBlank_append (ha : a.isAllBlank) (hb : b.isAllBlank) : (a ++ b).isAllBlank := by
  rw [isAllBlank, List.all_append, Bool.and_eq_true]
  exact ⟨ha, hb⟩

theorem isAllBlank_spaces (n : Nat) : (spaces n).isAllBlank :=
  List.all_replicate.trans (by cases n <;> rfl)

theorem listed_singleton (item : Text) : Listed [item] item := by
  have hlisted : Listed [item] ([] ++ (item ++ [])) := .last rfl rfl
  rwa [List.nil_append, List.append_nil] at hlisted

theorem Listed.indent (h : Listed items t) (ha : a.isAllBlank) : Listed items (a ++ t) := by
  cases h with
  | last ha' hb =>
    rw [← List.append_assoc]
    exact .last (isAllBlank_append ha ha') hb
  | comma ha' hb ht =>
    rw [← List.append_assoc, ← List.append_assoc]
    exact .comma (isAllBlank_append ha ha') hb ht

theorem Listed.append_blank (h : Listed items t) (hb : b.isAllBlank) : Listed items (t ++ b) := by
  induction h with
  | last ha hb' =>
    rw [List.append_assoc, List.append_assoc]
    exact .last ha (isAllBlank_append hb' hb)
  | comma ha hb' _ ih =>
    rw [List.append_assoc, List.cons_append]
    exact .comma ha hb' ih

theorem Listed.append (h : Listed items s) (ht : Listed items' t) :
    Listed (items ++ items') (s ++ ',' :: t) := by
  induction h with
  | last ha hb => exact .comma ha hb ht
  | comma ha hb _ ih =>
    rw [List.append_assoc, List.cons_append]
    exact .comma ha hb ih

theorem listed_join {α : Type} {f : α → List Text} {g : α → Text} {parts : List α}
    (hb : b.isAllBlank) (hne : parts ≠ []) (h : ∀ p ∈ parts, Listed (f p) (g p)) :
    Listed (parts.flatMap f) (join (',' :: b) (parts.map g)) := by
  induction parts with
  | nil => exact absurd rfl hne
  | cons p parts ih =>
    obtain ⟨hp, hparts⟩ := List.forall_mem_cons.1 h
    cases parts with
    | nil => simpa using hp
    | cons q parts =>
      rw [List.flatMap_cons, List.map_cons, List.map_cons, join, List.intercalate_cons_cons,
        List.append_assoc, List.cons_append]
      exact hp.append ((ih (List.cons_ne_nil q parts) hparts).indent hb)

theorem listed_packedList (hne : items ≠ []) (indentation budget : Nat) :
    Listed items (packedList indentation budget items) := by
  have hgreedy := greedy_pack budget items
  have hlines : pack budget items ≠ [] := by
    intro hnil
    rw [hnil] at hgreedy
    exact hne hgreedy.flatten.symm
  have hline : ∀ line ∈ pack budget items,
      Listed line (indent indentation (join ", " line)) := by
    intro line hline
    have hsep : (", " : Text) = [',', ' '] := String.toList_ofList
    have hjoin := listed_join (f := ([·])) (g := id) (b := [' ']) rfl (hgreedy.ne_nil line hline)
      fun item _ => listed_singleton item
    rw [List.flatMap_singleton', List.map_id] at hjoin
    rw [hsep]
    exact hjoin.indent (isAllBlank_spaces indentation)
  have hjoin := listed_join (f := id) (b := ['\n']) rfl hlines hline
  rw [List.flatMap_id, flatten_pack] at hjoin
  have hsep : (",\n" : Text) = [',', '\n'] := String.toList_ofList
  rwa [packedList, hsep]

theorem splitOn_append_cons (hx : c ∉ x) (y : Text) :
    splitOn [c] (x ++ c :: y) = x :: splitOn [c] y :=
  splitOn_of_cut? (List.cons_ne_nil c []) (cut?_append_cons hx y)

theorem notMem_of_isAllBlank (ha : a.isAllBlank) (hc : Character.isBlank c = false) : c ∉ a := by
  intro hmem
  rw [List.all_eq_true.1 ha c hmem] at hc
  cases hc

theorem trim_blanks_around (ha : a.isAllBlank) (hb : b.isAllBlank) (hx : x.all Character.isWord) :
    trim Character.isBlank (a ++ (x ++ b)) = x := by
  have hsolid (c : Char) (hc : c ∈ x) : Character.isBlank c = false :=
    Character.isBlank_of_isWord (List.all_eq_true.1 hx c hc)
  rw [trim_append (List.all_eq_true.1 ha) (List.all_eq_true.1 hb), trim_eq_self]
  · exact fun c hc => hsolid c (List.mem_of_mem_head? hc)
  · exact fun c hc => hsolid c (List.mem_of_getLast? hc)

theorem Listed.splitOn_comma (h : Listed items t)
    (hitems : ∀ item ∈ items, item.all Character.isWord) :
    (splitOn [','] t).map (trim Character.isBlank) = items := by
  have hcomma {x y z : Text} (hx : x.isAllBlank) (hy : y.all Character.isWord)
      (hz : z.isAllBlank) : ',' ∉ x ++ (y ++ z) := by
    simp only [List.mem_append, not_or]
    exact ⟨notMem_of_isAllBlank hx (by decide), notMem_of_all_isWord hy (by decide),
      notMem_of_isAllBlank hz (by decide)⟩
  induction h with
  | last ha hb =>
    have hitem := hitems _ List.mem_cons_self
    rw [splitOn_of_absent (List.cons_ne_nil ',' [])
      (absent_of_notMem List.mem_cons_self (hcomma ha hitem hb)), List.map_singleton,
      trim_blanks_around ha hb hitem]
  | comma ha hb _ ih =>
    obtain ⟨hitem, hitems⟩ := List.forall_mem_cons.1 hitems
    rw [splitOn_append_cons (hcomma ha hitem hb), List.map_cons, trim_blanks_around ha hb hitem,
      ih hitems]

theorem bracketed?_append (hx : '[' ∉ x) (hopen : '[' ∉ y) (hclose : ']' ∉ y) (t : Text) :
    bracketed? (x ++ '[' :: (y ++ ']' :: t)) = some (x, y) := by
  have hbalanced : BracketBalanced y := by
    refine ⟨by rw [List.count_eq_zero_of_not_mem hopen, List.count_eq_zero_of_not_mem hclose],
      fun u hu => ?_⟩
    rw [List.count_eq_zero_of_not_mem fun h => hclose (hu.subset h)]
    exact Nat.zero_le _
  rw [bracketed?_append_cons hx, hbalanced.upToClose_append, Option.map_some]

theorem Listed.notMem (h : Listed items t) (hitems : ∀ item ∈ items, c ∉ item) (hcomma : c ≠ ',')
    (hblank : Character.isBlank c = false) : c ∉ t := by
  induction h with
  | last ha hb =>
    simp only [List.mem_append, not_or]
    exact ⟨notMem_of_isAllBlank ha hblank, hitems _ List.mem_cons_self,
      notMem_of_isAllBlank hb hblank⟩
  | comma ha hb _ ih =>
    obtain ⟨hitem, hitems⟩ := List.forall_mem_cons.1 hitems
    simp only [List.mem_append, List.mem_cons, not_or]
    exact ⟨⟨notMem_of_isAllBlank ha hblank, hitem, notMem_of_isAllBlank hb hblank⟩, hcomma,
      ih hitems⟩

theorem listedItems_append (hx : '[' ∉ x) (h : Listed items t)
    (hitems : ∀ item ∈ items, item.all Character.isWord) (y : Text) :
    listedItems (x ++ '[' :: (t ++ ']' :: y)) = items := by
  have hword {c : Char} (hc : Character.isWord c = false) : ∀ item ∈ items, c ∉ item :=
    fun item hi => notMem_of_all_isWord (hitems item hi) hc
  have hopen := h.notMem (hword (c := '[') (by decide)) (by decide) (by decide)
  have hclose := h.notMem (hword (c := ']') (by decide)) (by decide) (by decide)
  rw [listedItems, bracketed?_append hx hopen hclose]
  exact h.splitOn_comma hitems

theorem listedItems_packedList (hx : '[' ∉ x) (hb : b.isAllBlank) (hne : items ≠ [])
    (hitems : ∀ item ∈ items, item.all Character.isWord) (indentation budget : Nat) (y : Text) :
    listedItems (x ++ '[' :: (('\n' :: (packedList indentation budget items ++ b)) ++ ']' :: y)) =
      items := by
  have hlisted := (listed_packedList hne indentation budget).append_blank hb
  exact listedItems_append hx (hlisted.indent (a := ['\n']) (by decide)) hitems y

end SpirvTables.Text
