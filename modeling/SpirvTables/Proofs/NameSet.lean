import Mathlib.Data.Char
import Mathlib.Data.Finset.Card
import Mathlib.Data.List.Lex
import Mathlib.Data.List.Sort
import SpirvTables.NameSet

namespace SpirvTables

theorem before_iff_lt {s t : Text} : Text.before s t ↔ s < t := by
  induction s generalizing t with
  | nil => cases t <;> simp [Text.before]
  | cons a s ih =>
    cases t with
    | nil => simp [Text.before]
    | cons b t =>
      rw [Text.before, List.cons_lt_cons_iff]
      split
      · next h => simp [h, ih]
      · next h =>
        simp only [decide_eq_true_eq, h, false_and, or_false]
        exact Iff.rfl

theorem pairwise_insertName {name : Text} {ns : List Text} (h : ns.Pairwise (· < ·)) :
    (insertName name ns).Pairwise (· < ·) := by
  induction ns with
  | nil => simp [insertName]
  | cons n ns ih =>
    obtain ⟨hn, hns⟩ := List.pairwise_cons.1 h
    rw [insertName]
    split
    · exact h
    · next hne =>
      split
      · next hlt =>
        rw [before_iff_lt] at hlt
        apply List.pairwise_cons.2
        refine ⟨fun a ha => ?_, h⟩
        rcases List.mem_cons.1 ha with rfl | ha
        · exact hlt
        · exact hlt.trans (hn a ha)
      · next hlt =>
        rw [before_iff_lt, not_lt] at hlt
        apply List.pairwise_cons.2
        refine ⟨fun a ha => ?_, ih hns⟩
        rcases mem_insertName.1 ha with rfl | ha
        · exact lt_of_le_of_ne hlt hne
        · exact hn a ha

theorem sortedLT_ascending (names : List Text) : (ascending names).SortedLT := by
  apply List.Pairwise.sortedLT
  induction names with
  | nil => exact List.Pairwise.nil
  | cons n ns ih => exact pairwise_insertName ih

theorem find?_of_nodup_map {α : Type} {key : α → Text} {as : List α} {a : α}
    (hnodup : (as.map key).Nodup) (ha : a ∈ as) : as.find? (key · = key a) = some a := by
  induction as with
  | nil => cases ha
  | cons b as ih =>
    rw [List.map_cons, List.nodup_cons] at hnodup
    rcases List.mem_cons.1 ha with rfl | ha
    · exact List.find?_cons_of_pos (by simp)
    · have hne : key b ≠ key a := fun h => hnodup.1 (h ▸ List.mem_map_of_mem ha)
      rw [List.find?_cons_of_neg (by simpa using hne), ih hnodup.2 ha]

namespace NameSet

theorem names_union (requested discovered : List Text) :
    (union requested discovered).names = ascending (requested ++ discovered) := by
  have h : ∀ n ∈ ascending (requested ++ discovered),
      ∃ p, Provenance.of? (requested.contains n) (discovered.contains n) = some p := by
    intro n hn
    rw [mem_ascending, List.mem_append] at hn
    rcases hr : requested.contains n with _ | _ <;> rcases hd : discovered.contains n with _ | _
    · simp_all
    · exact ⟨_, rfl⟩
    · exact ⟨_, rfl⟩
    · exact ⟨_, rfl⟩
  rw [names, union, List.map_filterMap]
  generalize ascending (requested ++ discovered) = ns at h ⊢
  induction ns with
  | nil => rfl
  | cons n ns ih =>
    obtain ⟨p, hp⟩ := h n List.mem_cons_self
    rw [List.filterMap_cons, hp]
    simpa using ih fun m hm => h m (List.mem_cons_of_mem n hm)

@[simp] theorem mem_names_union {requested discovered : List Text} {n : Text} :
    n ∈ (union requested discovered).names ↔ n ∈ requested ∨ n ∈ discovered := by
  rw [names_union, mem_ascending, List.mem_append]

theorem sortedLT_names_union (requested discovered : List Text) :
    (union requested discovered).names.SortedLT := by
  rw [names_union]
  exact sortedLT_ascending _

theorem union_congr {r r' d d' : List Text} (hr : ∀ n, n ∈ r ↔ n ∈ r') (hd : ∀ n, n ∈ d ↔ n ∈ d') :
    union r d = union r' d' := by
  have hascending : ascending (r ++ d) = ascending (r' ++ d') := by
    apply (sortedLT_ascending _).eq_of_mem_iff (sortedLT_ascending _)
    intro n
    simp only [mem_ascending, List.mem_append, hr, hd]
  have hcontains {l l' : List Text} (h : ∀ n, n ∈ l ↔ n ∈ l') (n : Text) :
      l.contains n = l'.contains n := by
    rw [Bool.eq_iff_iff, List.contains_iff_mem, List.contains_iff_mem, h]
  simp only [union, hascending, hcontains hr, hcontains hd]

theorem union_nil_of_sortedLT {names : List Text} (h : names.SortedLT) :
    union [] names = ⟨names.map (·, .discovered)⟩ := by
  have hascending : ascending names = names :=
    (sortedLT_ascending names).eq_of_mem_iff h fun _ => mem_ascending
  rw [union, List.nil_append, hascending, mk.injEq]
  apply List.filterMap_eq_map_iff_forall_eq_some.2
  intro n hn
  simp [Provenance.of?, hn]

theorem names_eq_of_mem_iff {r r' d d' : List Text}
    (h : ∀ n, n ∈ r ∨ n ∈ d ↔ n ∈ r' ∨ n ∈ d') : (union r d).names = (union r' d').names := by
  apply (sortedLT_names_union r d).eq_of_mem_iff (sortedLT_names_union r' d')
  intro n
  rw [mem_names_union, mem_names_union]
  exact h n

end NameSet

variable {n name : Text} {r d : List Text} {p : Provenance} {s : NameSet}
  {es : List (Text × Provenance)}

def Provenance.onRequest (_ : Option Provenance) : Provenance := requested

def Provenance.onDiscovery : Option Provenance → Provenance
  | none => discovered
  | some requested => both
  | some p => p

theorem Provenance.of?_eq_some_iff {requested discovered : Bool} :
    of? requested discovered = some p ↔
      (requested = true ↔ p ≠ .discovered) ∧ (discovered = true ↔ p ≠ .requested) := by
  cases requested <;> cases discovered <;> cases p <;> decide

namespace NameSet

def settle (f : Option Provenance → Provenance) (name : Text) :
    List (Text × Provenance) → List (Text × Provenance)
  | [] => [(name, f none)]
  | (n, p) :: es =>
    if n = name then (n, f (some p)) :: es
    else if Text.before name n then (name, f none) :: (n, p) :: es
    else (n, p) :: settle f name es

def request (s : NameSet) (name : Text) : NameSet := ⟨settle Provenance.onRequest name s.entries⟩

def discover (s : NameSet) (name : Text) : NameSet := ⟨settle Provenance.onDiscovery name s.entries⟩

def gather (requested discovered : List Text) : NameSet :=
  discovered.foldl discover (requested.foldl request ⟨[]⟩)

theorem names_settle (f : Option Provenance → Provenance) (name : Text)
    (es : List (Text × Provenance)) : names ⟨settle f name es⟩ = insertName name (names ⟨es⟩) := by
  unfold names
  induction es with
  | nil => rfl
  | cons e es ih =>
    simp only [settle, List.map_cons, insertName]
    split
    · rfl
    · split
      · rfl
      · exact congrArg (e.1 :: ·) ih

theorem provenance?_cons (e : Text × Provenance) (es : List (Text × Provenance)) (n : Text) :
    provenance? ⟨e :: es⟩ n = if e.1 = n then some e.2 else provenance? ⟨es⟩ n := by
  unfold provenance?
  rw [List.find?_cons]
  split <;> simp_all

theorem provenance?_eq_none_iff : s.provenance? n = none ↔ n ∉ s.names := by
  unfold provenance? names
  rw [Option.map_eq_none_iff, List.find?_eq_none, List.mem_map, not_exists]
  simp only [decide_eq_true_eq, not_and]

theorem provenance?_settle {f : Option Provenance → Provenance}
    (h : (names ⟨es⟩).Pairwise (· < ·)) (n : Text) :
    provenance? ⟨settle f name es⟩ n =
      if name = n then some (f (provenance? ⟨es⟩ name)) else provenance? ⟨es⟩ n := by
  induction es with
  | nil => exact provenance?_cons _ _ n
  | cons e es ih =>
    obtain ⟨hlt, h⟩ := List.pairwise_cons.1 h
    rw [settle]
    split
    · next heq =>
      simp only [provenance?_cons, heq, ↓reduceIte]
      split <;> rfl
    · next hne =>
      split
      · next hbefore =>
        -- The list ascends, so that the name has no entry further on.
        have hnone : provenance? ⟨e :: es⟩ name = none := by
          rw [before_iff_lt] at hbefore
          rw [provenance?_eq_none_iff]
          intro hmem
          rcases List.mem_cons.1 hmem with heq | hmem
          · exact hne heq.symm
          · exact lt_asymm hbefore (hlt name hmem)
        rw [provenance?_cons, hnone]
      · rw [provenance?_cons, ih h, provenance?_cons, provenance?_cons, if_neg hne]
        split
        · next heq => rw [if_neg fun hname => hne (heq.trans hname.symm)]
        · rfl

/-- A set that has the names of two lists, with where they come from. -/
structure Records (requested discovered : List Text) (s : NameSet) : Prop where
  pairwise : s.names.Pairwise (· < ·)
  provenance : ∀ n,
    s.provenance? n = Provenance.of? (requested.contains n) (discovered.contains n)

theorem Records.request (h : Records r [] s) (n : Text) : Records (r ++ [n]) [] (s.request n) where
  pairwise := by
    rw [NameSet.request, names_settle]
    exact pairwise_insertName h.pairwise
  provenance m := by
    rw [NameSet.request, provenance?_settle h.pairwise]
    split
    · next heq => simp [heq, Provenance.onRequest, Provenance.of?]
    · next hne => simp [h.provenance, Ne.symm hne]

theorem Records.discover (h : Records r d s) (n : Text) :
    Records r (d ++ [n]) (s.discover n) where
  pairwise := by
    rw [NameSet.discover, names_settle]
    exact pairwise_insertName h.pairwise
  provenance m := by
    have hfound (asked found : Bool) :
        some (Provenance.onDiscovery (Provenance.of? asked found)) = Provenance.of? asked true := by
      cases asked <;> cases found <;> rfl
    rw [NameSet.discover, provenance?_settle h.pairwise]
    split
    · next heq => simp [heq, h.provenance, hfound]
    · next hne => simp [h.provenance, Ne.symm hne]

theorem records_gather (r d : List Text) : Records r d (gather r d) := by
  have hrequested : Records r [] (r.foldl NameSet.request ⟨[]⟩) := by
    induction r using List.reverseRecOn with
    | nil => exact ⟨.nil, fun _ => rfl⟩
    | append_singleton r n ih =>
      rw [List.foldl_append]
      exact ih.request n
  unfold gather
  induction d using List.reverseRecOn with
  | nil => exact hrequested
  | append_singleton d n ih =>
    rw [List.foldl_append]
    exact ih.discover n

theorem Records.mem_names_iff (h : Records r d s) : n ∈ s.names ↔ n ∈ r ∨ n ∈ d := by
  rw [← not_iff_not, ← provenance?_eq_none_iff, h.provenance]
  cases hr : r.contains n <;> cases hd : d.contains n <;> simp_all [Provenance.of?]

theorem entries_eq (h : s.names.Nodup) :
    s.entries = s.names.filterMap fun n => (s.provenance? n).map (n, ·) := by
  have hentry : ∀ e ∈ s.entries, (s.provenance? e.1).map (e.1, ·) = some (id e) := by
    intro e he
    rw [provenance?, find?_of_nodup_map h he]
    rfl
  rw [names, List.filterMap_map]
  exact ((List.filterMap_eq_map_iff_forall_eq_some.2 hentry).trans (List.map_id _)).symm

theorem Records.eq_union (h : Records r d s) : s = union r d := by
  have hnames : s.names = ascending (r ++ d) := by
    apply h.pairwise.sortedLT.eq_of_mem_iff (sortedLT_ascending _)
    intro n
    rw [h.mem_names_iff, mem_ascending, List.mem_append]
  have hentries := entries_eq h.pairwise.sortedLT.nodup
  simp only [h.provenance, hnames] at hentries
  rw [union, ← hentries]

theorem provenance?_eq_some_iff (h : s.names.Nodup) :
    s.provenance? n = some p ↔ (n, p) ∈ s.entries := by
  constructor
  · intro hp
    obtain ⟨e, he, rfl⟩ := Option.map_eq_some_iff.1 hp
    obtain rfl : e.1 = n := by simpa using List.find?_some he
    exact List.mem_of_find?_eq_some he
  · intro he
    rw [provenance?, find?_of_nodup_map h he]
    rfl

theorem mem_added_iff (h : s.names.Nodup) : n ∈ s.added ↔ s.provenance? n = some .requested := by
  rw [provenance?_eq_some_iff h, added, List.mem_map]
  constructor
  · rintro ⟨e, he, rfl⟩
    obtain ⟨he, hp⟩ := List.mem_filter.1 he
    exact of_decide_eq_true hp ▸ he
  · intro he
    exact ⟨_, List.mem_filter.2 ⟨he, by simp⟩, rfl⟩

/-- What a set of names shows of the two lists that it is made of. -/
structure IsUnion (asked found : List Text) (s : NameSet) : Prop where
  ascending : s.names.Pairwise (· < ·)
  mem_names : ∀ n, n ∈ s.names ↔ n ∈ asked ∨ n ∈ found
  contains : ∀ n, s.contains n = true ↔ n ∈ asked ∨ n ∈ found
  requested : ∀ n, s.provenance? n = some .requested ↔ n ∈ asked ∧ n ∉ found
  discovered : ∀ n, s.provenance? n = some .discovered ↔ n ∉ asked ∧ n ∈ found
  both : ∀ n, s.provenance? n = some .both ↔ n ∈ asked ∧ n ∈ found
  absent : ∀ n, s.provenance? n = none ↔ n ∉ asked ∧ n ∉ found
  added_ascending : s.added.Pairwise (· < ·)
  mem_added : ∀ n, n ∈ s.added ↔ n ∈ asked ∧ n ∉ found
  size : s.size = (asked.toFinset ∪ found.toFinset).card
  isEmpty : s.isEmpty = true ↔ asked = [] ∧ found = []

theorem Records.isUnion (h : Records r d s) : IsUnion r d s := by
  have hnodup : s.names.Nodup := h.pairwise.sortedLT.nodup
  have hprovenance (n : Text) (p : Provenance) : s.provenance? n = some p ↔
      (n ∈ r ↔ p ≠ .discovered) ∧ (n ∈ d ↔ p ≠ .requested) := by
    rw [h.provenance, Provenance.of?_eq_some_iff, List.contains_iff_mem, List.contains_iff_mem]
  have hrequested (n : Text) : s.provenance? n = some .requested ↔ n ∈ r ∧ n ∉ d := by
    simp [hprovenance]
  exact
    { ascending := h.pairwise
      mem_names := fun n => h.mem_names_iff
      contains := fun n => by rw [contains, List.contains_iff_mem, h.mem_names_iff]
      requested := hrequested
      discovered := fun n => by simp [hprovenance]
      both := fun n => by simp [hprovenance]
      absent := fun n => by rw [provenance?_eq_none_iff, h.mem_names_iff, not_or]
      added_ascending := h.pairwise.sublist (List.filter_sublist.map _)
      mem_added := fun n => (mem_added_iff hnodup).trans (hrequested n)
      size := by
        have hfinset : r.toFinset ∪ d.toFinset = s.names.toFinset := by
          ext n
          simp [h.mem_names_iff]
        rw [hfinset, List.toFinset_card_of_nodup hnodup, names, List.length_map, NameSet.size]
      isEmpty := by
        have hnil : s.entries = [] ↔ s.names = [] := List.map_eq_nil_iff.symm
        rw [NameSet.isEmpty, List.isEmpty_iff, hnil]
        simp only [List.eq_nil_iff_forall_not_mem, h.mem_names_iff, not_or, forall_and] }

theorem union_gathers (r d : List Text) : union r d = gather r d ∧ IsUnion r d (union r d) := by
  have hunion : union r d = gather r d := (records_gather r d).eq_union.symm
  exact ⟨hunion, hunion ▸ (records_gather r d).isUnion⟩

end NameSet

end SpirvTables
