import Mathlib.Data.List.Basic
import SpirvTables.Proofs.Fault
import SpirvTables.Store

namespace SpirvTables.Disk

variable {d : Disk} {p q : Path} {l l' : Location} {t t' step : Text} {n : Node} {steps : List Text}

def descend (l : Location) (step : Text) : Location :=
  if step = [] ∨ step = ['.'] then l
  else if step = ['.', '.'] then parent l
  else l ++ [step]

theorem walk_cons_eq_ok (h : d.walk l (step :: steps) = .ok l') :
    d.node? l = some .directory ∧ d.walk (descend l step) steps = .ok l' := by
  rw [walk] at h
  unfold descend
  split at h
  · cases h
  · next hl =>
    refine ⟨hl, ?_⟩
    split_ifs at h ⊢
    · exact h
    · exact h
    · exact h
  · cases h

theorem walk_eq_ok (h : d.walk l steps = .ok l') : l' = steps.foldl descend l := by
  induction steps generalizing l with
  | nil => exact (Except.ok.inj h).symm
  | cons step steps ih => exact ih (walk_cons_eq_ok h).2

theorem node?_of_walk_concat_nil (h : d.walk l (steps ++ [[]]) = .ok l') :
    d.node? l' = some .directory := by
  induction steps generalizing l with
  | nil =>
    obtain ⟨hl, h⟩ := walk_cons_eq_ok h
    obtain rfl := Except.ok.inj h
    exact hl
  | cons step steps ih => exact ih (walk_cons_eq_ok h).2

def place (key : List Text) : Location := key.foldl descend []

theorem foldl_steps (l : Location) (t : Text) :
    (Path.steps t).foldl descend l = (t.splitOnP (· == '/')).foldl descend l := by
  rw [Path.steps, List.foldl_filter]
  congr 1
  funext l step
  by_cases hnil : step = []
  · simp [descend, hnil]
  · by_cases hdot : step = ['.'] <;> simp [descend, hnil, hdot]

theorem locate_cases (h : d.locate p = .ok l) :
    (∃ t, p = '/' :: t ∧ d.walk [['/']] (t.splitOnP (· == '/')) = .ok l) ∨
      (∀ t, p ≠ '/' :: t) ∧ d.walk [] (p.splitOnP (· == '/')) = .ok l := by
  unfold locate at h
  cases hcheck : checkPath p with
  | error o =>
    rw [hcheck] at h
    cases h
  | ok u =>
    rw [hcheck] at h
    dsimp only [bind, Except.bind] at h
    split at h
    · next t => exact .inl ⟨t, rfl, h⟩
    · next hroot => exact .inr ⟨hroot, h⟩

theorem locate_eq_ok (h : d.locate p = .ok l) : l = place p.key := by
  rcases locate_cases h with ⟨t, rfl, hwalk⟩ | ⟨hroot, hwalk⟩
  · rw [walk_eq_ok hwalk, ← foldl_steps]
    rfl
  · rw [walk_eq_ok hwalk]
    unfold Path.key
    split
    · next _ t => exact absurd rfl (hroot t)
    · decide
    · next _ t =>
      have hsplit : ('.' :: '/' :: t).splitOnP (· == '/') = ['.'] :: t.splitOnP (· == '/') :=
        List.splitOnP_append_cons ['.'] t rfl
      rw [hsplit, place, List.foldl_cons, List.foldl_cons, foldl_steps]
    · exact (foldl_steps _ _).symm

theorem read_eq_ok_iff :
    d.read p = .ok t ↔ ∃ l, d.locate p = .ok l ∧ d.node? l = some (.file t) := by
  unfold read
  cases hl : d.locate p with
  | error o => simp [bind, Except.bind]
  | ok l =>
    simp only [bind, Except.bind, Except.ok.injEq, exists_eq_left']
    cases hn : d.node? l with
    | none => simp [throw, throwThe, MonadExceptOf.throw]
    | some n =>
      cases n <;> simp [throw, throwThe, MonadExceptOf.throw, pure, Except.pure]

theorem read_congr (h : d.read p = .ok t) (h' : d.read q = .ok t') (hkey : p.key = q.key) :
    t = t' := by
  obtain ⟨l, hl, ht⟩ := read_eq_ok_iff.1 h
  obtain ⟨l', hl', ht'⟩ := read_eq_ok_iff.1 h'
  obtain rfl : l = l' := (locate_eq_ok hl).trans (hkey ▸ (locate_eq_ok hl').symm)
  exact Node.file.inj (Option.some.inj (ht.symm.trans ht'))

theorem getLast?_of_read (h : d.read p = .ok t) : p.getLast? ≠ some '/' := by
  intro hslash
  obtain ⟨l, hl, hn⟩ := read_eq_ok_iff.1 h
  obtain ⟨q, rfl⟩ := List.getLast?_eq_some_iff.1 hslash
  have hsplit (q : Text) :
      (q ++ ['/']).splitOnP (· == '/') = q.splitOnP (· == '/') ++ [[]] :=
    List.splitOnP_append_cons q [] rfl
  have hdir : d.node? l = some .directory := by
    rcases locate_cases hl with ⟨t, ht, hwalk⟩ | ⟨-, hwalk⟩
    · cases q with
      | nil =>
        obtain rfl := (List.cons.inj ht).2
        have hroot : d.walk [['/']] ([] ++ [[]]) = .ok l := hwalk
        exact node?_of_walk_concat_nil hroot
      | cons c q =>
        obtain rfl := (List.cons.inj ht).2
        exact node?_of_walk_concat_nil (hsplit q ▸ hwalk)
    · exact node?_of_walk_concat_nil (hsplit q ▸ hwalk)
  rw [hdir] at hn
  cases hn

def Listed (d : Disk) (l : Location) : Prop := d.nodes.any (·.1 = l)

theorem listed_of_file (h : d.node? l = some (.file t)) : d.Listed l := by
  unfold node? at h
  split at h
  · next m n hfind =>
    have hm := List.find?_some hfind
    exact List.any_eq_true.2 ⟨_, List.mem_of_find?_eq_some hfind, hm⟩
  · split at h <;> cases h

theorem node?_set (h : d.Listed l) (l' : Location) :
    (d.set l n).node? l' = if l' = l then some n else d.node? l' := by
  have hset : (d.set l n).nodes = d.nodes.map fun e => (e.1, if e.1 = l then n else e.2) :=
    if_pos h
  have hbelow : ((d.set l n).nodes.any fun e => l'.isPrefixOf e.1) =
      d.nodes.any fun e => l'.isPrefixOf e.1 := by
    rw [hset, List.any_map]
    rfl
  have hfind : (d.set l n).nodes.find? (·.1 = l') =
      (d.nodes.find? (·.1 = l')).map fun e => (e.1, if e.1 = l then n else e.2) := by
    rw [hset, List.find?_map]
    rfl
  unfold node?
  rw [hfind, hbelow]
  cases hnode : d.nodes.find? (·.1 = l') with
  | none =>
    have hne : l' ≠ l := by
      rintro rfl
      obtain ⟨e, he, hkey⟩ := List.any_eq_true.1 h
      exact List.find?_eq_none.1 hnode e he hkey
    rw [if_neg hne]
    rfl
  | some e =>
    have hkey : e.1 = l' := by simpa using List.find?_some hnode
    dsimp only [Option.map_some]
    rw [hkey]
    split_ifs <;> rfl

theorem walk_set (h : d.node? l = some (.file t)) (l' : Location) (steps : List Text) :
    (d.set l (.file t')).walk l' steps = d.walk l' steps := by
  induction steps generalizing l' with
  | nil => rfl
  | cons step steps ih =>
    simp only [walk, node?_set (listed_of_file h), ih]
    by_cases hl : l' = l
    · simp [hl, h]
    · simp [hl]

theorem locate_set (h : d.node? l = some (.file t)) (p : Path) :
    (d.set l (.file t')).locate p = d.locate p := by
  simp only [locate, walk_set h]

theorem read_set (h : d.node? l = some (.file t)) (hl : d.locate p = .ok l') :
    (d.set l (.file t')).read p = if l' = l then .ok t' else d.read p := by
  simp only [read, locate_set h, hl, node?_set (listed_of_file h), bind, Except.bind]
  by_cases heq : l' = l
  · simp only [heq, if_pos]
    rfl
  · simp only [heq, if_neg, not_false_eq_true]

theorem write_of_read (h : d.read p = .ok t) (hl : d.locate p = .ok l) :
    d.write p t' = .ok (d.set l (.file t')) := by
  obtain ⟨l', hl', hn⟩ := read_eq_ok_iff.1 h
  obtain rfl := Except.ok.inj (hl.symm.trans hl')
  unfold write
  rw [if_neg (getLast?_of_read h), hl]
  simp [bind, Except.bind, hn, pure, Except.pure]

end SpirvTables.Disk
