import Mathlib.Data.List.Forall2
import Mathlib.Data.List.Perm.Basic
import SpirvTables.Fault

namespace SpirvTables

variable {α β ε : Type}

theorem bind_eq_ok {x : Except ε α} {f : α → Except ε β} {b : β} :
    x >>= f = .ok b ↔ ∃ a, x = .ok a ∧ f a = .ok b := by
  cases x <;> simp [bind, Except.bind]

theorem bind_eq_error {x : Except ε α} {f : α → Except ε β} {e : ε} :
    x >>= f = .error e ↔ x = .error e ∨ ∃ a, x = .ok a ∧ f a = .error e := by
  cases x <;> simp [bind, Except.bind]

theorem map_eq_ok {x : Except Fault α} {f : α → β} {b : β} :
    x.map f = .ok b ↔ ∃ a, x = .ok a ∧ f a = b := by
  cases x <;> simp [Except.map]

theorem map_eq_error {x : Except Fault α} {f : α → β} {e : Fault} :
    x.map f = .error e ↔ x = .error e := by
  cases x <;> simp [Except.map]

theorem elim_eq_ok_iff {o : Option α} {e : ε} {f : α → Except ε β} {b : β} :
    o.elim (.error e) f = .ok b ↔ ∃ a, o = some a ∧ f a = .ok b := by
  cases o <;> simp

theorem elim_eq_error_iff {o : Option α} {e e' : ε} {f : α → Except ε β} :
    o.elim (.error e) f = .error e' ↔
      o = none ∧ e = e' ∨ ∃ a, o = some a ∧ f a = .error e' := by
  cases o <;> simp

theorem known_eq_ok_iff {found : Option α} {f : Fault} {a : α} :
    known found f = .ok a ↔ found = some a := by
  cases found <;> simp [known, throw, throwThe, MonadExceptOf.throw, pure, Except.pure]

theorem mapM_eq_ok_iff {f : α → Except ε β} {as : List α} {bs : List β} :
    as.mapM f = .ok bs ↔ as.map f = bs.map .ok := by
  induction as generalizing bs with
  | nil => cases bs <;> simp [pure, Except.pure]
  | cons a as ih =>
    rw [List.mapM_cons, List.map_cons, bind_eq_ok]
    simp only [bind_eq_ok, ih]
    constructor
    · rintro ⟨b, hb, bs', hbs, h⟩
      obtain rfl := Except.ok.inj h
      rw [hb, hbs, List.map_cons]
    · intro h
      cases bs with
      | nil => cases h
      | cons b bs =>
        obtain ⟨hb, hbs⟩ := List.cons.inj h
        exact ⟨b, hb, bs, hbs, rfl⟩

theorem mapM_eq_ok_iff_forall₂ {f : α → Except ε β} {as : List α} {bs : List β} :
    as.mapM f = .ok bs ↔ List.Forall₂ (fun a b => f a = .ok b) as bs := by
  rw [mapM_eq_ok_iff, ← List.forall₂_eq_eq_eq, List.forall₂_map_left_iff,
    List.forall₂_map_right_iff]

theorem mapM_eq_some_iff_forall₂ {f : α → Option β} {as : List α} {bs : List β} :
    as.mapM f = some bs ↔ List.Forall₂ (fun a b => f a = some b) as bs := by
  induction as generalizing bs with
  | nil => cases bs <;> simp
  | cons a as ih =>
    simp only [List.mapM_cons, bind, Option.bind_eq_some_iff, ih, List.forall₂_cons_left_iff]
    constructor
    · rintro ⟨b, hb, bs', hbs, h⟩
      exact ⟨b, bs', hb, hbs, (Option.some.inj h).symm⟩
    · rintro ⟨b, bs', hb, hbs, rfl⟩
      exact ⟨b, hb, bs', hbs, rfl⟩

theorem mapM_eq_error_iff {f : α → Except ε β} {as : List α} {e : ε} :
    as.mapM f = .error e ↔ ∃ before a after, as = before ++ a :: after ∧
      (∀ b ∈ before, ∃ y, f b = .ok y) ∧ f a = .error e := by
  induction as with
  | nil =>
    refine iff_of_false nofun ?_
    rintro ⟨before, a, after, h, -⟩
    simp at h
  | cons a as ih =>
    rw [List.mapM_cons, bind_eq_error]
    simp only [bind_eq_error, ih]
    constructor
    · rintro (ha | ⟨y, hy, ⟨before, a', after, rfl, hbefore, ha'⟩ | ⟨_, -, h⟩⟩)
      · exact ⟨[], a, as, rfl, nofun, ha⟩
      · exact ⟨a :: before, a', after, rfl, List.forall_mem_cons.2 ⟨⟨y, hy⟩, hbefore⟩, ha'⟩
      · cases h
    · rintro ⟨before, a', after, h, hbefore, ha'⟩
      cases before with
      | nil =>
        obtain ⟨rfl, rfl⟩ := List.cons.inj h
        exact .inl ha'
      | cons b before =>
        obtain ⟨rfl, rfl⟩ := List.cons.inj h
        obtain ⟨⟨y, hy⟩, hbefore⟩ := List.forall_mem_cons.1 hbefore
        exact .inr ⟨y, hy, .inl ⟨before, a', after, rfl, hbefore, ha'⟩⟩

theorem exists_of_mem_mapM {f : α → Except ε β} {as : List α} {bs : List β} {b : β}
    (h : as.mapM f = .ok bs) (hb : b ∈ bs) : ∃ a ∈ as, f a = .ok b := by
  have hmem : Except.ok b ∈ as.map f := by
    rw [mapM_eq_ok_iff.1 h]
    exact List.mem_map_of_mem hb
  exact List.mem_map.1 hmem

theorem mem_of_mapM {f : α → Except Fault β} {as : List α} {bs : List β} {a : α} {b : β}
    (h : as.mapM f = .ok bs) (ha : a ∈ as) (hb : f a = .ok b) : b ∈ bs := by
  have hmem := List.mem_map_of_mem (f := f) ha
  rw [mapM_eq_ok_iff.1 h, hb] at hmem
  obtain ⟨b', hb', heq⟩ := List.mem_map.1 hmem
  obtain rfl := Except.ok.inj heq
  exact hb'

theorem exists_mapM_eq_ok {γ : Type} {f : α → Except ε β} {as : List α} {p : α → γ}
    {q : β → γ} (h : ∀ a ∈ as, ∃ b, f a = .ok b ∧ q b = p a) :
    ∃ bs, as.mapM f = .ok bs ∧ bs.map q = as.map p := by
  induction as with
  | nil => exact ⟨[], rfl, rfl⟩
  | cons a as ih =>
    rw [List.forall_mem_cons] at h
    obtain ⟨⟨b, hb, hq⟩, h⟩ := h
    obtain ⟨bs, hbs, hqs⟩ := ih h
    refine ⟨b :: bs, ?_, by rw [List.map_cons, List.map_cons, hq, hqs]⟩
    rw [mapM_eq_ok_iff] at hbs ⊢
    rw [List.map_cons, List.map_cons, hb, hbs]

theorem exists_mapM_iff {f : α → Except ε β} {as : List α} :
    (∃ bs, as.mapM f = .ok bs) ↔ ∀ a ∈ as, ∃ b, f a = .ok b := by
  constructor
  · rintro ⟨bs, h⟩ a ha
    have hmem := List.mem_map_of_mem (f := f) ha
    rw [mapM_eq_ok_iff.1 h] at hmem
    obtain ⟨b, -, hb⟩ := List.mem_map.1 hmem
    exact ⟨b, hb.symm⟩
  · intro h
    obtain ⟨bs, hbs, -⟩ := exists_mapM_eq_ok (p := f) (q := .ok) fun a ha =>
      (h a ha).imp fun b hb => ⟨hb, hb.symm⟩
    exact ⟨bs, hbs⟩

theorem exists_mapM_of_perm {f : α → Except Fault β} {as as' : List α} {bs : List β}
    (hp : as.Perm as') (h : as.mapM f = .ok bs) : ∃ bs', as'.mapM f = .ok bs' ∧ bs.Perm bs' := by
  have hsteps (a : α) (ha : a ∈ as') : ∃ b, f a = .ok b ∧ .ok b = f a :=
    (exists_mapM_iff.1 ⟨bs, h⟩ a (hp.mem_iff.2 ha)).imp fun b hb => ⟨hb, hb.symm⟩
  obtain ⟨bs', hbs', hmap⟩ := exists_mapM_eq_ok hsteps
  refine ⟨bs', hbs', ?_⟩
  have hperm := hp.map f
  rw [mapM_eq_ok_iff.1 h, ← hmap] at hperm
  exact (List.map_perm_map_iff fun _ _ => Except.ok.inj).1 hperm

theorem mapM_congr_of_mem {f g : α → Except Fault β} {as : List α} (h : ∀ a ∈ as, f a = g a) :
    as.mapM f = as.mapM g := by
  induction as with
  | nil => rfl
  | cons a as ih =>
    rw [List.mapM_cons, List.mapM_cons, h a List.mem_cons_self,
      ih fun b hb => h b (List.mem_cons_of_mem a hb)]

theorem exists_eq_ok_of_isOk {x : Except Fault α} (h : x.isOk) : ∃ a, x = .ok a := by
  cases x with
  | error f => cases h
  | ok a => exact ⟨a, rfl⟩

theorem toOption_eq_some_iff {x : Except Fault α} {a : α} : x.toOption = some a ↔ x = .ok a := by
  cases x <;> simp [Except.toOption]

end SpirvTables
