import SpirvTables.Proofs.Run

namespace SpirvTables

namespace Memory

structure AgreeAt (p : Path) (m m' : Memory) : Prop where
  text : m'.get? p = m.get? p
  count : m'.writeCount p = m.writeCount p

namespace AgreeAt

variable {p : Path} {m m₁ m₂ : Memory}

@[refl] theorem refl (p : Path) (m : Memory) : AgreeAt p m m := ⟨rfl, rfl⟩

theorem trans (h : AgreeAt p m m₁) (h' : AgreeAt p m₁ m₂) : AgreeAt p m m₂ :=
  ⟨h'.text.trans h.text, h'.count.trans h.count⟩

theorem write {q : Path} (h : q.key ≠ p.key) (t : Text) : AgreeAt p m (m.write q t) where
  text := by rw [get?_write, if_neg h]
  count := by rw [writeCount_write, if_neg h, Nat.add_zero]

end AgreeAt

end Memory

theorem Request.modesOn_eq_nil_iff {r : Request} {p : Path} :
    r.modesOn p = [] ↔ r.baseTarget?.any (·.key = p.key) = false ∧
      r.opsTarget?.any (·.key = p.key) = false := by
  rw [modesOn_eq, List.append_eq_nil_iff, ite_eq_right_iff, ite_eq_right_iff]
  refine and_congr ⟨fun h => ?_, fun h hb => ?_⟩ (by simp)
  · -- A file is a base target only if one of the two modes is on.
    by_contra hb
    rw [Bool.not_eq_false] at hb
    have hmodes := h hb
    have hnone : r.baseTarget? = none := by
      simp only [List.filter_eq_nil_iff, List.forall_mem_cons, isOn] at hmodes
      simp [baseTarget?, hmodes]
    rw [hnone] at hb
    cases hb
  · rw [h] at hb
    cases hb

theorem Stage.agreeAt {refresh : Text → Except Fault Text} {m : Memory} {target : Option Path}
    {cs : List Change} (h : Stage refresh m target cs) {p : Path}
    (hp : target.any (·.key = p.key) = false) (m' : Memory) :
    Memory.AgreeAt p m' (m'.writeChanges cs) where
  text := h.get?_of_not_target hp m'
  count := by
    rw [Memory.writeCount_writeChanges, h.countP_key, hp]
    rfl

variable {layout : Layout} {source : SpecSource} {r : Request} {m m' : Memory}
  {result : Except Fault Report}

theorem run_eq_error {f : Fault} (h : run layout source r m = (.error f, m')) : m' = m := by
  rw [run_eq] at h
  cases hplan : plan layout source r m with
  | error e =>
    rw [hplan] at h
    exact (Prod.mk.inj h).2.symm
  | ok plan' =>
    rw [hplan] at h
    cases (Prod.mk.inj h).1

theorem agreeAt_of_run_eq_ok {report : Report} (h : run layout source r m = (.ok report, m'))
    {p : Path} (hp : r.modesOn p = []) : Memory.AgreeAt p m m' := by
  obtain ⟨g, bs, os, -, hbs, hos, -, rfl⟩ := run_eq_ok h
  obtain ⟨hb, ho⟩ := Request.modesOn_eq_nil_iff.1 hp
  rw [Memory.writeChanges, List.foldl_append]
  exact (hbs.agreeAt hb m).trans (hos.agreeAt ho _)

/-- A run that fails changes nothing, and one that succeeds only the files of its modes. -/
theorem run_changes_only_targets (h : run layout source r m = (result, m')) :
    (∀ f, result = .error f → m' = m) ∧
      ∀ report, result = .ok report → ∀ p, r.modesOn p = [] → Memory.AgreeAt p m m' := by
  constructor
  · rintro f rfl
    exact run_eq_error h
  · rintro report rfl p hp
    exact agreeAt_of_run_eq_ok h hp

def unknownOpRequest : Request :=
  { cubeRequest "b.td" with newOps := some ["OpNop"] }

def enumRequest : Request :=
  { cubeRequest "b.td" with newOps := none }

theorem run_changes_only_targets_cube :
    (∃ f, run {} cubeSource unknownOpRequest tablesMemory = (.error f, tablesMemory)) ∧
      ∃ report m', run {} cubeSource enumRequest tablesMemory = (.ok report, m') ∧
        Memory.AgreeAt "b.td" tablesMemory m' := by
  constructor
  · have hfails : (run {} cubeSource unknownOpRequest tablesMemory).1.isOk = false := by
      decide +kernel
    cases h : run {} cubeSource unknownOpRequest tablesMemory with
    | mk res m' =>
      rw [h] at hfails
      cases res with
      | ok report => cases hfails
      | error f =>
        obtain rfl := (run_changes_only_targets h).1 f rfl
        exact ⟨f, rfl⟩
  · have hok : (run {} cubeSource enumRequest tablesMemory).1.isOk := by decide +kernel
    have hmodes : enumRequest.modesOn "b.td" = [] := by decide +kernel
    cases h : run {} cubeSource enumRequest tablesMemory with
    | mk res m' =>
      rw [h] at hok
      cases res with
      | error f => cases hok
      | ok report =>
        exact ⟨report, m', rfl, (run_changes_only_targets h).2 report rfl _ hmodes⟩

inductive Event
  | run (source : SpecSource) (r : Request)
  | write (p : Path) (t : Text)

namespace Event

def apply (layout : Layout) (m : Memory) : Event → Memory
  | run source r => (SpirvTables.run layout source r m).2
  | write p t => m.write p t

def Spares (p : Path) : Event → Prop
  | run _ r => r.modesOn p = []
  | write q _ => q.key ≠ p.key

theorem Spares.agreeAt {p : Path} {e : Event} (h : e.Spares p) :
    Memory.AgreeAt p m (e.apply layout m) := by
  cases e with
  | write q t => exact .write h t
  | run source r =>
    cases hrun : SpirvTables.run layout source r m with
    | mk result m' =>
      rw [apply, hrun]
      cases result with
      | error f =>
        obtain rfl := run_eq_error hrun
        rfl
      | ok report => exact agreeAt_of_run_eq_ok hrun h

theorem agreeAt_foldl_apply {p : Path} {es : List Event} (h : ∀ e ∈ es, e.Spares p) :
    Memory.AgreeAt p m (es.foldl (apply layout) m) := by
  induction es generalizing m with
  | nil => rfl
  | cons e es ih =>
    obtain ⟨he, hes⟩ := List.forall_mem_cons.1 h
    exact he.agreeAt.trans (ih hes)

end Event

end SpirvTables
