import SpirvTables.Proofs.Fault
import SpirvTables.Run

namespace SpirvTables

def Request.targets (r : Request) : List Path := r.baseTarget?.toList ++ r.opsTarget?.toList

section

variable {σ τ : Type} [Store σ] [Store τ] {s : σ} {s' : τ} {layout : Layout} {source : SpecSource}
  {g : Grammar} {r : Request} {p : Path} {base plan' : Plan}

theorem planOps_of_none (h : r.opsTarget? = none) :
    planOps layout source g r s base = .ok base := by
  unfold planOps
  split
  · next opnames p ho hp =>
    rw [Request.opsTarget?, ho, hp] at h
    cases h
  · rfl

theorem planOps_of_some (h : r.opsTarget? = some p) :
    planOps layout source g r s base = do
      let docs ← source.docs
      let t ← accessible p (Store.read s p)
      let (text, names) ← refreshOps layout g docs r.category (r.newOps.getD []) t
      return { base with changes := base.changes ++ [⟨p, text⟩], ops := some names } := by
  unfold Request.opsTarget? at h
  cases ho : r.newOps with
  | none =>
    rw [ho] at h
    cases h
  | some opnames =>
    rw [ho] at h
    have hp : r.opsPath = some p := h
    simp only [planOps, ho, hp, Option.getD_some]

theorem plan_congr (h : ∀ p ∈ r.targets, Store.read s p = Store.read s' p) :
    plan layout source r s = plan layout source r s' := by
  have hbase (g : Grammar) : planBase layout g r s = planBase layout g r s' := by
    unfold planBase
    cases hb : r.baseTarget? with
    | none => rfl
    | some p => simp only [h p (by simp [Request.targets, hb])]
  have hops (g : Grammar) (base : Plan) :
      planOps layout source g r s base = planOps layout source g r s' base := by
    cases ho : r.opsTarget? with
    | none => rw [planOps_of_none ho, planOps_of_none ho]
    | some p => simp only [planOps_of_some ho, h p (by simp [Request.targets, ho])]
  simp only [plan, hbase, hops]

theorem accessible_eq_ok_iff {α : Type} {x : Except Obstacle α} {a : α} :
    accessible p x = .ok a ↔ x = .ok a := by
  cases x with
  | error o => constructor <;> nofun
  | ok b =>
    constructor
    · intro h
      obtain rfl := Except.ok.inj h
      rfl
    · intro h
      obtain rfl := Except.ok.inj h
      rfl

theorem planBase_eq_ok (h : planBase layout g r s = .ok base) :
    (r.baseTarget? = none ∧ base.changes = []) ∨
      ∃ p t res, r.baseTarget? = some p ∧ Store.read s p = .ok t ∧
        refreshBase layout g r t = .ok res ∧ base.changes = [⟨p, res.1⟩] := by
  unfold planBase at h
  cases hb : r.baseTarget? with
  | none =>
    rw [hb] at h
    obtain rfl := Except.ok.inj h
    exact .inl ⟨rfl, rfl⟩
  | some p =>
    rw [hb] at h
    obtain ⟨t, ht, h⟩ := bind_eq_ok.1 h
    obtain ⟨res, hres, h⟩ := bind_eq_ok.1 h
    obtain rfl := Except.ok.inj h
    exact .inr ⟨p, t, res, rfl, accessible_eq_ok_iff.1 ht, hres, rfl⟩

theorem planOps_eq_ok (h : planOps layout source g r s base = .ok plan') :
    (r.opsTarget? = none ∧ plan' = base) ∨
      ∃ p docs t res, r.opsTarget? = some p ∧ source.docs = .ok docs ∧ Store.read s p = .ok t ∧
        refreshOps layout g docs r.category (r.newOps.getD []) t = .ok res ∧
        plan'.changes = base.changes ++ [⟨p, res.1⟩] := by
  cases ho : r.opsTarget? with
  | none =>
    rw [planOps_of_none ho] at h
    exact .inl ⟨rfl, (Except.ok.inj h).symm⟩
  | some p =>
    rw [planOps_of_some ho] at h
    obtain ⟨docs, hdocs, h⟩ := bind_eq_ok.1 h
    obtain ⟨t, ht, h⟩ := bind_eq_ok.1 h
    obtain ⟨res, hres, h⟩ := bind_eq_ok.1 h
    obtain rfl := Except.ok.inj h
    exact .inr ⟨p, docs, t, res, rfl, hdocs, accessible_eq_ok_iff.1 ht, hres, rfl⟩

theorem plan_eq_ok (h : plan layout source r s = .ok plan') :
    (∀ p ∈ r.targets, ∃ t, Store.read s p = .ok t) ∧
      plan'.changes.map (·.path) = r.targets := by
  unfold plan at h
  obtain ⟨-, -, h⟩ := bind_eq_ok.1 h
  obtain ⟨g, -, h⟩ := bind_eq_ok.1 h
  obtain ⟨base, hbase, hops⟩ := bind_eq_ok.1 h
  unfold Request.targets
  rcases planBase_eq_ok hbase with ⟨hb, hbs⟩ | ⟨b, t, res, hb, ht, -, hbs⟩ <;>
    rcases planOps_eq_ok hops with ⟨ho, rfl⟩ | ⟨o, docs, u, res', ho, -, hu, -, hos⟩
  · simp [hb, ho, hbs]
  · simp [hb, ho, hbs, hos, hu]
  · simp [hb, ho, hbs, ht]
  · simp [hb, ho, hbs, hos, ht, hu]

def Plan.report (p : Plan) : Report where
  written := p.changes.map (·.path)
  enums := p.enums
  opcodes := p.opcodes
  ops := p.ops

theorem run_of_plan_error {f : Fault} (h : plan layout source r s = .error f) :
    run layout source r s = (.error f, s) := by
  rw [run, h]

theorem run_of_plan_ok {after : σ} (h : plan layout source r s = .ok plan')
    (hw : writeAll s plan'.changes = (.ok (), after)) :
    run layout source r s = (.ok plan'.report, after) := by
  rw [run, h]
  dsimp only
  rw [hw]
  rfl

end

end SpirvTables
