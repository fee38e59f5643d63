import SpirvTables.Proofs.Run.Plan
import SpirvTables.Store

/-!
What a run does to the files in memory that its modes work on: each is written once, with the
result of all its modes, unless two modes meet on one file from its two sides.
-/

namespace SpirvTables

namespace Memory

def writeChanges (m : Memory) (cs : List Change) : Memory :=
  cs.foldl (fun m c => m.write c.path c.text) m

theorem writeAll_eq (m : Memory) (cs : List Change) :
    writeAll m cs = (.ok (), m.writeChanges cs) := by
  induction cs generalizing m with
  | nil => rfl
  | cons c cs ih => exact ih (m.write c.path c.text)

theorem writeCount_writeChanges (m : Memory) (cs : List Change) (p : Path) :
    (m.writeChanges cs).writeCount p = m.writeCount p + cs.countP (·.path.key = p.key) := by
  induction cs generalizing m with
  | nil => rfl
  | cons c cs ih =>
    rw [writeChanges, List.foldl_cons, ← writeChanges, ih, writeCount_write, List.countP_cons]
    simp only [decide_eq_true_eq]
    omega

theorem get?_congr (m : Memory) {p q : Path} (h : p.key = q.key) : m.get? p = m.get? q := by
  rw [get?, get?, atPath?, atPath?, h]

end Memory

namespace Request

def isOn (r : Request) : Mode → Bool
  | .enums => r.newEnum.isSome
  | .opcodes => r.newOpcodes.isSome
  | .ops => r.newOps.isSome

def pathOf? (r : Request) : Mode → Option Path
  | .enums => r.basePath
  | .opcodes => r.basePath
  | .ops => r.opsPath

def modesOn (r : Request) (p : Path) : List Mode :=
  [.enums, .opcodes, .ops].filter fun mode => r.isOn mode && (r.pathOf? mode).any (·.key = p.key)

def refresh (r : Request) (layout : Layout) (source : SpecSource) (g : Grammar) (t : Text) :
    Mode → Except Fault Text
  | .enums => (refreshEnums layout g (requestedKinds (r.newEnum.getD [])) t).map (·.1)
  | .opcodes => (refreshOpcodes layout g (r.newOpcodes.getD []) t).map (·.1)
  | .ops => do
    let docs ← source.docs
    (refreshOps layout g docs r.category (r.newOps.getD []) t).map (·.1)

/-- The base file and the file of op records are one, and modes work on both. -/
def Shared (r : Request) : Prop :=
  ∃ b o, r.baseTarget? = some b ∧ r.opsTarget? = some o ∧ b.key = o.key

end Request

inductive Stage (refresh : Text → Except Fault Text) (m : Memory) : Option Path → List Change → Prop
  | off : Stage refresh m none []
  | change {p : Path} {t t' : Text} : m.get? p = some t → refresh t = .ok t' →
      Stage refresh m (some p) [⟨p, t'⟩]

namespace Stage

variable {refresh : Text → Except Fault Text} {m : Memory} {target : Option Path}
  {cs : List Change}

theorem countP_key (h : Stage refresh m target cs) (p : Path) :
    cs.countP (·.path.key = p.key) = if target.any (·.key = p.key) then 1 else 0 := by
  cases h with
  | off => rfl
  | change _ _ => simp [List.countP_cons]

theorem get?_of_target (h : Stage refresh m target cs) {p : Path}
    (hp : target.any (·.key = p.key)) (m' : Memory) :
    ∃ t t', m.get? p = some t ∧ refresh t = .ok t' ∧ (m'.writeChanges cs).get? p = some t' := by
  cases h with
  | off => cases hp
  | @change q t t' ht ht' =>
    have hkey : q.key = p.key := by simpa using hp
    refine ⟨t, t', (m.get?_congr hkey).symm.trans ht, ht', ?_⟩
    simp [Memory.writeChanges, hkey]

theorem get?_of_not_target (h : Stage refresh m target cs) {p : Path}
    (hp : target.any (·.key = p.key) = false) (m' : Memory) :
    (m'.writeChanges cs).get? p = m'.get? p := by
  cases h with
  | off => rfl
  | change _ _ =>
    simp only [Option.any_some, decide_eq_false_iff_not] at hp
    simp [Memory.writeChanges, hp]

end Stage

section

variable {layout : Layout} {source : SpecSource} {g : Grammar} {r : Request} {m m' : Memory}
  {report : Report} {base plan' : Plan}

def Request.refreshBoth (r : Request) (layout : Layout) (source : SpecSource) (g : Grammar)
    (t : Text) : Except Fault Text :=
  ([.enums, .opcodes].filter r.isOn).foldlM (r.refresh layout source g) t

theorem map_refreshBase (t : Text) :
    (refreshBase layout g r t).map (·.1) = r.refreshBoth layout source g t := by
  unfold refreshBase Request.refreshBoth
  cases he : r.newEnum with
  | none =>
    cases ho : r.newOpcodes with
    | none => simp [Request.isOn, he, ho]; rfl
    | some opnames =>
      simp only [bind_pure_comp, pure_bind, Request.isOn, he, ho, Option.isSome_none,
        Option.isSome_some, Bool.false_eq_true, not_false_eq_true, List.filter_cons_of_neg,
        List.filter_cons_of_pos, List.filter_nil, List.foldlM_cons, List.foldlM_nil,
        Request.refresh, Option.getD_some, bind_pure]
      cases refreshOpcodes layout g opnames t <;> rfl
  | some name =>
    cases ho : r.newOpcodes with
    | none =>
      simp only [bind_pure_comp, map_pure, Request.isOn, he, ho, Option.isSome_none,
        Option.isSome_some, Bool.false_eq_true, not_false_eq_true, List.filter_cons_of_neg,
        List.filter_cons_of_pos, List.filter_nil, List.foldlM_cons, List.foldlM_nil,
        Request.refresh, Option.getD_some, bind_pure]
      cases refreshEnums layout g (requestedKinds name) t <;> rfl
    | some opnames =>
      simp only [bind_pure_comp, pure_bind, Request.isOn, he, ho, Option.isSome_some,
        List.filter_cons_of_pos, List.filter_nil, List.foldlM_cons, List.foldlM_nil,
        Request.refresh, Option.getD_some, bind_pure]
      cases refreshEnums layout g (requestedKinds name) t with
      | error e => rfl
      | ok r' =>
        cases h : refreshOpcodes layout g opnames r'.1 <;>
          simp [h, bind, Except.bind, Except.map, Functor.map]

theorem Memory.read_eq_ok_iff {p : Path} {t : Text} :
    Store.read m p = .ok t ↔ m.get? p = some t := by
  simp only [Store.read]
  cases m.get? p with
  | none => simp [throw, throwThe, MonadExceptOf.throw]
  | some t' => simp [pure, Except.pure]

theorem accessible_read_eq_ok_iff {p : Path} {t : Text} :
    accessible p (Store.read m p) = .ok t ↔ m.get? p = some t :=
  accessible_eq_ok_iff.trans Memory.read_eq_ok_iff

theorem planBase_stage (h : planBase layout g r m = .ok base) :
    Stage (r.refreshBoth layout source g) m r.baseTarget? base.changes := by
  rcases planBase_eq_ok h with ⟨hb, hbs⟩ | ⟨p, t, res, hb, ht, hres, hbs⟩
  · rw [hb, hbs]
    exact .off
  · rw [hb, hbs]
    refine .change (Memory.read_eq_ok_iff.1 ht) ?_
    rw [← map_refreshBase, hres]
    rfl

theorem planOps_stage (h : planOps layout source g r m base = .ok plan') :
    ∃ cs, Stage (r.refresh layout source g · .ops) m r.opsTarget? cs ∧
      plan'.changes = base.changes ++ cs := by
  rcases planOps_eq_ok h with ⟨ho, rfl⟩ | ⟨p, docs, t, res, ho, hdocs, ht, hres, hos⟩
  · rw [ho]
    exact ⟨[], .off, (List.append_nil _).symm⟩
  · rw [ho]
    refine ⟨[⟨p, res.1⟩], .change (Memory.read_eq_ok_iff.1 ht) ?_, hos⟩
    apply bind_eq_ok.2
    refine ⟨docs, hdocs, ?_⟩
    rw [hres]
    rfl

theorem run_eq (m : Memory) : run layout source r m =
    match plan layout source r m with
    | .error f => (.error f, m)
    | .ok p => (.ok p.report, m.writeChanges p.changes) := by
  cases h : plan layout source r m with
  | error f => exact run_of_plan_error h
  | ok p => exact run_of_plan_ok h (m.writeAll_eq _)

theorem run_eq_ok (h : run layout source r m = (.ok report, m')) :
    ∃ g bs os, source.grammar = .ok g ∧
      Stage (r.refreshBoth layout source g) m r.baseTarget? bs ∧
      Stage (r.refresh layout source g · .ops) m r.opsTarget? os ∧
      report.written = (bs ++ os).map (·.path) ∧ m' = m.writeChanges (bs ++ os) := by
  rw [run_eq] at h
  cases hplan : plan layout source r m with
  | error e => simp [hplan] at h
  | ok plan' =>
    rw [hplan] at h
    obtain ⟨hr, rfl⟩ := Prod.mk.inj h
    obtain rfl := Except.ok.inj hr
    unfold plan at hplan
    obtain ⟨-, -, hplan⟩ := bind_eq_ok.1 hplan
    obtain ⟨g, hg, hplan⟩ := bind_eq_ok.1 hplan
    obtain ⟨base, hbase, hplan⟩ := bind_eq_ok.1 hplan
    obtain ⟨os, hos, hcs⟩ := planOps_stage hplan
    exact ⟨g, base.changes, os, hg, planBase_stage hbase, hos, by rw [Plan.report, hcs],
      by rw [hcs]⟩

theorem Request.modesOn_eq (r : Request) (p : Path) :
    r.modesOn p = (if r.baseTarget?.any (·.key = p.key) then [.enums, .opcodes].filter r.isOn
      else []) ++ if r.opsTarget?.any (·.key = p.key) then [.ops] else [] := by
  unfold modesOn baseTarget? opsTarget?
  cases he : r.newEnum <;> cases hc : r.newOpcodes <;> cases ho : r.newOps <;>
    cases hb : r.basePath.any (·.key = p.key) <;> cases hp : r.opsPath.any (·.key = p.key) <;>
    simp [isOn, pathOf?, he, hc, ho, hb, hp]

/-- A file was written once, with what its modes make of it one after the other. -/
structure WrittenOnce (layout : Layout) (source : SpecSource) (g : Grammar) (r : Request)
    (m m' : Memory) (report : Report) (p : Path) : Prop where
  count : m'.writeCount p = m.writeCount p + 1
  listed : report.written.countP (·.key = p.key) = 1
  text : ∃ t t', m.get? p = some t ∧
    (r.modesOn p).foldlM (r.refresh layout source g) t = .ok t' ∧ m'.get? p = some t'

theorem Request.targets_of_not_shared {p : Path} (hs : ¬ r.Shared) (hp : r.modesOn p ≠ []) :
    (r.baseTarget?.any (·.key = p.key) = true ∧ r.opsTarget?.any (·.key = p.key) = false) ∨
      (r.baseTarget?.any (·.key = p.key) = false ∧ r.opsTarget?.any (·.key = p.key) = true) := by
  rw [modesOn_eq] at hp
  cases hb : r.baseTarget?.any (·.key = p.key) with
  | false =>
    cases ho : r.opsTarget?.any (·.key = p.key) with
    | false => simp [hb, ho] at hp
    | true => exact .inr ⟨rfl, rfl⟩
  | true =>
    cases ho : r.opsTarget?.any (·.key = p.key) with
    | false => exact .inl ⟨rfl, rfl⟩
    | true =>
      obtain ⟨b, hb, hkb⟩ := (Option.any_eq_true _ _).1 hb
      obtain ⟨o, ho, hko⟩ := (Option.any_eq_true _ _).1 ho
      refine absurd ⟨b, o, hb, ho, ?_⟩ hs
      rw [of_decide_eq_true hkb, of_decide_eq_true hko]

section

variable {bs os : List Change}

theorem countP_key_append (hbs : Stage (r.refreshBoth layout source g) m r.baseTarget? bs)
    (hos : Stage (r.refresh layout source g · .ops) m r.opsTarget? os) (p : Path) :
    (bs ++ os).countP (·.path.key = p.key) =
      (if r.baseTarget?.any (·.key = p.key) then 1 else 0) +
        if r.opsTarget?.any (·.key = p.key) then 1 else 0 := by
  rw [List.countP_append, hbs.countP_key, hos.countP_key]

theorem get?_of_not_shared (hbs : Stage (r.refreshBoth layout source g) m r.baseTarget? bs)
    (hos : Stage (r.refresh layout source g · .ops) m r.opsTarget? os) {p : Path}
    (hs : ¬ r.Shared) (hp : r.modesOn p ≠ []) :
    ∃ t t', m.get? p = some t ∧ (r.modesOn p).foldlM (r.refresh layout source g) t = .ok t' ∧
      (m.writeChanges (bs ++ os)).get? p = some t' := by
  have hwrites : m.writeChanges (bs ++ os) = (m.writeChanges bs).writeChanges os :=
    List.foldl_append ..
  rw [hwrites, Request.modesOn_eq]
  rcases Request.targets_of_not_shared hs hp with ⟨hb, ho⟩ | ⟨hb, ho⟩
  · obtain ⟨t, t', ht, ht', hget⟩ := hbs.get?_of_target hb m
    refine ⟨t, t', ht, ?_, ?_⟩
    · rw [hb, ho, if_pos rfl, if_neg Bool.false_ne_true, List.append_nil]
      exact ht'
    · rw [hos.get?_of_not_target ho, hget]
  · obtain ⟨t, t', ht, ht', hget⟩ := hos.get?_of_target ho (m.writeChanges bs)
    refine ⟨t, t', ht, ?_, hget⟩
    simpa [hb, ho] using ht'

end

/-- A run writes each file that its modes work on once and with all that they do, if and only if
they do not share a file. -/
theorem run_writtenOnce_iff_not_shared (h : run layout source r m = (.ok report, m')) :
    ∃ g, source.grammar = .ok g ∧
      ((∀ p, r.modesOn p ≠ [] → WrittenOnce layout source g r m m' report p) ↔ ¬ r.Shared) := by
  obtain ⟨g, bs, os, hg, hbs, hos, hwritten, rfl⟩ := run_eq_ok h
  refine ⟨g, hg, ?_⟩
  constructor
  · rintro hall ⟨b, o, hb, ho, hkey⟩
    have hmodes : r.modesOn o ≠ [] := by simp [Request.modesOn_eq, ho]
    have hc := (hall o hmodes).count
    rw [Memory.writeCount_writeChanges, countP_key_append hbs hos, hb, ho] at hc
    simp [hkey] at hc
  · intro hs p hp
    have hone : (bs ++ os).countP (·.path.key = p.key) = 1 := by
      rw [countP_key_append hbs hos]
      rcases Request.targets_of_not_shared hs hp with ⟨hb, ho⟩ | ⟨hb, ho⟩
      · rw [hb, ho]
        rfl
      · rw [hb, ho]
        rfl
    refine ⟨?_, ?_, get?_of_not_shared hbs hos hs hp⟩
    · rw [Memory.writeCount_writeChanges, hone]
    · rw [hwritten, List.countP_map]
      exact hone

theorem run_of_shared (h : run layout source r m = (.ok report, m')) {b o : Path}
    (hb : r.baseTarget? = some b) (ho : r.opsTarget? = some o) (hkey : b.key = o.key) :
    m'.writeCount o = m.writeCount o + 2 ∧ report.written = [b, o] ∧
      ∃ g t t', source.grammar = .ok g ∧ m.get? o = some t ∧
        r.refresh layout source g t .ops = .ok t' ∧ m'.get? o = some t' := by
  obtain ⟨g, bs, os, hg, hbs, hos, hwritten, rfl⟩ := run_eq_ok h
  obtain ⟨t, t', ht, ht', hget⟩ := hos.get?_of_target (p := o) (by simp [ho]) (m.writeChanges bs)
  refine ⟨?_, ?_, g, t, t', hg, ht, ht', ?_⟩
  · rw [Memory.writeCount_writeChanges, List.countP_append, hbs.countP_key, hos.countP_key, hb, ho]
    simp [hkey]
  · rw [hb] at hbs
    rw [ho] at hos
    cases hbs
    cases hos
    exact hwritten
  · rw [Memory.writeChanges, List.foldl_append]
    exact hget

end

def cubeGrammar : Grammar := ⟨[⟨"Dim", .valueEnum, [⟨"Cube", 3⟩]⟩], []⟩

def cubeSource : SpecSource := ⟨.ok cubeGrammar, .ok ⟨[]⟩⟩

def blankTables : Text :=
  MarkedSection.enumMarker ++ "\n\n// End " ++ MarkedSection.enumMarker ++ "\n// -----\n\n"

def tablesMemory : Memory := ⟨[("a.td", blankTables), ("b.td", blankTables)], []⟩

def cubeRequest (opsPath : Path) : Request where
  basePath := some "a.td"
  opsPath := some opsPath
  newEnum := some "Dim"
  newOps := some []

theorem run_writtenOnce_iff_not_shared_cube :
    ∃ report m', run {} cubeSource (cubeRequest "b.td") tablesMemory = (.ok report, m') ∧
      ∀ p ∈ ([("a.td" : Text), "b.td"] : List Path),
        WrittenOnce {} cubeSource cubeGrammar (cubeRequest "b.td") tablesMemory m' report p := by
  have hok : (run {} cubeSource (cubeRequest "b.td") tablesMemory).1.isOk := by decide +kernel
  have hs : ¬ (cubeRequest "b.td").Shared := by
    rintro ⟨b, o, hb, ho, hkey⟩
    obtain rfl := Option.some.inj hb
    obtain rfl := Option.some.inj ho
    revert hkey
    decide +kernel
  have hmodes : ∀ p ∈ ([("a.td" : Text), "b.td"] : List Path),
      (cubeRequest "b.td").modesOn p ≠ [] := by decide +kernel
  cases h : run {} cubeSource (cubeRequest "b.td") tablesMemory with
  | mk res m' =>
    rw [h] at hok
    cases res with
    | error e => cases hok
    | ok report =>
      obtain ⟨g, hg, hiff⟩ := run_writtenOnce_iff_not_shared h
      obtain rfl := Except.ok.inj hg
      exact ⟨report, m', rfl, fun p hp => hiff.2 hs p (hmodes p hp)⟩

theorem run_not_writtenOnce_of_shared_cube :
    ∃ report m', run {} cubeSource (cubeRequest "a.td") tablesMemory = (.ok report, m') ∧
      (cubeRequest "a.td").modesOn "a.td" = [.enums, .ops] ∧
      m'.get? "a.td" = some blankTables ∧
      ¬ WrittenOnce {} cubeSource cubeGrammar (cubeRequest "a.td") tablesMemory m' report
        "a.td" := by
  have hok : (run {} cubeSource (cubeRequest "a.td") tablesMemory).1.isOk := by decide +kernel
  have hget : (run {} cubeSource (cubeRequest "a.td") tablesMemory).2.get? "a.td" =
      some blankTables := by decide +kernel
  cases h : run {} cubeSource (cubeRequest "a.td") tablesMemory with
  | mk res m' =>
    rw [h] at hok hget
    cases res with
    | error e => cases hok
    | ok report =>
      refine ⟨report, m', rfl, by decide +kernel, hget, fun honce => ?_⟩
      have hcount := honce.count
      rw [(run_of_shared h rfl rfl rfl).1] at hcount
      omega

end SpirvTables
