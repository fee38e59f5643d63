import Mathlib.Data.List.Forall2
import SpirvTables.Proofs.Refresh.Frame
import SpirvTables.Proofs.Run

/-!
A run of several modes comes to the same as a run of each of them, one after another, although it
hands the base file on in memory and writes nothing before the end.
-/

namespace SpirvTables

theorem setPath_setPath {α : Type} (p : Path) (a b : α) (entries : List (Path × α)) :
    setPath p (fun _ => b) (setPath p (fun _ => a) entries) = setPath p (fun _ => b) entries := by
  induction entries with
  | nil => simp [setPath]
  | cons e rest ih =>
    obtain ⟨q, c⟩ := e
    by_cases h : q.key = p.key <;> simp [setPath, h, ih]

namespace Request

def modes (r : Request) : List Mode := [.enums, .opcodes, .ops].filter r.isOn

def only (r : Request) : Mode → Request
  | .enums => { r with newOpcodes := none, newOps := none }
  | .opcodes => { r with newEnum := none, newOps := none }
  | .ops => { r with newEnum := none, newOpcodes := none }

def base (r : Request) : Request := { r with newOps := none }

def Targeted (r : Request) : Prop := ∀ mode, r.isOn mode → (r.pathOf? mode).isSome

end Request

def Report.names (report : Report) : Mode → Option NameSet
  | .enums => report.enums
  | .opcodes => report.opcodes
  | .ops => report.ops

/-- A run for each of the modes, on the files that the run before it left, until one fails. -/
def runEach (layout : Layout) (source : SpecSource) (r : Request) :
    List Mode → Memory → Except Fault (List Report) × Memory
  | [], m => (.ok [], m)
  | mode :: modes, m =>
    match run layout source (r.only mode) m with
    | (.error f, m) => (.error f, m)
    | (.ok report, m) =>
      let (reports, m) := runEach layout source r modes m
      (reports.map (report :: ·), m)

/-- A run and a sequence of runs end with the same fault, or with the same files and with the same
names for each mode. -/
inductive Agree (modes : List Mode) :
    Except Fault Report × Memory → Except Fault (List Report) × Memory → Prop
  | error (f : Fault) (m m' : Memory) : Agree modes (.error f, m) (.error f, m')
  | ok {report : Report} {reports : List Report} {m m' : Memory} : m'.files = m.files →
      List.Forall₂ (fun mode one => one.names mode = report.names mode) modes reports →
      (∀ mode, mode ∉ modes → report.names mode = none) →
      Agree modes (.ok report, m) (.ok reports, m')

section

variable {layout : Layout} {source : SpecSource} {g : Grammar} {docs : Docs} {r : Request}
  {m m' : Memory} {modes : List Mode}

theorem Request.Targeted.validate_eq_ok (h : r.Targeted) : r.validate = .ok () := by
  have hbase : r.newEnum.isSome ∨ r.newOpcodes.isSome → r.basePath.isSome := by
    rintro (hon | hon)
    · exact h .enums hon
    · exact h .opcodes hon
  have hops : r.newOps.isSome → r.opsPath.isSome := h .ops
  unfold validate
  revert hbase hops
  cases r.newEnum <;> cases r.newOpcodes <;> cases r.newOps <;> cases r.basePath <;>
    cases r.opsPath <;> simp <;> rfl

theorem Memory.files_writeChanges (h : m.files = m'.files) (cs : List Change) :
    (m.writeChanges cs).files = (m'.writeChanges cs).files := by
  induction cs generalizing m m' with
  | nil => exact h
  | cons c cs ih => exact ih (by simp only [write, h])

theorem runEach_concat (mode : Mode) : runEach layout source r (modes ++ [mode]) m =
    match runEach layout source r modes m with
    | (.error f, m) => (.error f, m)
    | (.ok reports, m) =>
      match run layout source (r.only mode) m with
      | (.error f, m) => (.error f, m)
      | (.ok report, m) => (.ok (reports ++ [report]), m) := by
  induction modes generalizing m with
  | nil =>
    simp only [List.nil_append, runEach]
    rcases run layout source (r.only mode) m with ⟨_ | report, m'⟩ <;> rfl
  | cons first modes ih =>
    simp only [List.cons_append, runEach]
    rcases run layout source (r.only first) m with ⟨_ | report, m₁⟩
    · rfl
    · simp only [ih]
      rcases runEach layout source r modes m₁ with ⟨_ | reports, m₂⟩
      · rfl
      · simp only [Except.map]
        rcases run layout source (r.only mode) m₂ with ⟨_ | last, m₃⟩ <;> rfl

def Request.turn (r : Request) (layout : Layout) (g : Grammar) (docs : Docs) :
    Mode → Text → Except Fault (Text × NameSet)
  | .enums => refreshEnums layout g (requestedKinds (r.newEnum.getD []))
  | .opcodes => refreshOpcodes layout g (r.newOpcodes.getD [])
  | .ops => refreshOps layout g docs r.category (r.newOps.getD [])

def Request.attempt (r : Request) (layout : Layout) (g : Grammar) (docs : Docs) (mode : Mode)
    (p : Path) (m : Memory) : Except Fault (Text × NameSet) := do
  r.turn layout g docs mode (← accessible p (Store.read m p))

def Plan.single (p : Path) (t : Text) (ns : NameSet) : Mode → Plan
  | .enums => { changes := [⟨p, t⟩], enums := some ns }
  | .opcodes => { changes := [⟨p, t⟩], opcodes := some ns }
  | .ops => { changes := [⟨p, t⟩], ops := some ns }

variable {mode : Mode} {p : Path}

theorem plan_only (hon : r.isOn mode) (hp : r.pathOf? mode = some p) :
    plan layout ⟨.ok g, .ok docs⟩ (r.only mode) m = do
      let (t, ns) ← r.attempt layout g docs mode p m
      return Plan.single p t ns mode := by
  obtain ⟨basePath, opsPath, newEnum, newOpcodes, newOps, category⟩ := r
  cases mode with
  | enums | opcodes =>
    obtain ⟨name, rfl⟩ := Option.isSome_iff_exists.1 hon
    obtain rfl : basePath = some p := hp
    simp only [plan, planBase, planOps, refreshBase, Plan.single, Request.only, Request.validate,
      Request.baseTarget?, Request.attempt, Request.turn, Option.isNone_some, Option.isSome_none,
      Option.isSome_some, Option.getD_some, Bool.false_eq_true, ↓reduceIte, Bool.and_false,
      Bool.or_false, Bool.or_true, bind_pure, pure_bind, map_pure, bind_pure_comp, map_bind,
      Functor.map_map]
    rfl
  | ops =>
    obtain ⟨name, rfl⟩ := Option.isSome_iff_exists.1 hon
    obtain rfl : opsPath = some p := hp
    simp only [plan, planBase, planOps, Plan.single, Request.only, Request.validate,
      Request.baseTarget?, Request.attempt, Request.turn, Option.isNone_iff_eq_none,
      Option.isNone_some, Option.isSome_none, Option.isSome_some, Option.getD_some,
      Bool.false_eq_true, ↓reduceIte, ite_self, Bool.and_true, Bool.or_self, pure_bind,
      bind_pure_comp, map_bind, List.nil_append]
    rfl

theorem run_only (hon : r.isOn mode) (hp : r.pathOf? mode = some p) :
    run layout ⟨.ok g, .ok docs⟩ (r.only mode) m =
      match r.attempt layout g docs mode p m with
      | .error f => (.error f, m)
      | .ok (t, ns) => (.ok (Plan.single p t ns mode).report, m.write p t) := by
  rw [run_eq, plan_only hon hp]
  cases r.attempt layout g docs mode p m with
  | error f => rfl
  | ok res => cases mode <;> rfl

theorem Plan.names_single (p : Path) (t : Text) (ns : NameSet) (mode mode' : Mode) :
    (single p t ns mode).report.names mode' = if mode' = mode then some ns else none := by
  cases mode <;> cases mode' <;> rfl

theorem agree_only (mode : Mode) (hon : r.isOn mode) (hp : r.pathOf? mode = some p) :
    Agree [mode] (run layout ⟨.ok g, .ok docs⟩ (r.only mode) m)
      (runEach layout ⟨.ok g, .ok docs⟩ r [mode] m) := by
  simp only [runEach]
  rw [run_only hon hp]
  cases r.attempt layout g docs mode p m with
  | error f => exact .error f m m
  | ok res =>
    refine .ok rfl (.cons rfl .nil) ?_
    intro mode' hmode
    rw [Plan.names_single, if_neg fun h => hmode (List.mem_singleton.2 h)]

theorem attempt_write (t : Text) :
    r.attempt layout g docs mode p (m.write p t) = r.turn layout g docs mode t := by
  have hread : accessible p (Store.read (m.write p t) p) = .ok t := by
    rw [accessible_read_eq_ok_iff, Memory.get?_write, if_pos rfl]
  rw [Request.attempt, hread]
  rfl

theorem plan_both (henums : r.isOn .enums) (hopcodes : r.isOn .opcodes) (hops : r.newOps = none)
    (hp : r.basePath = some p) : plan layout ⟨.ok g, .ok docs⟩ r m = do
      let (t, enums) ← r.attempt layout g docs .enums p m
      let (t', opcodes) ← r.turn layout g docs .opcodes t
      return { changes := [⟨p, t'⟩], enums := some enums, opcodes := some opcodes } := by
  obtain ⟨basePath, opsPath, newEnum, newOpcodes, newOps, category⟩ := r
  obtain ⟨name, rfl⟩ := Option.isSome_iff_exists.1 henums
  obtain ⟨opnames, rfl⟩ := Option.isSome_iff_exists.1 hopcodes
  obtain rfl : newOps = none := hops
  obtain rfl : basePath = some p := hp
  simp only [plan, planBase, planOps, refreshBase, Request.validate, Request.baseTarget?,
    Request.attempt, Request.turn, Option.isNone_some, Option.isSome_none, Option.isSome_some,
    Option.getD_some, Bool.false_eq_true, ↓reduceIte, Bool.and_false, Bool.or_self, bind_pure,
    pure_bind, bind_assoc, bind_pure_comp, map_bind, Functor.map_map]
  rfl

theorem agree_both (henums : r.isOn .enums) (hopcodes : r.isOn .opcodes) (hops : r.newOps = none)
    (hp : r.basePath = some p) :
    Agree [.enums, .opcodes] (run layout ⟨.ok g, .ok docs⟩ r m)
      (runEach layout ⟨.ok g, .ok docs⟩ r [.enums, .opcodes] m) := by
  simp only [runEach]
  rw [run_eq, plan_both henums hopcodes hops hp, run_only henums hp]
  cases r.attempt layout g docs .enums p m with
  | error f => exact .error f m m
  | ok res =>
    obtain ⟨t, enums⟩ := res
    dsimp only [bind, Except.bind]
    rw [run_only hopcodes hp, attempt_write]
    cases r.turn layout g docs .opcodes t with
    | error f => exact .error f m _
    | ok res =>
      refine .ok (setPath_setPath ..) (.cons rfl (.cons rfl .nil)) ?_
      intro mode hmode
      cases mode with
      | enums => simp at hmode
      | opcodes => simp at hmode
      | ops => rfl

theorem Request.basePath_of_targeted (ht : r.Targeted) (hon : r.isOn .enums ∨ r.isOn .opcodes) :
    ∃ p, r.basePath = some p := by
  apply Option.isSome_iff_exists.1
  rcases hon with hon | hon
  · exact ht .enums hon
  · exact ht .opcodes hon

theorem Request.Targeted.base (ht : r.Targeted) : r.base.Targeted := by
  intro mode hon
  cases mode with
  | enums => exact ht .enums hon
  | opcodes => exact ht .opcodes hon
  | ops => cases hon

theorem plan_of_targeted (ht : r.Targeted) : plan layout ⟨.ok g, .ok docs⟩ r m =
    planBase layout g r m >>= planOps layout ⟨.ok g, .ok docs⟩ g r m := by
  rw [plan, ht.validate_eq_ok]
  rfl

theorem plan_base (ht : r.Targeted) :
    plan layout ⟨.ok g, .ok docs⟩ r.base m = planBase layout g r m :=
  (plan_of_targeted ht.base).trans (bind_pure _)

theorem agree_base (ht : r.Targeted) :
    Agree r.base.modes (run layout ⟨.ok g, .ok docs⟩ r.base m)
      (runEach layout ⟨.ok g, .ok docs⟩ r r.base.modes m) := by
  obtain ⟨basePath, opsPath, newEnum, newOpcodes, newOps, category⟩ := r
  cases newEnum with
  | none =>
    cases newOpcodes with
    | none =>
      rw [run_eq, plan_base ht]
      refine .ok rfl .nil fun mode _ => ?_
      cases mode <;> rfl
    | some opnames =>
      obtain ⟨p, hp⟩ := Request.basePath_of_targeted ht (.inr rfl)
      exact agree_only .opcodes rfl hp
  | some name =>
    obtain ⟨p, hp⟩ := Request.basePath_of_targeted ht (.inl rfl)
    cases newOpcodes with
    | none => exact agree_only .enums rfl hp
    | some opnames => exact agree_both rfl rfl rfl hp

def Plan.withOps (base : Plan) (p : Path) (t : Text) (ns : NameSet) : Plan :=
  { base with changes := base.changes ++ [⟨p, t⟩], ops := some ns }

theorem Plan.names_withOps {base : Plan} {t : Text} {ns : NameSet} (h : mode ≠ .ops) :
    (base.withOps p t ns).report.names mode = base.report.names mode := by
  cases mode with
  | enums => rfl
  | opcodes => rfl
  | ops => exact absurd rfl h

theorem planOps_eq (hon : r.isOn .ops) (hp : r.opsPath = some p) (base : Plan) :
    planOps layout ⟨.ok g, .ok docs⟩ g r m base = do
      let (t, ns) ← r.attempt layout g docs .ops p m
      return base.withOps p t ns := by
  rw [planOps_of_some ((if_pos hon).trans hp)]
  simp only [bind_pure_comp, map_bind, Request.attempt, Request.turn, Plan.withOps]
  rfl

theorem attempt_congr (h : m.get? p = m'.get? p) :
    r.attempt layout g docs mode p m = r.attempt layout g docs mode p m' := by
  simp only [Request.attempt, Store.read, h]

theorem get?_of_planBase (hs : ¬ r.Shared) (hon : r.isOn .ops) (hp : r.opsPath = some p)
    {base : Plan} (h : planBase layout g r m = .ok base) :
    (m.writeChanges base.changes).get? p = m.get? p := by
  have hops : r.opsTarget? = some p := (if_pos hon).trans hp
  have hstage : Stage (r.refreshBoth layout ⟨.ok g, .ok ⟨[]⟩⟩ g) m r.baseTarget? base.changes :=
    planBase_stage h
  apply hstage.get?_of_not_target
  rw [Option.any_eq_false]
  intro b hb
  exact decide_eq_false fun hkey => hs ⟨b, p, hb, hops, hkey⟩

theorem Agree.withOps {base : Plan} {reports : List Report} (hmodes : .ops ∉ modes) (t : Text)
    (ns : NameSet) (h : Agree modes (.ok base.report, m.writeChanges base.changes)
      (.ok reports, m')) :
    Agree (modes ++ [.ops])
      (.ok (base.withOps p t ns).report, m.writeChanges (base.withOps p t ns).changes)
      (.ok (reports ++ [(Plan.single p t ns .ops).report]), m'.write p t) := by
  cases h with
  | ok hfiles hnames hoff =>
    refine .ok ?_ ?_ ?_
    · have hwrites : m.writeChanges (base.changes ++ [⟨p, t⟩]) =
          (m.writeChanges base.changes).writeChanges [⟨p, t⟩] := List.foldl_append ..
      exact hwrites ▸ Memory.files_writeChanges hfiles [⟨p, t⟩]
    · refine List.rel_append ?_ (.cons rfl .nil)
      have hne : ∀ mode ∈ modes, mode ≠ .ops := fun mode hmem => ne_of_mem_of_not_mem hmem hmodes
      refine ((List.forall₂_and_left _ _).2 ⟨hne, hnames⟩).imp ?_
      rintro mode one ⟨hne, hone⟩
      exact hone.trans (Plan.names_withOps hne).symm
    · intro mode hmem
      rw [List.mem_append, List.mem_singleton, not_or] at hmem
      exact (Plan.names_withOps hmem.2).trans (hoff mode hmem.1)

theorem Agree.ops (ht : r.Targeted) (hs : ¬ r.Shared) (hon : r.isOn .ops) (hmodes : .ops ∉ modes)
    (h : Agree modes (run layout ⟨.ok g, .ok docs⟩ r.base m)
      (runEach layout ⟨.ok g, .ok docs⟩ r modes m)) :
    Agree (modes ++ [.ops]) (run layout ⟨.ok g, .ok docs⟩ r m)
      (runEach layout ⟨.ok g, .ok docs⟩ r (modes ++ [.ops]) m) := by
  obtain ⟨p, hp⟩ := Option.isSome_iff_exists.1 (ht .ops hon)
  rw [run_eq, plan_base ht] at h
  rw [run_eq, plan_of_targeted ht, runEach_concat]
  generalize runEach layout ⟨.ok g, .ok docs⟩ r modes m = each at h
  cases hbase : planBase layout g r m with
  | error f =>
    rw [hbase] at h
    cases h
    exact .error f m _
  | ok base =>
    rw [hbase] at h
    obtain ⟨_ | reports, m₁⟩ := each
    · cases h
    · have hget : m₁.get? p = m.get? p := by
        cases h with
        | ok hfiles _ _ =>
          rw [← get?_of_planBase hs hon hp hbase, Memory.get?, Memory.get?, hfiles]
      dsimp only [bind, Except.bind]
      rw [planOps_eq hon hp, run_only hon hp, attempt_congr hget]
      cases r.attempt layout g docs .ops p m with
      | error f => exact .error f m _
      | ok res => exact h.withOps hmodes res.1 res.2

theorem Request.modes_base (r : Request) :
    r.modes = r.base.modes ++ if r.isOn .ops then [.ops] else [] := by
  obtain ⟨basePath, opsPath, newEnum, newOpcodes, newOps, category⟩ := r
  cases newEnum <;> cases newOpcodes <;> cases newOps <;> rfl

theorem agree_run (ht : r.Targeted) (hs : ¬ r.Shared) :
    Agree r.modes (run layout ⟨.ok g, .ok docs⟩ r m)
      (runEach layout ⟨.ok g, .ok docs⟩ r r.modes m) := by
  have hbase : Agree r.base.modes (run layout ⟨.ok g, .ok docs⟩ r.base m) _ := agree_base ht
  cases hon : r.isOn .ops with
  | false =>
    have hr : r.base = r := by
      obtain ⟨basePath, opsPath, newEnum, newOpcodes, newOps, category⟩ := r
      obtain rfl : newOps = none := Option.isNone_iff_eq_none.1 (by simpa [Request.isOn] using hon)
      rfl
    rwa [hr] at hbase
  | true =>
    have hmodes : .ops ∉ r.base.modes := by simp [Request.modes, Request.base, Request.isOn]
    rw [r.modes_base, hon, if_pos rfl]
    exact hbase.ops ht hs hon hmodes

end

/-- A run of all modes of a request fails as the first of them to fail on its own would, and
otherwise leaves the files, and reports the names, that the runs of the modes come to. -/
theorem run_eq_runEach {layout : Layout} {g : Grammar} {docs : Docs} {r : Request}
    {m m' m'' : Memory} {result : Except Fault Report} {results : Except Fault (List Report)}
    (ht : r.Targeted) (hs : ¬ r.Shared)
    (hrun : run layout ⟨.ok g, .ok docs⟩ r m = (result, m'))
    (heach : runEach layout ⟨.ok g, .ok docs⟩ r r.modes m = (results, m'')) :
    (∀ f, result = .error f ↔ results = .error f) ∧
      ∀ report, result = .ok report → ∃ reports, results = .ok reports ∧ m''.files = m'.files ∧
        List.Forall₂ (fun mode one => one.names mode = report.names mode) r.modes reports ∧
        ∀ mode, mode ∉ r.modes → report.names mode = none := by
  have h : Agree r.modes (run layout ⟨.ok g, .ok docs⟩ r m) _ := agree_run ht hs
  rw [hrun, heach] at h
  cases h with
  | error f =>
    refine ⟨fun f' => ?_, nofun⟩
    rw [Except.error.injEq, Except.error.injEq]
  | ok hfiles hnames hoff =>
    refine ⟨fun _ => ⟨nofun, nofun⟩, ?_⟩
    intro report hreport
    obtain rfl := Except.ok.inj hreport
    exact ⟨_, rfl, hfiles, hnames, hoff⟩

def sectionsMemory : Memory := ⟨[("a.td", blankSections), ("b.td", blankTables)], []⟩

def sectionsRequest : Request :=
  { cubeRequest "b.td" with newOpcodes := some [] }

theorem run_eq_runEach_cube :
    sectionsRequest.Targeted ∧ ¬ sectionsRequest.Shared ∧
      ∃ report m' reports m'', run {} cubeSource sectionsRequest sectionsMemory = (.ok report, m') ∧
        runEach {} cubeSource sectionsRequest [.enums, .opcodes, .ops] sectionsMemory =
          (.ok reports, m'') ∧ m''.files = m'.files ∧
        List.Forall₂ (fun mode one => one.names mode = report.names mode) [.enums, .opcodes, .ops]
          reports := by
  have ht : sectionsRequest.Targeted := by
    intro mode _
    cases mode <;> rfl
  have hs : ¬ sectionsRequest.Shared := by
    rintro ⟨b, o, hb, ho, hkey⟩
    obtain rfl := Option.some.inj hb
    obtain rfl := Option.some.inj ho
    revert hkey
    decide +kernel
  have hok : (run {} cubeSource sectionsRequest sectionsMemory).1.isOk := by decide +kernel
  refine ⟨ht, hs, ?_⟩
  cases hrun : run {} cubeSource sectionsRequest sectionsMemory with
  | mk result m' =>
    rw [hrun] at hok
    cases result with
    | error f => cases hok
    | ok report =>
      cases heach : runEach {} cubeSource sectionsRequest sectionsRequest.modes sectionsMemory with
      | mk results m'' =>
        obtain ⟨-, hreports⟩ := run_eq_runEach ht hs hrun heach
        obtain ⟨reports, rfl, hfiles, hnames, -⟩ := hreports report rfl
        exact ⟨report, m', reports, m'', rfl, heach, hfiles, hnames⟩

end SpirvTables
