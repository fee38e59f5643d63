import SpirvTables.Command.Update
import SpirvTables.Proofs.Run
import SpirvTables.Proofs.Run.Plan
import SpirvTables.Proofs.Store.Disk

namespace SpirvTables

/-- No two paths that memory takes for different files lead to one place on the disk. -/
def Disk.Keyed (d : Disk) (ps : List Path) : Prop :=
  ∀ p ∈ ps, ∀ q ∈ ps, ∀ l, d.locate p = .ok l → d.locate q = .ok l → p.key = q.key

def Mirrors (ps : List Path) (m : Memory) (d : Disk) : Prop :=
  ∀ p ∈ ps, ∃ t, m.get? p = some t ∧ d.read p = .ok t

variable {ps : List Path} {m : Memory} {d : Disk} {p : Path} {t : Text} {cs : List Change}

theorem Mirrors.withFile (h : Mirrors ps m d) (hp : d.read p = .ok t) :
    Mirrors (ps ++ [p]) (m.withFile p t) d := by
  have hget (q : Path) : (m.withFile p t).get? q = if p.key = q.key then some t else m.get? q :=
    atPath?_setPath ..
  intro q hq
  rw [hget]
  by_cases hkey : p.key = q.key
  · rw [if_pos hkey]
    rcases List.mem_append.1 hq with hq | hq
    · obtain ⟨t', -, ht'⟩ := h q hq
      obtain rfl := Disk.read_congr hp ht' hkey
      exact ⟨t, rfl, ht'⟩
    · obtain rfl := List.mem_singleton.1 hq
      exact ⟨t, rfl, hp⟩
  · rw [if_neg hkey]
    refine h q ((List.mem_append.1 hq).resolve_right ?_)
    rintro hq
    exact hkey (congrArg Path.key (List.mem_singleton.1 hq).symm)

theorem Mirrors.write (h : Mirrors ps m d) (hd : d.Keyed ps) (hp : p ∈ ps) (t : Text) :
    ∃ d', d.write p t = .ok d' ∧ Mirrors ps (m.write p t) d' ∧ d'.Keyed ps := by
  obtain ⟨old, -, hread⟩ := h p hp
  obtain ⟨l, hl, hfile⟩ := Disk.read_eq_ok_iff.1 hread
  refine ⟨_, Disk.write_of_read hread hl, fun q hq => ?_, fun q hq q' hq' l' => ?_⟩
  · obtain ⟨t', ht', hread'⟩ := h q hq
    obtain ⟨l', hl', -⟩ := Disk.read_eq_ok_iff.1 hread'
    rw [Memory.get?_write, Disk.read_set hfile hl']
    by_cases hkey : p.key = q.key
    · have heq : l' = l := by
        rw [Disk.locate_eq_ok hl', Disk.locate_eq_ok hl, hkey]
      exact ⟨t, if_pos hkey, if_pos heq⟩
    · have hne : l' ≠ l := fun heq => hkey (hd p hp q hq l hl (heq ▸ hl'))
      rw [if_neg hkey, if_neg hne]
      exact ⟨t', ht', hread'⟩
  · rw [Disk.locate_set hfile, Disk.locate_set hfile]
    exact hd q hq q' hq' l'

theorem Mirrors.writeAll (h : Mirrors ps m d) (hd : d.Keyed ps) (hcs : ∀ c ∈ cs, c.path ∈ ps) :
    ∃ d', writeAll d cs = (.ok (), d') ∧ Mirrors ps (m.writeChanges cs) d' := by
  induction cs generalizing m d with
  | nil => exact ⟨d, rfl, h⟩
  | cons c cs ih =>
    obtain ⟨hc, hcs⟩ := List.forall_mem_cons.1 hcs
    obtain ⟨d₁, hwrite, h₁, hd₁⟩ := h.write hd hc c.text
    obtain ⟨d', hall, h'⟩ := ih h₁ hd₁ hcs
    have hstore : Store.write d c.path c.text = .ok d₁ := hwrite
    refine ⟨d', ?_, h'⟩
    rw [SpirvTables.writeAll, hstore]
    exact hall

namespace Update

variable {layout : Layout} {source : SpecSource} {r : Request} {disk disk' : Disk}
  {m' : Memory} {ps' : List Path} {report : Report}

theorem copy_eq_ok_iff {p : Path} :
    copy disk m p = .ok m' ↔ ∃ t, disk.read p = .ok t ∧ m.withFile p t = m' := by
  unfold copy
  cases disk.read p with
  | error o => simp [throw, throwThe, MonadExceptOf.throw]
  | ok t => simp [pure, Except.pure]

theorem mirrors_foldlM_copy (h : Mirrors ps m disk) (hc : ps'.foldlM (copy disk) m = .ok m') :
    Mirrors (ps ++ ps') m' disk := by
  induction ps' generalizing ps m with
  | nil =>
    obtain rfl := Except.ok.inj hc
    rwa [List.append_nil]
  | cons p ps' ih =>
    rw [List.foldlM_cons] at hc
    cases hp : copy disk m p with
    | error message =>
      rw [hp] at hc
      cases hc
    | ok m₁ =>
      rw [hp] at hc
      obtain ⟨t, ht, rfl⟩ := copy_eq_ok_iff.1 hp
      rw [List.append_cons]
      exact ih (h.withFile ht) hc

theorem exists_foldlM_copy (h : ∀ p ∈ ps, ∃ t, disk.read p = .ok t) (m : Memory) :
    ∃ m', ps.foldlM (copy disk) m = .ok m' := by
  induction ps generalizing m with
  | nil => exact ⟨m, rfl⟩
  | cons p ps ih =>
    obtain ⟨⟨t, ht⟩, h⟩ := List.forall_mem_cons.1 h
    rw [List.foldlM_cons, copy_eq_ok_iff.2 ⟨t, ht, rfl⟩]
    exact ih h _

theorem mirrors_of_copies (h : copies r disk = .ok m) : Mirrors r.targets m disk := by
  have hnone : Mirrors [] {} disk := nofun
  have hall := mirrors_foldlM_copy hnone h
  rwa [List.nil_append] at hall

theorem exists_copies_of_plan {p : Plan} (h : plan layout source r disk = .ok p) :
    ∃ m, copies r disk = .ok m :=
  exists_foldlM_copy (plan_eq_ok h).1 {}

theorem plan_of_copies (h : copies r disk = .ok m) :
    plan layout source r m = plan layout source r disk := by
  apply plan_congr
  intro p hp
  obtain ⟨t, hget, hread⟩ := mirrors_of_copies h p hp
  exact (Memory.read_eq_ok_iff.2 hget).trans hread.symm

theorem run_of_copies (hk : disk.Keyed r.targets) (h : copies r disk = .ok m) {p : Plan}
    (hp : plan layout source r disk = .ok p) :
    ∃ disk', run layout source r disk = (.ok p.report, disk') ∧
      run layout source r m = (.ok p.report, m.writeChanges p.changes) ∧
      Mirrors r.targets (m.writeChanges p.changes) disk' := by
  have hpaths : ∀ c ∈ p.changes, c.path ∈ r.targets := fun c hc =>
    (plan_eq_ok hp).2 ▸ List.mem_map_of_mem hc
  obtain ⟨disk', hall, hmirrors⟩ := (mirrors_of_copies h).writeAll hk hpaths
  exact ⟨disk', run_of_plan_ok hp hall,
    run_of_plan_ok ((plan_of_copies h).trans hp) (m.writeAll_eq _), hmirrors⟩

theorem disk_rehearse (layout : Layout) (source : SpecSource) (r : Request) (disk : Disk) :
    (rehearse layout source r disk).disk = disk := by
  unfold rehearse
  split
  · rfl
  · split <;> rfl

theorem rehearse_of_plan_error {f : Fault} (h : plan layout source r disk = .error f) :
    (rehearse layout source r disk).ending ≠ .success := by
  unfold rehearse
  cases hcopies : copies r disk with
  | error message => nofun
  | ok m =>
    dsimp only
    rw [run_of_plan_error ((plan_of_copies hcopies).trans h)]
    nofun

theorem rehearse_of_run (hm : copies r disk = .ok m)
    (h : run layout source r m = (.ok report, m')) :
    rehearse layout source r disk =
      .success disk (report.written.flatMap (preview m') ++ note report) := by
  rw [rehearse, hm]
  dsimp only
  rw [h]

theorem preview_of_get? {path t : Text} (h : m.get? path = some t) :
    preview m path = "==> " ++ path ++ " <==\n" ++ t := by
  have hread : (m.get? path).getD [] = t := by rw [h, Option.getD_some]
  exact congrArg ("==> " ++ path ++ " <==\n" ++ ·) hread

/-- A dry run leaves the disk alone, succeeds if and only if the run on the disk does, and prints
each file that this writes as it stands there afterwards. -/
theorem rehearse_shows (layout : Layout) (source : SpecSource) (r : Request) (disk : Disk)
    (hk : disk.Keyed r.targets) :
    (rehearse layout source r disk).disk = disk ∧
      ((rehearse layout source r disk).ending = .success ↔ (run layout source r disk).1.isOk) ∧
      ∀ report disk', run layout source r disk = (.ok report, disk') →
        ∃ m m', copies r disk = .ok m ∧ run layout source r m = (.ok report, m') ∧
          (rehearse layout source r disk).printed =
            report.written.flatMap (preview m') ++ note report ∧
          ∀ p ∈ report.written, ∃ t, disk'.read p = .ok t ∧
            preview m' p = "==> " ++ p ++ " <==\n" ++ t := by
  refine ⟨disk_rehearse layout source r disk, ?_⟩
  cases hplan : plan layout source r disk with
  | error f =>
    rw [run_of_plan_error hplan]
    exact ⟨⟨fun h => absurd h (rehearse_of_plan_error hplan), nofun⟩, nofun⟩
  | ok p =>
    obtain ⟨m, hm⟩ := exists_copies_of_plan hplan
    obtain ⟨after, hdisk, hmemory, hmirrors⟩ := run_of_copies hk hm hplan
    rw [hdisk, rehearse_of_run hm hmemory]
    refine ⟨⟨fun _ => rfl, fun _ => rfl⟩, fun report disk' h => ?_⟩
    obtain ⟨hreport, rfl⟩ := Prod.mk.inj h
    obtain rfl := Except.ok.inj hreport
    refine ⟨m, _, hm, hmemory, rfl, fun path hpath => ?_⟩
    have htarget : path ∈ r.targets := (plan_eq_ok hplan).2 ▸ hpath
    obtain ⟨t, hget, hread⟩ := hmirrors path htarget
    exact ⟨t, hread, preview_of_get? hget⟩

def tablesDisk : Disk := ⟨[(["t", "a.td"], .file blankTables)]⟩

def spelledRequest : Request :=
  { cubeRequest "t/./a.td" with basePath := some "t//a.td" }

theorem rehearse_shows_cube :
    tablesDisk.Keyed spelledRequest.targets ∧
      (rehearse {} cubeSource spelledRequest tablesDisk).disk = tablesDisk ∧
      (rehearse {} cubeSource spelledRequest tablesDisk).ending = .success ∧
      ∃ report disk' m', run {} cubeSource spelledRequest tablesDisk = (.ok report, disk') ∧
        (rehearse {} cubeSource spelledRequest tablesDisk).printed =
          report.written.flatMap (preview m') ++ note report ∧
        ∀ p ∈ report.written, ∃ t, disk'.read p = .ok t ∧
          preview m' p = "==> " ++ p ++ " <==\n" ++ t := by
  have hkeys : ∀ p ∈ spelledRequest.targets, ∀ q ∈ spelledRequest.targets, p.key = q.key := by
    decide +kernel
  have hk : tablesDisk.Keyed spelledRequest.targets := fun p hp q hq _ _ _ => hkeys p hp q hq
  have hok : (run {} cubeSource spelledRequest tablesDisk).1.isOk := by decide +kernel
  obtain ⟨hdisk, hends, hshows⟩ := rehearse_shows {} cubeSource spelledRequest tablesDisk hk
  refine ⟨hk, hdisk, hends.2 hok, ?_⟩
  cases hrun : run {} cubeSource spelledRequest tablesDisk with
  | mk result disk' =>
    rw [hrun] at hok
    cases result with
    | error f => cases hok
    | ok report =>
      obtain ⟨m, m', -, -, hprinted, hfiles⟩ := hshows report disk' hrun
      exact ⟨report, disk', m', rfl, hprinted, hfiles⟩

end Update

end SpirvTables
