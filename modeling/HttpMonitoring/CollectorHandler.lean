import HttpMonitoring.CollectorLock
import HttpMonitoring.ZoneRegions

/-!
# The collector's handler

`collect` as a worker that is alone runs it, from what it finds. It is a run of
the steps that take and release the lock.
-/

namespace HttpMonitoring.CollectorHandler

open Accounting Collectors Collection SystemCollectors CollectorLock ZoneRegions History
open WorkerRows (SelfStatus collectSelfStatus)

variable {w : Nat}

/-- What the handler finds. -/
structure Sources (w : Nat) where
  clock : Clock w
  status : Option Bytes
  stub : Option (StubStatus w)
  stat : Option Bytes
  loadavg : Option Bytes
  meminfo : Option Bytes
  uptime : Option Bytes
  names : Option (List Bytes)
  tcp : Option Bytes
  tcp6 : Option Bytes
  sockstat : Option Bytes
  diskstats : Option Bytes
  statvfs : Bytes → Option Statvfs
  mounts : Option Bytes
  netDev : Option Bytes
  addresses : Option (List Ifaddr)

namespace Sources

variable (k : Sources w)

def systemSteps : List (Step w) :=
  [.cpu k.stat, .load k.loadavg, .meminfo k.meminfo, .uptime k.uptime, .processes k.names, .tcp k.tcp k.tcp6,
    .sockstat k.sockstat, .diskstats k.diskstats, .filesystems k.statvfs k.mounts]

def steps (conf : MainConf w) : List (Step w) :=
  (if conf.collectNginx then [.nginx k.stub] else []) ++ (if conf.collectSystem then k.systemSteps else []) ++
    (if conf.collectNetwork then [.network k.netDev k.addresses] else [])

theorem mem_steps {conf : MainConf w} {x : Step w} (h : x ∈ k.steps conf) :
    x = .nginx k.stub ∨ x ∈ k.systemSteps ∨ x = .network k.netDev k.addresses := by
  rw [steps, List.mem_append, List.mem_append] at h
  rcases h with (h | h) | h
  · split at h
    · exact Or.inl (List.mem_singleton.mp h)
    · cases h
  · split at h
    · exact Or.inr (Or.inl h)
    · cases h
  · split at h
    · exact Or.inr (Or.inr (List.mem_singleton.mp h))
    · cases h

theorem nodup_regions (conf : MainConf w) : ((k.steps conf).map Step.region).Nodup := by
  rw [steps]
  split_ifs <;> simp [systemSteps, Step.region]

theorem region_ne (conf : MainConf w) {x : Step w} (h : x ∈ k.steps conf) :
    x.region ≠ .accounting ∧ x.region ≠ .rest := by
  have hRegions : ∀ i ∈ (k.steps conf).map Step.region, i ≠ .accounting ∧ i ≠ .rest := by
    rw [steps]
    split_ifs <;> simp [systemSteps, Step.region]
  exact hRegions _ (List.mem_map_of_mem h)

end Sources

section Handler

variable (D : Library.Doubles.Rounding)

def pass (conf : MainConf w) (k : Sources w) (sh : Shctx w) : Shctx w :=
  let sh := collectHistory conf k.clock (runSteps D (k.steps conf) sh)
  { sh with generation := sh.generation + 1 }

def collect (p : Process w) (k : Sources w) (sh : Shctx w) : Shctx w :=
  let sh := collectSelfStatus p.slot (readSelfStatus k.status) (p.register k.clock.time sh)
  if sh.collectorLock = 0 then
    let sh := pass D p.conf k { sh with collectorLock := p.pid }
    { sh with collectorLock := 0 }
  else sh

end Handler

theorem get_collectHistory (conf : MainConf w) (clock : Clock w) {i : Region} (h : i ≠ .rest) (sh : Shctx w) :
    i.get (collectHistory conf clock sh) = i.get sh := by
  obtain ⟨averageRps, averageResp, hAverages⟩ := withAverages_writes
    (Rates.Channel.requests.rate conf clock sh) (Rates.Channel.responses.rate conf clock sh) sh
  by_cases hEarly : TooEarly conf (nowMsec clock) sh
  · rw [collectHistory, if_pos hEarly]
  · rw [collectHistory, if_neg hEarly, Rates.averaged_eq, hAverages]
    cases i <;> first | rfl | exact absurd rfl h

theorem lock_collectHistory (conf : MainConf w) (clock : Clock w) (sh : Shctx w) :
    (collectHistory conf clock sh).collectorLock = sh.collectorLock ∧
      (collectHistory conf clock sh).generation = sh.generation := by
  obtain ⟨averageRps, averageResp, hAverages⟩ := withAverages_writes
    (Rates.Channel.requests.rate conf clock sh) (Rates.Channel.responses.rate conf clock sh) sh
  by_cases hEarly : TooEarly conf (nowMsec clock) sh
  · rw [collectHistory, if_pos hEarly]
    exact ⟨rfl, rfl⟩
  · rw [collectHistory, if_neg hEarly, Rates.averaged_eq, hAverages]
    exact ⟨rfl, rfl⟩

theorem collectorLock_run (D : Library.Doubles.Rounding) {x : Step w} (h : x.region ≠ .rest) (sh : Shctx w) :
    (x.run D sh).collectorLock = sh.collectorLock :=
  congrArg Region.Rest.collectorLock (x.keeps D .rest sh h.symm)

/-- The rows of the workers, which the handler fills before it takes the lock. -/
theorem status_writes (p : Process w) (found : Option (SelfStatus w)) (now : BitVec w) (sh : Shctx w) :
    ∃ workers, collectSelfStatus p.slot found (p.register now sh) = { sh with workers := workers } := by
  have hRegister : ∃ workers, p.register now sh = { sh with workers := workers } := by
    rw [Process.register]
    split
    · exact ⟨_, rfl⟩
    · exact ⟨sh.workers, rfl⟩
  obtain ⟨workers, hRegister⟩ := hRegister
  rw [hRegister]
  obtain ⟨workers', hStatus⟩ := Step.collectSelfStatus_writes p.slot found { sh with workers := workers }
  exact ⟨workers', hStatus⟩

/-- The handler fills the rows of the worker, and with a free lock it also runs a pass. -/
theorem collect_cases (D : Library.Doubles.Rounding) (p : Process w) (k : Sources w) (sh : Shctx w) : ∃ workers,
    collect D p k sh = if sh.collectorLock = 0 then
      { pass D p.conf k { sh with workers := workers, collectorLock := p.pid } with collectorLock := 0 }
    else { sh with workers := workers } := by
  obtain ⟨workers, hStatus⟩ := status_writes p (readSelfStatus k.status) k.clock.time sh
  exact ⟨workers, by rw [collect, hStatus]⟩

theorem accounting_notMem (k : Sources w) (conf : MainConf w) :
    Region.accounting ∉ (k.steps conf).map Step.region := by
  intro hMem
  obtain ⟨x, hx, hRegion⟩ := List.mem_map.mp hMem
  exact (k.region_ne conf hx).1 hRegion

/-- No collector touches the rows of the workers. -/
theorem workers_collect (D : Library.Doubles.Rounding) (p : Process w) (k : Sources w) (sh : Shctx w) :
    (collect D p k sh).workers =
      (collectSelfStatus p.slot (readSelfStatus k.status) (p.register k.clock.time sh)).workers := by
  rw [collect]
  generalize collectSelfStatus p.slot (readSelfStatus k.status) (p.register k.clock.time sh) = sh'
  dsimp only
  split
  · have hHistory := get_collectHistory p.conf k.clock (by decide : Region.accounting ≠ .rest)
      (runSteps D (k.steps p.conf) { sh' with collectorLock := p.pid })
    have hSteps := get_runSteps_of_notMem D (accounting_notMem k p.conf) { sh' with collectorLock := p.pid }
    have hRegion := hHistory.trans hSteps
    simp only [Region.get, Prod.mk.injEq] at hRegion
    exact hRegion.2.2.1
  · rfl

theorem rest_notMem (k : Sources w) (conf : MainConf w) : Region.rest ∉ (k.steps conf).map Step.region := by
  intro hMem
  obtain ⟨x, hx, hRegion⟩ := List.mem_map.mp hMem
  exact (k.region_ne conf hx).2 hRegion

section Regions

variable (D : Library.Doubles.Rounding) (p : Process w) (k : Sources w) {sh : Shctx w} (hFree : sh.collectorLock = 0)
include hFree

theorem get_collect {i : Region} (h : i ≠ .rest) : ∃ workers, i.get (collect D p k sh) =
    i.get (runSteps D (k.steps p.conf) { sh with workers := workers, collectorLock := p.pid }) := by
  obtain ⟨workers, hCollect⟩ := collect_cases D p k sh
  refine ⟨workers, ?_⟩
  have hHistory := get_collectHistory p.conf k.clock h
    (runSteps D (k.steps p.conf) { sh with workers := workers, collectorLock := p.pid })
  rw [← hHistory, hCollect, if_pos hFree, pass]
  cases i <;> first | rfl | exact absurd rfl h

/-- Behind the handler the region of a collector is as the collector alone
leaves it. -/
theorem get_collect_of_mem {x : Step w} (hMem : x ∈ k.steps p.conf) :
    x.region.get (collect D p k sh) = x.region.get (x.run D sh) := by
  obtain ⟨hAccounting, hRest⟩ := k.region_ne p.conf hMem
  obtain ⟨workers, hCollected⟩ := get_collect D p k hFree hRest
  rw [hCollected, get_runSteps_of_mem D (k.nodup_regions p.conf) hMem]
  refine x.own D _ _ ?_
  generalize x.region = i at hAccounting hRest
  cases i <;> first | rfl | exact absurd rfl hAccounting | exact absurd rfl hRest

theorem get_collect_of_notMem {i : Region} (hAccounting : i ≠ .accounting) (hRest : i ≠ .rest)
    (hMem : i ∉ (k.steps p.conf).map Step.region) : i.get (collect D p k sh) = i.get sh := by
  obtain ⟨workers, hCollected⟩ := get_collect D p k hFree hRest
  rw [hCollected, get_runSteps_of_notMem D hMem]
  cases i <;> first | rfl | exact absurd rfl hAccounting | exact absurd rfl hRest

theorem lock_collect : (collect D p k sh).collectorLock = 0 ∧
    (collect D p k sh).generation = sh.generation + 1 := by
  obtain ⟨workers, hCollect⟩ := collect_cases D p k sh
  have hSteps := get_runSteps_of_notMem D (rest_notMem k p.conf) { sh with workers := workers, collectorLock := p.pid }
  have hGeneration := congrArg Region.Rest.generation hSteps
  rw [hCollect, if_pos hFree, pass]
  exact ⟨rfl, congrArg (· + 1) ((lock_collectHistory p.conf k.clock _).2.trans hGeneration)⟩

theorem accounting_collect : ∃ workers, Region.accounting.get (collect D p k sh) =
    Region.accounting.get { sh with workers := workers } := by
  obtain ⟨workers, hCollected⟩ := get_collect D p k hFree (by decide : Region.accounting ≠ .rest)
  exact ⟨workers, hCollected.trans (get_runSteps_of_notMem D (accounting_notMem k p.conf) _)⟩

end Regions

section Stages

variable (D : Library.Doubles.Rounding)

/-- A stage of a pass, from what it finds. -/
def work (conf : MainConf w) (k : Sources w) : CollectorLock.Stage → Shctx w → Shctx w
  | .nginx => (Step.nginx k.stub).run D
  | .cpu => (Step.cpu k.stat).run D
  | .load => (Step.load k.loadavg).run D
  | .meminfo => (Step.meminfo k.meminfo).run D
  | .uptime => (Step.uptime k.uptime).run D
  | .processes => (Step.processes k.names).run D
  | .tcp => (Step.tcp k.tcp k.tcp6).run D
  | .sockstat => (Step.sockstat k.sockstat).run D
  | .diskstats => (Step.diskstats k.diskstats).run D
  | .filesystems => (Step.filesystems k.statvfs k.mounts).run D
  | .network => (Step.network k.netDev k.addresses).run D
  | .history => collectHistory conf k.clock

theorem foldl_work (conf : MainConf w) (k : Sources w) (sh : Shctx w) :
    (stages conf).foldl (fun sh stage => work D conf k stage sh) sh =
      collectHistory conf k.clock (runSteps D (k.steps conf) sh) := by
  rw [stages, Sources.steps]
  split_ifs <;> rfl

theorem collectorLock_work (conf : MainConf w) (k : Sources w) (stage : CollectorLock.Stage) (sh : Shctx w) :
    (work D conf k stage sh).collectorLock = sh.collectorLock := by
  cases stage with
  | history => exact (lock_collectHistory conf k.clock sh).1
  | _ => exact collectorLock_run D (by simp [Step.region]) sh

theorem collectorLock_collectSelfStatus (slot : Int) (found : Option (SelfStatus w)) (sh : Shctx w) :
    (collectSelfStatus slot found sh).collectorLock = sh.collectorLock := by
  obtain ⟨_, hStatus⟩ := Step.collectSelfStatus_writes slot found sh
  rw [hStatus]

theorem keepLock_eq {write : Shctx w → Shctx w} {sh : Shctx w}
    (h : (write sh).collectorLock = sh.collectorLock) : keepLock write sh = write sh := by
  rw [keepLock, ← h]

/-- What a process writes in its next step, from what it finds. -/
def ownWrite (p : Process w) (k : Sources w) : Shctx w → Shctx w :=
  match p.phase with
  | .selfStatus => collectSelfStatus p.slot (readSelfStatus k.status)
  | .pass (stage :: _) => work D p.conf k stage
  | _ => id

def underLock (p : Process w) (k : Sources w) (sh : Shctx w) : Shctx w :=
  if sh.collectorLock = 0 then { pass D p.conf k { sh with collectorLock := p.pid } with collectorLock := 0 } else sh

/-- Where the handler ends when nothing but its own steps is taken. -/
def outcome (k : Sources w) (p : Process w) (sh : Shctx w) : Process w × Shctx w :=
  let back := { p with phase := .waiting (!p.exiting && p.collectorActive) }
  match p.phase with
  | .waiting _ => (p, sh)
  | .selfStatus => (back, underLock D p k (collectSelfStatus p.slot (readSelfStatus k.status) sh))
  | .acquire => (back, underLock D p k sh)
  | .pass rest =>
    let sh := rest.foldl (fun sh stage => work D p.conf k stage sh) sh
    (back, { sh with generation := sh.generation + 1, collectorLock := 0 })
  | .release => (back, { sh with collectorLock := 0 })
  | .rearm => (back, sh)

/-- The handler's own steps do not change where it ends. -/
theorem outcome_stepProcess {k : Sources w} {p p' : Process w} {sh sh' : Shctx w}
    (h : stepProcess (ownWrite D p k) sh p = some (p', sh')) : outcome D k p' sh' = outcome D k p sh := by
  obtain ⟨slot, pid, conf, collectorActive, exiting, phase⟩ := p
  rw [stepProcess] at h
  cases phase with
  | waiting timer => cases h
  | selfStatus =>
    obtain ⟨rfl, rfl⟩ := Prod.mk.inj (Option.some.inj h)
    simp only [outcome, ownWrite, keepLock_eq (collectorLock_collectSelfStatus slot (readSelfStatus k.status) sh)]
    rfl
  | acquire =>
    dsimp only at h
    split at h
    · rename_i hFree
      obtain ⟨rfl, rfl⟩ := Prod.mk.inj (Option.some.inj h)
      simp only [outcome, underLock, if_pos hFree, pass, foldl_work]
    · rename_i hTaken
      obtain ⟨rfl, rfl⟩ := Prod.mk.inj (Option.some.inj h)
      simp only [outcome, underLock, if_neg hTaken]
  | pass rest =>
    cases rest with
    | nil =>
      obtain ⟨rfl, rfl⟩ := Prod.mk.inj (Option.some.inj h)
      rfl
    | cons stage rest =>
      obtain ⟨rfl, rfl⟩ := Prod.mk.inj (Option.some.inj h)
      simp only [outcome, ownWrite, List.foldl_cons, keepLock_eq (collectorLock_work D conf k stage sh)]
  | release =>
    obtain ⟨rfl, rfl⟩ := Prod.mk.inj (Option.some.inj h)
    rfl
  | rearm =>
    obtain ⟨rfl, rfl⟩ := Prod.mk.inj (Option.some.inj h)
    rfl

/-- The steps that a process has still to take in its handler. -/
def stepsLeft : Phase → List CollectorLock.Stage → Nat
  | .waiting _, _ => 0
  | .selfStatus, all => all.length + 5
  | .acquire, all => all.length + 4
  | .pass rest, _ => rest.length + 3
  | .release, _ => 2
  | .rearm, _ => 1

theorem stepsLeft_stepProcess (write : Shctx w → Shctx w) (sh : Shctx w) {p : Process w}
    (h : 0 < stepsLeft p.phase (stages p.conf)) : ∃ p' sh', stepProcess write sh p = some (p', sh') ∧
      stepsLeft p'.phase (stages p'.conf) < stepsLeft p.phase (stages p.conf) := by
  obtain ⟨slot, pid, conf, collectorActive, exiting, phase⟩ := p
  rw [stepProcess]
  cases phase with
  | waiting timer => exact absurd h (Nat.lt_irrefl 0)
  | selfStatus => exact ⟨_, _, rfl, by simp [stepsLeft]⟩
  | acquire =>
    dsimp only
    split
    · exact ⟨_, _, rfl, by simp [stepsLeft]⟩
    · exact ⟨_, _, rfl, by simp [stepsLeft]⟩
  | pass rest =>
    cases rest with
    | nil => exact ⟨_, _, rfl, by simp [stepsLeft]⟩
    | cons stage rest => exact ⟨_, _, rfl, by simp [stepsLeft]⟩
  | release => exact ⟨_, _, rfl, by simp [stepsLeft]⟩
  | rearm => exact ⟨_, _, rfl, by simp [stepsLeft]⟩

end Stages

section Traces

variable (D : Library.Doubles.Rounding)

theorem cells_run {x : Step w} (h : x.region ∈ [.core, .load, .uptime, .processes, .tcp, .sockets])
    (sh : Shctx w) : collectorCells (x.run D sh) = collectorCells sh := by
  have hOther : ∀ i : Region, i ∉ [.core, .load, .uptime, .processes, .tcp, .sockets] →
      i.get (x.run D sh) = i.get sh := fun i hi => x.keeps D i sh fun hSame => hi (hSame ▸ h)
  have hProcessor := hOther .processor (by decide)
  have hMemory := hOther .memory (by decide)
  have hDisks := hOther .disks (by decide)
  have hFilesystems := hOther .filesystems (by decide)
  have hInterfaces := hOther .interfaces (by decide)
  have hRest := hOther .rest (by decide)
  have hAccounting := hOther .accounting (by decide)
  simp only [Region.get, Prod.mk.injEq] at hProcessor hMemory hDisks hFilesystems hInterfaces
  simp only [Region.get, Region.Rest.mk.injEq] at hRest
  have hFigures : Figure.get (x.run D sh).system = Figure.get sh.system := by
    funext f
    cases f <;> simp [Figure.get, hMemory]
  have hPrev : Rates.Channel.prev (x.run D sh) = Rates.Channel.prev sh := by
    funext channel
    cases channel <;> simp [Rates.Channel.prev, hRest]
  simp only [collectorCells, hProcessor, hFigures, hPrev, hDisks, hFilesystems, hInterfaces, hRest]

def other (x : Step w) (h : x.region ∈ [.core, .load, .uptime, .processes, .tcp, .sockets]) : Other w :=
  ⟨x.run D, cells_run D h⟩

def Sources.passInputs (conf : MainConf w) (k : Sources w) : PassInputs w where
  conf := conf
  clock := k.clock
  nginx := other D (.nginx k.stub) (by simp [Step.region])
  stat := k.stat
  load := other D (.load k.loadavg) (by simp [Step.region])
  meminfo := k.meminfo
  uptime := other D (.uptime k.uptime) (by simp [Step.region])
  processes := other D (.processes k.names) (by simp [Step.region])
  tcp := other D (.tcp k.tcp k.tcp6) (by simp [Step.region])
  sockstat := other D (.sockstat k.sockstat) (by simp [Step.region])
  diskstats := k.diskstats
  statvfs := k.statvfs
  mounts := k.mounts
  netDev := k.netDev
  addresses := k.addresses

theorem apply_stages (conf : MainConf w) (k : Sources w) (sh : Shctx w) :
    (k.passInputs D conf).stages.foldl Collection.Stage.apply sh =
      collectHistory conf k.clock (runSteps D (k.steps conf) sh) := by
  cases hNginx : conf.collectNginx <;> cases hSystem : conf.collectSystem <;> cases hNetwork : conf.collectNetwork <;>
    simp [PassInputs.stages, Sources.passInputs, Sources.steps, hNginx, hSystem, hNetwork] <;> rfl

/-- The rows of the workers, the lock and the generation are other writes. -/
def otherStatus (p : Process w) (k : Sources w) : Other w where
  apply sh := collectSelfStatus p.slot (readSelfStatus k.status) (p.register k.clock.time sh)
  cells_apply sh := by
    obtain ⟨workers, hStatus⟩ := status_writes p (readSelfStatus k.status) k.clock.time sh
    rw [hStatus]
    rfl

def otherLock (pid : BitVec w) : Other w := ⟨fun sh => { sh with collectorLock := pid }, fun _ => rfl⟩

def otherRelease : Other w :=
  ⟨fun sh => { sh with generation := sh.generation + 1, collectorLock := 0 }, fun _ => rfl⟩

/-- Every run of the handler is one of a list of stages. -/
theorem collect_stages (p : Process w) (k : Sources w) (sh : Shctx w) :
    ∃ stages : List (Collection.Stage w), stages.foldl Collection.Stage.apply sh = collect D p k sh := by
  rw [collect]
  by_cases hFree : ((otherStatus p k).apply sh).collectorLock = 0
  · refine ⟨[.other (otherStatus p k), .other (otherLock p.pid)] ++ (k.passInputs D p.conf).stages ++
      [.other otherRelease], ?_⟩
    rw [List.foldl_append, List.foldl_append, apply_stages]
    exact (if_pos hFree).symm
  · exact ⟨[.other (otherStatus p k)], (if_neg hFree).symm⟩

end Traces

section Lock

open Library.Interleaving

variable (D : Library.Doubles.Rounding) {ι : Type*} [DecidableEq ι] {cfg : State ι w} {i : ι} {k : Sources w}

/-- The zone and the process of a worker, as they are in a configuration. -/
def standing (cfg : State ι w) (i : ι) (p : Process w) (sh : Shctx w) : State ι w :=
  cfg.put i (some p) { cfg.shared with sh := sh }

/-- One worker takes its next step, with what the handler writes there. -/
def OwnStep (i : ι) (k : Sources w) (cfg : State ι w) (l : Label ι w) : Prop :=
  ∃ p, cfg.phase i = some p ∧ l = .move i (ownWrite D p k)

def InEventLoop (cfg : State ι w) (i : ι) : Prop := ∃ p timer, cfg.phase i = some p ∧ p.phase = .waiting timer

theorem step_ownStep {p : Process w} {sh : Shctx w} (write : Shctx w → Shctx w) :
    step (standing cfg i p sh) (.move i write) =
      (stepProcess write sh p).map fun next => standing cfg i next.1 next.2 := by
  simp only [step, standing, Config.put_phase_self, Config.put_shared, Config.put_put]

/-- Wherever own steps lead, the handler ends at the same place. -/
theorem outcome_eq_of_reaches {p : Process w} {sh : Shctx w} {cfg' : State ι w}
    (h : Reaches step (OwnStep D i k) (standing cfg i p sh) cfg') :
    ∃ p' sh', cfg' = standing cfg i p' sh' ∧ outcome D k p' sh' = outcome D k p sh := by
  refine h.invariant (P := fun cfg' => ∃ p' sh', cfg' = standing cfg i p' sh' ∧ outcome D k p' sh' = outcome D k p sh)
    ⟨p, sh, rfl, rfl⟩ ?_
  rintro _ _ cfg' ⟨p', sh', rfl, hOutcome⟩ ⟨q, hPhase, rfl⟩ hMoves
  obtain rfl : p' = q := Option.some.inj ((Config.put_phase_self cfg i (some p') _).symm.trans hPhase)
  rw [step_ownStep, Option.map_eq_some_iff] at hMoves
  obtain ⟨⟨p'', sh''⟩, hStep, rfl⟩ := hMoves
  exact ⟨p'', sh'', rfl, (outcome_stepProcess D hStep).trans hOutcome⟩

/-- Own steps lead back to the event loop. -/
theorem reaches_eventLoop (start : State ι w) {p : Process w} {sh : Shctx w}
    (h : Reaches step (OwnStep D i k) start (standing cfg i p sh)) :
    ∃ p' sh', Reaches step (OwnStep D i k) start (standing cfg i p' sh') ∧ ∃ timer, p'.phase = .waiting timer := by
  induction hLeft : stepsLeft p.phase (stages p.conf) using Nat.strong_induction_on generalizing p sh with
  | _ n ih =>
    rcases Nat.eq_zero_or_pos n with rfl | hMore
    · refine ⟨p, sh, h, ?_⟩
      cases hPhase : p.phase with
      | waiting timer => exact ⟨timer, rfl⟩
      | _ => simp [hPhase, stepsLeft] at hLeft
    · obtain ⟨p', sh', hStep, hLess⟩ := stepsLeft_stepProcess (ownWrite D p k) sh (hLeft ▸ hMore)
      have hMoves : step (standing cfg i p sh) (.move i (ownWrite D p k)) = some (standing cfg i p' sh') := by
        rw [step_ownStep, hStep, Option.map_some]
      exact ih _ (hLeft ▸ hLess) (h.next ⟨p, Config.put_phase_self .., rfl⟩ hMoves) rfl

/-- The handler as a function is what its own steps do: they lead from the timer
back to the event loop, and only to the zone that the function computes. -/
theorem collect_reaches {p : Process w} (hPhase : cfg.phase i = some p) (hWaiting : p.phase = .waiting true)
    (k : Sources w) :
    let ended := standing cfg i { p with phase := .waiting (!p.exiting && p.collectorActive) }
      (collect D p k cfg.shared.sh)
    ∃ ticked, step cfg (.tick i k.clock.time) = some ticked ∧ Reaches step (OwnStep D i k) ticked ended ∧
      ∀ cfg', Reaches step (OwnStep D i k) ticked cfg' → InEventLoop cfg' i → cfg' = ended := by
  intro ended
  let ticked := standing cfg i { p with phase := .selfStatus } (p.register k.clock.time cfg.shared.sh)
  have hTick : step cfg (.tick i k.clock.time) = some ticked := by
    simp only [step, hPhase, hWaiting, if_true, ticked, standing]
  have hOnly : ∀ cfg', Reaches step (OwnStep D i k) ticked cfg' → InEventLoop cfg' i → cfg' = ended := by
    rintro cfg' hReaches ⟨q, timer, hFound, hTimer⟩
    obtain ⟨p', sh', rfl, hOutcome⟩ := outcome_eq_of_reaches D hReaches
    obtain rfl : p' = q := Option.some.inj ((Config.put_phase_self cfg i (some p') _).symm.trans hFound)
    have hEnded : (p', sh') = _ := (by simp only [outcome, hTimer] : (p', sh') = outcome D k p' sh').trans hOutcome
    obtain ⟨rfl, rfl⟩ := Prod.mk.inj hEnded
    rfl
  obtain ⟨p', sh', hReaches, timer, hTimer⟩ := reaches_eventLoop D ticked (k := k) (.start)
  have hEnded := hOnly _ hReaches ⟨p', timer, Config.put_phase_self .., hTimer⟩
  exact ⟨ticked, hTick, hEnded ▸ hReaches, hOnly⟩

end Lock

/-- Sources of which there is none. -/
def Sources.blind (clock : Clock w) : Sources w where
  clock := clock
  status := none
  stub := none
  stat := none
  loadavg := none
  meminfo := none
  uptime := none
  names := none
  tcp := none
  tcp6 := none
  sockstat := none
  diskstats := none
  statvfs _ := none
  mounts := none
  netDev := none
  addresses := none

def firstWorker : Process 64 := ⟨0, 4000, CollectorLock.conf64, true, false, .waiting true⟩

def threeFiles : Sources 64 :=
  { Sources.blind ⟨1710000001, 0⟩ with
    status := some (ascii "Name: nginx\nVmRSS:   2048 kB\n")
    loadavg := some (ascii "0.50 0.25 0.10 1/100 42\n")
    uptime := some (ascii "12.34 5.00\n") }

/-- A worker runs its first pass. -/
theorem collect_reaches_first_pass :
    let cfg : State Bool 64 := (start CollectorLock.conf64).put false (some firstWorker)
      ⟨Zone.freshZone CollectorLock.conf64, []⟩
    ∃ ticked ended, step cfg (.tick false 1710000001) = some ticked ∧
      Library.Interleaving.Reaches step (OwnStep Library.Doubles.toNearest false threeFiles) ticked ended ∧
      (∀ cfg', Library.Interleaving.Reaches step (OwnStep Library.Doubles.toNearest false threeFiles) ticked cfg' →
        InEventLoop cfg' false → cfg' = ended) ∧
      (ended.shared.sh.workers 0).vmRss = 2048 * 1024 ∧ ended.shared.sh.system.load1Milli = 500 ∧
      ended.shared.sh.system.uptime = 12 ∧ ended.shared.sh.generation = 2 := by
  intro cfg
  have hFree : (Zone.freshZone CollectorLock.conf64).collectorLock = 0 := rfl
  have hWorkers := workers_collect Library.Doubles.toNearest firstWorker threeFiles
    (Zone.freshZone CollectorLock.conf64)
  have hLoad := get_collect_of_mem Library.Doubles.toNearest firstWorker threeFiles hFree
    (x := .load threeFiles.loadavg) (List.mem_of_getElem? (i := 2) rfl)
  have hUptime := get_collect_of_mem Library.Doubles.toNearest firstWorker threeFiles hFree
    (x := .uptime threeFiles.uptime) (List.mem_of_getElem? (i := 4) rfl)
  have hLock := lock_collect Library.Doubles.toNearest firstWorker threeFiles hFree
  have hStoredLoad : (collectLoad Library.Doubles.toNearest threeFiles.loadavg
      (Zone.freshZone CollectorLock.conf64)).system.load1Milli = 500 := by decide +kernel
  have hStoredUptime : (collectUptime Library.Doubles.toNearest threeFiles.uptime
      (Zone.freshZone CollectorLock.conf64)).system.uptime = 12 := by decide +kernel
  have hPhase : cfg.phase false = some firstWorker := rfl
  obtain ⟨ticked, hTick, hReaches, hOnly⟩ := collect_reaches Library.Doubles.toNearest hPhase rfl threeFiles
  exact ⟨ticked, _, hTick, hReaches, hOnly, congrFun hWorkers 0 ▸ rfl, (congrArg Prod.fst hLoad).trans hStoredLoad,
    hUptime.trans hStoredUptime, hLock.2.trans (by rfl)⟩

end HttpMonitoring.CollectorHandler
