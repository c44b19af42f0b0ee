import HttpMonitoring.Accounting
import HttpMonitoring.Zone
import HttpMonitoring.Library.Interleaving

/-!
# Collection passes and the collector lock

Worker processes start, tick, run through a collection pass, exit or
terminate abnormally, while reloads adopt the zone they share. What a stage
of a pass writes is left open, except that no stage writes the lock.
-/

namespace HttpMonitoring.CollectorLock

open Library.Interleaving Accounting Zone

variable {w : Nat}

inductive Stage
  | nginx
  | cpu
  | load
  | meminfo
  | uptime
  | processes
  | tcp
  | sockstat
  | diskstats
  | filesystems
  | network
  | history
deriving DecidableEq, Repr

def stages (conf : MainConf w) : List Stage :=
  (if conf.collectNginx then [.nginx] else []) ++
    (if conf.collectSystem then
      [.cpu, .load, .meminfo, .uptime, .processes, .tcp, .sockstat, .diskstats, .filesystems]
    else []) ++
    (if conf.collectNetwork then [.network] else []) ++ [.history]

/-- Where a process stands: in its event loop with or without a timer, or in
`collect` before its next step. -/
inductive Phase
  | waiting (timer : Bool)
  | selfStatus
  | acquire
  | pass (rest : List Stage)
  | release
  | rearm
deriving DecidableEq, Repr

structure Process (w : Nat) where
  slot : Int
  pid : BitVec w
  conf : MainConf w
  collectorActive : Bool
  exiting : Bool
  phase : Phase
deriving DecidableEq

/-- Between taking and releasing the lock. -/
def Process.Inside (p : Process w) : Prop := p.phase = .release ∨ ∃ rest, p.phase = .pass rest

/-- The zone, and for the statements the pids of the processes that
terminated abnormally inside their pass. -/
structure Shared (w : Nat) where
  sh : Shctx w
  lost : List (BitVec w)

/-- The worker row that `init_collector` and `collect` fill in. -/
def Process.register (p : Process w) (now : BitVec w) (sh : Shctx w) : Shctx w :=
  if 0 ≤ p.slot then
    onWorker (p.slot.toNat % workersMax) (fun m => { m with pid := p.pid, active := 1, lastSeen := now })
      sh
  else sh

/-- The worker row that `exit_process` leaves behind. -/
def Process.unregister (p : Process w) (now : BitVec w) (sh : Shctx w) : Shctx w :=
  if 0 ≤ p.slot then
    onWorker (p.slot.toNat % workersMax) (fun m => { m with active := 0, lastSeen := now }) sh
  else sh

def keepLock (write : Shctx w → Shctx w) (sh : Shctx w) : Shctx w :=
  { write sh with collectorLock := sh.collectorLock }

def stepProcess (write : Shctx w → Shctx w) (sh : Shctx w) (p : Process w) :
    Option (Process w × Shctx w) :=
  match p.phase with
  | .waiting _ => none
  | .selfStatus => some ({ p with phase := .acquire }, keepLock write sh)
  | .acquire =>
    if sh.collectorLock = 0 then
      some ({ p with phase := .pass (stages p.conf) }, { sh with collectorLock := p.pid })
    else some ({ p with phase := .rearm }, sh)
  | .pass (_ :: rest) => some ({ p with phase := .pass rest }, keepLock write sh)
  | .pass [] => some ({ p with phase := .release }, { sh with generation := sh.generation + 1 })
  | .release => some ({ p with phase := .rearm }, { sh with collectorLock := 0 })
  | .rearm => some ({ p with phase := .waiting (!p.exiting && p.collectorActive) }, sh)

inductive Label (ι : Type*) (w : Nat)
  | spawn (i : ι) (slot : Int) (pid : BitVec w) (conf : MainConf w) (now : BitVec w)
  | tick (i : ι) (now : BitVec w)
  | move (i : ι) (write : Shctx w → Shctx w)
  | quit (i : ι)
  | exit (i : ι) (now : BitVec w)
  | crash (i : ι)
  | reload (conf : MainConf w)

variable {ι : Type*} [DecidableEq ι]

abbrev State (ι : Type*) (w : Nat) := Config ι (Shared w) (Option (Process w))

instance (p : Process w) : Decidable p.Inside :=
  match h : p.phase with
  | .release => isTrue (Or.inl h)
  | .pass rest => isTrue (Or.inr ⟨rest, h⟩)
  | .waiting _ => isFalse (by simp [Process.Inside, h])
  | .selfStatus => isFalse (by simp [Process.Inside, h])
  | .acquire => isFalse (by simp [Process.Inside, h])
  | .rearm => isFalse (by simp [Process.Inside, h])

def step (cfg : State ι w) : Label ι w → Option (State ι w)
  | .spawn i slot pid conf now =>
    match cfg.phase i with
    | none =>
      let p : Process w := ⟨slot, pid, conf, true, false, .waiting true⟩
      some (cfg.put i (some p) { cfg.shared with sh := p.register now cfg.shared.sh })
    | some _ => none
  | .tick i now =>
    match cfg.phase i with
    | some p =>
      if p.phase = .waiting true then
        some (cfg.put i (some { p with phase := .selfStatus })
          { cfg.shared with sh := p.register now cfg.shared.sh })
      else none
    | none => none
  | .move i write =>
    match cfg.phase i with
    | some p => (stepProcess write cfg.shared.sh p).map fun next =>
        cfg.put i (some next.1) { cfg.shared with sh := next.2 }
    | none => none
  | .quit i =>
    match cfg.phase i with
    | some p => some (cfg.put i (some { p with exiting := true }) cfg.shared)
    | none => none
  | .exit i now =>
    match cfg.phase i with
    | some p =>
      if p.phase = .waiting true ∨ p.phase = .waiting false then
        some (cfg.put i none { cfg.shared with sh := p.unregister now cfg.shared.sh })
      else none
    | none => none
  | .crash i =>
    match cfg.phase i with
    | some p =>
      let lost := if p.Inside then p.pid :: cfg.shared.lost else cfg.shared.lost
      some (cfg.put i none { cfg.shared with lost := lost })
    | none => none
  | .reload conf =>
    some { cfg with shared := { cfg.shared with sh := adoptZone conf cfg.shared.sh } }

def start (conf : MainConf w) : State ι w where
  shared := ⟨freshZone conf, []⟩
  phase _ := none

/-- The lock names a live process inside its pass, or one that terminated
abnormally there. -/
def Owned (cfg : State ι w) : Prop :=
  cfg.shared.sh.collectorLock ≠ 0 →
    (∃ i p, cfg.phase i = some p ∧ p.Inside ∧ p.pid = cfg.shared.sh.collectorLock) ∨
      cfg.shared.sh.collectorLock ∈ cfg.shared.lost

@[simp] theorem register_collectorLock (p : Process w) (now : BitVec w) (sh : Shctx w) :
    (p.register now sh).collectorLock = sh.collectorLock := by
  rw [Process.register]
  split <;> rfl

@[simp] theorem unregister_collectorLock (p : Process w) (now : BitVec w) (sh : Shctx w) :
    (p.unregister now sh).collectorLock = sh.collectorLock := by
  rw [Process.unregister]
  split <;> rfl

/-- A step that leaves the lock alone keeps its owner when the process that
moves stays inside, or was not inside. -/
theorem Owned.put {cfg : State ι w} (h : Owned cfg) {i : ι} {next : Option (Process w)}
    {shared : Shared w} (hLock : shared.sh.collectorLock = cfg.shared.sh.collectorLock)
    (hLost : shared.lost = cfg.shared.lost)
    (hSelf : ∀ p, cfg.phase i = some p → p.Inside →
      ∃ p', next = some p' ∧ p'.Inside ∧ p'.pid = p.pid) : Owned (cfg.put i next shared) := by
  intro hHeld
  simp only [Config.put_shared, hLock, hLost] at hHeld ⊢
  rcases h hHeld with ⟨j, p, hPhase, hInside, hPid⟩ | hLost
  · by_cases hij : j = i
    · subst hij
      obtain ⟨p', rfl, hInside', hPid'⟩ := hSelf p hPhase hInside
      exact Or.inl ⟨j, p', Config.put_phase_self cfg j _ _, hInside', hPid'.trans hPid⟩
    · exact Or.inl ⟨j, p, (Config.put_phase_of_ne cfg _ _ hij).trans hPhase, hInside, hPid⟩
  · exact Or.inr hLost

theorem not_inside_of_waiting {p : Process w} {timer : Bool} (h : p.phase = .waiting timer) :
    ¬ p.Inside := by
  rintro (hRelease | ⟨rest, hPass⟩)
  · rw [h] at hRelease
    cases hRelease
  · rw [h] at hPass
    cases hPass

theorem Owned.move {cfg : State ι w} (h : Owned cfg) {i : ι} {p p' : Process w}
    (hPhase : cfg.phase i = some p) {write : Shctx w → Shctx w} {sh : Shctx w}
    (hStep : stepProcess write cfg.shared.sh p = some (p', sh)) :
    Owned (cfg.put i (some p') { cfg.shared with sh := sh }) := by
  have hSame : ∀ q, cfg.phase i = some q → q = p := fun q hq =>
    Option.some.inj (hq.symm.trans hPhase)
  have hOutside : ¬ p.Inside → ∀ q, cfg.phase i = some q → q.Inside →
      ∃ q', some p' = some q' ∧ q'.Inside ∧ q'.pid = q.pid :=
    fun hNot q hq hInside => absurd (hSame q hq ▸ hInside) hNot
  rw [stepProcess] at hStep
  split at hStep
  · cases hStep
  · rename_i hStands
    obtain ⟨rfl, rfl⟩ := Prod.mk.inj (Option.some.inj hStep)
    exact h.put rfl rfl (hOutside (by simp [Process.Inside, hStands]))
  · rename_i hStands
    split at hStep
    · obtain ⟨rfl, rfl⟩ := Prod.mk.inj (Option.some.inj hStep)
      intro _
      exact Or.inl ⟨i, _, Config.put_phase_self cfg i _ _, Or.inr ⟨_, rfl⟩, rfl⟩
    · obtain ⟨rfl, rfl⟩ := Prod.mk.inj (Option.some.inj hStep)
      exact h.put rfl rfl (hOutside (by simp [Process.Inside, hStands]))
  · obtain ⟨rfl, rfl⟩ := Prod.mk.inj (Option.some.inj hStep)
    refine h.put rfl rfl (fun q hq _ => ?_)
    obtain rfl := hSame q hq
    exact ⟨_, rfl, Or.inr ⟨_, rfl⟩, rfl⟩
  · obtain ⟨rfl, rfl⟩ := Prod.mk.inj (Option.some.inj hStep)
    refine h.put rfl rfl (fun q hq _ => ?_)
    obtain rfl := hSame q hq
    exact ⟨_, rfl, Or.inl rfl, rfl⟩
  · obtain ⟨rfl, rfl⟩ := Prod.mk.inj (Option.some.inj hStep)
    exact fun hHeld => absurd rfl hHeld
  · rename_i hStands
    obtain ⟨rfl, rfl⟩ := Prod.mk.inj (Option.some.inj hStep)
    exact h.put rfl rfl (hOutside (by simp [Process.Inside, hStands]))

theorem Owned.crash {cfg : State ι w} (h : Owned cfg) {i : ι} {p : Process w}
    (hPhase : cfg.phase i = some p) :
    Owned (cfg.put i none { cfg.shared with
      lost := if p.Inside then p.pid :: cfg.shared.lost else cfg.shared.lost }) := by
  intro hHeld
  simp only [Config.put_shared] at hHeld ⊢
  rcases h hHeld with ⟨j, q, hq, hInside, hPid⟩ | hLost
  · by_cases hij : j = i
    · subst hij
      obtain rfl := Option.some.inj (hq.symm.trans hPhase)
      rw [if_pos hInside, hPid]
      exact Or.inr List.mem_cons_self
    · exact Or.inl ⟨j, q, (Config.put_phase_of_ne cfg _ _ hij).trans hq, hInside, hPid⟩
  · refine Or.inr ?_
    split
    · exact List.mem_cons_of_mem _ hLost
    · exact hLost

theorem Owned.step {cfg cfg' : State ι w} {l : Label ι w} (h : Owned cfg)
    (hStep : step cfg l = some cfg') : Owned cfg' := by
  cases l with
  | spawn i slot pid conf now =>
    rw [CollectorLock.step] at hStep
    split at hStep
    · rename_i hNone
      obtain rfl := Option.some.inj hStep
      refine h.put (register_collectorLock _ _ _) rfl (fun p hp _ => ?_)
      rw [hNone] at hp
      cases hp
    · cases hStep
  | tick i now =>
    rw [CollectorLock.step] at hStep
    split at hStep
    · rename_i p hPhase
      split at hStep
      · rename_i hWaiting
        obtain rfl := Option.some.inj hStep
        refine h.put (register_collectorLock _ _ _) rfl (fun q hq hInside => ?_)
        obtain rfl := Option.some.inj (hq.symm.trans hPhase)
        exact absurd hInside (not_inside_of_waiting hWaiting)
      · cases hStep
    · cases hStep
  | move i write =>
    rw [CollectorLock.step] at hStep
    split at hStep
    · rename_i p hPhase
      obtain ⟨⟨p', sh⟩, hProcess, rfl⟩ := Option.map_eq_some_iff.mp hStep
      exact h.move hPhase hProcess
    · cases hStep
  | quit i =>
    rw [CollectorLock.step] at hStep
    split at hStep
    · rename_i p hPhase
      obtain rfl := Option.some.inj hStep
      refine h.put rfl rfl (fun q hq hInside => ?_)
      obtain rfl := Option.some.inj (hq.symm.trans hPhase)
      exact ⟨_, rfl, hInside, rfl⟩
    · cases hStep
  | exit i now =>
    rw [CollectorLock.step] at hStep
    split at hStep
    · rename_i p hPhase
      split at hStep
      · rename_i hWaiting
        obtain rfl := Option.some.inj hStep
        refine h.put (unregister_collectorLock _ _ _) rfl (fun q hq hInside => ?_)
        obtain rfl := Option.some.inj (hq.symm.trans hPhase)
        rcases hWaiting with hTimer | hTimer
        · exact absurd hInside (not_inside_of_waiting hTimer)
        · exact absurd hInside (not_inside_of_waiting hTimer)
      · cases hStep
    · cases hStep
  | crash i =>
    rw [CollectorLock.step] at hStep
    split at hStep
    · rename_i p hPhase
      obtain rfl := Option.some.inj hStep
      exact h.crash hPhase
    · cases hStep
  | reload conf =>
    obtain rfl := Option.some.inj hStep
    exact h

/-- In every reachable state a taken lock has an owner, dead or alive. -/
theorem owned_of_reaches {conf : MainConf w} {cfg : State ι w}
    (h : Reaches step (fun _ _ => True) (start conf) cfg) : Owned cfg :=
  h.invariant (fun hHeld => absurd rfl hHeld) fun _ _ _ hOwned _ hStep => hOwned.step hStep

def conf64 : MainConf 64 := withDefaults createMainConf

/-- A worker starts, ticks and takes the lock. -/
def insidePass : List (Label Bool 64) :=
  [.spawn false 0 4000 conf64 1710000000, .tick false 1710000001, .move false id, .move false id,
    .move false id]

theorem owned_of_reaches_inside :
    ∃ cfg : State Bool 64, Reaches step (fun _ _ => True) (start conf64) cfg ∧
      cfg.shared.sh.collectorLock = 4000 ∧ Owned cfg := by
  have hRun : ((run step (fun _ _ => True) (start conf64) insidePass).map fun cfg : State Bool 64 =>
      decide (cfg.shared.sh.collectorLock = 4000)) = some true := by
    decide +kernel
  obtain ⟨cfg, hCfg, hLock⟩ := Option.map_eq_some_iff.mp hRun
  have hReaches := Reaches.of_run hCfg
  exact ⟨cfg, hReaches, of_decide_eq_true hLock, owned_of_reaches hReaches⟩

/-- It then terminates abnormally, a reload adopts the zone and another worker
takes its place. -/
def afterCrash : List (Label Bool 64) :=
  insidePass ++ [.crash false, .reload conf64, .spawn false 0 4001 conf64 1710000002]

theorem dead_worker_holds_lock :
    ∃ cfg : State Bool 64, Reaches step (fun _ _ => True) (start conf64) cfg ∧
      cfg.shared.sh.collectorLock ≠ 0 ∧ ¬ ∃ i p, cfg.phase i = some p ∧ p.Inside := by
  have hRun : ((run step (fun _ _ => True) (start conf64) afterCrash).map fun cfg : State Bool 64 =>
      decide (cfg.shared.sh.collectorLock = 4000 ∧
        ∀ i, (cfg.phase i).all fun p => !decide p.Inside)) = some true := by
    decide +kernel
  obtain ⟨cfg, hCfg, hEnd⟩ := Option.map_eq_some_iff.mp hRun
  obtain ⟨hLock, hOutside⟩ := of_decide_eq_true hEnd
  refine ⟨cfg, Reaches.of_run hCfg, ?_, ?_⟩
  · rw [hLock]
    decide
  · rintro ⟨i, p, hPhase, hInside⟩
    have hNot := hOutside i
    rw [hPhase, Option.all_some, decide_eq_true hInside] at hNot
    cases hNot

end HttpMonitoring.CollectorLock
