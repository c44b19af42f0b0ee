import HttpMonitoring.HistoryAccesses
import HttpMonitoring.CollectorLock

/-!
# Collection passes one after another

Workers of any cycle tick on one zone, and every access of `collect` to the
guarded words is a step of its own. Others may write to the rest of the zone at
any time, and a worker may terminate abnormally before any step.
-/

namespace HttpMonitoring.CollectorPasses

open Library.GuardedProgram Library.Interleaving Accounting Zone HistoryAccesses

variable {w : Nat}

/-- A pass that has released the lock: what `collect_history` returned, and its
cells at the release. -/
structure Pass (w : Nat) where
  conf : MainConf w
  clock : Clock w
  outcome : Option (Figures w)
  left : Cell → BitVec w

/-- The zone, and for the statements the passes and how often `generation` was
incremented. -/
structure Shared (w : Nat) where
  sh : Shctx w
  passes : List (Pass w)
  increments : Nat

def Shared.change (f : Shctx w → Shctx w) (s : Shared w) : Shared w := { s with sh := f s.sh }

/-- Where a process stands. The outcome of `collect_history` and the time it
was called with are kept up to the release. -/
inductive Phase (w : Nat)
  | waiting (timer : Bool)
  | selfStatus
  | acquire
  | before (rest : List CollectorLock.Stage)
  | history (clock : Clock w) (rest : Accesses w (Option (Figures w)))
  | loadGeneration (clock : Clock w) (outcome : Option (Figures w))
  | storeGeneration (clock : Clock w) (outcome : Option (Figures w)) (generation : BitVec w)
  | release (clock : Clock w) (outcome : Option (Figures w))
  | rearm

def stagesBefore (conf : MainConf w) : List CollectorLock.Stage := (CollectorLock.stages conf).dropLast

/-- The phase when a stage is one step and so is the increment. -/
def Phase.coarse : Phase w → CollectorLock.Phase
  | .waiting timer => .waiting timer
  | .selfStatus => .selfStatus
  | .acquire => .acquire
  | .before rest => .pass (rest ++ [.history])
  | .history .. => .pass [.history]
  | .loadGeneration .. => .pass []
  | .storeGeneration .. => .pass []
  | .release .. => .release
  | .rearm => .rearm

structure Process (w : Nat) where
  slot : Int
  pid : BitVec w
  pidNonzero : pid ≠ 0
  conf : MainConf w
  collectorActive : Bool
  exiting : Bool
  phase : Phase w

def Process.coarse (p : Process w) : CollectorLock.Process w :=
  ⟨p.slot, p.pid, p.conf, p.collectorActive, p.exiting, p.phase.coarse⟩

/-- Between taking and releasing the lock. -/
def Process.Inside (p : Process w) : Prop := p.coarse.Inside

instance (p : Process w) : Decidable p.Inside := inferInstanceAs (Decidable p.coarse.Inside)

def Process.registered (p : Process w) (now : BitVec w) : Change w where
  apply := p.coarse.register now
  get_apply sh := by
    rw [CollectorLock.Process.register]
    split <;> rfl
  frame_apply sh := by
    rw [CollectorLock.Process.register]
    split <;> rfl

def Process.unregistered (p : Process w) (now : BitVec w) : Change w where
  apply := p.coarse.unregister now
  get_apply sh := by
    rw [CollectorLock.Process.unregister]
    split <;> rfl
  frame_apply sh := by
    rw [CollectorLock.Process.unregister]
    split <;> rfl

def adopted (conf : MainConf w) : Change w := ⟨adoptZone conf, fun _ => rfl, fun _ => rfl⟩

def accounted (crc32 : Bytes → BitVec 32) (conf : MainConf w) (c : Call w) : Change w where
  apply := accountRequest crc32 conf true c
  get_apply sh := by
    obtain ⟨_, _, _, hCounts⟩ := applyOps_writes c.countOps sh
    obtain ⟨_, _, _, hTables⟩ := updateTables_writes crc32 conf true c (applyOps c.countOps sh)
    rw [accountRequest, hTables, hCounts]
    rfl
  frame_apply sh := by
    obtain ⟨_, _, _, hCounts⟩ := applyOps_writes c.countOps sh
    obtain ⟨_, _, _, hTables⟩ := updateTables_writes crc32 conf true c (applyOps c.countOps sh)
    rw [accountRequest, hTables, hCounts]
    rfl

def stepProcess (clock : Clock w) (change : Change w) (s : Shared w) (p : Process w) :
    Option (Process w × Shared w) :=
  match p.phase with
  | .waiting _ => none
  | .selfStatus => some ({ p with phase := .acquire }, s.change change.apply)
  | .acquire =>
    if s.sh.collectorLock = 0 then
      some ({ p with phase := .before (stagesBefore p.conf) },
        s.change fun sh => { sh with collectorLock := p.pid })
    else some ({ p with phase := .rearm }, s)
  | .before (_ :: rest) => some ({ p with phase := .before rest }, s.change change.apply)
  | .before [] => some ({ p with phase := .history clock (collectHistory p.conf clock) }, s)
  | .history called rest =>
    match rest.step s.sh with
    | .inl outcome => some ({ p with phase := .loadGeneration called outcome }, s)
    | .inr (rest, sh) => some ({ p with phase := .history called rest }, { s with sh := sh })
  | .loadGeneration called outcome =>
    some ({ p with phase := .storeGeneration called outcome s.sh.generation }, s)
  | .storeGeneration called outcome generation =>
    some ({ p with phase := .release called outcome },
      { s with sh := { s.sh with generation := generation + 1 }, increments := s.increments + 1 })
  | .release called outcome =>
    some ({ p with phase := .rearm },
      { s with
        sh := { s.sh with collectorLock := 0 }
        passes := s.passes ++ [⟨p.conf, called, outcome, cells s.sh⟩] })
  | .rearm => some ({ p with phase := .waiting (!p.exiting && p.collectorActive) }, s)

/-- `write` is any access that is not a step of `collect`, such as one of a
request that is accounted, or a further one of a stage. -/
inductive Label (ι : Type*) (w : Nat)
  | spawn (i : ι) (slot : Int) (pid : {pid : BitVec w // pid ≠ 0}) (conf : MainConf w) (now : BitVec w)
  | tick (i : ι) (now : BitVec w)
  | move (i : ι) (clock : Clock w) (change : Change w)
  | quit (i : ι)
  | exit (i : ι) (now : BitVec w)
  | crash (i : ι)
  | write (change : Change w)
  | reload (conf : MainConf w)

variable {ι : Type*} [DecidableEq ι]

abbrev State (ι : Type*) (w : Nat) := Config ι (Shared w) (Option (Process w))

def step (cfg : State ι w) : Label ι w → Option (State ι w)
  | .spawn i slot pid conf now =>
    match cfg.phase i with
    | none =>
      let p : Process w := ⟨slot, pid.1, pid.2, conf, true, false, .waiting true⟩
      some (cfg.put i (some p) (cfg.shared.change (p.registered now).apply))
    | some _ => none
  | .tick i now =>
    match cfg.phase i with
    | some p =>
      match p.phase with
      | .waiting true =>
        some (cfg.put i (some { p with phase := .selfStatus })
          (cfg.shared.change (p.registered now).apply))
      | _ => none
    | none => none
  | .move i clock change =>
    match cfg.phase i with
    | some p => (stepProcess clock change cfg.shared p).map fun next => cfg.put i (some next.1) next.2
    | none => none
  | .quit i =>
    match cfg.phase i with
    | some p => some (cfg.put i (some { p with exiting := true }) cfg.shared)
    | none => none
  | .exit i now =>
    match cfg.phase i with
    | some p =>
      match p.phase with
      | .waiting _ => some (cfg.put i none (cfg.shared.change (p.unregistered now).apply))
      | _ => none
    | none => none
  | .crash i =>
    match cfg.phase i with
    | some _ => some (cfg.put i none cfg.shared)
    | none => none
  | .write change => some { cfg with shared := cfg.shared.change change.apply }
  | .reload conf => some { cfg with shared := cfg.shared.change (adopted conf).apply }

def start (conf : MainConf w) : State ι w where
  shared := ⟨freshZone conf, [], 0⟩
  phase _ := none

/-- What the latest pass that recorded a sample left in the cells. -/
def latest (passes : List (Pass w)) : Cell → BitVec w :=
  ((passes.filter fun pass => pass.outcome.isSome).getLast?.map Pass.left).getD fun _ => 0

/-- The pass computed from what the latest recording pass before it left. -/
def Pass.Follows (pass : Pass w) (earlier : List (Pass w)) : Prop :=
  Computes pass.conf pass.clock (latest earlier) pass.left pass.outcome

def InOrder (passes : List (Pass w)) : Prop :=
  ∀ n (pass : Pass w), passes[n]? = some pass → pass.Follows (passes.take n)

theorem latest_append (passes : List (Pass w)) (pass : Pass w) :
    latest (passes ++ [pass]) = if pass.outcome.isSome then pass.left else latest passes := by
  rw [latest, List.filter_append]
  split
  · rename_i hRecorded
    simp [hRecorded]
  · rename_i hEarly
    simp [hEarly, latest]

/-- The cells after a pass are those that the next one computes from. -/
theorem Pass.Follows.left_eq {pass : Pass w} {passes : List (Pass w)} (h : pass.Follows passes) :
    pass.left = latest (passes ++ [pass]) := by
  rw [latest_append]
  obtain ⟨conf, clock, outcome, left⟩ := pass
  cases outcome with
  | none => exact h.2
  | some f => rfl

theorem InOrder.append {passes : List (Pass w)} {pass : Pass w} (h : InOrder passes)
    (hPass : pass.Follows passes) : InOrder (passes ++ [pass]) := by
  intro n other hOther
  rcases Nat.lt_or_ge n passes.length with hEarlier | hLast
  · rw [List.getElem?_append_left hEarlier] at hOther
    rw [List.take_append_of_le_length hEarlier.le]
    exact h n other hOther
  · rw [List.getElem?_append_right hLast, List.getElem?_singleton] at hOther
    split at hOther
    · rename_i hZero
      obtain rfl := Option.some.inj hOther
      rw [List.take_append_of_le_length (by omega), List.take_of_length_le hLast]
      exact hPass
    · cases hOther

structure Serial (s : Shared w) : Prop where
  order : InOrder s.passes
  generation : s.sh.generation = BitVec.ofNat w (1 + s.increments)
  free : s.sh.collectorLock = 0 → cells s.sh = latest s.passes

/-- What a process knows of the guarded words. In the history, the rest of the
call yields nothing that the whole call could not have yielded. -/
def Stands (s : Shared w) (p : Process w) : Prop :=
  match p.phase with
  | .before _ => cells s.sh = latest s.passes
  | .history called rest => ∀ left outcome, rest.Yields (cells s.sh) left outcome →
      (collectHistory p.conf called).Yields (latest s.passes) left outcome
  | .loadGeneration called outcome => Computes p.conf called (latest s.passes) (cells s.sh) outcome
  | .storeGeneration called outcome generation =>
    Computes p.conf called (latest s.passes) (cells s.sh) outcome ∧ generation = s.sh.generation
  | .release called outcome => Computes p.conf called (latest s.passes) (cells s.sh) outcome
  | .waiting _ | .selfStatus | .acquire | .rearm => True

structure Inv (cfg : State ι w) : Prop where
  serial : Serial cfg.shared
  held : ∀ i p, cfg.phase i = some p → p.Inside → cfg.shared.sh.collectorLock ≠ 0
  alone : ∀ i p j q, cfg.phase i = some p → cfg.phase j = some q → p.Inside → q.Inside → i = j
  stands : ∀ i p, cfg.phase i = some p → Stands cfg.shared p

structure Same (s s' : Shared w) : Prop where
  cells : cells s'.sh = cells s.sh
  lock : s'.sh.collectorLock = s.sh.collectorLock
  generation : s'.sh.generation = s.sh.generation
  passes : s'.passes = s.passes
  increments : s'.increments = s.increments

theorem Same.refl (s : Shared w) : Same s s := ⟨rfl, rfl, rfl, rfl, rfl⟩

theorem Same.change (s : Shared w) (change : Change w) : Same s (s.change change.apply) :=
  ⟨change.get_apply s.sh, congrArg Prod.fst (change.frame_apply s.sh),
    congrArg Prod.snd (change.frame_apply s.sh), rfl, rfl⟩

theorem Same.serial {s s' : Shared w} (hSame : Same s s') (h : Serial s) : Serial s' := by
  constructor
  · rw [hSame.passes]
    exact h.order
  · rw [hSame.generation, hSame.increments]
    exact h.generation
  · rw [hSame.lock, hSame.cells, hSame.passes]
    exact h.free

theorem Same.stands {s s' : Shared w} (hSame : Same s s') {p : Process w} (h : Stands s p) :
    Stands s' p := by
  unfold Stands at h ⊢
  rw [hSame.cells, hSame.passes, hSame.generation]
  exact h

theorem inside_iff {p : Process w} : p.Inside ↔ match p.phase with
    | .waiting _ | .selfStatus | .acquire | .rearm => False
    | .before _ | .history .. | .loadGeneration .. | .storeGeneration .. | .release .. => True := by
  obtain ⟨slot, pid, pidNonzero, conf, collectorActive, exiting, phase⟩ := p
  cases phase <;> simp [Process.Inside, CollectorLock.Process.Inside, Process.coarse, Phase.coarse]

theorem stands_of_outside {s : Shared w} {p : Process w} (h : ¬ p.Inside) : Stands s p := by
  obtain ⟨slot, pid, pidNonzero, conf, collectorActive, exiting, phase⟩ := p
  cases phase with
  | waiting timer | selfStatus | acquire | rearm => trivial
  | before rest | history called rest | loadGeneration called outcome
    | storeGeneration called outcome generation | release called outcome =>
    exact absurd (inside_iff.mpr trivial) h

section Invariant

variable {cfg : State ι w} {i : ι} {s' : Shared w} {moved : Option (Process w)}

/-- One process moves, and the others that are inside see nothing of it. -/
theorem Inv.put (h : Inv cfg) (hSerial : Serial s')
    (hSelf : ∀ p', moved = some p' → Stands s' p' ∧ (p'.Inside → s'.sh.collectorLock ≠ 0 ∧
      ∀ j, j ≠ i → ∀ q, cfg.phase j = some q → ¬ q.Inside))
    (hOthers : ∀ j, j ≠ i → ∀ q, cfg.phase j = some q → q.Inside → Same cfg.shared s') :
    Inv (cfg.put i moved s') := by
  refine ⟨hSerial, ?_, ?_, ?_⟩
  · intro j q hq hInside
    rcases eq_or_ne j i with rfl | hOther
    · rw [Config.put_phase_self] at hq
      exact ((hSelf q hq).2 hInside).1
    · rw [Config.put_phase_of_ne _ _ _ hOther] at hq
      rw [Config.put_shared, (hOthers j hOther q hq hInside).lock]
      exact h.held j q hq hInside
  · intro j p k q hp hq hpInside hqInside
    rcases eq_or_ne j i with rfl | hj
    · rcases eq_or_ne k j with rfl | hk
      · rfl
      · rw [Config.put_phase_self] at hp
        rw [Config.put_phase_of_ne _ _ _ hk] at hq
        exact absurd hqInside (((hSelf p hp).2 hpInside).2 k hk q hq)
    · rw [Config.put_phase_of_ne _ _ _ hj] at hp
      rcases eq_or_ne k i with rfl | hk
      · rw [Config.put_phase_self] at hq
        exact absurd hpInside (((hSelf q hq).2 hqInside).2 j hj p hp)
      · rw [Config.put_phase_of_ne _ _ _ hk] at hq
        exact h.alone j p k q hp hq hpInside hqInside
  · intro j q hq
    rcases eq_or_ne j i with rfl | hOther
    · rw [Config.put_phase_self] at hq
      exact (hSelf q hq).1
    · rw [Config.put_phase_of_ne _ _ _ hOther] at hq
      by_cases hInside : q.Inside
      · exact (hOthers j hOther q hq hInside).stands (h.stands j q hq)
      · exact stands_of_outside hInside

/-- A step that leaves the guarded words alone. -/
theorem Inv.quiet (h : Inv cfg) (hSame : Same cfg.shared s')
    (hSelf : ∀ p', moved = some p' → Stands s' p' ∧
      (p'.Inside → ∃ p, cfg.phase i = some p ∧ p.Inside)) : Inv (cfg.put i moved s') := by
  refine h.put (hSame.serial h.serial) ?_ fun _ _ _ _ _ => hSame
  rintro p' hMoved
  obtain ⟨hStands, hInside⟩ := hSelf p' hMoved
  refine ⟨hStands, fun hp' => ?_⟩
  obtain ⟨p, hp, hpInside⟩ := hInside hp'
  rw [hSame.lock]
  exact ⟨h.held i p hp hpInside, fun j hj q hq hqInside =>
    hj (h.alone j q i p hq hp hqInside hpInside)⟩

theorem Inv.inside (h : Inv cfg) {p p' : Process w} (hPhase : cfg.phase i = some p)
    (hInside : p.Inside) (hSerial : Serial s') (hStands : Stands s' p')
    (hLock : p'.Inside → s'.sh.collectorLock ≠ 0) : Inv (cfg.put i (some p') s') := by
  have hAlone : ∀ j, j ≠ i → ∀ q, cfg.phase j = some q → ¬ q.Inside :=
    fun j hj q hq hqInside => hj (h.alone j q i p hq hPhase hqInside hInside)
  refine h.put hSerial ?_ fun j hj q hq hqInside => absurd hqInside (hAlone j hj q hq)
  rintro q hq
  obtain rfl := Option.some.inj hq
  exact ⟨hStands, fun hq => ⟨hLock hq, hAlone⟩⟩

theorem Inv.acquire (h : Inv cfg) {p p' : Process w} (hFree : cfg.shared.sh.collectorLock = 0)
    (hNext : p'.phase = .before (stagesBefore p.conf)) : Inv (cfg.put i (some p')
      (cfg.shared.change fun sh => { sh with collectorLock := p.pid })) := by
  have hNobody : ∀ j q, cfg.phase j = some q → ¬ q.Inside :=
    fun j q hq hInside => h.held j q hq hInside hFree
  refine h.put ⟨h.serial.order, h.serial.generation, fun hZero => absurd hZero p.pidNonzero⟩ ?_
    fun j _ q hq hInside => absurd hInside (hNobody j q hq)
  rintro q hq
  obtain rfl := Option.some.inj hq
  refine ⟨?_, fun _ => ⟨p.pidNonzero, fun j _ => hNobody j⟩⟩
  rw [Stands, hNext]
  exact h.serial.free hFree

theorem Inv.access (h : Inv cfg) {p : Process w} (hPhase : cfg.phase i = some p)
    {called : Clock w} {rest rest' : Accesses w (Option (Figures w))} {sh : Shctx w}
    (hAt : p.phase = .history called rest) (hAccess : rest.step cfg.shared.sh = .inr (rest', sh)) :
    Inv (cfg.put i (some { p with phase := .history called rest' }) { cfg.shared with sh := sh }) := by
  have hInside : p.Inside := inside_iff.mpr (by rw [hAt]; trivial)
  have hStands := h.stands i p hPhase
  rw [Stands, hAt] at hStands
  have hFrame := Program.frame_step hAccess
  have hLock : sh.collectorLock ≠ 0 :=
    (congrArg Prod.fst hFrame).trans_ne (h.held i p hPhase hInside)
  refine h.inside hPhase hInside ⟨h.serial.order, ?_, fun hZero => absurd hZero hLock⟩ ?_
    fun _ => hLock
  · exact (congrArg Prod.snd hFrame).trans h.serial.generation
  · intro left outcome hYields
    exact hStands left outcome (Program.yields_of_step hAccess hYields)

theorem Inv.increment (h : Inv cfg) {p : Process w} (hPhase : cfg.phase i = some p)
    {called : Clock w} {outcome : Option (Figures w)} {generation : BitVec w}
    (hAt : p.phase = .storeGeneration called outcome generation) :
    Inv (cfg.put i (some { p with phase := .release called outcome })
      { cfg.shared with
        sh := { cfg.shared.sh with generation := generation + 1 }
        increments := cfg.shared.increments + 1 }) := by
  have hInside : p.Inside := inside_iff.mpr (by rw [hAt]; trivial)
  have hStands := h.stands i p hPhase
  rw [Stands, hAt] at hStands
  obtain ⟨hComputes, rfl⟩ := hStands
  have hLock := h.held i p hPhase hInside
  have hGeneration : cfg.shared.sh.generation + 1 =
      BitVec.ofNat w (1 + (cfg.shared.increments + 1)) := by
    rw [h.serial.generation, ← Nat.add_assoc, BitVec.ofNat_add _ 1]
    rfl
  exact h.inside hPhase hInside ⟨h.serial.order, hGeneration, fun hZero => absurd hZero hLock⟩
    hComputes fun _ => hLock

theorem Inv.release (h : Inv cfg) {p : Process w} (hPhase : cfg.phase i = some p)
    {called : Clock w} {outcome : Option (Figures w)} (hAt : p.phase = .release called outcome) :
    Inv (cfg.put i (some { p with phase := .rearm })
      { cfg.shared with
        sh := { cfg.shared.sh with collectorLock := 0 }
        passes := cfg.shared.passes ++ [⟨p.conf, called, outcome, cells cfg.shared.sh⟩] }) := by
  have hInside : p.Inside := inside_iff.mpr (by rw [hAt]; trivial)
  have hStands := h.stands i p hPhase
  rw [Stands, hAt] at hStands
  have hFollows : Pass.Follows ⟨p.conf, called, outcome, cells cfg.shared.sh⟩ cfg.shared.passes :=
    hStands
  exact h.inside hPhase hInside
    ⟨h.serial.order.append hFollows, h.serial.generation, fun _ => hFollows.left_eq⟩ trivial
    fun hNext => absurd (inside_iff.mp hNext) id

theorem Inv.move (h : Inv cfg) {p p' : Process w} (hPhase : cfg.phase i = some p) {clock : Clock w}
    {change : Change w} (hStep : stepProcess clock change cfg.shared p = some (p', s')) :
    Inv (cfg.put i (some p') s') := by
  have hStands := h.stands i p hPhase
  have hQuiet : Same cfg.shared s' → Stands s' p' → (p'.Inside → p.Inside) →
      Inv (cfg.put i (some p') s') := by
    intro hSame hNext hInside
    refine h.quiet hSame fun q hq => ?_
    obtain rfl := Option.some.inj hq
    exact ⟨hNext, fun hq => ⟨p, hPhase, hInside hq⟩⟩
  cases hAt : p.phase with
  | waiting timer =>
    rw [stepProcess, hAt] at hStep
    cases hStep
  | selfStatus =>
    rw [stepProcess, hAt] at hStep
    obtain ⟨rfl, rfl⟩ := Prod.mk.inj (Option.some.inj hStep)
    exact hQuiet (.change _ change) trivial fun hInside => absurd (inside_iff.mp hInside) id
  | acquire =>
    rw [stepProcess, hAt] at hStep
    dsimp only at hStep
    split at hStep
    · rename_i hFree
      obtain ⟨rfl, rfl⟩ := Prod.mk.inj (Option.some.inj hStep)
      exact h.acquire hFree rfl
    · obtain ⟨rfl, rfl⟩ := Prod.mk.inj (Option.some.inj hStep)
      exact hQuiet (.refl _) trivial fun hInside => absurd (inside_iff.mp hInside) id
  | before rest =>
    rw [stepProcess, hAt] at hStep
    rw [Stands, hAt] at hStands
    cases rest with
    | cons stage rest =>
      obtain ⟨rfl, rfl⟩ := Prod.mk.inj (Option.some.inj hStep)
      exact hQuiet (.change _ change) ((Same.change _ change).cells.trans hStands)
        fun _ => inside_iff.mpr (by rw [hAt]; trivial)
    | nil =>
      obtain ⟨rfl, rfl⟩ := Prod.mk.inj (Option.some.inj hStep)
      refine hQuiet (.refl _) ?_ fun _ => inside_iff.mpr (by rw [hAt]; trivial)
      intro left outcome hYields
      rwa [hStands] at hYields
  | history called rest =>
    rw [stepProcess, hAt] at hStep
    dsimp only at hStep
    split at hStep
    · rename_i outcome hResult
      obtain ⟨rfl, rfl⟩ := Prod.mk.inj (Option.some.inj hStep)
      rw [Stands, hAt] at hStands
      exact hQuiet (.refl _)
        (computes_of_yields (hStands _ _ (Program.yields_of_result hResult)))
        fun _ => inside_iff.mpr (by rw [hAt]; trivial)
    · rename_i rest' sh hAccess
      obtain ⟨rfl, rfl⟩ := Prod.mk.inj (Option.some.inj hStep)
      exact h.access hPhase hAt hAccess
  | loadGeneration called outcome =>
    rw [stepProcess, hAt] at hStep
    obtain ⟨rfl, rfl⟩ := Prod.mk.inj (Option.some.inj hStep)
    rw [Stands, hAt] at hStands
    exact hQuiet (.refl _) ⟨hStands, rfl⟩ fun _ => inside_iff.mpr (by rw [hAt]; trivial)
  | storeGeneration called outcome generation =>
    rw [stepProcess, hAt] at hStep
    obtain ⟨rfl, rfl⟩ := Prod.mk.inj (Option.some.inj hStep)
    exact h.increment hPhase hAt
  | release called outcome =>
    rw [stepProcess, hAt] at hStep
    obtain ⟨rfl, rfl⟩ := Prod.mk.inj (Option.some.inj hStep)
    exact h.release hPhase hAt
  | rearm =>
    rw [stepProcess, hAt] at hStep
    obtain ⟨rfl, rfl⟩ := Prod.mk.inj (Option.some.inj hStep)
    exact hQuiet (.refl _) trivial fun hInside => absurd (inside_iff.mp hInside) id

omit [DecidableEq ι] in
theorem Inv.shared (h : Inv cfg) (hSame : Same cfg.shared s') : Inv { cfg with shared := s' } := by
  refine ⟨hSame.serial h.serial, ?_, h.alone, fun i p hp => hSame.stands (h.stands i p hp)⟩
  intro i p hp hInside
  rw [hSame.lock]
  exact h.held i p hp hInside

theorem Inv.next {cfg' : State ι w} {label : Label ι w} (h : Inv cfg)
    (hStep : step cfg label = some cfg') : Inv cfg' := by
  cases label with
  | spawn i slot pid conf now =>
    rw [step] at hStep
    split at hStep
    · obtain rfl := Option.some.inj hStep
      refine h.quiet (.change _ _) ?_
      rintro p hp
      obtain rfl := Option.some.inj hp
      exact ⟨trivial, fun hInside => absurd (inside_iff.mp hInside) id⟩
    · cases hStep
  | tick i now =>
    rw [step] at hStep
    split at hStep
    · split at hStep
      · obtain rfl := Option.some.inj hStep
        refine h.quiet (.change _ _) ?_
        rintro p hp
        obtain rfl := Option.some.inj hp
        exact ⟨trivial, fun hInside => absurd (inside_iff.mp hInside) id⟩
      · cases hStep
    · cases hStep
  | move i clock change =>
    rw [step] at hStep
    split at hStep
    · rename_i p hPhase
      obtain ⟨⟨p', s'⟩, hMoves, rfl⟩ := Option.map_eq_some_iff.mp hStep
      exact h.move hPhase hMoves
    · cases hStep
  | quit i =>
    rw [step] at hStep
    split at hStep
    · rename_i p hPhase
      obtain rfl := Option.some.inj hStep
      refine h.quiet (.refl _) ?_
      rintro q hq
      obtain rfl := Option.some.inj hq
      exact ⟨h.stands i p hPhase, fun hInside => ⟨p, hPhase, hInside⟩⟩
    · cases hStep
  | exit i now =>
    rw [step] at hStep
    split at hStep
    · split at hStep
      · rename_i p hPhase _ timer hWaiting
        obtain rfl := Option.some.inj hStep
        refine h.quiet (.change _ (p.unregistered now)) ?_
        rintro q hq
        cases hq
      · cases hStep
    · cases hStep
  | crash i =>
    rw [step] at hStep
    split at hStep
    · obtain rfl := Option.some.inj hStep
      refine h.quiet (.refl _) ?_
      rintro q hq
      cases hq
    · cases hStep
  | write change =>
    obtain rfl := Option.some.inj hStep
    exact h.shared (.change _ change)
  | reload conf =>
    obtain rfl := Option.some.inj hStep
    exact h.shared (.change _ (adopted conf))

end Invariant

omit [DecidableEq ι] in
theorem inv_start (conf : MainConf w) : Inv (start conf : State ι w) := by
  have hNobody : ∀ i, (start conf : State ι w).phase i = none := fun _ => rfl
  refine ⟨⟨?_, ?_, ?_⟩, ?_, ?_, ?_⟩
  · intro n pass hPass
    cases hPass
  · simp [start, freshZone]
  · intro _
    funext c
    cases c <;> rfl
  · intro i p hp
    cases (hNobody i).symm.trans hp
  · intro i p j q hp
    cases (hNobody i).symm.trans hp
  · intro i p hp
    cases (hNobody i).symm.trans hp

/-- At most one worker is inside a pass, every pass computes from what the
latest recording pass before it left, and the generation counts its increments. -/
theorem passes_are_serial {conf : MainConf w} {cfg : State ι w}
    (h : Reaches step (fun _ _ => True) (start conf) cfg) :
    (∀ i p j q, cfg.phase i = some p → cfg.phase j = some q → p.Inside → q.Inside → i = j) ∧
      (∀ n (pass : Pass w), cfg.shared.passes[n]? = some pass →
        Computes pass.conf pass.clock (latest (cfg.shared.passes.take n)) pass.left pass.outcome) ∧
      cfg.shared.sh.generation = BitVec.ofNat w (1 + cfg.shared.increments) := by
  have hInv : Inv cfg := h.invariant (inv_start conf) fun _ _ _ hInv _ hStep => hInv.next hStep
  exact ⟨hInv.alone, hInv.serial.order, hInv.serial.generation⟩

section TwoPasses

open CollectorLock (conf64)

def page : Call 64 where
  request := ⟨1710000000, 0, 200, 10, 2, false, 1, ascii "/", none, []⟩
  clock := ⟨1710000000, 3⟩
  worker := ⟨0, 4000⟩

def wholePass (i : Bool) (clock : Clock 64) : List (Label Bool 64) :=
  .tick i clock.time :: List.replicate 51 (.move i clock (.nothing _))

/-- The second worker passes one second after the first, and a request is
accounted in between. -/
def twoPasses : List (Label Bool 64) :=
  [.spawn false 0 ⟨4000, by decide⟩ conf64 1710000000, .spawn true 1 ⟨4001, by decide⟩ conf64 1710000000] ++
    wholePass false ⟨1710000000, 0⟩ ++ [.write (accounted (fun _ => 0) conf64 page)] ++
    wholePass true ⟨1710000001, 0⟩

theorem two_passes_are_serial : ∃ cfg : State Bool 64,
    run step (fun _ _ => True) (start conf64) twoPasses = some cfg ∧ cfg.shared.passes.length = 2 ∧
      cfg.shared.sh.generation = 3 ∧ InOrder cfg.shared.passes := by
  have hRun : (run step (fun _ _ => True) (start conf64) twoPasses).map (fun cfg : State Bool 64 =>
      (cfg.shared.passes.length, cfg.shared.sh.generation)) = some (2, 3) := by
    decide +kernel
  obtain ⟨cfg, hCfg, hEnd⟩ := Option.map_eq_some_iff.mp hRun
  obtain ⟨hPasses, hGeneration⟩ := Prod.mk.inj hEnd
  exact ⟨cfg, hCfg, hPasses, hGeneration, (passes_are_serial (.of_run hCfg)).2.1⟩

end TwoPasses

end HttpMonitoring.CollectorPasses
