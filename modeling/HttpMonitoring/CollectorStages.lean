import HttpMonitoring.CollectorPasses

/-!
# Passes with whole stages

The passes whose accesses are single steps refine those of the lock's model, in
which a stage of a pass is one step: what is known of the owner of the lock
there holds here.
-/

namespace HttpMonitoring.CollectorStages

open Library.GuardedProgram Library.Interleaving Accounting Zone HistoryAccesses CollectorPasses

variable {w : Nat} {ι : Type*} [DecidableEq ι]

/-- The state of the model in which a stage is one step has the same lock, and
its processes stand where these do. -/
structure Matches (cfg : State ι w) (whole : CollectorLock.State ι w) : Prop where
  lock : whole.shared.sh.collectorLock = cfg.shared.sh.collectorLock
  phase : ∀ i, whole.phase i = (cfg.phase i).map Process.coarse

section Refinement

variable {cfg : State ι w} {whole : CollectorLock.State ι w} {i : ι}

theorem stages_eq (conf : MainConf w) :
    CollectorLock.stages conf = stagesBefore conf ++ [.history] := by
  rw [stagesBefore, CollectorLock.stages, List.dropLast_concat]

theorem Matches.put (h : Matches cfg whole) {moved : Option (Process w)} {s' : Shared w}
    {coarse : Option (CollectorLock.Process w)} {t' : CollectorLock.Shared w}
    (hLock : t'.sh.collectorLock = s'.sh.collectorLock) (hMoved : coarse = moved.map Process.coarse) :
    Matches (cfg.put i moved s') (whole.put i coarse t') := by
  refine ⟨hLock, fun j => ?_⟩
  rcases eq_or_ne j i with rfl | hOther
  · rw [Config.put_phase_self, Config.put_phase_self, hMoved]
  · rw [Config.put_phase_of_ne _ _ _ hOther, Config.put_phase_of_ne _ _ _ hOther]
    exact h.phase j

theorem Matches.stay (h : Matches cfg whole) {p p' : Process w} {s' : Shared w}
    (hPhase : cfg.phase i = some p) (hLock : s'.sh.collectorLock = cfg.shared.sh.collectorLock)
    (hSame : p'.coarse = p.coarse) : Matches (cfg.put i (some p') s') whole := by
  refine ⟨h.lock.trans hLock.symm, fun j => ?_⟩
  rcases eq_or_ne j i with rfl | hOther
  · rw [Config.put_phase_self, h.phase, hPhase, Option.map_some, Option.map_some, hSame]
  · rw [Config.put_phase_of_ne _ _ _ hOther]
    exact h.phase j

/-- At most one step of the model with whole stages leads to what is reached. -/
def Follows (cfg' : State ι w) (whole : CollectorLock.State ι w) : Prop :=
  Matches cfg' whole ∨ ∃ label whole', CollectorLock.step whole label = some whole' ∧ Matches cfg' whole'

theorem Matches.stage (h : Matches cfg whole) {p p' : Process w} {s' : Shared w} (hPhase : cfg.phase i = some p)
    (sh : Shctx w) (hProcess : CollectorLock.stepProcess id whole.shared.sh p.coarse = some (p'.coarse, sh))
    (hLock : sh.collectorLock = s'.sh.collectorLock) : Follows (cfg.put i (some p') s') whole := by
  refine Or.inr ⟨.move i id, whole.put i (some p'.coarse) { whole.shared with sh := sh }, ?_, h.put hLock rfl⟩
  rw [CollectorLock.step, h.phase, hPhase, Option.map_some]
  simp only [hProcess, Option.map_some]

section Process

variable {p p' : Process w} {s' : Shared w} {clock : Clock w} {change : Change w}

theorem Matches.move_selfStatus (h : Matches cfg whole) (hPhase : cfg.phase i = some p) (hAt : p.phase = .selfStatus)
    (hStep : stepProcess clock change cfg.shared p = some (p', s')) : Follows (cfg.put i (some p') s') whole := by
  have hCoarse : p.coarse.phase = .selfStatus := congrArg Phase.coarse hAt
  rw [stepProcess, hAt] at hStep
  obtain ⟨rfl, rfl⟩ := Prod.mk.inj (Option.some.inj hStep)
  refine h.stage hPhase (CollectorLock.keepLock id whole.shared.sh) ?_ ?_
  · rw [CollectorLock.stepProcess, hCoarse]
    rfl
  · exact h.lock.trans (Same.change cfg.shared change).lock.symm

theorem Matches.move_acquire (h : Matches cfg whole) (hPhase : cfg.phase i = some p) (hAt : p.phase = .acquire)
    (hStep : stepProcess clock change cfg.shared p = some (p', s')) : Follows (cfg.put i (some p') s') whole := by
  have hCoarse : p.coarse.phase = .acquire := congrArg Phase.coarse hAt
  rw [stepProcess, hAt] at hStep
  dsimp only at hStep
  split at hStep
  · rename_i hFree
    obtain ⟨rfl, rfl⟩ := Prod.mk.inj (Option.some.inj hStep)
    refine h.stage hPhase { whole.shared.sh with collectorLock := p.pid } ?_ rfl
    rw [CollectorLock.stepProcess, hCoarse]
    simp only [h.lock, hFree, if_true, show p.coarse.conf = p.conf from rfl, stages_eq]
    rfl
  · rename_i hTaken
    obtain ⟨rfl, rfl⟩ := Prod.mk.inj (Option.some.inj hStep)
    refine h.stage hPhase whole.shared.sh ?_ h.lock
    rw [CollectorLock.stepProcess, hCoarse]
    simp only [h.lock, hTaken, if_false]
    rfl

theorem Matches.move_before (h : Matches cfg whole) (hPhase : cfg.phase i = some p) {rest : List CollectorLock.Stage}
    (hAt : p.phase = .before rest) (hStep : stepProcess clock change cfg.shared p = some (p', s')) :
    Follows (cfg.put i (some p') s') whole := by
  rw [stepProcess, hAt] at hStep
  cases rest with
  | nil =>
    obtain ⟨rfl, rfl⟩ := Prod.mk.inj (Option.some.inj hStep)
    exact Or.inl (h.stay hPhase rfl (by rw [Process.coarse, Process.coarse, hAt]; rfl))
  | cons stage rest =>
    have hCoarse : p.coarse.phase = .pass (stage :: (rest ++ [.history])) := congrArg Phase.coarse hAt
    obtain ⟨rfl, rfl⟩ := Prod.mk.inj (Option.some.inj hStep)
    refine h.stage hPhase (CollectorLock.keepLock id whole.shared.sh) ?_ ?_
    · rw [CollectorLock.stepProcess, hCoarse]
      rfl
    · exact h.lock.trans (Same.change cfg.shared change).lock.symm

theorem Matches.move_history (h : Matches cfg whole) (hPhase : cfg.phase i = some p) {called : Clock w}
    {rest : Accesses w (Option (Figures w))} (hAt : p.phase = .history called rest)
    (hStep : stepProcess clock change cfg.shared p = some (p', s')) : Follows (cfg.put i (some p') s') whole := by
  rw [stepProcess, hAt] at hStep
  dsimp only at hStep
  split at hStep
  · have hCoarse : p.coarse.phase = .pass [.history] := congrArg Phase.coarse hAt
    obtain ⟨rfl, rfl⟩ := Prod.mk.inj (Option.some.inj hStep)
    refine h.stage hPhase (CollectorLock.keepLock id whole.shared.sh) ?_ h.lock
    rw [CollectorLock.stepProcess, hCoarse]
    rfl
  · rename_i rest' sh hAccess
    obtain ⟨rfl, rfl⟩ := Prod.mk.inj (Option.some.inj hStep)
    exact Or.inl (h.stay hPhase (congrArg Prod.fst (Program.frame_step hAccess))
      (by rw [Process.coarse, Process.coarse, hAt]; rfl))

theorem Matches.move_loadGeneration (h : Matches cfg whole) (hPhase : cfg.phase i = some p) {called : Clock w}
    {outcome : Option (Figures w)} (hAt : p.phase = .loadGeneration called outcome)
    (hStep : stepProcess clock change cfg.shared p = some (p', s')) : Follows (cfg.put i (some p') s') whole := by
  rw [stepProcess, hAt] at hStep
  obtain ⟨rfl, rfl⟩ := Prod.mk.inj (Option.some.inj hStep)
  exact Or.inl (h.stay hPhase rfl (by rw [Process.coarse, Process.coarse, hAt]; rfl))

theorem Matches.move_storeGeneration (h : Matches cfg whole) (hPhase : cfg.phase i = some p) {called : Clock w}
    {outcome : Option (Figures w)} {generation : BitVec w} (hAt : p.phase = .storeGeneration called outcome generation)
    (hStep : stepProcess clock change cfg.shared p = some (p', s')) : Follows (cfg.put i (some p') s') whole := by
  have hCoarse : p.coarse.phase = .pass [] := congrArg Phase.coarse hAt
  rw [stepProcess, hAt] at hStep
  obtain ⟨rfl, rfl⟩ := Prod.mk.inj (Option.some.inj hStep)
  refine h.stage hPhase { whole.shared.sh with generation := whole.shared.sh.generation + 1 } ?_ h.lock
  rw [CollectorLock.stepProcess, hCoarse]
  rfl

theorem Matches.move_release (h : Matches cfg whole) (hPhase : cfg.phase i = some p) {called : Clock w}
    {outcome : Option (Figures w)} (hAt : p.phase = .release called outcome)
    (hStep : stepProcess clock change cfg.shared p = some (p', s')) : Follows (cfg.put i (some p') s') whole := by
  have hCoarse : p.coarse.phase = .release := congrArg Phase.coarse hAt
  rw [stepProcess, hAt] at hStep
  obtain ⟨rfl, rfl⟩ := Prod.mk.inj (Option.some.inj hStep)
  refine h.stage hPhase { whole.shared.sh with collectorLock := 0 } ?_ rfl
  rw [CollectorLock.stepProcess, hCoarse]
  rfl

theorem Matches.move_rearm (h : Matches cfg whole) (hPhase : cfg.phase i = some p) (hAt : p.phase = .rearm)
    (hStep : stepProcess clock change cfg.shared p = some (p', s')) : Follows (cfg.put i (some p') s') whole := by
  have hCoarse : p.coarse.phase = .rearm := congrArg Phase.coarse hAt
  rw [stepProcess, hAt] at hStep
  obtain ⟨rfl, rfl⟩ := Prod.mk.inj (Option.some.inj hStep)
  refine h.stage hPhase whole.shared.sh ?_ h.lock
  rw [CollectorLock.stepProcess, hCoarse]
  rfl

theorem Matches.move (h : Matches cfg whole) (hPhase : cfg.phase i = some p)
    (hStep : stepProcess clock change cfg.shared p = some (p', s')) : Follows (cfg.put i (some p') s') whole := by
  cases hAt : p.phase with
  | waiting timer =>
    rw [stepProcess, hAt] at hStep
    cases hStep
  | selfStatus => exact h.move_selfStatus hPhase hAt hStep
  | acquire => exact h.move_acquire hPhase hAt hStep
  | before rest => exact h.move_before hPhase hAt hStep
  | history called rest => exact h.move_history hPhase hAt hStep
  | loadGeneration called outcome => exact h.move_loadGeneration hPhase hAt hStep
  | storeGeneration called outcome generation => exact h.move_storeGeneration hPhase hAt hStep
  | release called outcome => exact h.move_release hPhase hAt hStep
  | rearm => exact h.move_rearm hPhase hAt hStep

end Process

section Labels

variable {cfg' : State ι w}

theorem Matches.spawn (h : Matches cfg whole) {slot : Int} {pid : {pid : BitVec w // pid ≠ 0}} {conf : MainConf w}
    {now : BitVec w} (hStep : step cfg (.spawn i slot pid conf now) = some cfg') : Follows cfg' whole := by
  rw [step] at hStep
  split at hStep
  · rename_i hNone
    obtain rfl := Option.some.inj hStep
    let p : Process w := ⟨slot, pid.1, pid.2, conf, true, false, .waiting true⟩
    refine Or.inr ⟨.spawn i slot pid.1 conf now, whole.put i (some p.coarse)
      { whole.shared with sh := p.coarse.register now whole.shared.sh }, ?_, h.put ?_ rfl⟩
    · rw [CollectorLock.step, h.phase, hNone]
      rfl
    · exact (CollectorLock.register_collectorLock _ _ _).trans
        (h.lock.trans (Same.change cfg.shared (p.registered now)).lock.symm)
  · cases hStep

theorem Matches.tick (h : Matches cfg whole) {now : BitVec w} (hStep : step cfg (.tick i now) = some cfg') :
    Follows cfg' whole := by
  rw [step] at hStep
  split at hStep
  · rename_i p hPhase
    split at hStep
    · rename_i hWaiting
      obtain rfl := Option.some.inj hStep
      have hCoarse : p.coarse.phase = .waiting true := congrArg Phase.coarse hWaiting
      refine Or.inr ⟨.tick i now, whole.put i (some { p.coarse with phase := .selfStatus })
        { whole.shared with sh := p.coarse.register now whole.shared.sh }, ?_, h.put ?_ rfl⟩
      · rw [CollectorLock.step, h.phase, hPhase]
        simp only [Option.map_some, hCoarse, if_true]
      · exact (CollectorLock.register_collectorLock _ _ _).trans
          (h.lock.trans (Same.change cfg.shared (p.registered now)).lock.symm)
    · cases hStep
  · cases hStep

theorem Matches.quit (h : Matches cfg whole) (hStep : step cfg (.quit i) = some cfg') : Follows cfg' whole := by
  rw [step] at hStep
  split at hStep
  · rename_i p hPhase
    obtain rfl := Option.some.inj hStep
    refine Or.inr ⟨.quit i, whole.put i (some { p.coarse with exiting := true }) whole.shared, ?_, h.put h.lock rfl⟩
    rw [CollectorLock.step, h.phase, hPhase]
    rfl
  · cases hStep

theorem Matches.exit (h : Matches cfg whole) {now : BitVec w} (hStep : step cfg (.exit i now) = some cfg') :
    Follows cfg' whole := by
  rw [step] at hStep
  split at hStep
  · rename_i p hPhase
    split at hStep
    · rename_i timer hWaiting
      obtain rfl := Option.some.inj hStep
      have hCoarse : p.coarse.phase = .waiting timer := congrArg Phase.coarse hWaiting
      refine Or.inr ⟨.exit i now, whole.put i none
        { whole.shared with sh := p.coarse.unregister now whole.shared.sh }, ?_, h.put ?_ rfl⟩
      · rw [CollectorLock.step, h.phase, hPhase]
        cases timer <;> simp [hCoarse]
      · exact (CollectorLock.unregister_collectorLock _ _ _).trans
          (h.lock.trans (Same.change cfg.shared (p.unregistered now)).lock.symm)
    · cases hStep
  · cases hStep

theorem Matches.crash (h : Matches cfg whole) (hStep : step cfg (.crash i) = some cfg') : Follows cfg' whole := by
  rw [step] at hStep
  split at hStep
  · rename_i p hPhase
    obtain rfl := Option.some.inj hStep
    refine Or.inr ⟨.crash i, whole.put i none { whole.shared with
      lost := if p.coarse.Inside then p.pid :: whole.shared.lost else whole.shared.lost }, ?_, h.put h.lock rfl⟩
    rw [CollectorLock.step, h.phase, hPhase]
    rfl
  · cases hStep

/-- Every step is one of the model with whole stages, or none. -/
theorem Matches.next (h : Matches cfg whole) {label : Label ι w} (hStep : step cfg label = some cfg') :
    Follows cfg' whole := by
  cases label with
  | spawn i slot pid conf now => exact h.spawn hStep
  | tick i now => exact h.tick hStep
  | move i clock change =>
    rw [step] at hStep
    split at hStep
    · rename_i p hPhase
      obtain ⟨⟨p', s'⟩, hMoves, rfl⟩ := Option.map_eq_some_iff.mp hStep
      exact h.move hPhase hMoves
    · cases hStep
  | quit i => exact h.quit hStep
  | exit i now => exact h.exit hStep
  | crash i => exact h.crash hStep
  | write change =>
    obtain rfl := Option.some.inj hStep
    exact Or.inl ⟨h.lock.trans (Same.change cfg.shared change).lock.symm, h.phase⟩
  | reload conf =>
    obtain rfl := Option.some.inj hStep
    exact Or.inl ⟨h.lock, h.phase⟩

end Labels

/-- Every run is one of the model with whole stages, as far as the lock and the
phases go: there a taken lock has an owner, dead or alive. -/
theorem refines_whole_stages {conf : MainConf w}
    (h : Reaches step (fun _ _ => True) (start conf) cfg) :
    ∃ whole : CollectorLock.State ι w, Reaches CollectorLock.step (fun _ _ => True)
      (CollectorLock.start conf) whole ∧ Matches cfg whole ∧ CollectorLock.Owned whole := by
  have hStart : Matches (start conf : State ι w) (CollectorLock.start conf) := ⟨rfl, fun _ => rfl⟩
  have hStep : ∀ (s : State ι w) l t (s' : CollectorLock.State ι w), Matches s s' → True →
      step s l = some t → Matches t s' ∨ ∃ l' t', True ∧ CollectorLock.step s' l' = some t' ∧
        Matches t t' := by
    rintro s l t s' hRelated - hMoves
    rcases hRelated.next hMoves with hStay | ⟨l', t', hMoves', hNext⟩
    · exact Or.inl hStay
    · exact Or.inr ⟨l', t', trivial, hMoves', hNext⟩
  obtain ⟨whole, hWhole, hMatches⟩ := h.simulate hStart hStep
  exact ⟨whole, hWhole, hMatches, CollectorLock.owned_of_reaches hWhole⟩

end Refinement

end HttpMonitoring.CollectorStages
