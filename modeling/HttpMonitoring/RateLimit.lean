import HttpMonitoring.Nginx
import HttpMonitoring.Library.Interleaving

/-!
# The rate limiter

`check_rate_limit` as a function, and as its atomic steps on the window, the
count and the mutex that all workers share. Every worker carries the second
of its own cached clock.
-/

namespace HttpMonitoring.RateLimit

open Nginx Library.Interleaving

variable {w : Nat}

/-- The cells of the zone that the limiter uses. -/
structure Limiter (w : Nat) where
  window : BitVec w
  count : BitVec w
  rateLimited : BitVec w
deriving DecidableEq

/-- The window test and the reset under the mutex. -/
def Limiter.enter (now : BitVec w) (s : Limiter w) : Limiter w :=
  if s.window ≠ now then { s with window := now, count := 0 } else s

def Limiter.countCall (limit : BitVec w) (s : Limiter w) : Rc × Limiter w :=
  let count := s.count + 1
  if limit.toNat < count.toNat then
    (rcDeclined, { s with count := count, rateLimited := s.rateLimited + 1 })
  else (rcOk, { s with count := count })

def checkRateLimit (limit now : BitVec w) (s : Limiter w) : Rc × Limiter w :=
  if limit = 0 then (rcOk, s) else (s.enter now).countCall limit

inductive Phase (w : Nat)
  | idle
  | testWindow (now : BitVec w)
  | lock (now : BitVec w)
  | retest (now : BitVec w)
  | storeWindow (now : BitVec w)
  | storeCount (now : BitVec w)
  | unlock (now : BitVec w)
  | add (now : BitVec w)
  | limited
deriving DecidableEq

/-- The limiter and its mutex; beside them the calls granted in each second. -/
structure Shared (w : Nat) where
  limiter : Limiter w
  locked : Bool
  granted : BitVec w → Nat

def Shared.grant (s : Shared w) (now : BitVec w) : BitVec w → Nat :=
  Function.update s.granted now (s.granted now + 1)

def stepPhase (limit : BitVec w) (s : Shared w) : Phase w → Option (Phase w × Shared w)
  | .idle => none
  | .testWindow now => some (if s.limiter.window ≠ now then .lock now else .add now, s)
  | .lock now => if s.locked then none else some (.retest now, { s with locked := true })
  | .retest now => some (if s.limiter.window ≠ now then .storeWindow now else .unlock now, s)
  | .storeWindow now =>
    some (.storeCount now, { s with limiter := { s.limiter with window := now } })
  | .storeCount now => some (.unlock now, { s with limiter := { s.limiter with count := 0 } })
  | .unlock now => some (.add now, { s with locked := false })
  | .add now =>
    let limiter := { s.limiter with count := s.limiter.count + 1 }
    if limit.toNat < (s.limiter.count + 1).toNat then some (.limited, { s with limiter := limiter })
    else some (.idle, { s with limiter := limiter, granted := s.grant now })
  | .limited =>
    let limiter := { s.limiter with rateLimited := s.limiter.rateLimited + 1 }
    some (.idle, { s with limiter := limiter })

/-- A worker between two calls, with its cached second, or inside a call. -/
structure Local (w : Nat) where
  clock : BitVec w
  phase : Phase w
deriving DecidableEq

inductive Label (ι : Type*) (w : Nat)
  | tick (i : ι) (now : BitVec w)
  | call (i : ι)
  | move (i : ι)

variable {ι : Type*} [DecidableEq ι] (limit : BitVec w)

abbrev State (ι : Type*) (w : Nat) := Config ι (Shared w) (Local w)

def step (cfg : State ι w) : Label ι w → Option (State ι w)
  | .tick i now =>
    if (cfg.phase i).phase = .idle ∧ (cfg.phase i).clock.toNat ≤ now.toNat then
      some (cfg.put i ⟨now, .idle⟩ cfg.shared)
    else none
  | .call i =>
    if (cfg.phase i).phase = .idle then
      some (cfg.put i ⟨(cfg.phase i).clock, .testWindow (cfg.phase i).clock⟩ cfg.shared)
    else none
  | .move i => (stepPhase limit cfg.shared (cfg.phase i).phase).map fun next =>
      cfg.put i ⟨(cfg.phase i).clock, next.1⟩ next.2

def start (limiter : Limiter w) (clock : ι → BitVec w) : State ι w where
  shared := ⟨limiter, false, fun _ => 0⟩
  phase i := ⟨clock i, .idle⟩

theorem step_move {cfg : State ι w} {i : ι} {l : Local w} {s : Shared w} {p : Phase w} {t : Shared w}
    (h : stepPhase limit s l.phase = some (p, t)) :
    step limit (cfg.put i l s) (.move i) = some (cfg.put i ⟨l.clock, p⟩ t) := by
  rw [step, Config.put_phase_self, Config.put_shared, h]
  simp [Config.put_put]

abbrev Runs : State ι w → State ι w → Prop := Reaches (step limit) fun _ _ => True

theorem Runs.move {cfg₀ cfg : State ι w} {i : ι} {l : Local w} {s t : Shared w} {p : Phase w}
    (h : Runs limit cfg₀ (cfg.put i l s)) (hStep : stepPhase limit s l.phase = some (p, t)) :
    Runs limit cfg₀ (cfg.put i ⟨l.clock, p⟩ t) :=
  Reaches.next h trivial (step_move limit hStep)

theorem alone_enter (cfg : State ι w) (i : ι) (clock : BitVec w) (limiter : Limiter w)
    (granted : BitVec w → Nat) :
    Runs limit (cfg.put i ⟨clock, .testWindow clock⟩ ⟨limiter, false, granted⟩)
      (cfg.put i ⟨clock, .add clock⟩ ⟨limiter.enter clock, false, granted⟩) := by
  have hStart : Runs limit (cfg.put i ⟨clock, .testWindow clock⟩ ⟨limiter, false, granted⟩) _ := .start
  have hTest := hStart.move limit rfl
  by_cases hWindow : limiter.window = clock
  · have hSame : limiter.enter clock = limiter := if_neg (not_not.mpr hWindow)
    rw [if_neg (not_not.mpr hWindow)] at hTest
    rw [hSame]
    exact hTest
  · have hReset : limiter.enter clock = { limiter with window := clock, count := 0 } :=
      if_pos hWindow
    rw [if_pos hWindow] at hTest
    have hLock := hTest.move limit rfl
    have hRetest := hLock.move limit rfl
    rw [if_pos hWindow] at hRetest
    have hWindowStored := hRetest.move limit rfl
    have hCountStored := hWindowStored.move limit rfl
    have hUnlock := hCountStored.move limit rfl
    rw [hReset]
    exact hUnlock

theorem alone_countCall (cfg : State ι w) (i : ι) (clock : BitVec w) (limiter : Limiter w)
    (granted : BitVec w → Nat) :
    Runs limit (cfg.put i ⟨clock, .add clock⟩ ⟨limiter, false, granted⟩)
      (cfg.put i ⟨clock, .idle⟩ ⟨(limiter.countCall limit).2, false,
        if (limiter.countCall limit).1 = rcOk then Function.update granted clock (granted clock + 1)
        else granted⟩) := by
  have hStart : Runs limit (cfg.put i ⟨clock, .add clock⟩ ⟨limiter, false, granted⟩) _ := .start
  by_cases hOver : limit.toNat < (limiter.count + 1).toNat
  · have hAdd := hStart.move limit (by rw [stepPhase, if_pos hOver])
    have hLimited := hAdd.move limit rfl
    rw [Limiter.countCall, if_pos hOver]
    exact hLimited
  · have hAdd := hStart.move limit (by rw [stepPhase, if_neg hOver])
    rw [Limiter.countCall, if_neg hOver]
    exact hAdd

theorem alone_checkRateLimit (hLimit : limit ≠ 0) (cfg : State ι w) (i : ι) (clock : BitVec w)
    (limiter : Limiter w) (granted : BitVec w → Nat) :
    Runs limit (cfg.put i ⟨clock, .testWindow clock⟩ ⟨limiter, false, granted⟩)
      (cfg.put i ⟨clock, .idle⟩ ⟨(checkRateLimit limit clock limiter).2, false,
        if (checkRateLimit limit clock limiter).1 = rcOk then
          Function.update granted clock (granted clock + 1)
        else granted⟩) := by
  rw [checkRateLimit, if_neg hLimit]
  exact (alone_enter limit cfg i clock limiter granted).trans
    (alone_countCall limit cfg i clock (limiter.enter clock) granted)

/-- A worker has stored the new window and not yet reset the count. -/
def Between (cfg : State ι w) : Prop := ∃ i now, (cfg.phase i).phase = .storeCount now

/-- A window is only left for a later one, and a call only counts in the
window of its own second, outside of resets and below the word bound. -/
def Orderly (cfg : State ι w) : Label ι w → Prop
  | .move i => match (cfg.phase i).phase with
    | .storeWindow now => cfg.shared.limiter.window.toNat < now.toNat
    | .add now => cfg.shared.limiter.window = now ∧ ¬ Between cfg ∧
        cfg.shared.limiter.count.toNat + 1 < 2 ^ w
    | _ => True
  | _ => True

structure Inv (cfg : State ι w) : Prop where
  limited : ∀ s, cfg.shared.granted s ≤ limit.toNat
  current : cfg.shared.granted cfg.shared.limiter.window ≤ cfg.shared.limiter.count.toNat
  future : ∀ s : BitVec w, cfg.shared.limiter.window.toNat < s.toNat → cfg.shared.granted s = 0
  reset : Between cfg → cfg.shared.granted cfg.shared.limiter.window = 0

variable {limit}

omit [DecidableEq ι] in
theorem inv_start (limiter : Limiter w) (clock : ι → BitVec w) : Inv limit (start limiter clock) where
  limited _ := Nat.zero_le _
  current := Nat.zero_le _
  future _ _ := rfl
  reset _ := rfl

theorem between_put {cfg : State ι w} {i : ι} {l : Local w} {s : Shared w}
    (hPhase : ∀ now, l.phase ≠ .storeCount now) (h : Between (cfg.put i l s)) : Between cfg := by
  obtain ⟨j, now, hj⟩ := h
  by_cases hij : j = i
  · subst hij
    rw [Config.put_phase_self] at hj
    exact absurd hj (hPhase now)
  · rw [Config.put_phase_of_ne cfg l s hij] at hj
    exact ⟨j, now, hj⟩

theorem Inv.quiet {cfg : State ι w} (h : Inv limit cfg) {i : ι} {l : Local w} {s : Shared w}
    (hPhase : ∀ now, l.phase ≠ .storeCount now) (hGranted : s.granted = cfg.shared.granted)
    (hWindow : s.limiter.window = cfg.shared.limiter.window)
    (hCount : s.limiter.count = cfg.shared.limiter.count) : Inv limit (cfg.put i l s) := by
  refine ⟨?_, ?_, ?_, fun hBetween => ?_⟩
  · rw [Config.put_shared, hGranted]
    exact h.limited
  · rw [Config.put_shared, hGranted, hWindow, hCount]
    exact h.current
  · rw [Config.put_shared, hGranted, hWindow]
    exact h.future
  · rw [Config.put_shared, hGranted, hWindow]
    exact h.reset (between_put hPhase hBetween)

theorem Inv.storeWindow {cfg : State ι w} (h : Inv limit cfg) {now : BitVec w}
    (hLater : cfg.shared.limiter.window.toNat < now.toNat) (i : ι) (l : Local w) :
    Inv limit (cfg.put i l
      { cfg.shared with limiter := { cfg.shared.limiter with window := now } }) := by
  have hNone := h.future now hLater
  refine ⟨h.limited, ?_, fun s hs => h.future s (hLater.trans hs), fun _ => hNone⟩
  simp only [Config.put_shared, hNone]
  exact Nat.zero_le _

theorem Inv.storeCount {cfg : State ι w} (h : Inv limit cfg) {i : ι} {now : BitVec w}
    (hi : (cfg.phase i).phase = .storeCount now) (l : Local w) :
    Inv limit (cfg.put i l
      { cfg.shared with limiter := { cfg.shared.limiter with count := 0 } }) := by
  have hNone := h.reset ⟨i, now, hi⟩
  exact ⟨h.limited, hNone.le.trans (Nat.zero_le _), h.future, fun _ => hNone⟩

theorem Inv.add {cfg : State ι w} (h : Inv limit cfg) {now : BitVec w}
    (hWindow : cfg.shared.limiter.window = now) (hOutside : ¬ Between cfg)
    (hRoom : cfg.shared.limiter.count.toNat + 1 < 2 ^ w) {i : ι} {p : Phase w} {s : Shared w}
    (hStep : stepPhase limit cfg.shared (.add now) = some (p, s)) (clock : BitVec w) :
    Inv limit (cfg.put i ⟨clock, p⟩ s) := by
  have hCount : (cfg.shared.limiter.count + 1).toNat = cfg.shared.limiter.count.toNat + 1 := by
    rw [BitVec.toNat_add, BitVec.ofNat_eq_ofNat, BitVec.toNat_ofNat, Nat.add_mod_mod,
      Nat.mod_eq_of_lt hRoom]
  have hCurrent := h.current
  rw [hWindow] at hCurrent
  rw [stepPhase] at hStep
  split at hStep
  · obtain ⟨rfl, rfl⟩ := Prod.mk.inj (Option.some.inj hStep)
    refine ⟨h.limited, ?_, h.future, fun hBetween => ?_⟩
    · simp only [Config.put_shared, hWindow, hCount]
      omega
    · exact absurd (between_put (fun _ => by simp) hBetween) hOutside
  · rename_i hBelow
    obtain ⟨rfl, rfl⟩ := Prod.mk.inj (Option.some.inj hStep)
    refine ⟨fun t => ?_, ?_, fun t ht => ?_, fun hBetween => ?_⟩
    · simp only [Config.put_shared, Shared.grant]
      by_cases ht : t = now
      · subst ht
        rw [Function.update_self]
        omega
      · rw [Function.update_of_ne ht]
        exact h.limited t
    · simp only [Config.put_shared, Shared.grant, hWindow, Function.update_self, hCount]
      omega
    · simp only [Config.put_shared, hWindow, Shared.grant] at ht ⊢
      have hNe : t ≠ now := by
        rintro rfl
        exact absurd ht (Nat.lt_irrefl _)
      rw [Function.update_of_ne hNe]
      exact h.future t (hWindow ▸ ht)
    · exact absurd (between_put (fun _ => by simp) hBetween) hOutside

theorem Inv.move {cfg : State ι w} (h : Inv limit cfg) {i : ι} (hGuard : Orderly cfg (.move i))
    {p : Phase w} {s : Shared w}
    (hStep : stepPhase limit cfg.shared (cfg.phase i).phase = some (p, s)) :
    Inv limit (cfg.put i ⟨(cfg.phase i).clock, p⟩ s) := by
  rw [Orderly] at hGuard
  cases hPhase : (cfg.phase i).phase with
  | idle =>
    rw [hPhase] at hStep
    cases hStep
  | testWindow now =>
    rw [hPhase, stepPhase] at hStep
    obtain ⟨rfl, rfl⟩ := Prod.mk.inj (Option.some.inj hStep)
    refine h.quiet (fun _ => ?_) rfl rfl rfl
    split <;> simp
  | lock now =>
    rw [hPhase, stepPhase] at hStep
    split at hStep
    · cases hStep
    · obtain ⟨rfl, rfl⟩ := Prod.mk.inj (Option.some.inj hStep)
      exact h.quiet (fun _ => by simp) rfl rfl rfl
  | retest now =>
    rw [hPhase, stepPhase] at hStep
    obtain ⟨rfl, rfl⟩ := Prod.mk.inj (Option.some.inj hStep)
    refine h.quiet (fun _ => ?_) rfl rfl rfl
    split <;> simp
  | storeWindow now =>
    rw [hPhase] at hStep hGuard
    obtain ⟨rfl, rfl⟩ := Prod.mk.inj (Option.some.inj hStep)
    exact h.storeWindow hGuard i _
  | storeCount now =>
    rw [hPhase] at hStep
    obtain ⟨rfl, rfl⟩ := Prod.mk.inj (Option.some.inj hStep)
    exact h.storeCount hPhase _
  | unlock now =>
    rw [hPhase] at hStep
    obtain ⟨rfl, rfl⟩ := Prod.mk.inj (Option.some.inj hStep)
    exact h.quiet (fun _ => by simp) rfl rfl rfl
  | add now =>
    rw [hPhase] at hStep hGuard
    obtain ⟨hWindow, hOutside, hRoom⟩ := hGuard
    exact h.add hWindow hOutside hRoom hStep _
  | limited =>
    rw [hPhase] at hStep
    obtain ⟨rfl, rfl⟩ := Prod.mk.inj (Option.some.inj hStep)
    exact h.quiet (fun _ => by simp) rfl rfl rfl

theorem inv_reachable {limiter : Limiter w} {clock : ι → BitVec w} {cfg : State ι w}
    (h : Reaches (step limit) Orderly (start limiter clock) cfg) : Inv limit cfg := by
  refine h.invariant (inv_start limiter clock) ?_
  intro cfg label cfg' hInv hGuard hStep
  cases label with
  | tick i now =>
    rw [step] at hStep
    split at hStep
    · obtain rfl := Option.some.inj hStep
      exact hInv.quiet (fun _ => by simp) rfl rfl rfl
    · cases hStep
  | call i =>
    rw [step] at hStep
    split at hStep
    · obtain rfl := Option.some.inj hStep
      exact hInv.quiet (fun _ => by simp) rfl rfl rfl
    · cases hStep
  | move i =>
    obtain ⟨⟨p, s⟩, hPhase, rfl⟩ := Option.map_eq_some_iff.mp hStep
    exact hInv.move hGuard hPhase

/-- The rate limit over all workers, for every second. -/
def WithinLimit (limit : BitVec w) (cfg : State ι w) : Prop :=
  ∀ s, cfg.shared.granted s ≤ limit.toNat

theorem withinLimit_of_orderly {limiter : Limiter w} {clock : ι → BitVec w} {cfg : State ι w}
    (h : Reaches (step limit) Orderly (start limiter clock) cfg) : WithinLimit limit cfg :=
  (inv_reachable h).limited

instance [Fintype ι] (cfg : State ι w) : Decidable (Between cfg) :=
  decidable_of_iff (∃ i, (match (cfg.phase i).phase with | .storeCount _ => true | _ => false) = true)
    (exists_congr fun i => by cases (cfg.phase i).phase <;> simp)

instance [Fintype ι] (cfg : State ι w) (l : Label ι w) : Decidable (Orderly cfg l) :=
  match l with
  | .tick .. => isTrue trivial
  | .call _ => isTrue trivial
  | .move i =>
    match h : (cfg.phase i).phase with
    | .storeWindow now =>
      decidable_of_iff (cfg.shared.limiter.window.toNat < now.toNat) (by simp [Orderly, h])
    | .add now =>
      decidable_of_iff (cfg.shared.limiter.window = now ∧ ¬ Between cfg ∧
        cfg.shared.limiter.count.toNat + 1 < 2 ^ w) (by simp [Orderly, h])
    | .idle => isTrue (by simp [Orderly, h])
    | .testWindow _ => isTrue (by simp [Orderly, h])
    | .lock _ => isTrue (by simp [Orderly, h])
    | .retest _ => isTrue (by simp [Orderly, h])
    | .storeCount _ => isTrue (by simp [Orderly, h])
    | .unlock _ => isTrue (by simp [Orderly, h])
    | .limited => isTrue (by simp [Orderly, h])

def zeroedLimiter : Limiter 64 := ⟨0, 0, 0⟩

/-- Both workers read second 1 of a zeroed limiter with limit 1. The second
enters the window while the first holds the mutex and counts after the reset. -/
def resetFirst : List (Label Bool 64) :=
  [.call false, .move false, .move false, .move false, .move false, .call true, .move true,
    .move false, .move false, .move false, .move true, .move true]

theorem withinLimit_of_orderly_two_workers :
    ∃ cfg : State Bool 64, Reaches (step 1) Orderly (start zeroedLimiter fun _ => 1) cfg ∧
      cfg.shared.granted 1 = 1 ∧ WithinLimit 1 cfg := by
  have hRun : ((run (step 1) Orderly (start zeroedLimiter fun _ => 1) resetFirst).map
      fun cfg : State Bool 64 => decide (cfg.shared.granted 1 = 1)) = some true := by
    decide +kernel
  obtain ⟨cfg, hCfg, hGranted⟩ := Option.map_eq_some_iff.mp hRun
  have hReaches := Reaches.of_run hCfg
  exact ⟨cfg, hReaches, of_decide_eq_true hGranted, withinLimit_of_orderly hReaches⟩

/-- The same two workers, but the second counts between the two stores. -/
def resetLate : List (Label Bool 64) :=
  [.call false, .move false, .move false, .move false, .move false, .call true, .move true,
    .move true, .move false, .move false, .move false]

theorem checkRateLimit_exceeds_limit :
    ∃ cfg : State Bool 64, Reaches (step 1) (fun _ _ => True) (start zeroedLimiter fun _ => 1) cfg ∧
      ¬ WithinLimit 1 cfg := by
  have hRun : ((run (step 1) (fun _ _ => True) (start zeroedLimiter fun _ => 1) resetLate).map
      fun cfg : State Bool 64 => decide (cfg.shared.granted 1 = 2)) = some true := by
    decide +kernel
  obtain ⟨cfg, hCfg, hGranted⟩ := Option.map_eq_some_iff.mp hRun
  refine ⟨cfg, Reaches.of_run hCfg, fun hWithin => ?_⟩
  have hOne := hWithin 1
  rw [of_decide_eq_true hGranted] at hOne
  exact absurd hOne (by decide)

end HttpMonitoring.RateLimit
