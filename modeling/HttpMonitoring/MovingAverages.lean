import HttpMonitoring.Throughput
import HttpMonitoring.Library.Smoothing

/-!
# The moving averages of requests and responses

Every recorded pass of a run, with the zone it finds. The averages change in
these passes only, and both restart when that of the requests is zero.
-/

namespace HttpMonitoring.MovingAverages

open Accounting Zone History Rates Collection Library.Smoothing

variable {w : Nat}

inductive Series
  | requests
  | responses
deriving DecidableEq

namespace Series

def channel : Series → Channel
  | .requests => .requests
  | .responses => .responses

def average (sh : Shctx w) : Series → BitVec w
  | .requests => sh.ewmaRpsMilli
  | .responses => sh.ewmaRespMilli

end Series

/-- A pass that is not too early, with the zone before it. -/
structure Pass (w : Nat) where
  conf : MainConf w
  clock : Clock w
  sh : Shctx w
  due : ¬ TooEarly conf (nowMsec clock) sh

namespace Pass

def result (p : Pass w) : Shctx w := collectHistory p.conf p.clock p.sh

def rate (p : Pass w) (s : Series) : BitVec w := s.channel.rate p.conf p.clock p.sh

def step (p : Pass w) (s : Series) : Step :=
  ⟨(s.average p.sh).toNat, (p.rate s).toNat, (s.average p.result).toNat⟩

/-- The sums under the division do not exceed the machine word. -/
def Fits (p : Pass w) : Prop := ∀ s : Series, 7 * (p.step s).before + 3 * (p.step s).rate < 2 ^ w

end Pass

def recorded (sh : Shctx w) : Stage w → List (Pass w)
  | .history conf clock =>
    if due : TooEarly conf (nowMsec clock) sh then [] else [⟨conf, clock, sh, due⟩]
  | _ => []

/-- The recorded passes of a run from the zone on. -/
def passes : List (Stage w) → Shctx w → List (Pass w)
  | [], _ => []
  | stage :: stages, sh => recorded sh stage ++ passes stages (stage.apply sh)

theorem average_result (p : Pass w) (s : Series) : s.average p.result =
    if p.sh.ewmaRpsMilli = 0 then p.rate s else ewma (s.average p.sh) (p.rate s) := by
  rw [Pass.result, collectHistory, if_neg p.due, averaged_eq, withAverages]
  split <;> cases s <;> rfl

theorem toNat_ewma (hw : 4 ≤ w) {average value : BitVec w}
    (h : 7 * average.toNat + 3 * value.toNat < 2 ^ w) :
    (ewma average value).toNat = mean 7 3 average.toNat value.toNat := by
  have hWord : 2 ^ 4 ≤ 2 ^ w := Nat.pow_le_pow_right (by decide) hw
  have hConst : ∀ n ≤ 10, (BitVec.ofNat w n).toNat = n := fun n hn =>
    (BitVec.toNat_ofNat n w).trans (Nat.mod_eq_of_lt (by omega))
  rw [ewma, mean, BitVec.toNat_udiv, BitVec.toNat_add, BitVec.toNat_mul, BitVec.toNat_mul,
    hConst 7 (by decide), hConst 3 (by decide), hConst 10 le_rfl, Nat.mul_comm average.toNat,
    Nat.mul_comm value.toNat, Nat.mod_eq_of_lt (a := 7 * average.toNat) (by omega),
    Nat.mod_eq_of_lt (a := 3 * value.toNat) (by omega), Nat.mod_eq_of_lt h]

theorem step_mixes (hw : 4 ≤ w) {p : Pass w} (hFits : p.Fits) (s : Series) :
    (p.step s).after = (p.step s).rate ∨
      (p.step s).after = mean 7 3 (p.step s).before (p.step s).rate := by
  have hResult := average_result p s
  split at hResult
  · exact Or.inl (congrArg BitVec.toNat hResult)
  · exact Or.inr ((congrArg BitVec.toNat hResult).trans (toNat_ewma hw (hFits s)))

theorem average_of_cells {sh sh' : Shctx w} (h : collectorCells sh' = collectorCells sh) (s : Series) :
    s.average sh' = s.average sh := by
  cases s with
  | requests => exact congrArg CollectorCells.ewmaRpsMilli h
  | responses => exact congrArg CollectorCells.ewmaRespMilli h

theorem average_apply {sh : Shctx w} {stage : Stage w} (h : recorded sh stage = []) (s : Series) :
    s.average (stage.apply sh) = s.average sh := by
  cases stage with
  | cpu file =>
    obtain ⟨_, _, _, _, hWrites⟩ := collectCpu_writes file sh
    rw [Stage.apply, hWrites]
    cases s <;> rfl
  | meminfo file =>
    obtain ⟨_, _, hWrites⟩ := collectMeminfo_writes file sh
    rw [Stage.apply, hWrites]
    cases s <;> rfl
  | diskstats file =>
    obtain ⟨_, _, hWrites⟩ := collectDiskstats_writes file sh
    rw [Stage.apply, hWrites]
    cases s <;> rfl
  | filesystems statvfs mounts =>
    obtain ⟨_, _, hWrites⟩ := collectFilesystems_writes statvfs mounts sh
    rw [Stage.apply, hWrites]
    cases s <;> rfl
  | network file addresses =>
    obtain ⟨_, _, hWrites⟩ := collectNetwork_writes file addresses sh
    rw [Stage.apply, hWrites]
    cases s <;> rfl
  | history conf clock =>
    rw [recorded] at h
    split at h
    · rename_i hEarly
      rw [Stage.apply, collectHistory, if_pos hEarly]
    · cases h
  | other write => exact average_of_cells (write.cells_apply sh) s

theorem recorded_eq_cons {sh : Shctx w} {stage : Stage w} {p : Pass w} {rest : List (Pass w)}
    (h : recorded sh stage = p :: rest) : p.sh = sh ∧ stage.apply sh = p.result ∧ rest = [] := by
  cases stage with
  | history conf clock =>
    rw [recorded] at h
    split at h
    · cases h
    · obtain ⟨rfl, rfl⟩ := List.cons.inj h
      refine ⟨rfl, ?_, rfl⟩
      rw [Stage.apply, Pass.result]
  | cpu _ | meminfo _ | diskstats _ | filesystems _ _ | network _ _ | other _ => cases h

/-- Each pass finds the averages that the one before left, the first those of
the zone that the run starts from. -/
theorem passes_linked (s : Series) (stages : List (Stage w)) (sh : Shctx w) :
    (∀ p ∈ (passes stages sh).head?, s.average p.sh = s.average sh) ∧
      (passes stages sh).IsChain fun p q => s.average q.sh = s.average p.result := by
  induction stages generalizing sh with
  | nil =>
    rw [passes, List.head?_nil]
    exact ⟨fun p hp => absurd hp (Option.not_mem_none p), List.IsChain.nil⟩
  | cons stage stages ih =>
    obtain ⟨hHead, hChain⟩ := ih (stage.apply sh)
    rw [passes]
    rcases hPass : recorded sh stage with _ | ⟨p, rest⟩
    · exact ⟨fun p hp => (hHead p hp).trans (average_apply hPass s), hChain⟩
    · obtain ⟨hSame, hResult, rfl⟩ := recorded_eq_cons hPass
      refine ⟨fun q hq => ?_, List.isChain_cons.mpr ⟨fun q hq => ?_, hChain⟩⟩
      · rw [← Option.some.inj hq, hSame]
      · rw [← hResult]
        exact hHead q hq

theorem follows_passes (hw : 4 ≤ w) {conf : MainConf w} {stages : List (Stage w)}
    (hFits : ∀ p ∈ passes stages (freshZone conf), p.Fits) (s : Series) :
    Follows 7 3 ((passes stages (freshZone conf)).map fun p => p.step s) := by
  have hLinked := passes_linked s stages (freshZone conf)
  refine ⟨fun t ht => ?_, ?_, fun t ht => ?_⟩
  · rw [List.head?_map] at ht
    obtain ⟨p, hp, rfl⟩ := Option.map_eq_some_iff.mp ht
    have hZero : p.sh.ewmaRpsMilli = 0 := (passes_linked .requests stages (freshZone conf)).1 p hp
    have hResult := average_result p s
    rw [if_pos hZero] at hResult
    refine ⟨?_, congrArg BitVec.toNat hResult⟩
    have hBefore := congrArg BitVec.toNat (hLinked.1 p hp)
    cases s <;> exact hBefore
  · rw [List.isChain_map]
    exact hLinked.2.imp fun p q h => congrArg BitVec.toNat h
  · obtain ⟨p, hp, rfl⟩ := List.mem_map.mp ht
    exact step_mixes hw (hFits p hp) s

/-- In every run whose sums fit in the word both averages follow their rates. -/
theorem averages_follow_rates (hw : 4 ≤ w) (conf : MainConf w) (stages : List (Stage w))
    (hFits : ∀ p ∈ passes stages (freshZone conf), p.Fits) (s : Series) :
    Follows 7 3 ((passes stages (freshZone conf)).map fun p => p.step s) ∧
      Smoothed ((passes stages (freshZone conf)).map fun p => p.step s) :=
  have hFollows := follows_passes hw hFits s
  ⟨hFollows, hFollows.smoothed (by decide)⟩

/-- A request, a pass, and a pass without requests a second later. -/
def oneRequest : List (Stage 64) :=
  [.other (.accounted (fun _ => 0) conf64 Throughput.page), .history conf64 ⟨1710000000, 0⟩,
    .history conf64 ⟨1710000001, 0⟩]

theorem averages_follow_one_request :
    (passes oneRequest (freshZone conf64)).map (fun p => p.step .requests) =
        [⟨0, 1000, 1000⟩, ⟨1000, 0, 700⟩] ∧
      Smoothed ((passes oneRequest (freshZone conf64)).map fun p => p.step .requests) := by
  have hSteps : ∀ s : Series, (passes oneRequest (freshZone conf64)).map (fun p => p.step s) =
      [⟨0, 1000, 1000⟩, ⟨1000, 0, 700⟩] := by
    intro s
    cases s <;> decide +kernel
  refine ⟨hSteps .requests, (averages_follow_rates (by decide) conf64 oneRequest ?_ .requests).2⟩
  intro p hp s
  have hMem : p.step s ∈ (passes oneRequest (freshZone conf64)).map fun p => p.step s :=
    List.mem_map_of_mem hp
  rw [hSteps s] at hMem
  generalize p.step s = t at hMem
  fin_cases hMem <;> decide

end HttpMonitoring.MovingAverages
