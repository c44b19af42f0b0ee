import HttpMonitoring.History
import HttpMonitoring.Library.ScaledQuotient

/-!
# The six rates of a pass

Every rate is the growth of a counter, scaled up in a word and divided by the
elapsed time. It is the true rate exactly if the product fits in the word.
-/

namespace HttpMonitoring.Rates

open Accounting Zone History Library.ScaledQuotient

variable {w : Nat}

inductive Channel
  | requests
  | responses
  | netRx
  | netTx
  | diskRead
  | diskWrite

namespace Channel

def scale : Channel → Nat
  | .requests | .responses => 1000000
  | .netRx | .netTx | .diskRead | .diskWrite => 1000

def now (sh : Shctx w) : Channel → BitVec w
  | .requests => sh.requests.total
  | .responses => sh.requests.responses
  | .netRx => sumNetwork sh false
  | .netTx => sumNetwork sh true
  | .diskRead => sumDisk sh false
  | .diskWrite => sumDisk sh true

def prev (sh : Shctx w) : Channel → BitVec w
  | .requests => sh.prevReqTotal
  | .responses => sh.prevRespTotal
  | .netRx => sh.prevNetRx
  | .netTx => sh.prevNetTx
  | .diskRead => sh.prevDiskRead
  | .diskWrite => sh.prevDiskWrite

/-- The rate as the pass computes it. -/
def rate (conf : MainConf w) (clock : Clock w) (sh : Shctx w) (channel : Channel) : BitVec w :=
  History.rate channel.scale (channel.now sh) (channel.prev sh) (elapsed conf (nowMsec clock) sh)

/-- The product before the division, without a wrap. -/
def product (sh : Shctx w) (channel : Channel) : Nat :=
  ((channel.now sh).toNat - (channel.prev sh).toNat) * channel.scale

def trueRate (conf : MainConf w) (clock : Clock w) (sh : Shctx w) (channel : Channel) : Nat :=
  channel.product sh / (elapsed conf (nowMsec clock) sh).toNat

end Channel

theorem averaged_eq (conf : MainConf w) (clock : Clock w) (sh : Shctx w) :
    averaged conf clock sh = withAverages (Channel.requests.rate conf clock sh)
      (Channel.responses.rate conf clock sh) sh := rfl

theorem Channel.scale_le (channel : Channel) : channel.scale ≤ 1000000 := by
  cases channel <;> decide

theorem elapsed_pos (hw : 0 < w) (conf : MainConf w) (now : BitVec w) (sh : Shctx w) :
    0 < (elapsed conf now sh).toNat := by
  have hWide : 1 < 2 ^ w := Nat.one_lt_two_pow hw.ne'
  simp only [elapsed]
  generalize (if sh.prevCollectMsec = 0 ∨ now.toNat ≤ sh.prevCollectMsec.toNat then conf.refreshInterval
    else now - sh.prevCollectMsec) = dt
  split
  · rw [BitVec.ofNat_eq_ofNat, BitVec.toNat_ofNat, Nat.mod_eq_of_lt hWide]
    exact Nat.one_pos
  · rename_i hSome
    rw [Nat.pos_iff_ne_zero]
    intro hZero
    exact hSome (BitVec.eq_of_toNat_eq hZero)

theorem Channel.toNat_rate (hw : 20 ≤ w) (conf : MainConf w) (clock : Clock w) (sh : Shctx w)
    (channel : Channel) :
    (channel.rate conf clock sh).toNat =
      channel.product sh % 2 ^ w / (elapsed conf (nowMsec clock) sh).toNat := by
  have hScale : channel.scale < 2 ^ w :=
    channel.scale_le.trans_lt ((by decide : 1000000 < 2 ^ 20).trans_le (Nat.pow_le_pow_right (by omega) hw))
  rw [Channel.rate, History.rate, toNat_scaledQuotient hScale, delta, toNat_clampedSub, Channel.product]

theorem Channel.rate_le (hw : 20 ≤ w) (conf : MainConf w) (clock : Clock w) (sh : Shctx w)
    (channel : Channel) : (channel.rate conf clock sh).toNat ≤ channel.trueRate conf clock sh := by
  rw [channel.toNat_rate hw, Channel.trueRate]
  exact mod_div_le _ _ _

theorem Channel.rate_eq_iff (hw : 20 ≤ w) (conf : MainConf w) (clock : Clock w) (sh : Shctx w)
    (channel : Channel) : (channel.rate conf clock sh).toNat = channel.trueRate conf clock sh ↔
      channel.product sh < 2 ^ w := by
  rw [channel.toNat_rate hw, Channel.trueRate]
  exact mod_div_eq_iff (elapsed_pos (by omega) conf _ sh) (BitVec.isLt _)

/-- Every true rate that fits in a word is the one computed, and the product on
the way to it fits too. -/
def Exact (conf : MainConf w) (clock : Clock w) (sh : Shctx w) : Prop :=
  ∀ channel : Channel, channel.trueRate conf clock sh < 2 ^ w →
    (channel.rate conf clock sh).toNat = channel.trueRate conf clock sh ∧ channel.product sh < 2 ^ w

/-- On any word that holds the scales a pass is exact just when every growth,
scaled up, fits in the word or its rate does not, and a rate whose product does
not fit is wrong in itself. -/
theorem exact_iff (hw : 20 ≤ w) (conf : MainConf w) (clock : Clock w) (sh : Shctx w) :
    (Exact conf clock sh ↔ ∀ channel : Channel,
        ((channel.now sh).toNat - (channel.prev sh).toNat) * channel.scale < 2 ^ w ∨
          2 ^ w * (elapsed conf (nowMsec clock) sh).toNat ≤
            ((channel.now sh).toNat - (channel.prev sh).toNat) * channel.scale) ∧
      ∀ channel : Channel,
        2 ^ w ≤ ((channel.now sh).toNat - (channel.prev sh).toNat) * channel.scale →
          (channel.rate conf clock sh).toNat < channel.trueRate conf clock sh := by
  constructor
  · have hTooLarge : ∀ channel : Channel, 2 ^ w ≤ channel.trueRate conf clock sh ↔
        2 ^ w * (elapsed conf (nowMsec clock) sh).toNat ≤ channel.product sh := fun channel =>
      Nat.le_div_iff_mul_le (elapsed_pos (by omega) conf _ sh)
    constructor
    · intro h channel
      rcases Nat.lt_or_ge (channel.trueRate conf clock sh) (2 ^ w) with hFits | hLarge
      · exact Or.inl (h channel hFits).2
      · exact Or.inr ((hTooLarge channel).mp hLarge)
    · intro h channel hFits
      rcases h channel with hProduct | hLarge
      · exact ⟨(channel.rate_eq_iff hw conf clock sh).mpr hProduct, hProduct⟩
      · exact absurd ((hTooLarge channel).mpr hLarge) (not_le.mpr hFits)
  · intro channel hWrap
    have hWrong := mt (channel.rate_eq_iff hw conf clock sh).mp (not_lt.mpr hWrap)
    exact lt_of_le_of_ne (channel.rate_le hw conf clock sh) hWrong

def conf32 : MainConf 32 := withDefaults createMainConf

/-- A pass over an idle zone, and the requests since. -/
def busyZone : Shctx 32 :=
  let sh := collectHistory conf32 ⟨1710000000, 0⟩ (freshZone conf32)
  { sh with requests := { sh.requests with total := 5000 } }

/-- Five million thousandths fit in 32 bits, the five billion before the
division do not. -/
theorem busy_second_is_lost :
    ¬ Exact conf32 ⟨1710000001, 0⟩ busyZone ∧
      Channel.requests.trueRate conf32 ⟨1710000001, 0⟩ busyZone = 5000000 ∧
      Channel.requests.rate conf32 ⟨1710000001, 0⟩ busyZone = 705032 := by
  have hTrue : Channel.requests.trueRate conf32 ⟨1710000001, 0⟩ busyZone = 5000000 := by
    decide +kernel
  have hRate : Channel.requests.rate conf32 ⟨1710000001, 0⟩ busyZone = 705032 := by
    decide +kernel
  refine ⟨?_, hTrue, hRate⟩
  intro h
  have hSame := (h .requests (by rw [hTrue]; decide)).1
  rw [hTrue, hRate] at hSame
  exact absurd hSame (by decide)

/-- A pass over an idle zone, and the traffic since. -/
def calmZone : Shctx 32 :=
  let sh := collectHistory conf32 ⟨1710000000, 0⟩ (freshZone conf32)
  { sh with
    requests := { sh.requests with total := 250, responses := 248 }
    ifaceCount := 1
    ifaces := Function.update sh.ifaces 0 { sh.ifaces 0 with rxBytes := 90000, txBytes := 700000 } }

theorem calm_second_is_exact : Exact conf32 ⟨1710000001, 0⟩ calmZone ∧
    (Channel.requests.rate conf32 ⟨1710000001, 0⟩ calmZone).toNat = 250000 ∧
    (Channel.netRx.rate conf32 ⟨1710000001, 0⟩ calmZone).toNat = 90000 := by
  refine ⟨(exact_iff (by decide) conf32 ⟨1710000001, 0⟩ calmZone).1.mpr ?_, by decide +kernel, by decide +kernel⟩
  intro channel
  cases channel <;> exact Or.inl (by decide +kernel)

end HttpMonitoring.Rates
