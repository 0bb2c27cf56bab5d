import TelafSim.Binary64
import TelafSim.MqttClient

/-!
# The delay before the next connect attempt

`_compute_next_delay_ms` of `sml/common/mqtt_client.py`, and the entry action of Reconnecting that
arms the timer with it. The delay grows by a factor from failure to failure and is capped at a
maximum. The cap comes after the power: with a factor that is a float the power overflows however
small the cap is, the entry action raises, and no timer is armed.

The power of a float is taken as exact, with an overflow from `2 ^ 1024` on. What comes after it is
rounded as floats are.
-/

namespace TelafSim.Mqtt

/-- A number of the configuration; YAML reads `2` as an int and `2.0` as a float. -/
inductive Number
  | int (z : ℤ)
  | float (q : ℚ)
  deriving DecidableEq, Repr

def Number.value : Number → ℚ
  | .int z => z
  | .float q => q

structure ReconnectConfig where
  initialMs : ℤ
  maxMs : ℤ
  multiplier : Number
  jitterPct : ℚ
  deriving DecidableEq, Repr

/-- The defaults of the dataclass, and of the shipped `config.yaml`. -/
def ReconnectConfig.shipped : ReconnectConfig := ⟨500, 30000, .float 2, 0⟩

/-- The float nearest to a number, if it is finite. An int that has none raises; a product of floats
is infinite then, and it is `int(inf)` that raises. -/
def toFloat (q : ℚ) : Option ℚ :=
  match binary64 q.nnabs with
  | ⊤ => none
  | (x : ℚ≥0) => some (if q < 0 then -x else x)

def powFloat (q : ℚ) (exponent : ℕ) : Option ℚ :=
  if |q ^ exponent| < 2 ^ 1024 then some (q ^ exponent) else none

/-- `int(x)` cuts the fraction off. -/
def truncate (q : ℚ) : ℤ := q.num.tdiv q.den

namespace ReconnectConfig

def baseMs (cfg : ReconnectConfig) (exponent : ℕ) : Option ℤ :=
  match cfg.multiplier with
  | .int z => some (cfg.initialMs * z ^ exponent)
  | .float q => do
    let power ← powFloat q exponent
    let initial ← toFloat cfg.initialMs
    let base ← toFloat (initial * power)
    return truncate base

/-- `_compute_next_delay_ms`, after so many failures; `uniform` is what `random.uniform(lo, hi)`
returns. -/
def computeNextDelayMs (cfg : ReconnectConfig) (uniform : ℚ) (failureCount : ℕ) : Option ℤ := do
  let base ← cfg.baseMs (failureCount - 1)
  let capped := min base cfg.maxMs
  if 0 < cfg.jitterPct then
    let factor ← toFloat capped
    let jittered ← toFloat (factor * uniform)
    return truncate jittered
  else
    return capped

end ReconnectConfig

def period (delayMs : ℤ) : Option ℚ := (toFloat delayMs).bind (fun ms => toFloat (ms / 1000))

/-- `_schedule_reconnect_timer`, the entry action of Reconnecting. When it raises nothing is
posted. -/
def MqttClient.enterReconnecting (cfg : ReconnectConfig) (uniform : ℚ) (m : MqttClient) :
    Except MqttClient MqttClient :=
  match (cfg.computeNextDelayMs uniform m.failureCount).bind period with
  | none => .error m
  | some _ => .ok m.scheduleReconnectTimer

/-- The delay as documented: the initial one times the factor for every failure after the first, up
to the maximum. -/
def nominalMs (cfg : ReconnectConfig) (factor n : ℕ) : ℤ :=
  min (cfg.initialMs * (factor : ℤ) ^ (max n 1 - 1)) cfg.maxMs

structure BacksOff (cfg : ReconnectConfig) (uniform : ℚ) (factor : ℕ) (m : MqttClient) : Prop where
  returns : cfg.computeNextDelayMs uniform m.failureCount =
    some (nominalMs cfg factor m.failureCount)
  monotone : ∀ n ≤ m.failureCount, ∃ delayMs, cfg.computeNextDelayMs uniform n = some delayMs ∧
    delayMs ≤ nominalMs cfg factor m.failureCount
  arms : ∃ m' uuid, m.enterReconnecting cfg uniform = .ok m' ∧
    m'.reconnectEventUuid = some uuid ∧ (uuid, .reconnect) ∈ m'.armed

/-- No float overflows on the way, and the product is exact, or hidden by the maximum. -/
def FloatInRange (initialMs : ℕ) (maxMs : ℤ) (power : ℕ) : Prop :=
  power < 2 ^ 1024 ∧ nearest initialMs * power < floatBound ∧
    (FitsFloat (initialMs * power) ∨
      maxMs ≤ initialMs * power ∧ maxMs ≤ nearest (nearest initialMs * power))

instance (initialMs : ℕ) (maxMs : ℤ) (power : ℕ) : Decidable (FloatInRange initialMs maxMs power) :=
  inferInstanceAs (Decidable (_ ∧ _ ∧ (_ ∨ _ ∧ _)))

/-- The delay after `n` failures can be computed. A factor that is an int has no float but the
period. -/
def InRange (cfg : ReconnectConfig) (factor n : ℕ) : Prop :=
  match cfg.multiplier with
  | .int _ => nominalMs cfg factor n < floatBound
  | .float _ => FloatInRange cfg.initialMs.toNat cfg.maxMs (factor ^ (max n 1 - 1))

instance (cfg : ReconnectConfig) (factor n : ℕ) : Decidable (InRange cfg factor n) :=
  match h : cfg.multiplier with
  | .int _ => decidable_of_iff (nominalMs cfg factor n < floatBound) (by simp only [InRange, h])
  | .float _ =>
    decidable_of_iff (FloatInRange cfg.initialMs.toNat cfg.maxMs (factor ^ (max n 1 - 1)))
      (by simp only [InRange, h])

section Floats

variable {power initialMs : ℕ} {maxMs : ℤ}

theorem toFloat_natCast (n : ℕ) :
    toFloat (n : ℚ) = if n < floatBound then some (nearest n : ℚ) else none := by
  have hnnabs : Rat.nnabs (n : ℚ) = n := by
    ext
    rw [Rat.coe_nnabs, NNRat.cast_natCast, abs_of_nonneg (Nat.cast_nonneg n)]
  have hnonneg : ¬ (n : ℚ) < 0 := not_lt.mpr (Nat.cast_nonneg n)
  rw [toFloat, hnnabs, binary64_natCast]
  by_cases hlt : n < floatBound
  · simp only [hlt, if_true, hnonneg, if_false, NNRat.cast_natCast]
  · simp only [hlt, if_false]

theorem powFloat_natCast (factor exponent : ℕ) : powFloat (factor : ℚ) exponent =
    if factor ^ exponent < 2 ^ 1024 then some ((factor ^ exponent : ℕ) : ℚ) else none := by
  have habs : |(factor : ℚ) ^ exponent| = ((factor ^ exponent : ℕ) : ℚ) := by
    rw [abs_of_nonneg (by positivity), Nat.cast_pow]
  have hlt : ((factor ^ exponent : ℕ) : ℚ) < 2 ^ 1024 ↔ factor ^ exponent < 2 ^ 1024 := by
    rw [← Nat.cast_ofNat, ← Nat.cast_pow, Nat.cast_lt]
  rw [powFloat, habs, Nat.cast_pow]
  rw [Nat.cast_pow] at hlt
  simp only [hlt]

theorem truncate_natCast (n : ℕ) : truncate (n : ℚ) = n := by simp [truncate]

theorem isSome_period_iff (n : ℕ) : (period n).isSome = true ↔ n < floatBound := by
  have hperiod : period n = (toFloat (n : ℚ)).bind (fun ms => toFloat (ms / 1000)) := by
    rw [period, Int.cast_natCast]
  have hnnabs : ∀ x : ℕ, Rat.nnabs ((x : ℚ) / 1000) = x / 1000 := by
    intro x
    ext
    rw [Rat.coe_nnabs, abs_of_nonneg (by positivity)]
    push_cast
    rfl
  rw [hperiod, toFloat_natCast]
  by_cases hlt : n < floatBound
  · rw [if_pos hlt, Option.bind_some]
    refine iff_of_true ?_ hlt
    have hbound : nearest n < 2 ^ 1024 := nearest_lt_iff.mpr hlt
    have hfinite : binary64 (Rat.nnabs ((nearest n : ℚ) / 1000)) ≠ ⊤ := by
      rw [hnnabs]
      have hone : (1 : ℚ≥0) ≤ 2 ^ 1024 / 4 := by
        rw [le_div_iff₀ (by norm_num), one_mul]
        calc (4 : ℚ≥0) = 2 ^ 2 := by norm_num
          _ ≤ 2 ^ 1024 := pow_le_pow_right₀ one_le_two (by decide)
      refine binary64_ne_top hone (div_mul_cancel₀ _ (by norm_num)).le ?_
      have hle : (nearest n : ℚ≥0) ≤ 2 ^ 1024 := by exact_mod_cast hbound.le
      exact div_le_div₀ zero_le hle (by norm_num) (by norm_num)
    obtain ⟨x, hx⟩ := WithTop.ne_top_iff_exists.mp hfinite
    rw [toFloat, ← hx]
    rfl
  · rw [if_neg hlt, Option.bind_none]
    exact iff_of_false Bool.false_ne_true hlt

/-- The capped float is the capped product if and only if the product is a float, or the maximum
hides both. -/
theorem min_nearest_iff (hpower : 0 < power) :
    min (nearest (nearest initialMs * power) : ℤ) maxMs = min ((initialMs * power : ℕ) : ℤ) maxMs ↔
      FitsFloat (initialMs * power) ∨
        maxMs ≤ initialMs * power ∧ maxMs ≤ nearest (nearest initialMs * power) := by
  have hfits : nearest (nearest initialMs * power) = initialMs * power ↔
      FitsFloat (initialMs * power) := by
    constructor
    · intro heq
      exact heq ▸ fitsFloat_nearest _
    · intro hfits
      rw [nearest_eq_self_iff.mpr (hfits.of_mul hpower), nearest_eq_self_iff.mpr hfits]
  rw [← hfits]
  push_cast
  omega

end Floats

section Delay

variable {cfg : ReconnectConfig} {uniform : ℚ} {factor n k initialMs : ℕ}

theorem pred_eq (n : ℕ) : max n 1 - 1 = n - 1 := by omega

theorem nominalMs_mono (hfactor : 1 ≤ factor) (hinitial : 0 ≤ cfg.initialMs) (hle : k ≤ n) :
    nominalMs cfg factor k ≤ nominalMs cfg factor n := by
  have hone : (1 : ℤ) ≤ factor := by exact_mod_cast hfactor
  have hpow : (factor : ℤ) ^ (max k 1 - 1) ≤ (factor : ℤ) ^ (max n 1 - 1) :=
    pow_le_pow_right₀ hone (by omega)
  exact min_le_min_right cfg.maxMs (mul_le_mul_of_nonneg_left hpow hinitial)

theorem nominalMs_nonneg (hinitial : 0 ≤ cfg.initialMs) (hmax : 0 ≤ cfg.maxMs) :
    0 ≤ nominalMs cfg factor n :=
  le_min (mul_nonneg hinitial (pow_nonneg (Int.natCast_nonneg factor) _)) hmax

theorem baseMs_int {z : ℤ} (hmult : cfg.multiplier = .int z)
    (hvalue : cfg.multiplier.value = factor) (e : ℕ) :
    cfg.baseMs e = some (cfg.initialMs * (factor : ℤ) ^ e) := by
  have hz : z = (factor : ℤ) := by
    rw [hmult] at hvalue
    exact_mod_cast (show (z : ℚ) = ((factor : ℤ) : ℚ) by simpa [Number.value] using hvalue)
  rw [ReconnectConfig.baseMs, hmult, hz]

theorem baseMs_float {q : ℚ} (hmult : cfg.multiplier = .float q)
    (hvalue : cfg.multiplier.value = factor) (hfactor : 1 ≤ factor)
    (hinitial : cfg.initialMs = initialMs) (e : ℕ) :
    cfg.baseMs e =
      if factor ^ e < 2 ^ 1024 ∧ nearest initialMs * factor ^ e < floatBound
      then some (nearest (nearest initialMs * factor ^ e) : ℤ) else none := by
  have hq : q = (factor : ℚ) := by
    rw [hmult] at hvalue
    exact hvalue
  have hpower : 0 < factor ^ e := Nat.pow_pos hfactor
  have hbase : cfg.baseMs e = (powFloat (factor : ℚ) e).bind (fun power =>
      (toFloat (initialMs : ℚ)).bind (fun initial =>
        (toFloat (initial * power)).bind (fun base => some (truncate base)))) := by
    rw [ReconnectConfig.baseMs, hmult, hq, hinitial, Int.cast_natCast]
    rfl
  have hnot : ∀ {x : ℤ}, ¬ (factor ^ e < 2 ^ 1024 ∧ nearest initialMs * factor ^ e < floatBound) →
      none = if factor ^ e < 2 ^ 1024 ∧ nearest initialMs * factor ^ e < floatBound
        then some x else none := fun h => (if_neg h).symm
  rw [hbase, powFloat_natCast, toFloat_natCast]
  by_cases hp : factor ^ e < 2 ^ 1024
  · rw [if_pos hp, Option.bind_some]
    by_cases hi : initialMs < floatBound
    · rw [if_pos hi, Option.bind_some, ← Nat.cast_mul, toFloat_natCast]
      by_cases hb : nearest initialMs * factor ^ e < floatBound
      · rw [if_pos hb, if_pos ⟨hp, hb⟩, Option.bind_some, truncate_natCast]
      · rw [if_neg hb, Option.bind_none]
        exact hnot (fun h => hb h.2)
    · have hb : ¬ nearest initialMs * factor ^ e < floatBound := by
        intro hb
        have hlt : nearest initialMs < 2 ^ 1024 :=
          calc nearest initialMs ≤ nearest initialMs * factor ^ e := Nat.le_mul_of_pos_right _ hpower
            _ < floatBound := hb
            _ ≤ 2 ^ 1024 := Nat.sub_le _ _
        exact hi (nearest_lt_iff.mp hlt)
      rw [if_neg hi, Option.bind_none]
      exact hnot (fun h => hb h.2)
  · rw [if_neg hp, Option.bind_none]
    exact hnot (fun h => hp h.1)

/-- Without jitter the cap is all that comes after the product. -/
theorem computeNextDelayMs_eq (hjitter : cfg.jitterPct = 0) :
    cfg.computeNextDelayMs uniform n =
      (cfg.baseMs (n - 1)).map (fun base => min base cfg.maxMs) := by
  have hnot : ¬ 0 < cfg.jitterPct := by rw [hjitter]; exact lt_irrefl 0
  simp only [ReconnectConfig.computeNextDelayMs, hnot, if_false]
  cases cfg.baseMs (n - 1) <;> rfl

variable {m : MqttClient}

theorem enterReconnecting_of_lt {delayMs : ℤ}
    (hdelay : cfg.computeNextDelayMs uniform m.failureCount = some delayMs) (hpos : 0 ≤ delayMs)
    (hlt : delayMs < floatBound) :
    m.enterReconnecting cfg uniform = .ok m.scheduleReconnectTimer := by
  obtain ⟨ms, rfl⟩ := Int.eq_ofNat_of_zero_le hpos
  obtain ⟨x, hx⟩ := Option.isSome_iff_exists.mp
    ((isSome_period_iff ms).mpr (by exact_mod_cast hlt))
  unfold MqttClient.enterReconnecting
  rw [hdelay, Option.bind_some, hx]

theorem lt_of_enterReconnecting {delayMs : ℤ} {m' : MqttClient}
    (hdelay : cfg.computeNextDelayMs uniform m.failureCount = some delayMs) (hpos : 0 ≤ delayMs)
    (h : m.enterReconnecting cfg uniform = .ok m') : delayMs < floatBound := by
  obtain ⟨ms, rfl⟩ := Int.eq_ofNat_of_zero_le hpos
  unfold MqttClient.enterReconnecting at h
  rw [hdelay, Option.bind_some] at h
  have hsome : (period ms).isSome = true := by
    cases hperiod : period ms with
    | none =>
      rw [hperiod] at h
      cases h
    | some x => rfl
  exact_mod_cast (isSome_period_iff ms).mp hsome

theorem armed_scheduleReconnectTimer (m : MqttClient) : ∃ uuid,
    m.scheduleReconnectTimer.reconnectEventUuid = some uuid ∧
      (uuid, .reconnect) ∈ m.scheduleReconnectTimer.armed :=
  ⟨m.nextUuid, rfl, List.mem_append_right _ List.mem_cons_self⟩

/-- Delays that do not decrease, up to the documented one that has a float, are all there is to
it. -/
theorem backsOff_of_computed (hinitial : 0 ≤ cfg.initialMs) (hmax : 0 ≤ cfg.maxMs)
    (hreturns : cfg.computeNextDelayMs uniform m.failureCount =
      some (nominalMs cfg factor m.failureCount))
    (hlt : nominalMs cfg factor m.failureCount < floatBound)
    (hmonotone : ∀ n ≤ m.failureCount, ∃ delayMs, cfg.computeNextDelayMs uniform n = some delayMs ∧
      delayMs ≤ nominalMs cfg factor m.failureCount) :
    BacksOff cfg uniform factor m := by
  obtain ⟨uuid, hstored, harmed⟩ := armed_scheduleReconnectTimer m
  refine ⟨hreturns, hmonotone, m.scheduleReconnectTimer, uuid, ?_, hstored, harmed⟩
  exact enterReconnecting_of_lt hreturns (nominalMs_nonneg hinitial hmax) hlt

/-- The client backs off exactly as long as its delay is in range. -/
theorem backsOff_iff (hvalue : cfg.multiplier.value = factor) (hfactor : 1 ≤ factor)
    (hinitial : 0 ≤ cfg.initialMs) (hmax : 0 ≤ cfg.maxMs) (hjitter : cfg.jitterPct = 0) :
    BacksOff cfg uniform factor m ↔ InRange cfg factor m.failureCount := by
  cases hmult : cfg.multiplier with
  | int z =>
    have hcomputed : ∀ n, cfg.computeNextDelayMs uniform n = some (nominalMs cfg factor n) := by
      intro n
      rw [computeNextDelayMs_eq hjitter, baseMs_int hmult hvalue, nominalMs, pred_eq,
        Option.map_some]
    simp only [InRange, hmult]
    constructor
    · intro h
      obtain ⟨m', uuid, hentered, -⟩ := h.arms
      exact lt_of_enterReconnecting h.returns (nominalMs_nonneg hinitial hmax) hentered
    · intro hlt
      refine backsOff_of_computed hinitial hmax (hcomputed _) hlt ?_
      intro n hle
      exact ⟨nominalMs cfg factor n, hcomputed n, nominalMs_mono hfactor hinitial hle⟩
  | float q =>
    obtain ⟨initialMs, hnat⟩ := Int.eq_ofNat_of_zero_le hinitial
    have hbase := baseMs_float hmult hvalue hfactor hnat
    have hpower : ∀ n, 0 < factor ^ (n - 1) := fun n => Nat.pow_pos hfactor
    have hnominal : nominalMs cfg factor m.failureCount =
        min ((initialMs * factor ^ (m.failureCount - 1) : ℕ) : ℤ) cfg.maxMs := by
      rw [nominalMs, pred_eq, hnat]
      push_cast
      rfl
    simp only [InRange, hmult, pred_eq, FloatInRange, hnat, Int.toNat_natCast]
    constructor
    · intro h
      have hreturns := h.returns
      rw [computeNextDelayMs_eq hjitter, hbase] at hreturns
      split at hreturns
      · rename_i hfinite
        refine ⟨hfinite.1, hfinite.2, (min_nearest_iff (hpower _)).mp ?_⟩
        rw [← hnominal]
        exact Option.some.inj hreturns
      · cases hreturns
    · rintro ⟨hpow, hproduct, hhidden⟩
      have hcomputed : ∀ n ≤ m.failureCount, cfg.computeNextDelayMs uniform n =
          some (min (nearest (nearest initialMs * factor ^ (n - 1)) : ℤ) cfg.maxMs) := by
        intro n hle
        have hmono : factor ^ (n - 1) ≤ factor ^ (m.failureCount - 1) :=
          Nat.pow_le_pow_right hfactor (by omega)
        have hmul := Nat.mul_le_mul_left (nearest initialMs) hmono
        rw [computeNextDelayMs_eq hjitter, hbase,
          if_pos ⟨hmono.trans_lt hpow, hmul.trans_lt hproduct⟩, Option.map_some]
      have hcapped := (min_nearest_iff (hpower _)).mpr hhidden
      rw [← hnominal] at hcapped
      refine backsOff_of_computed hinitial hmax ?_ ?_ ?_
      · rw [hcomputed _ le_rfl, hcapped]
      · have hfinite := nearest_lt_floatBound hproduct
        rw [← hcapped]
        exact (min_le_left _ _).trans_lt (by exact_mod_cast hfinite)
      · intro n hle
        refine ⟨_, hcomputed n hle, ?_⟩
        rw [← hcapped]
        refine min_le_min_right cfg.maxMs ?_
        have hmono : factor ^ (n - 1) ≤ factor ^ (m.failureCount - 1) :=
          Nat.pow_le_pow_right hfactor (by omega)
        exact_mod_cast nearest_mono (Nat.mul_le_mul_left (nearest initialMs) hmono)

/-- Eight failures, as in the client's own test. -/
theorem backsOff_shipped :
    BacksOff .shipped 0 2 { MqttClient.initial 5000 [] with failureCount := 8 } :=
  (backsOff_iff (by decide +kernel) (by decide) (by decide) (by decide) rfl).mpr
    (by decide +kernel)

theorem shipped_raises : nominalMs .shipped 2 1017 = 30000 ∧
    ReconnectConfig.shipped.computeNextDelayMs 0 1016 = some 30000 ∧
    ReconnectConfig.shipped.computeNextDelayMs 0 1017 = none ∧
    { MqttClient.initial 5000 [] with failureCount := 1017 }.enterReconnecting .shipped 0 =
      .error { MqttClient.initial 5000 [] with failureCount := 1017 } ∧
    ¬ BacksOff .shipped 0 2 { MqttClient.initial 5000 [] with failureCount := 1017 } := by
  have hraises : ReconnectConfig.shipped.computeNextDelayMs 0 1017 = none := by decide +kernel
  refine ⟨by decide +kernel, by decide +kernel, hraises, ?_, ?_⟩
  · unfold MqttClient.enterReconnecting
    rw [hraises, Option.bind_none]
  · intro h
    have hreturns := h.returns
    rw [hraises] at hreturns
    cases hreturns

end Delay

end TelafSim.Mqtt
