import Mathlib.Algebra.Order.Field.Power
import Mathlib.Data.Nat.Cast.Order.Field
import Mathlib.Data.Rat.Cast.Order
import Mathlib.Tactic.FieldSimp
import Mathlib.Tactic.Linarith
import Mathlib.Tactic.NormNum
import Mathlib.Tactic.Positivity
import ResourceQuery.Number.Double

/-!
# Number — rounding to the nearest double

`Double.magnitude` is the number a double stands for, without its sign.  Infinity takes the place of
`2¹⁰²⁴`, the number that would come after the largest finite double, as it does in rounding.

* `grade_strictMono`: magnitudes are in the order of the ranks.
* `Double.Rounds`: no double is nearer to a number than the one it rounds to, and of two that are
  equally near it rounds to the one with the even significand.
* `ofRatio_rounds`, `Rounds.unique`: a quotient is rounded to the double that `ofRatio` gives, and
  to no other one.
-/

namespace ResourceQuery.Double

/-! ### Magnitudes -/

/-- The magnitude of a double, infinity counting as `2¹⁰²⁴`. -/
def magnitude (d : Double) : ℚ :=
  d.num / d.den

/-- The magnitude of a rank. -/
def grade (r : Nat) : ℚ :=
  if r < hiddenBit then r * 2 ^ (-1074 : ℤ)
  else (hiddenBit + r % hiddenBit : Nat) * 2 ^ ((r / hiddenBit : Nat) - 1075 : ℤ)

theorem cast_twoPow (k : Nat) : (twoPow k : ℚ) = 2 ^ k :=
  Nat.cast_pow 2 k

theorem cast_twoPow_pos (k : Nat) : (0 : ℚ) < twoPow k := by
  rw [cast_twoPow]
  positivity

/-- A power of two with an exponent of either sign, as a quotient. -/
theorem cast_twoPow_toNat (e : ℤ) : (twoPow e.toNat : ℚ) = 2 ^ e * twoPow (-e).toNat := by
  rw [cast_twoPow, cast_twoPow]
  rcases Int.le_total 0 e with h | h
  · obtain ⟨k, rfl⟩ := Int.eq_ofNat_of_zero_le h
    simp
  · obtain ⟨k, hk⟩ := Int.eq_ofNat_of_zero_le (Int.neg_nonneg_of_nonpos h)
    obtain rfl : e = -(k : ℤ) := by omega
    simp

theorem magnitude_eq_grade (d : Double) : d.magnitude = grade d.rank := by
  have hquotient : d.magnitude = d.significand * 2 ^ d.exponent := by
    rw [magnitude, num, den, Nat.cast_mul, cast_twoPow_toNat, ← mul_assoc, mul_div_assoc,
      div_self (cast_twoPow_pos _).ne', mul_one]
  rw [hquotient, grade, significand, exponent]
  split <;> rfl

/-- A significand of at most `2⁵³` in the binade of an exponent.  The last one starts the next
binade, and has the same magnitude there. -/
theorem grade_binade {k q : Nat} (hle : q ≤ 2 * hiddenBit) (hnormal : k ≠ 0 → hiddenBit ≤ q) :
    grade (k * hiddenBit + q) = q * 2 ^ ((k : ℤ) - 1074) := by
  have hbit : 0 < hiddenBit := by decide
  rw [grade]
  by_cases hsub : k * hiddenBit + q < hiddenBit
  · obtain rfl : k = 0 := by
      by_contra hne
      have := hnormal hne
      omega
    rw [if_pos hsub]
    norm_num
  · rw [if_neg hsub]
    rcases Nat.lt_or_eq_of_le hle with hlt | rfl
    · have hq : hiddenBit ≤ q := by
        rcases Nat.eq_zero_or_pos k with rfl | hk
        · omega
        · exact hnormal hk.ne'
      have hrank : k * hiddenBit + q = (q - hiddenBit) + hiddenBit * (k + 1) := by
        rw [Nat.mul_add, Nat.mul_comm]
        omega
      rw [hrank, Nat.add_mul_mod_self_left, Nat.add_mul_div_left _ _ hbit,
        Nat.mod_eq_of_lt (by omega), Nat.div_eq_of_lt (by omega), Nat.add_sub_cancel' hq]
      congr 2
      push_cast
      omega
    · have hrank : k * hiddenBit + 2 * hiddenBit = 0 + hiddenBit * (k + 2) := by
        rw [Nat.mul_add, Nat.mul_comm, Nat.zero_add, Nat.mul_comm hiddenBit 2]
      rw [hrank, Nat.add_mul_mod_self_left, Nat.add_mul_div_left _ _ hbit, Nat.zero_mod,
        Nat.zero_div, Nat.add_zero, Nat.cast_mul, mul_comm (((2 : ℕ) : ℚ)), mul_assoc]
      have hexponent : (((0 + (k + 2) : ℕ) : ℤ) - 1075) = 1 + ((k : ℤ) - 1074) := by
        push_cast
        omega
      rw [hexponent, zpow_add₀ two_ne_zero, zpow_one, Nat.cast_two]

/-- Every rank has a binade, and a significand below `2⁵³` in it. -/
theorem exists_binade (r : Nat) :
    ∃ k q, r = k * hiddenBit + q ∧ q < 2 * hiddenBit ∧ (k ≠ 0 → hiddenBit ≤ q) := by
  rw [hiddenBit]
  by_cases h : r < 4503599627370496
  · exact ⟨0, r, by omega, by omega, by omega⟩
  · exact ⟨r / 4503599627370496 - 1, 4503599627370496 + r % 4503599627370496, by omega, by omega,
      by omega⟩

/-- **Magnitudes are in the order of the ranks.** -/
theorem grade_strictMono : StrictMono grade := by
  refine strictMono_nat_of_lt_succ fun r => ?_
  obtain ⟨k, q, rfl, hlt, hnormal⟩ := exists_binade r
  have hpos : (0 : ℚ) < 2 ^ ((k : ℤ) - 1074) := by positivity
  rw [Nat.add_assoc, grade_binade hlt.le hnormal,
    grade_binade hlt fun hk => (hnormal hk).trans (Nat.le_succ q), Nat.cast_succ]
  linarith

/-- The last bit of the significand is that of the rank. -/
theorem significand_mod_two (d : Double) : d.significand % 2 = d.rank % 2 := by
  rw [significand, hiddenBit]
  split <;> omega

theorem isNaN_eq_false_iff {d : Double} : d.isNaN = false ↔ d.rank ≤ rankInfinity := by
  rw [isNaN, decide_eq_false_iff_not, Nat.not_lt]

/-! ### The nearer of two neighbours -/

/-- Of `f` and `f + 1` the one whose value is nearer to `x`, and the even one if both are equally
near. -/
inductive Nearer (value : Nat → ℚ) (x : ℚ) (f : Nat) : Nat → Prop where
  | lower (h : x - value f < value (f + 1) - x) : Nearer value x f f
  | upper (h : value (f + 1) - x < x - value f) : Nearer value x f (f + 1)
  | tie {r : Nat} (h : x - value f = value (f + 1) - x) (hr : r = f ∨ r = f + 1)
      (even : r % 2 = 0) : Nearer value x f r

/-- **The nearer of the neighbours on either side of a number is the nearest of all**, and even if
another one is as near. -/
theorem Nearer.nearest {value : Nat → ℚ} (mono : StrictMono value) {x : ℚ} {f r : Nat}
    (h : Nearer value x f r) (low : value f ≤ x) (high : x < value (f + 1)) (s : Nat) :
    |x - value r| ≤ |x - value s| ∧ (|x - value s| = |x - value r| → s ≠ r → r % 2 = 0) := by
  have hlow : |x - value f| = x - value f := abs_of_nonneg (sub_nonneg.mpr low)
  have hhigh : |x - value (f + 1)| = value (f + 1) - x := by
    rw [abs_sub_comm, abs_of_pos (sub_pos.mpr high)]
  rcases Nat.lt_or_ge f s with hs | hs
  · -- from above, the upper neighbour is the nearest
    have hle : value (f + 1) ≤ value s := mono.monotone hs
    have habs : |x - value s| = value s - x := by
      rw [abs_sub_comm, abs_of_nonneg (by linarith)]
    cases h with
    | lower h =>
        rw [hlow, habs]
        exact ⟨by linarith, fun heq => by linarith⟩
    | upper h =>
        rw [hhigh, habs]
        refine ⟨by linarith, fun heq hne => ?_⟩
        exact absurd (mono.injective (by linarith)) hne
    | tie h hr even =>
        refine ⟨?_, fun _ _ => even⟩
        rcases hr with rfl | rfl
        · rw [hlow, habs]
          linarith
        · rw [hhigh, habs]
          linarith
  · have hle : value s ≤ value f := mono.monotone hs
    have habs : |x - value s| = x - value s := abs_of_nonneg (by linarith)
    cases h with
    | lower h =>
        rw [hlow, habs]
        refine ⟨by linarith, fun heq hne => ?_⟩
        exact absurd (mono.injective (by linarith)) hne
    | upper h =>
        rw [hhigh, habs]
        exact ⟨by linarith, fun heq => by linarith⟩
    | tie h hr even =>
        refine ⟨?_, fun _ _ => even⟩
        rcases hr with rfl | rfl
        · rw [hlow, habs]
          linarith
        · rw [hhigh, habs]
          linarith

/-- A quotient of natural numbers is rounded to the nearer of its neighbours. -/
theorem nearer_roundHalfEven (n : Nat) {d : Nat} (hd : 0 < d) :
    Nearer Nat.cast (n / d) (n / d) (roundHalfEven n d) := by
  have hpos : (0 : ℚ) < d := Nat.cast_pos.mpr hd
  have hsplit : (n : ℚ) = d * (n / d : Nat) + (n % d : Nat) := by
    exact_mod_cast (Nat.div_add_mod n d).symm
  have hbelow : (n : ℚ) / d - (n / d : Nat) = (n % d : Nat) / d := by
    rw [hsplit, add_div, mul_div_cancel_left₀ _ hpos.ne', add_sub_cancel_left]
  have habove : ((n / d + 1 : Nat) : ℚ) - n / d = (d - (n % d : Nat)) / d := by
    rw [sub_div, div_self hpos.ne', ← hbelow, Nat.cast_succ]
    linarith
  rw [roundHalfEven]
  rcases Nat.lt_trichotomy (2 * (n % d)) d with hlt | heq | hgt
  · have hcast : 2 * ((n % d : Nat) : ℚ) < d := by exact_mod_cast hlt
    rw [if_neg (by simp; omega)]
    refine .lower ?_
    rw [hbelow, habove]
    exact div_lt_div_of_pos_right (by linarith) hpos
  · have hcast : 2 * ((n % d : Nat) : ℚ) = d := by exact_mod_cast heq
    have htie : (n : ℚ) / d - (n / d : Nat) = ((n / d + 1 : Nat) : ℚ) - n / d := by
      rw [hbelow, habove]
      congr 1
      linarith
    by_cases hodd : n / d % 2 = 1
    · rw [if_pos (by simp [heq, hodd])]
      exact .tie htie (.inr rfl) (by omega)
    · rw [if_neg (by simp [heq, hodd])]
      exact .tie htie (.inl rfl) (by omega)
  · have hcast : (d : ℚ) < 2 * ((n % d : Nat) : ℚ) := by exact_mod_cast hgt
    rw [if_pos (by simp [hgt])]
    refine .upper ?_
    rw [hbelow, habove]
    exact div_lt_div_of_pos_right (by linarith) hpos

/-! ### The binade of a quotient -/

theorem cast_log2_bounds {n : Nat} (hn : n ≠ 0) :
    (2 : ℚ) ^ (n.log2 : ℤ) ≤ n ∧ (n : ℚ) < 2 ^ ((n.log2 : ℤ) + 1) := by
  have hlow := Nat.log2_self_le hn
  have hhigh := Nat.lt_log2_self (n := n)
  constructor
  · rw [zpow_natCast]
    exact_mod_cast hlow
  · rw [← Int.natCast_succ, zpow_natCast]
    exact_mod_cast hhigh

/-- **The order of magnitude of a quotient.** -/
theorem log2Ratio_spec {n d : Nat} (hn : n ≠ 0) (hd : 0 < d) :
    (2 : ℚ) ^ log2Ratio n d ≤ n / d ∧ (n : ℚ) / d < 2 ^ (log2Ratio n d + 1) := by
  have hpos : (0 : ℚ) < d := Nat.cast_pos.mpr hd
  obtain ⟨hnlow, hnhigh⟩ := cast_log2_bounds hn
  obtain ⟨hdlow, hdhigh⟩ := cast_log2_bounds hd.ne'
  obtain ⟨l, hl⟩ : ∃ l : ℤ, l = n.log2 - d.log2 := ⟨_, rfl⟩
  have htest : d * twoPow l.toNat ≤ n * twoPow (-l).toNat ↔ (2 : ℚ) ^ l ≤ n / d := by
    rw [← Nat.cast_le (α := ℚ), Nat.cast_mul, Nat.cast_mul, cast_twoPow_toNat, ← mul_assoc,
      mul_le_mul_iff_left₀ (cast_twoPow_pos _), le_div_iff₀ hpos, mul_comm]
  rw [log2Ratio, ← hl]
  by_cases h : d * twoPow l.toNat ≤ n * twoPow (-l).toNat
  · rw [if_pos h]
    refine ⟨htest.mp h, ?_⟩
    rw [div_lt_iff₀ hpos]
    calc (n : ℚ) < 2 ^ ((n.log2 : ℤ) + 1) := hnhigh
      _ = 2 ^ (l + 1) * 2 ^ (d.log2 : ℤ) := by
          rw [← zpow_add₀ two_ne_zero]
          congr 1
          omega
      _ ≤ 2 ^ (l + 1) * d := by gcongr
  · rw [if_neg h, sub_add_cancel]
    refine ⟨?_, not_le.mp (mt htest.mpr h)⟩
    rw [le_div_iff₀ hpos]
    calc (2 : ℚ) ^ (l - 1) * d ≤ 2 ^ (l - 1) * 2 ^ ((d.log2 : ℤ) + 1) := by gcongr
      _ = 2 ^ (n.log2 : ℤ) := by
          rw [← zpow_add₀ two_ne_zero]
          congr 1
          omega
      _ ≤ n := hnlow

/-! ### Rounding -/

/-- The number `x` of a sign is rounded to `d`: no double is nearer to it, and the significand is
even if another one is as near. -/
structure Rounds (neg : Bool) (x : ℚ) (d : Double) : Prop where
  sign : d.negative = neg
  number : d.isNaN = false
  nearest : ∀ d' : Double, d'.isNaN = false → |x - d.magnitude| ≤ |x - d'.magnitude|
  even : ∀ d' : Double, d'.isNaN = false → |x - d'.magnitude| = |x - d.magnitude| →
    d'.magnitude ≠ d.magnitude → d.significand % 2 = 0

theorem rankInfinity_lt : rankInfinity < signedCount := by decide

theorem toNat_bits_ofRank (neg : Bool) {r : Nat} (h : r < signedCount) :
    (ofRank neg r).bits.toNat = (if neg then signedCount else 0) + r := by
  rw [ofRank, UInt64.toNat_ofNat']
  rw [signedCount] at h ⊢
  cases neg
  · simp
    omega
  · simp
    omega

theorem rank_ofRank (neg : Bool) {r : Nat} (h : r < signedCount) : (ofRank neg r).rank = r := by
  rw [rank, toNat_bits_ofRank neg h]
  cases neg
  · rw [if_neg (by decide), Nat.zero_add, Nat.mod_eq_of_lt h]
  · rw [if_pos rfl, Nat.add_mod_left, Nat.mod_eq_of_lt h]

theorem negative_ofRank (neg : Bool) {r : Nat} (h : r < signedCount) :
    (ofRank neg r).negative = neg := by
  rw [negative, toNat_bits_ofRank neg h]
  cases neg
  · simpa using h
  · simp

/-- A double is told by its sign and its rank. -/
theorem eq_of_rank_eq {d d' : Double} (sign : d.negative = d'.negative) (h : d.rank = d'.rank) :
    d = d' := by
  have hd := d.bits.toNat_lt
  have hd' := d'.bits.toNat_lt
  rw [negative, negative, decide_eq_decide, signedCount] at sign
  rw [rank, rank, signedCount] at h
  have hbits : d.bits.toNat = d'.bits.toNat := by omega
  exact congrArg Double.mk (UInt64.toNat_inj.mp hbits)

/-- A rank that is the nearest one to a number is that of the double it is rounded to. -/
theorem Rounds.ofRank {neg : Bool} {x : ℚ} {r : Nat} (hr : r ≤ rankInfinity)
    (h : ∀ s ≤ rankInfinity, |x - grade r| ≤ |x - grade s| ∧
      (|x - grade s| = |x - grade r| → s ≠ r → r % 2 = 0)) : Rounds neg x (.ofRank neg r) := by
  have hlt := hr.trans_lt rankInfinity_lt
  have hrank := rank_ofRank neg hlt
  refine ⟨negative_ofRank neg hlt, isNaN_eq_false_iff.mpr (hrank.trans_le hr), fun d' hd' => ?_,
    fun d' hd' => ?_⟩
  · rw [magnitude_eq_grade, magnitude_eq_grade, hrank]
    exact (h _ (isNaN_eq_false_iff.mp hd')).1
  · rw [magnitude_eq_grade, magnitude_eq_grade, significand_mod_two, hrank]
    intro heq hne
    exact (h _ (isNaN_eq_false_iff.mp hd')).2 heq fun hs => hne (by rw [hs])

/-- The neighbour of a number, if it is a rank at all, and else infinity. -/
theorem Rounds.ofNearer {neg : Bool} {x : ℚ} {f r : Nat} (low : grade f ≤ x)
    (high : x < grade (f + 1)) (h : Nearer grade x f r) :
    Rounds neg x (.ofRank neg (min rankInfinity r)) := by
  refine .ofRank (Nat.min_le_left _ _) fun s hs => ?_
  rcases Nat.lt_or_ge f rankInfinity with hf | hf
  · have hr : r ≤ rankInfinity := by
      cases h with
      | lower => exact hf.le
      | upper => exact hf
      | tie _ hr => omega
    rw [Nat.min_eq_right hr]
    exact h.nearest grade_strictMono low high s
  · have hr : rankInfinity ≤ r := by
      cases h with
      | lower => exact hf
      | upper => omega
      | tie _ hr => omega
    -- beyond all doubles, infinity is the last of them
    have hinfinity : grade rankInfinity ≤ x := (grade_strictMono.monotone hf).trans low
    have hle : grade s ≤ grade rankInfinity := grade_strictMono.monotone hs
    rw [Nat.min_eq_left hr, abs_of_nonneg (sub_nonneg.mpr hinfinity), abs_of_nonneg (by linarith)]
    exact ⟨by linarith, fun heq hne => absurd (grade_strictMono.injective (by linarith)) hne⟩

theorem cast_scaled (n d : Nat) (e : ℤ) :
    ((n * twoPow (-e).toNat : Nat) : ℚ) / (d * twoPow e.toNat : Nat) = n / d / 2 ^ e := by
  have hpos := cast_twoPow_pos (-e).toNat
  rw [Nat.cast_mul, Nat.cast_mul, cast_twoPow_toNat e, ← mul_assoc, mul_div_mul_right _ _ hpos.ne',
    div_div]

/-- Neighbours among the significands are neighbours among the ranks of their binade, which starts
at `b`. -/
theorem Nearer.inBinade {y step : ℚ} {b f q : Nat} (hb : b % 2 = 0) (hstep : 0 < step)
    (hf : grade (b + f) = f * step) (hf' : grade (b + f + 1) = (f + 1 : Nat) * step)
    (h : Nearer Nat.cast y f q) : Nearer grade (y * step) (b + f) (b + q) := by
  cases h with
  | lower h =>
      refine .lower ?_
      rw [hf, hf', ← sub_mul, ← sub_mul]
      exact mul_lt_mul_of_pos_right h hstep
  | upper h =>
      rw [← Nat.add_assoc]
      refine .upper ?_
      rw [hf, hf', ← sub_mul, ← sub_mul]
      exact mul_lt_mul_of_pos_right h hstep
  | tie h hq even =>
      refine .tie ?_ (by omega) (by omega)
      rw [hf, hf', ← sub_mul, ← sub_mul, h]

theorem cast_hiddenBit : (hiddenBit : ℚ) = 2 ^ (52 : ℤ) := by
  rw [hiddenBit]
  norm_num

/-- In the binade of its exponent a quotient is below `2⁵³`, and at least `2⁵²` unless the binade is
the lowest one. -/
theorem scaled_bounds {n d k : Nat} (hn : n ≠ 0) (hd : 0 < d) {e : ℤ}
    (he : e = max (-1074) (log2Ratio n d - 52)) (hk : e + 1074 = k) :
    (n : ℚ) / d / 2 ^ e < 2 * hiddenBit ∧ (k ≠ 0 → (hiddenBit : ℚ) ≤ n / d / 2 ^ e) := by
  obtain ⟨hlow, hhigh⟩ := log2Ratio_spec hn hd
  have hstep : (0 : ℚ) < 2 ^ e := by positivity
  constructor
  · rw [div_lt_iff₀ hstep]
    calc (n : ℚ) / d < 2 ^ (log2Ratio n d + 1) := hhigh
      _ ≤ 2 ^ (1 + 52 + e) := zpow_le_zpow_right₀ one_le_two (by omega)
      _ = 2 * hiddenBit * 2 ^ e := by
          rw [zpow_add₀ two_ne_zero, zpow_add₀ two_ne_zero, cast_hiddenBit, zpow_one]
  · intro hk'
    have hl : 52 + e = log2Ratio n d := by omega
    rw [le_div_iff₀ hstep, cast_hiddenBit, ← zpow_add₀ two_ne_zero, hl]
    exact hlow

/-- The whole part of a quotient between the bounds of a binade is between them too. -/
theorem div_isSignificand {n d k : Nat} (hd : 0 < d) (hhigh : (n : ℚ) / d < 2 * hiddenBit)
    (hlow : k ≠ 0 → (hiddenBit : ℚ) ≤ n / d) :
    n / d < 2 * hiddenBit ∧ (k ≠ 0 → hiddenBit ≤ n / d) := by
  have hpos : (0 : ℚ) < d := Nat.cast_pos.mpr hd
  constructor
  · rw [Nat.div_lt_iff_lt_mul hd]
    rw [div_lt_iff₀ hpos] at hhigh
    exact_mod_cast hhigh
  · intro hk
    have hlow' := hlow hk
    rw [Nat.le_div_iff_mul_le hd]
    rw [le_div_iff₀ hpos] at hlow'
    exact_mod_cast hlow'

/-- A quotient between the bounds of a binade is rounded to a significand there. -/
theorem Rounds.inBinade (neg : Bool) {n d k : Nat} (hd : 0 < d)
    (hhigh : (n : ℚ) / d < 2 * hiddenBit) (hlow : k ≠ 0 → (hiddenBit : ℚ) ≤ n / d) :
    Rounds neg (n / d * 2 ^ ((k : ℤ) - 1074))
      (.ofRank neg (min rankInfinity (k * hiddenBit + roundHalfEven n d))) := by
  have hpos : (0 : ℚ) < d := Nat.cast_pos.mpr hd
  have hstep : (0 : ℚ) < 2 ^ ((k : ℤ) - 1074) := by positivity
  have hbase : k * hiddenBit % 2 = 0 := by
    rw [hiddenBit]
    omega
  obtain ⟨hf, hnormal⟩ := div_isSignificand hd hhigh hlow
  have hgrade := grade_binade hf.le hnormal
  have hgrade' := grade_binade hf fun hk => (hnormal hk).trans (Nat.le_succ _)
  rw [Nat.succ_eq_add_one, ← Nat.add_assoc] at hgrade'
  refine .ofNearer ?_ ?_ ((nearer_roundHalfEven n hd).inBinade hbase hstep hgrade hgrade')
  · rw [hgrade]
    exact mul_le_mul_of_nonneg_right Nat.cast_div_le hstep.le
  · have habove : (n : ℚ) / d < (n / d + 1 : Nat) := by
      rw [div_lt_iff₀ hpos, mul_comm]
      exact_mod_cast Nat.lt_mul_div_succ n hd
    rw [hgrade']
    exact mul_lt_mul_of_pos_right habove hstep

/-- **A quotient is rounded to the nearest double.** -/
theorem ofRatio_rounds (neg : Bool) (n : Nat) {d : Nat} (hd : 0 < d) :
    Rounds neg (n / d) (ofRatio neg n d) := by
  rw [ofRatio]
  by_cases hn : n = 0
  · have hzero : grade 0 = 0 := by simp [grade]
    have hone : grade 0 < grade 1 := grade_strictMono Nat.one_pos
    rw [if_pos hn, hn, Nat.cast_zero, zero_div]
    refine .ofNearer hzero.le (hzero ▸ hone) (.lower ?_)
    rw [hzero]
    linarith
  · rw [if_neg hn]
    obtain ⟨e, he⟩ : ∃ e : ℤ, e = max (-1074) (log2Ratio n d - 52) := ⟨_, rfl⟩
    obtain ⟨k, hk⟩ := Int.eq_ofNat_of_zero_le (show 0 ≤ e + 1074 by omega)
    obtain ⟨hhigh, hlow⟩ := scaled_bounds hn hd he hk
    rw [← cast_scaled] at hhigh hlow
    have hpos : 0 < d * twoPow e.toNat := Nat.mul_pos hd (Nat.pow_pos Nat.two_pos)
    have hscaled := Rounds.inBinade neg hpos hhigh hlow
    have hexponent : (k : ℤ) - 1074 = e := by omega
    rw [cast_scaled, hexponent, div_mul_cancel₀ _ (zpow_ne_zero e two_ne_zero)] at hscaled
    rw [← he]
    dsimp only
    rwa [hk, Int.toNat_natCast]

/-- No rank stands between those of two doubles that are as near as any: it would be nearer. -/
theorem Rounds.not_between {neg : Bool} {x : ℚ} {d d' : Double} (h : Rounds neg x d)
    (hd' : d'.isNaN = false) (heq : |x - d'.magnitude| = |x - d.magnitude|) :
    d'.rank ≤ d.rank + 1 := by
  by_contra hlt
  rw [Nat.not_le] at hlt
  have hle : d.rank + 1 ≤ rankInfinity := hlt.le.trans (isNaN_eq_false_iff.mp hd')
  have hrank := rank_ofRank neg (hle.trans_lt rankInfinity_lt)
  have hnumber : (Double.ofRank neg (d.rank + 1)).isNaN = false :=
    isNaN_eq_false_iff.mpr (hrank.trans_le hle)
  have hnearest := h.nearest _ hnumber
  rw [magnitude_eq_grade, magnitude_eq_grade] at hnearest heq
  rw [hrank] at hnearest
  have hbelow : grade d.rank < grade (d.rank + 1) := grade_strictMono (Nat.lt_succ_self _)
  have habove : grade (d.rank + 1) < grade d'.rank := grade_strictMono hlt
  have hmiddle : x - grade d'.rank = -(x - grade d.rank) := by
    rcases abs_eq_abs.mp heq with hsame | hmiddle
    · exact absurd hsame (by linarith)
    · exact hmiddle
  have hnearer : |x - grade (d.rank + 1)| < x - grade d.rank :=
    abs_lt.mpr ⟨by linarith, by linarith⟩
  have habs : x - grade d.rank ≤ |x - grade d.rank| := le_abs_self _
  linarith

/-- **A number is rounded to one double only.** -/
theorem Rounds.unique {neg : Bool} {x : ℚ} {d d' : Double} (h : Rounds neg x d)
    (h' : Rounds neg x d') : d = d' := by
  have heq : |x - d'.magnitude| = |x - d.magnitude| :=
    le_antisymm (h'.nearest d h.number) (h.nearest d' h'.number)
  by_cases hmagnitude : d'.magnitude = d.magnitude
  · rw [magnitude_eq_grade, magnitude_eq_grade] at hmagnitude
    exact eq_of_rank_eq (h.sign.trans h'.sign.symm) (grade_strictMono.injective hmagnitude.symm)
  · -- two neighbours cannot both have an even significand
    have heven := h.even d' h'.number heq hmagnitude
    have heven' := h'.even d h.number heq.symm (Ne.symm hmagnitude)
    have hclose := h.not_between h'.number heq
    have hclose' := h'.not_between h.number heq.symm
    rw [significand_mod_two] at heven heven'
    exact absurd (by rw [magnitude_eq_grade, magnitude_eq_grade, show d'.rank = d.rank by omega])
      hmagnitude

end ResourceQuery.Double
