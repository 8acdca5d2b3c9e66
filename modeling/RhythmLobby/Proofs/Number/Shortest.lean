import RhythmLobby.Proofs.Number.Reach
import Mathlib.Algebra.Order.Field.Rat
import Mathlib.Data.Nat.Cast.Order.Field
import Mathlib.Tactic.Linarith
import Mathlib.Tactic.Ring

/-!
# The shortest decimal rounds to its number

A grid with seventeen digits is finer than the numbers are, so that one of the decimals next to a
number rounds to it, and the search for the shortest one always ends with a hit.

* `Decimal.value`                   the number that a decimal denotes;
* `Reach.Holds`                     a number within the interval;
* `Binary64.holds_shortest`         the shortest decimal is within the interval of its number;
* `Binary64.magnitude_eq_of_holds`  no number is within the intervals of two magnitudes.
-/

namespace RhythmLobby

def Decimal.value (d : Decimal) : ℚ := d.digits * (10 : ℚ) ^ d.power

namespace Binary64

/-- the number lies within the interval -/
def Reach.Holds (r : Reach) (v : ℚ) : Prop :=
  let steps := v * (pow2 1076 : ℕ)
  if r.closed then r.low ≤ steps ∧ steps ≤ r.high else r.low < steps ∧ steps < r.high

/-! ## One grid -/

section Grid

variable {r : Reach} {up down a : Nat}

theorem Reach.covers_of_lt {step : Nat} (hstep : up * pow2 1076 = step)
    (hlow : r.low * down < a * step) (hhigh : a * step < r.high * down) :
    r.covers up down a = true := by
  unfold covers
  rw [Nat.mul_assoc, hstep]
  cases r.closed with
  | false => simp [hlow, hhigh]
  | true => simp [Nat.le_of_lt hlow, Nat.le_of_lt hhigh]

/-- a power of ten as the ratio of the factors by which a grid is scaled -/
theorem zpow_mul_pow10 (p : Int) : (10 : ℚ) ^ p * (pow10 (-p).toNat : ℕ) = (pow10 p.toNat : ℕ) := by
  show (10 : ℚ) ^ p * ((10 ^ (-p).toNat : ℕ) : ℚ) = ((10 ^ p.toNat : ℕ) : ℚ)
  rw [Nat.cast_pow, Nat.cast_pow, Nat.cast_ofNat, ← zpow_natCast, ← zpow_natCast,
    ← zpow_add₀ (by norm_num)]
  congr 1
  omega

theorem Reach.holds_iff_covers (r : Reach) (d : Decimal) :
    r.Holds d.value ↔ r.covers (pow10 d.power.toNat) (pow10 (-d.power).toNat) d.digits = true := by
  unfold Holds covers
  generalize pow2 1076 = one
  have hdown : (0 : ℚ) < (pow10 (-d.power).toNat : ℕ) := Nat.cast_pos.mpr (pow10_pos _)
  have hscale : d.value * one * (pow10 (-d.power).toNat : ℕ) =
      (d.digits * pow10 d.power.toNat * one : ℕ) := by
    rw [Nat.cast_mul, Nat.cast_mul, ← zpow_mul_pow10 d.power, Decimal.value]
    ring
  have hle (n : Nat) : (n : ℚ) ≤ d.value * one ↔
      n * pow10 (-d.power).toNat ≤ d.digits * pow10 d.power.toNat * one := by
    rw [← mul_le_mul_iff_left₀ hdown, hscale, ← Nat.cast_mul, Nat.cast_le]
  have hge (n : Nat) : d.value * one ≤ n ↔
      d.digits * pow10 d.power.toNat * one ≤ n * pow10 (-d.power).toNat := by
    rw [← mul_le_mul_iff_left₀ hdown, hscale, ← Nat.cast_mul, Nat.cast_le]
  cases r.closed with
  | false => simp only [← not_le, hle, hge, Bool.false_eq_true, if_false, Bool.and_eq_true,
      decide_eq_true_eq]
  | true => simp only [hle, hge, if_true, Bool.and_eq_true, decide_eq_true_eq]

theorem holds_of_onGrid {tie : Tie} {power : Int} {d : Decimal}
    (h : onGrid tie r power = some d) : r.Holds d.value := by
  have hchoice {up down n : Nat} (hbelow : r.covers up down n = true)
      (habove : r.covers up down (n + 1) = true) (climbs : Bool) :
      r.covers up down (if climbs then n + 1 else n) = true := by
    cases climbs with
    | false => exact hbelow
    | true => exact habove
  rw [Reach.holds_iff_covers]
  unfold onGrid at h
  generalize pow2 1076 = one at h
  dsimp only at h
  split at h
  · cases h
  · rename_i hbelow _
    cases h
    exact hbelow
  · rename_i habove
    cases h
    exact habove
  · rename_i hbelow habove
    cases h
    exact hchoice hbelow habove _

theorem isSome_onGrid {tie : Tie} {power : Int}
    (ha : r.middle * pow10 (-power).toNat / (pow10 power.toNat * pow2 1076) = a)
    (h : r.covers (pow10 power.toNat) (pow10 (-power).toNat) a = true ∨
      r.covers (pow10 power.toNat) (pow10 (-power).toNat) (a + 1) = true) :
    (onGrid tie r power).isSome = true := by
  unfold onGrid
  generalize pow2 1076 = one at ha ⊢
  dsimp only
  rw [ha]
  split
  · rename_i hbelow habove
    rw [hbelow, habove] at h
    exact absurd h (by decide)
  · exact Option.isSome_some
  · exact Option.isSome_some
  · exact Option.isSome_some

end Grid

/-! ## Seventeen digits -/

variable (x : Binary64) {x y : Binary64}

theorem pow10_digitCount_le {n : Nat} (h : 0 < n) : pow10 (digitCount n - 1) ≤ n := by
  by_contra hlt
  have hpos : 0 < digitCount n - 1 := by
    rcases Nat.eq_zero_or_pos (digitCount n - 1) with h0 | h0
    · rw [h0] at hlt
      exact absurd h hlt
    · exact h0
  have hle := (Nat.length_toDigits_le_iff (by decide) hpos).mpr (Nat.lt_of_not_le hlt)
  have hsize : (Nat.toDigits 10 n).length = digitCount n := rfl
  omega

theorem pow10_mul (m n : Nat) : pow10 m * pow10 n = pow10 (m + n) := (Nat.pow_add 10 m n).symm

/-- on the grid of seventeen digits a number that is not zero is at least `10^16` -/
theorem step_le_middle (h : x.isZero = false) {p : Int} (hp : p = x.leadingExponent - 16) :
    pow10 p.toNat * pow2 1076 * pow10 16 ≤ x.reach.middle * pow10 (-p).toNat := by
  have hone : 0 < pow2 1076 := pow2_pos 1076
  have hpow : pow2 1076 ≤ pow10 400 := by decide +kernel
  have hsig : 0 < 4 * x.significand * pow2 x.scale :=
    Nat.mul_pos (Nat.mul_pos (by decide) (x.significand_pos h)) (pow2_pos _)
  have hmiddle : pow2 1076 ≤ x.reach.middle * pow10 400 :=
    Nat.le_trans hpow (Nat.le_mul_of_pos_left _ hsig)
  unfold leadingExponent at hp
  generalize pow2 1076 = one at *
  have hpos : 0 < x.reach.middle * pow10 400 / one := Nat.div_pos hmiddle hone
  have hle := Nat.div_mul_le_self (x.reach.middle * pow10 400) one
  have hfirst := Nat.mul_le_mul_right one (pow10_digitCount_le hpos)
  have hcount : 0 < digitCount (x.reach.middle * pow10 400 / one) := Nat.length_toDigits_pos
  generalize digitCount (x.reach.middle * pow10 400 / one) = k at hp hfirst hcount
  have hsplit : pow10 p.toNat * (pow10 400 * pow10 16) = pow10 (-p).toNat * pow10 (k - 1) := by
    have hsum : p.toNat + (400 + 16) = (-p).toNat + (k - 1) := by omega
    rw [pow10_mul, pow10_mul, pow10_mul, hsum]
  apply Nat.le_of_mul_le_mul_right _ (pow10_pos 400)
  calc pow10 p.toNat * one * pow10 16 * pow10 400
      = pow10 p.toNat * (pow10 400 * pow10 16) * one := by ac_rfl
    _ = pow10 (-p).toNat * (pow10 (k - 1) * one) := by rw [hsplit]; ac_rfl
    _ ≤ pow10 (-p).toNat * (x.reach.middle * pow10 400) :=
      Nat.mul_le_mul_left _ (Nat.le_trans hfirst hle)
    _ = x.reach.middle * pow10 (-p).toNat * pow10 400 := by ac_rfl

/-- A decimal next to a number rounds to it: the two are less than four half steps apart, and less
than two at a power of two, where the interval is smaller below. -/
theorem covers_neighbour {r : Reach} {up down step m t : Nat} {narrow : Prop} [Decidable narrow]
    (hstep : up * pow2 1076 = step) (hpos : 0 < step) (hm : 0 < m)
    (hlow : r.low * down = 4 * (m * t) - if narrow then t else 2 * t)
    (hmiddle : r.middle * down = 4 * (m * t)) (hhigh : r.high * down = 4 * (m * t) + 2 * t)
    (hwide : step < 4 * t) (hnarrow : narrow → step < 2 * t) :
    r.covers up down (r.middle * down / step) = true ∨
      r.covers up down (r.middle * down / step + 1) = true := by
  have hdiv := Nat.div_add_mod (r.middle * down) step
  have hmod := Nat.mod_lt (r.middle * down) hpos
  generalize r.middle * down / step = a at *
  generalize r.middle * down % step = gap at *
  have hmt : t ≤ m * t := Nat.le_mul_of_pos_left t hm
  have hbelow : a * step = step * a := Nat.mul_comm ..
  have habove : (a + 1) * step = step * a + step := by rw [Nat.add_mul, Nat.one_mul, hbelow]
  by_cases hn : narrow
  · have hclose := hnarrow hn
    rw [if_pos hn] at hlow
    exact .inr (Reach.covers_of_lt hstep (by omega) (by omega))
  · rw [if_neg hn] at hlow
    by_cases hgap : gap < 2 * t
    · exact .inl (Reach.covers_of_lt hstep (by omega) (by omega))
    · exact .inr (Reach.covers_of_lt hstep (by omega) (by omega))

theorem isSome_onGrid_leading (h : x.isZero = false) (tie : Tie) :
    (onGrid tie x.reach (x.leadingExponent - 16)).isSome = true := by
  generalize hp : x.leadingExponent - 16 = p
  have hstep := step_le_middle h hp.symm
  have hpos : 0 < pow10 p.toNat * pow2 1076 := Nat.mul_pos (pow10_pos _) (pow2_pos _)
  have ht : 0 < pow2 x.scale * pow10 (-p).toNat := Nat.mul_pos (pow2_pos _) (pow10_pos _)
  have hbound := Nat.mul_le_mul_right (pow2 x.scale * pow10 (-p).toNat) x.significand_lt
  have hmiddle : x.reach.middle * pow10 (-p).toNat =
      4 * (x.significand * (pow2 x.scale * pow10 (-p).toNat)) := by
    show 4 * x.significand * pow2 x.scale * _ = _
    ac_rfl
  have hhigh : x.reach.high * pow10 (-p).toNat =
      4 * (x.significand * (pow2 x.scale * pow10 (-p).toNat)) +
        2 * (pow2 x.scale * pow10 (-p).toNat) := by
    show (4 * x.significand + 2) * pow2 x.scale * _ = _
    ring
  have hlow : x.reach.low * pow10 (-p).toNat =
      4 * (x.significand * (pow2 x.scale * pow10 (-p).toNat)) -
        if x.significand = pow2 52 ∧ 0 < x.scale then pow2 x.scale * pow10 (-p).toNat
        else 2 * (pow2 x.scale * pow10 (-p).toNat) := by
    show (4 * x.significand - _) * pow2 x.scale * _ = _
    rw [Nat.mul_assoc, Nat.sub_mul, Nat.mul_assoc]
    congr 1
    split
    · rw [Nat.one_mul]
    · rfl
  rw [hmiddle] at hstep
  apply isSome_onGrid rfl
  generalize pow2 x.scale * pow10 (-p).toNat = t at *
  generalize hs : pow10 p.toNat * pow2 1076 = step at *
  have h53 : pow2 53 = 9007199254740992 := rfl
  have h16 : pow10 16 = 10000000000000000 := rfl
  rw [h53, Nat.succ_mul] at hbound
  rw [h16] at hstep
  apply covers_neighbour hs hpos (x.significand_pos h) hlow hmiddle hhigh
  · omega
  · intro hn
    have h52 : pow2 52 = 4503599627370496 := rfl
    rw [hn.1, h52] at hstep
    omega

/-! ## The shortest decimal -/

theorem holds_shortest (h : x.isZero = false) (tie : Tie) :
    x.reach.Holds (x.shortest tie).value := by
  have hsome : ((List.range 17).findSome? fun n : Nat =>
      onGrid tie x.reach (x.leadingExponent - n)).isSome = true := by
    rw [List.findSome?_isSome_iff]
    exact ⟨16, by decide, isSome_onGrid_leading h tie⟩
  obtain ⟨d, hd⟩ := Option.isSome_iff_exists.mp hsome
  obtain ⟨n, -, hn⟩ := List.exists_of_findSome?_eq_some hd
  rw [shortest, if_neg (by simp [h])]
  dsimp only
  rw [hd]
  exact holds_of_onGrid hn

theorem Reach.Holds.le {r : Reach} {v : ℚ} (h : r.Holds v) :
    r.low ≤ v * (pow2 1076 : ℕ) ∧ v * (pow2 1076 : ℕ) ≤ r.high := by
  unfold Holds at h
  generalize pow2 1076 = one at *
  dsimp only at h
  split at h
  · exact h
  · exact ⟨h.1.le, h.2.le⟩

theorem shortest_value_pos (h : x.isZero = false) (tie : Tie) : 0 < (x.shortest tie).value := by
  have hlow : (0 : ℚ) < x.reach.low := Nat.cast_pos.mpr (x.low_pos h)
  have hsteps := hlow.trans_le (holds_shortest h tie).le.1
  exact (mul_pos_iff_of_pos_right (Nat.cast_pos.mpr (pow2_pos 1076))).mp hsteps

theorem magnitude_eq_of_holds {v : ℚ} (hx : x.reach.Holds v) (hy : y.reach.Holds v) :
    x.magnitude = y.magnitude := by
  have hapart {x y : Binary64} (hx : x.reach.Holds v) (hy : y.reach.Holds v) :
      ¬ x.magnitude < y.magnitude := by
    intro hlt
    obtain ⟨hle, hnext⟩ := high_le_low hlt
    have hmeet : (y.reach.low : ℚ) ≤ x.reach.high := hy.le.1.trans hx.le.2
    have heq : x.reach.high = y.reach.low := Nat.le_antisymm hle (Nat.cast_le.mp hmeet)
    -- the common end belongs to one of the two only
    have hparity := hnext heq
    by_cases hc : x.reach.closed = true
    · have hopen : y.reach.closed ≠ true := by
        rw [ne_eq, closed_iff, hparity]
        rw [closed_iff] at hc
        omega
      have hstrict : (y.reach.low : ℚ) < v * (pow2 1076 : ℕ) := by
        unfold Reach.Holds at hy
        generalize pow2 1076 = one at *
        rw [if_neg hopen] at hy
        exact hy.1
      have := hstrict.trans_le hx.le.2
      rw [heq] at this
      exact lt_irrefl _ this
    · have hstrict : v * (pow2 1076 : ℕ) < (x.reach.high : ℚ) := by
        unfold Reach.Holds at hx
        generalize pow2 1076 = one at *
        rw [if_neg hc] at hx
        exact hx.2
      have := hy.le.1.trans_lt hstrict
      rw [heq] at this
      exact lt_irrefl _ this
  exact Nat.le_antisymm (Nat.le_of_not_lt (hapart hy hx)) (Nat.le_of_not_lt (hapart hx hy))

end Binary64
end RhythmLobby
