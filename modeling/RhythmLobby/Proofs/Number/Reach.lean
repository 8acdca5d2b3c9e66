import RhythmLobby.Number.Shortest

/-!
# Magnitudes that round to a number

The interval of the magnitudes that round to a number ends where that of the next number begins,
and only one of the two holds the common end.

* `Binary64.high_eq_low`     where one interval ends, the next one begins;
* `Binary64.high_le_low`     the intervals stand in the order of the numbers;
* `Binary64.closed_iff`      every second interval holds its ends.
-/

namespace RhythmLobby.Binary64

variable (x : Binary64) {y : Binary64}

/-! ## Fields -/

theorem magnitude_lt : x.magnitude < pow2 63 := Nat.mod_lt _ (pow2_pos 63)

theorem fraction_lt : x.fraction < pow2 52 := Nat.mod_lt _ (pow2_pos 52)

theorem magnitude_eq : x.magnitude = pow2 52 * x.exponent + x.fraction :=
  (Nat.div_add_mod ..).symm

theorem significand_lt : x.significand < pow2 53 := by
  have hf := x.fraction_lt
  have h53 : pow2 53 = pow2 52 + pow2 52 := rfl
  rw [significand]
  split <;> omega

theorem significand_pos (h : x.isZero = false) : 0 < x.significand := by
  have hm : x.magnitude ≠ 0 := by simpa [isZero] using h
  have heq := x.magnitude_eq
  have h52 := pow2_pos 52
  rw [significand]
  split
  · rename_i he
    rw [he] at heq
    omega
  · omega

theorem significand_mod_two : x.significand % 2 = x.magnitude % 2 := by
  have h52 : pow2 52 = 4503599627370496 := rfl
  have heq := x.magnitude_eq
  rw [h52] at heq
  rw [significand, h52]
  split <;> omega

theorem exists_magnitude {m : Nat} (h : m < pow2 63) : ∃ z : Binary64, z.magnitude = m := by
  have h63 : pow2 63 < UInt64.size := by decide
  refine ⟨⟨UInt64.ofNat m⟩, ?_⟩
  rw [magnitude, UInt64.toNat_ofNat_of_lt' (Nat.lt_trans h h63), Nat.mod_eq_of_lt h]

theorem eq_of_sign {x y : Binary64} (hs : x.isNegative = y.isNegative)
    (hm : x.magnitude = y.magnitude) : x = y := by
  have h63 : pow2 63 = 9223372036854775808 := rfl
  have hx := x.bits.toNat_lt
  have hy := y.bits.toNat_lt
  have hiff : pow2 63 ≤ x.bits.toNat ↔ pow2 63 ≤ y.bits.toNat := by
    simpa [isNegative] using hs
  rw [magnitude, magnitude, h63] at hm
  rw [h63] at hiff
  have hbits : x.bits.toNat = y.bits.toNat := by omega
  cases x
  cases y
  exact congrArg mk (UInt64.toNat_inj.mp hbits)

/-! ## Intervals -/

theorem low_lt_high : x.reach.low < x.reach.high := by
  have hs := pow2_pos x.scale
  show (_ - _) * _ < _ * _
  apply Nat.mul_lt_mul_of_pos_right _ hs
  omega

theorem low_pos (h : x.isZero = false) : 0 < x.reach.low := by
  have hsig := x.significand_pos h
  show 0 < (_ - _) * _
  apply Nat.mul_pos _ (pow2_pos _)
  split <;> omega

theorem high_eq_low {x : Binary64} (h : y.magnitude = x.magnitude + 1) :
    x.reach.high = y.reach.low := by
  have h52 : pow2 52 = 4503599627370496 := rfl
  have hx := x.magnitude_eq
  have hy := y.magnitude_eq
  have hfx := x.fraction_lt
  have hfy := y.fraction_lt
  rw [h52] at hx hy hfx hfy
  simp only [reach, significand, scale, h52]
  by_cases hcarry : x.fraction + 1 < 4503599627370496
  · have hf : y.fraction = x.fraction + 1 := by omega
    have he : y.exponent = x.exponent := by omega
    rw [hf, he]
    by_cases hsub : x.exponent = 0
    · rw [if_pos hsub, if_pos hsub, if_neg (by omega)]
      congr 1
    · rw [if_neg hsub, if_neg hsub, if_neg (by omega)]
      congr 1
  · have hf : y.fraction = 0 := by omega
    have he : y.exponent = x.exponent + 1 := by omega
    have hlast : x.fraction = 4503599627370495 := by omega
    rw [hf, he, hlast]
    by_cases hsub : x.exponent = 0
    · rw [hsub]
      rfl
    · -- below a power of two the steps are half as wide
      obtain ⟨e, he⟩ := Nat.exists_eq_succ_of_ne_zero hsub
      have hdouble : pow2 (e + 1) = pow2 e * 2 := rfl
      rw [he, if_neg (by omega), if_neg (by omega), if_pos (by omega)]
      show _ * pow2 e = _ * pow2 (e + 1)
      rw [hdouble]
      omega

/-- the interval of a greater number begins at the end of that of a smaller one, or beyond it if
there is a number between the two -/
theorem high_le_low {x : Binary64} (h : x.magnitude < y.magnitude) :
    x.reach.high ≤ y.reach.low ∧
      (x.reach.high = y.reach.low → y.magnitude = x.magnitude + 1) := by
  obtain ⟨k, hk⟩ := Nat.exists_eq_add_of_lt h
  induction k generalizing y with
  | zero => exact ⟨Nat.le_of_eq (high_eq_low hk), fun _ => hk⟩
  | succ k ih =>
    obtain ⟨z, hz⟩ := exists_magnitude (m := x.magnitude + k + 1) (by have := y.magnitude_lt; omega)
    obtain ⟨hle, -⟩ := ih (y := z) (by omega) hz
    have hlow := z.low_lt_high
    have hnext : z.reach.high = y.reach.low := high_eq_low (by omega)
    constructor <;> omega

theorem closed_iff : x.reach.closed = true ↔ x.magnitude % 2 = 0 := by
  rw [← significand_mod_two]
  exact beq_iff_eq

end RhythmLobby.Binary64
