import RhythmLobby.Number.Layout
import RhythmLobby.Proofs.Number.Shortest
import Mathlib.Data.List.TakeWhile

/-!
# A number is known by its text

A text without an exponent denotes the decimal that it was made from, and this decimal lies in the
interval of one number only.

* `Layout.plainValue`                 the number that digits with a point denote;
* `Layout.plainValue_positionalText`  a positional text denotes its decimal;
* `Layout.text_injective`             numbers with the same positional text are equal.
-/

namespace RhythmLobby.Layout

/-! ## What a text denotes -/

/-- how many digits stand behind the point -/
def places (cs : List Char) : Nat := (cs.dropWhile (· ≠ '.')).length - 1

/-- the number that digits with at most one point denote -/
def plainValue (cs : List Char) : ℚ :=
  Nat.ofDigitChars 10 (cs.filter (· ≠ '.')) 0 / (10 : ℚ) ^ places cs

theorem plainValue_whole {cs : List Char} (h : ∀ c ∈ cs, c ≠ '.') :
    plainValue cs = Nat.ofDigitChars 10 cs 0 := by
  have hfilter : cs.filter (· ≠ '.') = cs := List.filter_eq_self.mpr (by simpa using h)
  have hdrop : cs.dropWhile (· ≠ '.') = [] := List.dropWhile_eq_nil_iff.mpr (by simpa using h)
  rw [plainValue, places, hfilter, hdrop]
  simp

theorem plainValue_point {a b : List Char} (ha : ∀ c ∈ a, c ≠ '.') (hb : ∀ c ∈ b, c ≠ '.') :
    plainValue (a ++ '.' :: b) = Nat.ofDigitChars 10 (a ++ b) 0 / (10 : ℚ) ^ b.length := by
  have hfilter : (a ++ '.' :: b).filter (· ≠ '.') = a ++ b := by
    rw [List.filter_append, List.filter_cons_of_neg (by simp),
      List.filter_eq_self.mpr (by simpa using ha), List.filter_eq_self.mpr (by simpa using hb)]
  have hdrop : (a ++ '.' :: b).dropWhile (· ≠ '.') = '.' :: b := by
    rw [List.dropWhile_append_of_pos (by simpa using ha), List.dropWhile_cons_of_neg (by simp)]
  rw [plainValue, places, hfilter, hdrop, List.length_cons, Nat.add_sub_cancel]

/-! ## Positional texts -/

theorem ne_point_of_isDigit {c : Char} (h : c.isDigit) : c ≠ '.' := by
  intro hc
  rw [hc] at h
  exact absurd h (by decide)

theorem ne_point_zeros (n : Nat) : ∀ c ∈ List.replicate n '0', c ≠ '.' := by
  intro c hc
  rw [(List.mem_replicate.mp hc).2]
  decide

/-- the digits that are kept, followed by the zeros that are dropped -/
theorem trimZeros_append (ds : List Char) :
    (trimZeros ds).1 ++ List.replicate (trimZeros ds).2 '0' = ds := by
  have hsplit : (ds.reverse.dropWhile (· == '0')).reverse ++
      (ds.reverse.takeWhile (· == '0')).reverse = ds := by
    rw [← List.reverse_append, List.takeWhile_append_dropWhile, List.reverse_reverse]
  have hlength := congrArg List.length hsplit
  rw [List.length_append] at hlength
  have hzeros : (ds.reverse.takeWhile (· == '0')).reverse =
      List.replicate (trimZeros ds).2 '0' := by
    rw [List.eq_replicate_iff]
    constructor
    · show _ = ds.length - _
      omega
    · intro c hc
      have hzero := List.mem_takeWhile_imp (List.mem_reverse.mp hc)
      exact eq_of_beq hzero
  rw [← hzeros]
  exact hsplit

theorem div_pow10_eq (n : ℚ) {k : Nat} {e : Int} (h : e = -(k : Int)) :
    n / (10 : ℚ) ^ k = n * (10 : ℚ) ^ e := by
  rw [h, zpow_neg, zpow_natCast, div_eq_mul_inv]

/-- digits with the point after the first `point` of them; zeros fill the gap to the point -/
theorem plainValue_positionalText {ds : List Char} (hds : ∀ c ∈ ds, c ≠ '.') (pointZero : Bool)
    (point : Int) : plainValue (positionalText pointZero ds point) =
      Nat.ofDigitChars 10 ds 0 * (10 : ℚ) ^ (point - ds.length) := by
  unfold positionalText
  split
  · rename_i hle
    have hbefore : ∀ c ∈ ['0'], c ≠ '.' := List.forall_mem_singleton.mpr (by decide)
    have hbehind : ∀ c ∈ List.replicate (-point).toNat '0' ++ ds, c ≠ '.' := fun c hc =>
      (List.mem_append.mp hc).elim (ne_point_zeros _ c) (hds c)
    show plainValue (['0'] ++ '.' :: (List.replicate (-point).toNat '0' ++ ds)) = _
    rw [plainValue_point hbefore hbehind, ← List.append_assoc, Nat.ofDigitChars_append,
      Nat.ofDigitChars_append, List.length_append, List.length_replicate]
    have hzero : Nat.ofDigitChars 10 (List.replicate (-point).toNat '0')
        (Nat.ofDigitChars 10 ['0'] 0) = 0 := by
      rw [Nat.ofDigitChars_replicate_zero]
      exact Nat.mul_zero _
    rw [hzero]
    exact div_pow10_eq _ (by omega)
  · dsimp only
    split
    · rename_i hlt hfill
      have hfilled : ∀ c ∈ ds ++ List.replicate (point.toNat - ds.length) '0', c ≠ '.' :=
        fun c hc => (List.mem_append.mp hc).elim (hds c) (ne_point_zeros _ c)
      have hvalue : ((Nat.ofDigitChars 10
          (ds ++ List.replicate (point.toNat - ds.length) '0') 0 : ℕ) : ℚ) =
          Nat.ofDigitChars 10 ds 0 * (10 : ℚ) ^ (point - ds.length) := by
        have hexp : point - ds.length = ((point.toNat - ds.length : ℕ) : Int) := by omega
        rw [Nat.ofDigitChars_append, Nat.ofDigitChars_replicate_zero, hexp, zpow_natCast]
        push_cast
        ring
      cases pointZero with
      | false =>
        rw [if_neg (by decide), List.append_nil, plainValue_whole hfilled, hvalue]
      | true =>
        have hlast : ∀ c ∈ ['0'], c ≠ '.' := List.forall_mem_singleton.mpr (by decide)
        rw [if_pos rfl, plainValue_point hfilled hlast, Nat.ofDigitChars_append, ← hvalue]
        generalize Nat.ofDigitChars 10 (ds ++ _) 0 = n
        have hten : Nat.ofDigitChars 10 ['0'] n = 10 * n := rfl
        rw [hten]
        push_cast
        norm_num
    · rename_i hlt hcut
      have htake : ∀ c ∈ ds.take point.toNat, c ≠ '.' := fun c hc => hds c (List.mem_of_mem_take hc)
      have hdrop : ∀ c ∈ ds.drop point.toNat, c ≠ '.' := fun c hc => hds c (List.mem_of_mem_drop hc)
      rw [plainValue_point htake hdrop, List.take_append_drop, List.length_drop]
      exact div_pow10_eq _ (by omega)

theorem mem_positionalText {pointZero : Bool} {ds : List Char} {point : Int} {c : Char}
    (h : c ∈ positionalText pointZero ds point) : c ∈ ds ∨ c = '0' ∨ c = '.' := by
  unfold positionalText at h
  split at h
  · simp only [List.mem_append, List.mem_cons, List.mem_replicate] at h
    grind
  · dsimp only at h
    split at h
    · simp only [List.mem_append, List.mem_replicate] at h
      cases pointZero <;> simp at h <;> grind
    · simp only [List.mem_append, List.mem_cons] at h
      grind [List.mem_of_mem_take, List.mem_of_mem_drop]

/-! ## Texts of numbers -/

theorem isDigit_of_mem_trimZeros {n : Nat} {c : Char}
    (h : c ∈ (trimZeros (Nat.toDigits 10 n)).1) : c.isDigit := by
  have hmem : c ∈ Nat.toDigits 10 n := by
    rw [← trimZeros_append (Nat.toDigits 10 n)]
    exact List.mem_append_left _ h
  exact Nat.isDigit_of_mem_toDigits (by decide) (by decide) hmem

/-- the value of the digits of a decimal, written with as many places as its power says -/
theorem plainValue_decimal (d : Decimal) (pointZero : Bool) :
    let (ds, dropped) := trimZeros (Nat.toDigits 10 d.digits)
    plainValue (positionalText pointZero ds (ds.length + dropped + d.power)) = d.value := by
  have htrim := trimZeros_append (Nat.toDigits 10 d.digits)
  have hdigits : ∀ c ∈ (trimZeros (Nat.toDigits 10 d.digits)).1, c ≠ '.' := fun c hc =>
    ne_point_of_isDigit (isDigit_of_mem_trimZeros hc)
  have hvalue := Nat.ofDigitChars_ten_toDigits (n := d.digits)
  rw [← htrim, Nat.ofDigitChars_append, Nat.ofDigitChars_replicate_zero] at hvalue
  generalize trimZeros (Nat.toDigits 10 d.digits) = t at *
  obtain ⟨ds, dropped⟩ := t
  have hexp : (ds.length + dropped + d.power : Int) - ds.length = dropped + d.power := by omega
  show plainValue _ = _
  rw [plainValue_positionalText hdigits, hexp, zpow_add₀ (by norm_num), zpow_natCast,
    Decimal.value, ← hvalue]
  push_cast
  ring

/-- what stands behind the sign of a positional text denotes the shortest decimal -/
theorem toList_text_positional {l : Layout} (hl : ∀ e, l.positional e = true) (x : Binary64) :
    ∃ body : List Char, (l.text x).toList = (if x.isNegative then ['-'] else []) ++ body ∧
      '-' ∉ body ∧ plainValue body = (x.shortest l.tie).value := by
  unfold text
  dsimp only
  cases hzero : x.isZero with
  | true =>
    refine ⟨if l.pointZero then ['0', '.', '0'] else ['0'], ?_, ?_, ?_⟩
    · rw [if_pos rfl, String.toList_ofList]
    · cases l.pointZero <;> decide
    · rw [Binary64.shortest, if_pos hzero]
      cases l.pointZero <;> simp [plainValue, Decimal.value, places, Nat.ofDigitChars]
  | false =>
    have hdecimal := plainValue_decimal (x.shortest l.tie) l.pointZero
    have hminus : '-' ∉ (trimZeros (Nat.toDigits 10 (x.shortest l.tie).digits)).1 := fun h =>
      absurd (isDigit_of_mem_trimZeros h) (by decide)
    rw [if_neg (by decide)]
    generalize trimZeros (Nat.toDigits 10 (x.shortest l.tie).digits) = t at *
    obtain ⟨ds, dropped⟩ := t
    refine ⟨positionalText l.pointZero ds (ds.length + dropped + (x.shortest l.tie).power),
      ?_, ?_, hdecimal⟩
    · rw [String.toList_ofList]
      dsimp only
      rw [if_pos (hl _)]
    · intro hmem
      rcases mem_positionalText hmem with h | h | h
      · exact hminus h
      · exact absurd h (by decide)
      · exact absurd h (by decide)

theorem sign_append_inj {a b : Bool} {body body' : List Char} (hbody : '-' ∉ body)
    (hbody' : '-' ∉ body')
    (h : (if a then ['-'] else []) ++ body = (if b then ['-'] else []) ++ body') :
    a = b ∧ body = body' := by
  cases a with
  | false =>
    cases b with
    | false => exact ⟨rfl, h⟩
    | true =>
      have h : body = '-' :: body' := h
      exact absurd (h ▸ List.mem_cons_self) hbody
  | true =>
    cases b with
    | false =>
      have h : '-' :: body = body' := h
      exact absurd (h ▸ List.mem_cons_self) hbody'
    | true => exact ⟨rfl, (List.cons.inj h).2⟩

theorem text_injective {l : Layout} (hl : ∀ e, l.positional e = true) {x y : Binary64}
    (h : l.text x = l.text y) : x = y := by
  obtain ⟨body, htext, hplain, hvalue⟩ := toList_text_positional hl x
  obtain ⟨body', htext', hplain', hvalue'⟩ := toList_text_positional hl y
  have hlist : (if x.isNegative then ['-'] else []) ++ body =
      (if y.isNegative then ['-'] else []) ++ body' := by
    rw [← htext, ← htext', h]
  obtain ⟨hsign, hbody⟩ := sign_append_inj hplain hplain' hlist
  have hsame : (x.shortest l.tie).value = (y.shortest l.tie).value := by
    rw [← hvalue, ← hvalue', hbody]
  have hzero {z : Binary64} (hz : z.isZero = true) :
      z.magnitude = 0 ∧ (z.shortest l.tie).value = 0 := by
    rw [Binary64.shortest, if_pos hz]
    exact ⟨eq_of_beq hz, by simp [Decimal.value]⟩
  apply Binary64.eq_of_sign hsign
  cases hx : x.isZero with
  | true =>
    cases hy : y.isZero with
    | true => rw [(hzero hx).1, (hzero hy).1]
    | false =>
      have hpos := Binary64.shortest_value_pos hy l.tie
      rw [← hsame, (hzero hx).2] at hpos
      exact absurd hpos (lt_irrefl 0)
  | false =>
    have hholds := Binary64.holds_shortest hx l.tie
    cases hy : y.isZero with
    | true =>
      have hpos := Binary64.shortest_value_pos hx l.tie
      rw [hsame, (hzero hy).2] at hpos
      exact absurd hpos (lt_irrefl 0)
    | false =>
      rw [hsame] at hholds
      exact Binary64.magnitude_eq_of_holds hholds (Binary64.holds_shortest hy l.tie)

end RhythmLobby.Layout
