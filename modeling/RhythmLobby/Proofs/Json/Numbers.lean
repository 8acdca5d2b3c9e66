import RhythmLobby.Proofs.Json.Strings
import RhythmLobby.Json.Printer

/-!
# Numbers read back

A reader of numbers is local: what it finds depends on the characters it takes alone, as long as
the text behind them does not go on with a number.  So a number that reads back as a text of its
own reads back wherever it stands.

* `Json.Local`                a reader of numbers;
* `Json.numberAt_local`       numbers;
* `Json.reads_integer`        whole numbers of 64 bits;
* `Json.unbroken_floatChars`  no space inside a floating point number.
-/

namespace RhythmLobby.Json

/-! ## Rows of digits -/

/-- no digit comes next -/
def DigitsEnd (rest : List Char) : Prop := ∀ c ∈ rest.head?, c.isDigit = false

theorem Closes.digitsEnd {rest : List Char} (h : Closes rest) : DigitsEnd rest := by
  intro c hc
  have := h c hc
  simp only [extendsNumber, Bool.or_eq_false_iff] at this
  exact this.1.1.1

theorem digitsEnd_dropWhile (cs : List Char) : DigitsEnd (cs.dropWhile Char.isDigit) := by
  intro c hc
  have := List.head?_dropWhile_not Char.isDigit cs
  rw [Option.mem_def.mp hc] at this
  simpa using this

theorem DigitsEnd.followedBy {taken old : List Char} (h : DigitsEnd (taken ++ old))
    {rest : List Char} (hrest : DigitsEnd rest) : DigitsEnd (taken ++ rest) := by
  cases taken with
  | nil => exact hrest
  | cons c cs => exact h

theorem takeWhile_digits {digits rest : List Char} (hdigits : ∀ c ∈ digits, c.isDigit)
    (hrest : DigitsEnd rest) : (digits ++ rest).takeWhile Char.isDigit = digits := by
  rw [List.takeWhile_append_of_pos hdigits]
  cases rest with
  | nil => simp
  | cons c cs => simp [hrest c rfl]

theorem drop_takeWhile (p : Char → Bool) (cs : List Char) :
    cs.drop (cs.takeWhile p).length = cs.dropWhile p :=
  (congrArg (List.drop _) List.takeWhile_append_dropWhile.symm).trans List.drop_left

/-! ## Local readers -/

inductive IsNumber : Value → Prop
  | integer (n : Int) : IsNumber (.integer n)
  | float (x : Binary64) : IsNumber (.float x)

/-- What the reader finds is a number, and it finds it wherever the characters stand that it
took. -/
def Local (read : Cursor → Outcome Value) : Prop :=
  ∀ c v after, read c = .ok (v, after) →
    IsNumber v ∧ ∃ taken, c.rest = taken ++ after.rest ∧ Reads read taken v

theorem floatOf_eq_ok {negative : Bool} {t : Tally} {c after : Cursor} {v : Value}
    (h : floatOf negative t c = .ok (v, after)) :
    IsNumber v ∧ after = c ∧ ∀ c, floatOf negative t c = .ok (v, c) := by
  unfold floatOf at h ⊢
  obtain hx | ⟨x, hx⟩ := Option.eq_none_or_eq_some (Binary64.ofDecimal? negative t.digits t.power)
  · rw [hx] at h
    cases h
  · rw [hx] at h ⊢
    cases h
    exact ⟨.float x, rfl, fun _ => rfl⟩

theorem isNumber_wholeValue (negative : Bool) (n : Nat) : IsNumber (wholeValue negative n) := by
  unfold wholeValue
  split
  · split
    · exact .integer _
    · exact .float _
  · exact .integer _

/-- the digits of an exponent end where no digit comes next -/
theorem exponentDigits_end (negative falling : Bool) (t : Tally) (e offset : Nat)
    {rest : List Char} (hrest : DigitsEnd rest) :
    exponentDigits negative falling t e offset rest =
      floatOf negative ⟨t.digits, t.power + if falling then -(e : Int) else e⟩ ⟨rest, offset⟩ := by
  cases rest with
  | nil => rfl
  | cons c cs => rw [exponentDigits, if_neg (by simp [hrest c rfl])]

theorem exponentDigits_local (negative falling : Bool) (t : Tally) (e : Nat) :
    Local fun c => exponentDigits negative falling t e c.offset c.rest := by
  intro cur v after h
  obtain ⟨cs, offset⟩ := cur
  induction cs generalizing e offset with
  | nil =>
    obtain ⟨hv, rfl, hall⟩ := floatOf_eq_ok h
    refine ⟨hv, [], rfl, fun rest offset hrest => ⟨offset, ?_⟩⟩
    exact (exponentDigits_end _ _ _ _ _ hrest.digitsEnd).trans (hall _)
  | cons d cs ih =>
    by_cases hd : d.isDigit
    · simp only [exponentDigits, if_pos hd] at h
      by_cases hsmall : e * 10 + (d.toNat - '0'.toNat) < 0x80000000
      · rw [if_pos hsmall] at h
        obtain ⟨hv, taken, heq, hreads⟩ := ih _ _ h
        refine ⟨hv, d :: taken, congrArg (d :: ·) heq, fun rest offset hrest => ?_⟩
        obtain ⟨offset', hread⟩ := hreads rest (offset + 1) hrest
        refine ⟨offset', ?_⟩
        simp only [List.cons_append, exponentDigits, if_pos hd, if_pos hsmall]
        exact hread
      · rw [if_neg hsmall] at h
        by_cases hgrows : t.digits ≠ 0 ∧ falling = false
        · rw [if_pos hgrows] at h
          cases h
        · rw [if_neg hgrows] at h
          cases h
          have hdigits : ∀ c ∈ cs.takeWhile Char.isDigit, c.isDigit :=
            List.all_eq_true.mp List.all_takeWhile
          refine ⟨.float _, d :: cs.takeWhile Char.isDigit, ?_, fun rest offset hrest =>
            ⟨offset + 1 + (cs.takeWhile Char.isDigit).length, ?_⟩⟩
          · rw [List.cons_append, drop_takeWhile, List.takeWhile_append_dropWhile]
          · simp only [List.cons_append, exponentDigits, if_pos hd, if_neg hsmall, if_neg hgrows,
              takeWhile_digits hdigits hrest.digitsEnd, List.drop_left]
    · have hend : DigitsEnd (d :: cs) := by simpa [DigitsEnd] using hd
      obtain ⟨hv, rfl, hall⟩ := floatOf_eq_ok ((exponentDigits_end _ _ _ _ _ hend).symm.trans h)
      refine ⟨hv, [], rfl, fun rest offset hrest => ⟨offset, ?_⟩⟩
      exact (exponentDigits_end _ _ _ _ _ hrest.digitsEnd).trans (hall _)

/-- the sign of an exponent, and whether the number falls by it -/
inductive ExponentSign : List Char → Bool → Prop
  | absent : ExponentSign [] false
  | plus : ExponentSign ['+'] false
  | minus : ExponentSign ['-'] true

theorem exponentAt_sign (negative : Bool) (t : Tally) {sign : List Char} {falling : Bool}
    (hsign : ExponentSign sign falling) {d : Char} (hd : d.isDigit) (cs : List Char)
    (offset : Nat) :
    exponentAt negative t ⟨sign ++ d :: cs, offset⟩ =
      exponentDigits negative falling t 0 (offset + sign.length) (d :: cs) := by
  cases hsign with
  | absent =>
    have hplus : d ≠ '+' := by rintro rfl; cases hd
    have hminus : d ≠ '-' := by rintro rfl; cases hd
    simp [exponentAt, hplus, hminus, hd]
  | plus =>
    simp [exponentAt, hd, Cursor.skip]
    rfl
  | minus =>
    simp [exponentAt, hd, Cursor.skip]
    rfl

theorem exponentAt_eq_ok {negative : Bool} {t : Tally} {cs : List Char} {offset : Nat}
    {r : Value × Cursor} (h : exponentAt negative t ⟨cs, offset⟩ = .ok r) :
    ∃ sign falling d ds, ExponentSign sign falling ∧ d.isDigit ∧ cs = sign ++ d :: ds := by
  unfold exponentAt at h
  split at h
  rename_i falling c hsign
  split at h
  · cases h
  rename_i d ds hrest
  have hd : d.isDigit := by
    refine Classical.byContradiction fun hd => ?_
    simp [hd, Cursor.failNext] at h
  split at hsign <;> rename_i hcs <;> cases hsign
  · obtain rfl : cs = _ := hcs
    obtain rfl : _ = d :: ds := hrest
    exact ⟨_, _, d, ds, .plus, hd, rfl⟩
  · obtain rfl : cs = _ := hcs
    obtain rfl : _ = d :: ds := hrest
    exact ⟨_, _, d, ds, .minus, hd, rfl⟩
  · obtain rfl : cs = d :: ds := hrest
    exact ⟨_, _, d, ds, .absent, hd, rfl⟩

theorem digitsEnd_exponent {negative falling : Bool} {t : Tally} {e offset : Nat} {cs : List Char}
    {v : Value} {after : Cursor}
    (h : exponentDigits negative falling t e offset cs = .ok (v, after)) :
    DigitsEnd after.rest := by
  induction cs generalizing e offset with
  | nil =>
    obtain ⟨-, rfl, -⟩ := floatOf_eq_ok h
    nofun
  | cons d cs ih =>
    by_cases hd : d.isDigit
    · simp only [exponentDigits, if_pos hd] at h
      split at h
      · exact ih h
      split at h
      · cases h
      · cases h
        rw [drop_takeWhile]
        exact digitsEnd_dropWhile cs
    · have hend : DigitsEnd (d :: cs) := by simpa [DigitsEnd] using hd
      obtain ⟨-, rfl, -⟩ := floatOf_eq_ok ((exponentDigits_end _ _ _ _ _ hend).symm.trans h)
      exact hend

theorem exponentDigits_cons_local {negative falling : Bool} {t : Tally} {d : Char} {cs : List Char}
    (hd : d.isDigit) {offset : Nat} {v : Value} {after : Cursor}
    (h : exponentDigits negative falling t 0 offset (d :: cs) = .ok (v, after)) :
    IsNumber v ∧ ∃ taken, cs = taken ++ after.rest ∧
      Reads (fun c => exponentDigits negative falling t 0 c.offset c.rest) (d :: taken) v := by
  obtain ⟨hv, taken, heq, hreads⟩ :=
    exponentDigits_local negative falling t 0 ⟨d :: cs, offset⟩ v after h
  cases taken with
  | nil =>
    have hend := digitsEnd_exponent h
    rw [show after.rest = d :: cs from heq.symm] at hend
    exact absurd hd (by simp [hend d rfl])
  | cons c taken =>
    obtain ⟨rfl, rfl⟩ := List.cons.inj heq
    exact ⟨hv, taken, rfl, hreads⟩

theorem exponentAt_local (negative : Bool) (t : Tally) : Local (exponentAt negative t) := by
  intro c v after h
  obtain ⟨cs, offset⟩ := c
  obtain ⟨sign, falling, d, ds, hsign, hd, rfl⟩ := exponentAt_eq_ok h
  rw [exponentAt_sign _ _ hsign hd] at h
  obtain ⟨hv, taken, rfl, hreads⟩ := exponentDigits_cons_local hd h
  refine ⟨hv, sign ++ d :: taken, by simp, fun rest offset hrest => ?_⟩
  obtain ⟨offset', heq⟩ := hreads rest (offset + sign.length) hrest
  refine ⟨offset', ?_⟩
  rw [List.append_assoc, List.cons_append, exponentAt_sign _ _ hsign hd]
  exact heq

/-! ## Behind the digits before the point -/

/-- neither a fraction nor an exponent comes next -/
def Unscaled (rest : List Char) : Prop := ∀ c ∈ rest.head?, c ≠ '.' ∧ c ≠ 'e' ∧ c ≠ 'E'

theorem Closes.unscaled {rest : List Char} (h : Closes rest) : Unscaled rest := by
  intro c hc
  have := h c hc
  simp only [extendsNumber, Bool.or_eq_false_iff, beq_eq_false_iff_ne] at this
  exact ⟨this.1.1.2, this.1.2, this.2⟩

theorem scaledBy_unscaled (negative : Bool) (t : Tally) {rest : List Char} (h : Unscaled rest)
    (offset : Nat) : scaledBy negative t ⟨rest, offset⟩ = floatOf negative t ⟨rest, offset⟩ := by
  cases rest with
  | nil => rfl
  | cons c cs =>
    obtain ⟨-, he, hE⟩ := h c rfl
    simp [scaledBy, he, hE]

theorem scaledBy_local (negative : Bool) (t : Tally) : Local (scaledBy negative t) := by
  intro c v after h
  obtain ⟨cs, offset⟩ := c
  unfold scaledBy at h
  split at h
  · rename_i hcs
    obtain rfl : cs = _ := hcs
    obtain ⟨hv, taken, heq, hreads⟩ := exponentAt_local _ _ _ _ _ h
    refine ⟨hv, 'e' :: taken, congrArg ('e' :: ·) heq, fun rest offset hrest => ?_⟩
    exact hreads rest (offset + 1) hrest
  · rename_i hcs
    obtain rfl : cs = _ := hcs
    obtain ⟨hv, taken, heq, hreads⟩ := exponentAt_local _ _ _ _ _ h
    refine ⟨hv, 'E' :: taken, congrArg ('E' :: ·) heq, fun rest offset hrest => ?_⟩
    exact hreads rest (offset + 1) hrest
  · obtain ⟨hv, rfl, hall⟩ := floatOf_eq_ok h
    exact ⟨hv, [], rfl, fun rest offset hrest =>
      ⟨offset, (scaledBy_unscaled _ _ hrest.unscaled _).trans (hall _)⟩⟩

theorem numberTail_unscaled (negative : Bool) (t : Tally) {rest : List Char} (h : Unscaled rest)
    (offset : Nat) :
    numberTail negative t ⟨rest, offset⟩ =
      if t.power = 0 then .ok (wholeValue negative t.digits, ⟨rest, offset⟩)
      else floatOf negative t ⟨rest, offset⟩ := by
  cases rest with
  | nil => rfl
  | cons c cs =>
    obtain ⟨hpoint, he, hE⟩ := h c rfl
    simp [numberTail, hpoint, he, hE]

theorem numberTail_point (negative : Bool) (t : Tally) {digits rest : List Char}
    (hdigits : ∀ c ∈ digits, c.isDigit) (hsome : digits ≠ []) (hrest : DigitsEnd rest)
    (offset : Nat) :
    numberTail negative t ⟨'.' :: (digits ++ rest), offset⟩ =
      scaledBy negative (t.fraction digits) ⟨rest, offset + byteLength ('.' :: digits)⟩ := by
  simp [numberTail, takeWhile_digits hdigits hrest, hsome, Cursor.skip]

theorem numberTail_local (negative : Bool) (t : Tally) : Local (numberTail negative t) := by
  intro cur v after h
  obtain ⟨cs, offset⟩ := cur
  unfold numberTail at h
  split at h
  · rename_i ds hcs
    obtain rfl : cs = _ := hcs
    simp only [Cursor.skip, List.drop_succ_cons, drop_takeWhile] at h
    split at h
    · split at h <;> cases h
    rename_i hsome
    have hdigits : ∀ c ∈ ds.takeWhile Char.isDigit, c.isDigit :=
      List.all_eq_true.mp List.all_takeWhile
    have hend := digitsEnd_dropWhile ds
    obtain ⟨hv, taken, heq, hreads⟩ := scaledBy_local _ _ _ _ _ h
    replace heq : ds.dropWhile Char.isDigit = taken ++ after.rest := heq
    refine ⟨hv, '.' :: (ds.takeWhile Char.isDigit ++ taken), ?_, fun rest offset hrest => ?_⟩
    · rw [List.cons_append, List.append_assoc, ← heq, List.takeWhile_append_dropWhile]
    · have hend' : DigitsEnd (taken ++ rest) := (heq ▸ hend).followedBy hrest.digitsEnd
      obtain ⟨offset', hread⟩ := hreads rest _ hrest
      refine ⟨offset', ?_⟩
      rw [List.cons_append, List.append_assoc,
        numberTail_point _ _ hdigits (by simpa using hsome) hend']
      exact hread
  · rename_i hcs
    obtain rfl : cs = _ := hcs
    obtain ⟨hv, taken, heq, hreads⟩ := exponentAt_local _ _ _ _ _ h
    refine ⟨hv, 'e' :: taken, congrArg ('e' :: ·) heq, fun rest offset hrest => ?_⟩
    exact hreads rest (offset + 1) hrest
  · rename_i hcs
    obtain rfl : cs = _ := hcs
    obtain ⟨hv, taken, heq, hreads⟩ := exponentAt_local _ _ _ _ _ h
    refine ⟨hv, 'E' :: taken, congrArg ('E' :: ·) heq, fun rest offset hrest => ?_⟩
    exact hreads rest (offset + 1) hrest
  · split at h
    · rename_i hwhole
      cases h
      refine ⟨isNumber_wholeValue _ _, [], rfl, fun rest offset hrest => ⟨offset, ?_⟩⟩
      exact (numberTail_unscaled _ _ hrest.unscaled _).trans (if_pos hwhole)
    · rename_i hfloat
      obtain ⟨hv, rfl, hall⟩ := floatOf_eq_ok h
      refine ⟨hv, [], rfl, fun rest offset hrest => ⟨offset, ?_⟩⟩
      exact (numberTail_unscaled _ _ hrest.unscaled _).trans ((if_neg hfloat).trans (hall _))

/-! ## Whole texts of numbers -/

theorem unsignedAt_zero (negative : Bool) {rest : List Char} (hrest : DigitsEnd rest)
    (offset : Nat) :
    unsignedAt negative ⟨'0' :: rest, offset⟩ = numberTail negative ⟨0, 0⟩ ⟨rest, offset + 1⟩ := by
  have hnone : rest.head?.any Char.isDigit = false := by
    cases rest with
    | nil => rfl
    | cons c cs => exact hrest c rfl
  simp [unsignedAt, Cursor.skip, hnone]
  rfl

theorem unsignedAt_digits (negative : Bool) {d : Char} {digits rest : List Char} (hzero : d ≠ '0')
    (hdigits : ∀ c ∈ d :: digits, c.isDigit) (hrest : DigitsEnd rest) (offset : Nat) :
    unsignedAt negative ⟨(d :: digits) ++ rest, offset⟩ =
      numberTail negative ((d :: digits).foldl Tally.whole ⟨0, 0⟩)
        ⟨rest, offset + byteLength (d :: digits)⟩ := by
  have htake := takeWhile_digits hdigits hrest
  have hd : d.isDigit := hdigits d (List.mem_cons_self ..)
  rw [List.cons_append] at htake ⊢
  simp only [unsignedAt, if_neg hzero, if_pos hd, htake, Cursor.skip]
  rw [← List.cons_append, List.drop_left, List.take_left]

theorem unsignedAt_local (negative : Bool) : Local (unsignedAt negative) := by
  intro cur v after h
  obtain ⟨cs, offset⟩ := cur
  cases cs with
  | nil => cases h
  | cons d cs =>
    by_cases hzero : d = '0'
    · subst hzero
      have hend : DigitsEnd cs := by
        intro c hc
        cases hdigit : c.isDigit with
        | false => rfl
        | true =>
          rw [Option.mem_def] at hc
          simp [unsignedAt, Cursor.skip, hc, hdigit, Cursor.failNext] at h
      rw [unsignedAt_zero _ hend] at h
      obtain ⟨hv, taken, rfl, hreads⟩ := numberTail_local _ _ _ _ _ h
      refine ⟨hv, '0' :: taken, rfl, fun rest offset hrest => ?_⟩
      obtain ⟨offset', hread⟩ := hreads rest (offset + 1) hrest
      refine ⟨offset', ?_⟩
      exact (unsignedAt_zero _ (hend.followedBy hrest.digitsEnd) _).trans hread
    · by_cases hd : d.isDigit
      · have hdigits : ∀ c ∈ d :: cs.takeWhile Char.isDigit, c.isDigit := by
          intro c hc
          rcases List.mem_cons.mp hc with rfl | hc
          · exact hd
          · exact List.all_eq_true.mp List.all_takeWhile c hc
        have hend := digitsEnd_dropWhile cs
        rw [← List.takeWhile_append_dropWhile (l := cs) (p := Char.isDigit), ← List.cons_append,
          unsignedAt_digits _ hzero hdigits hend] at h
        obtain ⟨hv, taken, heq, hreads⟩ := numberTail_local _ _ _ _ _ h
        replace heq : cs.dropWhile Char.isDigit = taken ++ after.rest := heq
        refine ⟨hv, (d :: cs.takeWhile Char.isDigit) ++ taken, ?_, fun rest offset hrest => ?_⟩
        · rw [List.append_assoc, ← heq, List.cons_append, List.takeWhile_append_dropWhile]
        · have hend' : DigitsEnd (taken ++ rest) := (heq ▸ hend).followedBy hrest.digitsEnd
          obtain ⟨offset', hread⟩ := hreads rest _ hrest
          refine ⟨offset', ?_⟩
          rw [List.append_assoc, unsignedAt_digits _ hzero hdigits hend']
          exact hread
      · simp [unsignedAt, hzero, hd, Cursor.failNext] at h

theorem numberAt_local : Local numberAt := by
  intro c v after h
  obtain ⟨cs, offset⟩ := c
  unfold numberAt at h
  split at h
  · rename_i hcs
    obtain rfl : cs = _ := hcs
    obtain ⟨hv, taken, heq, hreads⟩ := unsignedAt_local _ _ _ _ h
    refine ⟨hv, '-' :: taken, congrArg ('-' :: ·) heq, fun rest offset hrest => ?_⟩
    exact hreads rest (offset + 1) hrest
  · rename_i hhead
    obtain ⟨hv, taken, heq, hreads⟩ := unsignedAt_local _ _ _ _ h
    refine ⟨hv, taken, heq, fun rest offset hrest => ?_⟩
    obtain ⟨offset', hread⟩ := hreads rest offset hrest
    refine ⟨offset', ?_⟩
    unfold numberAt
    split
    · rename_i hminus
      rw [show taken ++ rest = '-' :: _ from hminus] at hread
      cases hread
    · exact hread

/-! ## Whole numbers -/

theorem le_ofDigitChars (digits : List Char) (n : Nat) : n ≤ Nat.ofDigitChars 10 digits n := by
  rw [Nat.ofDigitChars_eq_ofDigitChars_zero]
  have : n ≤ 10 ^ digits.length * n := Nat.le_mul_of_pos_left n (Nat.pow_pos (by decide))
  omega

theorem foldl_whole (digits : List Char) (n : Nat)
    (hfits : Nat.ofDigitChars 10 digits n < UInt64.size) :
    digits.foldl Tally.whole ⟨n, 0⟩ = ⟨Nat.ofDigitChars 10 digits n, 0⟩ := by
  induction digits generalizing n with
  | nil => rw [Nat.ofDigitChars_nil, List.foldl_nil]
  | cons c cs ih =>
    rw [Nat.ofDigitChars_cons] at hfits ⊢
    have hle := le_ofDigitChars cs (10 * n + (c.toNat - '0'.toNat))
    have hwhole : Tally.whole ⟨n, 0⟩ c = ⟨10 * n + (c.toNat - '0'.toNat), 0⟩ := by
      have hlt : n * 10 + (c.toNat - '0'.toNat) < UInt64.size := by omega
      have hfit : Tally.fits n (c.toNat - '0'.toNat) = true := decide_eq_true hlt
      simp only [Tally.whole, hfit, Nat.mul_comm n]
      rfl
    rw [List.foldl_cons, hwhole, ih _ hfits]

theorem head?_toDigits_ne_zero {n : Nat} (hn : 0 < n) : (Nat.toDigits 10 n).head? ≠ some '0' := by
  induction n using Nat.base_induction 10 (by decide) with
  | single m hm =>
    rw [Nat.toDigits_of_lt_base hm, List.head?_cons, ne_eq, Option.some.injEq,
      Nat.digitChar_eq_zero]
    omega
  | digit m k hk hm ih =>
    rw [← Nat.toDigits_append_toDigits (by decide) hm hk, List.head?_append]
    cases hhead : (Nat.toDigits 10 m).head? with
    | none => exact absurd (List.head?_eq_none_iff.mp hhead) Nat.toDigits_ne_nil
    | some c => simpa [hhead] using ih hm

theorem unsignedAt_toDigits (negative : Bool) {n : Nat} (hn : n < UInt64.size) {rest : List Char}
    (hrest : Closes rest) (offset : Nat) : ∃ offset',
    unsignedAt negative ⟨Nat.toDigits 10 n ++ rest, offset⟩ =
      .ok (wholeValue negative n, ⟨rest, offset'⟩) := by
  cases hdigits : Nat.toDigits 10 n with
  | nil => exact absurd hdigits Nat.toDigits_ne_nil
  | cons d ds =>
    have hall : ∀ c ∈ d :: ds, c.isDigit := fun c hc =>
      Nat.isDigit_of_mem_toDigits (by decide) (by decide) (hdigits ▸ hc)
    have hvalue : Nat.ofDigitChars 10 (d :: ds) 0 = n := by
      rw [← hdigits, Nat.ofDigitChars_ten_toDigits]
    rcases Nat.eq_zero_or_pos n with rfl | hpos
    · rw [Nat.toDigits_zero] at hdigits
      cases hdigits
      refine ⟨offset + 1, ?_⟩
      rw [List.cons_append, List.nil_append, unsignedAt_zero _ hrest.digitsEnd,
        numberTail_unscaled _ _ hrest.unscaled, if_pos rfl]
    · have hzero : d ≠ '0' := by
        have := head?_toDigits_ne_zero hpos
        simpa [hdigits] using this
      refine ⟨offset + byteLength (d :: ds), ?_⟩
      rw [unsignedAt_digits _ hzero hall hrest.digitsEnd, foldl_whole _ _ (by rwa [hvalue]),
        hvalue, numberTail_unscaled _ _ hrest.unscaled, if_pos rfl]

/-- the whole numbers that a reader keeps as such -/
def InRange (n : Int) : Prop := -0x8000000000000000 ≤ n ∧ n < 0x10000000000000000

theorem reads_integer {n : Int} (hn : InRange n) : Reads numberAt (wholeChars n) (.integer n) := by
  intro rest offset hrest
  cases n with
  | ofNat n =>
    have hfits : n < UInt64.size := Int.ofNat_lt.mp hn.2
    obtain ⟨offset', hread⟩ := unsignedAt_toDigits false hfits hrest offset
    refine ⟨offset', ?_⟩
    unfold numberAt
    split
    · rename_i hminus
      rw [show Nat.toDigits 10 n ++ rest = '-' :: _ from hminus] at hread
      cases hread
    · exact hread
  | negSucc n =>
    have hbound : n + 1 ≤ 0x8000000000000000 := by have := hn.1; omega
    have hfits : n + 1 < UInt64.size := Nat.lt_of_le_of_lt hbound (by decide)
    have hvalue : wholeValue true (n + 1) = .integer (.negSucc n) := by
      simp only [wholeValue, if_true, if_pos (And.intro (Nat.succ_pos n) hbound)]
      rfl
    obtain ⟨offset', hread⟩ := unsignedAt_toDigits true hfits hrest (offset + 1)
    rw [hvalue] at hread
    exact ⟨offset', hread⟩

/-- a number starts with its sign or a digit, so that it is a scalar -/
theorem scalarAt_of_numberAt {cs : List Char} {offset : Nat} {r : Value × Cursor}
    (h : numberAt ⟨cs, offset⟩ = .ok r) : scalarAt ⟨cs, offset⟩ = .ok r := by
  cases cs with
  | nil => cases h
  | cons d ds =>
    by_cases hd : d = '-' ∨ d.isDigit
    · have hletter : d ≠ 'n' ∧ d ≠ 't' ∧ d ≠ 'f' ∧ d ≠ '"' := by
        refine ⟨?_, ?_, ?_, ?_⟩ <;> rintro rfl <;> revert hd <;> decide
      simpa [scalarAt, hletter, hd] using h
    · obtain ⟨hminus, hdigit⟩ := not_or.mp hd
      have hzero : d ≠ '0' := by rintro rfl; exact hdigit rfl
      simp [numberAt, unsignedAt, hminus, hzero, hdigit, Cursor.failNext] at h

theorem Reads.scalar {chars : List Char} {v : Value} (h : Reads numberAt chars v) :
    Reads scalarAt chars v := by
  intro rest offset hrest
  obtain ⟨offset', hread⟩ := h rest offset hrest
  exact ⟨offset', scalarAt_of_numberAt hread⟩

/-! ## Characters -/

/-- no space between the characters -/
def Unbroken (cs : List Char) : Prop := ∀ c ∈ cs, Cursor.isSpace c = false

instance (cs : List Char) : Decidable (Unbroken cs) :=
  List.decidableBAll (fun c => Cursor.isSpace c = false) cs

theorem Unbroken.append {a b : List Char} (ha : Unbroken a) (hb : Unbroken b) :
    Unbroken (a ++ b) := fun c hc => (List.mem_append.mp hc).elim (ha c) (hb c)

theorem Unbroken.cons {c : Char} (hc : Cursor.isSpace c = false) {cs : List Char}
    (h : Unbroken cs) : Unbroken (c :: cs) :=
  List.forall_mem_cons.mpr ⟨hc, h⟩

theorem Unbroken.sublist {a b : List Char} (hb : Unbroken b) (h : List.Sublist a b) : Unbroken a :=
  fun c hc => hb c (h.subset hc)

theorem isSpace_of_isDigit {c : Char} (h : c.isDigit) : Cursor.isSpace c = false := by
  simp only [Cursor.isSpace, Bool.or_eq_false_iff, beq_eq_false_iff_ne]
  refine ⟨⟨⟨?_, ?_⟩, ?_⟩, ?_⟩ <;> rintro rfl <;> revert h <;> decide

theorem unbroken_toDigits (n : Nat) : Unbroken (Nat.toDigits 10 n) := fun _ hc =>
  isSpace_of_isDigit (Nat.isDigit_of_mem_toDigits (by decide) (by decide) hc)

theorem unbroken_zeros (n : Nat) : Unbroken (List.replicate n '0') := fun _ hc =>
  (List.mem_replicate.mp hc).2 ▸ rfl

theorem unbroken_trimZeros {ds : List Char} (h : Unbroken ds) : Unbroken (Layout.trimZeros ds).1 :=
  fun c hc => h c (List.mem_reverse.mp
    ((List.dropWhile_sublist _).subset (List.mem_reverse.mp hc)))

theorem unbroken_positionalText {ds : List Char} (h : Unbroken ds) (pointZero : Bool)
    (point : Int) : Unbroken (Layout.positionalText pointZero ds point) := by
  unfold Layout.positionalText
  split
  · exact .cons rfl (.cons rfl ((unbroken_zeros _).append h))
  dsimp only
  split
  · apply (h.append (unbroken_zeros _)).append
    split
    · decide
    · nofun
  · exact Unbroken.append (h.sublist (List.take_sublist ..))
      (.cons rfl (h.sublist (List.drop_sublist ..)))

theorem unbroken_exponentText {ds : List Char} (h : Unbroken ds) (exponent : Int) :
    Unbroken (Layout.exponentText ds exponent) := by
  unfold Layout.exponentText
  refine Unbroken.append ?_ (.cons (by decide) (.cons (by split <;> rfl) (unbroken_toDigits _)))
  split
  · exact h
  · obtain ⟨hd, hrest⟩ := List.forall_mem_cons.mp h
    exact .cons hd (.cons rfl hrest)
  · nofun

theorem unbroken_layoutText (l : Layout) (x : Binary64) : Unbroken (l.text x).toList := by
  have hsign : Unbroken (if x.isNegative then ['-'] else []) := by split <;> decide
  have hds := unbroken_trimZeros (unbroken_toDigits (x.shortest l.tie).digits)
  unfold Layout.text
  dsimp only
  by_cases hzero : x.isZero
  · rw [if_pos hzero, String.toList_ofList]
    exact hsign.append (by split <;> decide)
  · rw [if_neg hzero, String.toList_ofList]
    apply hsign.append
    split
    · exact unbroken_positionalText hds _ _
    · exact unbroken_exponentText hds _

theorem unbroken_floatChars (x : Binary64) : Unbroken (floatChars x) := by
  unfold floatChars
  split
  · exact unbroken_layoutText _ x
  · decide

end RhythmLobby.Json
