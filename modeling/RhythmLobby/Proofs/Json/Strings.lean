import RhythmLobby.Json.Parser

/-!
# Strings read back

A reader reads a text back if it finds the value that was written, wherever the text stands, and
stops behind it.

* `Json.Closes`              what may follow a token, so that the token does not go on;
* `Json.Reads`               a reader reads a text back;
* `Json.charsToQuote_escape` an escaped character;
* `Json.reads_string`, `Json.reads_name`   whole strings.
-/

namespace RhythmLobby.Json

variable {α β : Type}

/-! ## What a reader found -/

theorem Outcome.andThen_eq_ok {r : Outcome α} {next : α → Cursor → Outcome β} {y : β × Cursor} :
    r.andThen next = .ok y ↔ ∃ x c, r = .ok (x, c) ∧ next x c = .ok y := by
  cases r with
  | error m => exact ⟨nofun, nofun⟩
  | ok r =>
    constructor
    · exact fun h => ⟨r.1, r.2, rfl, h⟩
    · intro hexists
      obtain ⟨x, c, ⟨⟩, h⟩ := hexists
      exact h

theorem Outcome.as_eq_ok {r : Outcome α} {f : α → β} {y : β} {c : Cursor} :
    r.as f = .ok (y, c) ↔ ∃ x, r = .ok (x, c) ∧ f x = y := by
  rw [Outcome.as, Outcome.andThen_eq_ok]
  constructor
  · intro hexists
    obtain ⟨x, c, h, ⟨⟩⟩ := hexists
    exact ⟨x, h, rfl⟩
  · intro hexists
    obtain ⟨x, h, rfl⟩ := hexists
    exact ⟨x, c, h, rfl⟩

/-! ## Readers that read back -/

/-- a number goes on with this character -/
def extendsNumber (c : Char) : Bool := c.isDigit || c == '.' || c == 'e' || c == 'E'

/-- no token before this text goes on in it -/
def Closes (rest : List Char) : Prop := ∀ c ∈ rest.head?, extendsNumber c = false

theorem closes_nil : Closes [] := nofun

theorem closes_cons {c : Char} (h : extendsNumber c = false) (rest : List Char) :
    Closes (c :: rest) := by
  intro d hd
  cases hd
  exact h

/-- Wherever these characters stand in a text, as long as no token goes on behind them, the reader
finds the value and stops behind them. -/
def Reads (read : Cursor → Outcome α) (chars : List Char) (x : α) : Prop :=
  ∀ rest offset, Closes rest →
    ∃ offset', read ⟨chars ++ rest, offset⟩ = .ok (x, ⟨rest, offset'⟩)

theorem Reads.as {read : Cursor → Outcome α} {chars : List Char} {x : α}
    (h : Reads read chars x) (f : α → β) : Reads (fun c => (read c).as f) chars (f x) := by
  intro rest offset hrest
  obtain ⟨offset', heq⟩ := h rest offset hrest
  refine ⟨offset', ?_⟩
  show (read ⟨chars ++ rest, offset⟩).as f = _
  rw [heq]
  rfl

/-! ## Escapes -/

theorem digitValue?_hexDigit : ∀ n, n < 16 → digitValue? (hexDigit n) = some n := by decide

/-- a control character written as four hexadecimal digits -/
theorem unicodeAt_control {n : Nat} (hn : n < 0x20) (rest : List Char) (offset : Nat) :
    unicodeAt ⟨'0' :: '0' :: hexDigit (n / 16) :: hexDigit (n % 16) :: rest, offset⟩ =
      .ok (Char.ofNat n, 4) := by
  have hunit : hexUnit ⟨'0' :: '0' :: hexDigit (n / 16) :: hexDigit (n % 16) :: rest, offset⟩ =
      .ok n := by
    have hzero : digitValue? '0' = some 0 := rfl
    have hhigh := digitValue?_hexDigit (n / 16) (by omega)
    have hlow := digitValue?_hexDigit (n % 16) (by omega)
    simp only [hexUnit, List.take_succ_cons, List.take_zero, List.mapM_cons, List.mapM_nil, hzero,
      hhigh, hlow, Option.pure_def, Option.bind_eq_bind, Option.bind_some]
    congr 1
    omega
  have hnoLow : isLowSurrogate n = false := by simp [isLowSurrogate]; omega
  have hnoHigh : isHighSurrogate n = false := by simp [isHighSurrogate]; omega
  simp [unicodeAt, hunit, hnoLow, hnoHigh, bind, Except.bind, pure, Except.pure]

theorem charsToQuote_skipped (skipped rest : List Char) (offset : Nat) :
    charsToQuote skipped.length offset (skipped ++ rest) =
      charsToQuote 0 (offset + byteLength skipped) rest := by
  induction skipped generalizing offset with
  | nil => rfl
  | cons c cs ih =>
    show charsToQuote cs.length (offset + c.utf8Size) (cs ++ rest) = _
    rw [ih, byteLength_cons, Nat.add_assoc]

/-- an escape that is read as a character, and the reading goes on behind the escape -/
theorem charsToQuote_backslash (written : List Char) {rest : List Char} {offset : Nat} {c : Char}
    (h : escapeAt ⟨written ++ rest, offset + 1⟩ = .ok (c, written.length)) :
    charsToQuote 0 offset ('\\' :: written ++ rest) =
      (charsToQuote 0 (offset + 1 + byteLength written) rest).as (c :: ·) := by
  have hslash : ('\\' : Char) ≠ '"' := by decide
  rw [List.cons_append, charsToQuote, if_neg hslash, if_pos rfl, h]
  show (charsToQuote written.length (offset + 1) (written ++ rest)).as _ = _
  rw [charsToQuote_skipped]

theorem charsToQuote_escape (c : Char) (rest : List Char) (offset : Nat) : ∃ offset',
    charsToQuote 0 offset (escape c ++ rest) =
      (charsToQuote 0 offset' rest).as (c :: ·) := by
  have short {e : Char} (h : shortEscape? e = some c) (_ : e ≠ 'u') :
      charsToQuote 0 offset (['\\', e] ++ rest) =
        (charsToQuote 0 (offset + 1 + byteLength [e]) rest).as (c :: ·) := by
    apply charsToQuote_backslash [e]
    simp [escapeAt, h]
  unfold escape
  split
  · exact ⟨_, short (by simp [*, shortEscape?]) (by decide)⟩
  split
  · exact ⟨_, short (by simp [*, shortEscape?]) (by decide)⟩
  split
  · exact ⟨_, short (by simp [*, shortEscape?]) (by decide)⟩
  split
  · exact ⟨_, short (by simp [*, shortEscape?]) (by decide)⟩
  split
  · exact ⟨_, short (by simp [*, shortEscape?]) (by decide)⟩
  split
  · exact ⟨_, short (by simp [*, shortEscape?]) (by decide)⟩
  split
  · exact ⟨_, short (by simp [*, shortEscape?]) (by decide)⟩
  split
  · rename_i hcontrol
    refine ⟨_, charsToQuote_backslash
      ['u', '0', '0', hexDigit (c.toNat / 16), hexDigit (c.toNat % 16)] ?_⟩
    have hunit := unicodeAt_control hcontrol rest
    rw [Char.ofNat_toNat] at hunit
    show (unicodeAt ⟨'0' :: '0' :: hexDigit (c.toNat / 16) :: hexDigit (c.toNat % 16) :: rest,
      _⟩).map _ = _
    rw [hunit]
    rfl
  · rename_i hquote hslash _ _ _ _ _ hplain
    refine ⟨offset + c.utf8Size, ?_⟩
    show charsToQuote 0 offset (c :: rest) = _
    rw [charsToQuote, if_neg hquote, if_neg hslash, if_neg hplain]

/-! ## Strings -/

theorem charsToQuote_flatMap (cs rest : List Char) (offset : Nat) : ∃ offset',
    charsToQuote 0 offset (cs.flatMap escape ++ '"' :: rest) = .ok (cs, ⟨rest, offset'⟩) := by
  induction cs generalizing offset with
  | nil => exact ⟨_, rfl⟩
  | cons c cs ih =>
    obtain ⟨offset₁, hescape⟩ :=
      charsToQuote_escape c (cs.flatMap escape ++ '"' :: rest) offset
    obtain ⟨offset₂, hrest⟩ := ih offset₁
    refine ⟨offset₂, ?_⟩
    rw [List.flatMap_cons, List.append_assoc, hescape, hrest]
    rfl

theorem stringBody_stringChars (s : String) (rest : List Char) (offset : Nat) : ∃ offset',
    stringBody ((Cursor.mk (stringChars s ++ rest) offset).skip 1) =
      .ok (s, ⟨rest, offset'⟩) := by
  have hchars : stringChars s ++ rest = '"' :: (s.toList.flatMap escape ++ '"' :: rest) := by
    simp [stringChars]
  obtain ⟨offset', heq⟩ := charsToQuote_flatMap s.toList rest (offset + 1)
  refine ⟨offset', ?_⟩
  rw [hchars]
  show (charsToQuote 0 (offset + 1) (s.toList.flatMap escape ++ '"' :: rest)).as _ = _
  rw [heq]
  show Except.ok (String.ofList s.toList, _) = _
  rw [String.ofList_toList]

theorem reads_name (s : String) : Reads nameAt (stringChars s) s :=
  fun rest offset _ => stringBody_stringChars s rest offset

theorem reads_string (s : String) : Reads scalarAt (stringChars s) (.string s) := by
  intro rest offset _
  obtain ⟨offset', heq⟩ := stringBody_stringChars s rest offset
  refine ⟨offset', ?_⟩
  show (stringBody ((Cursor.mk (stringChars s ++ rest) offset).skip 1)).as Value.string = _
  rw [heq]
  rfl

end RhythmLobby.Json
