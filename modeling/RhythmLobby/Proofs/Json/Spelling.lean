import RhythmLobby.Proofs.Json.Tagged
import RhythmLobby.Proofs.Json.Records

/-!
# Tokens that may be moved

A reader takes some characters from a text and leaves the rest.  Which value it finds depends on
the characters it takes and not on the place they stand at, nor on what follows, as long as no
token goes on there.

* `Json.Blank`             nothing but space;
* `Json.Portable`          a reader that finds the same value wherever the characters stand;
* `Json.portable_name`     names, whichever escapes they are written with;
* `Json.portable_scalar`   strings, numbers and words.
-/

namespace RhythmLobby.Json

variable {α : Type}

/-! ## Space -/

def Blank (cs : List Char) : Prop := ∀ c ∈ cs, Cursor.isSpace c

instance : DecidablePred Blank := List.decidableBAll fun c => Cursor.isSpace c

/-- no space comes next -/
def Unspaced (cs : List Char) : Prop := ∀ c ∈ cs.head?, Cursor.isSpace c = false

theorem blank_nil : Blank [] := nofun

theorem unspaced_nil : Unspaced [] := nofun

theorem unspaced_cons {c : Char} (h : Cursor.isSpace c = false) (cs : List Char) :
    Unspaced (c :: cs) := by
  intro d hd
  cases hd
  exact h

theorem Comes.unspaced {cs : List Char} (h : Comes cs) : Unspaced cs := by
  obtain ⟨c, rest, rfl, hc, -⟩ := h
  exact unspaced_cons hc rest

theorem Unspaced.skipSpace {cs : List Char} (h : Unspaced cs) (offset : Nat) :
    Cursor.skipSpace ⟨cs, offset⟩ = ⟨cs, offset⟩ := by
  cases cs with
  | nil => rfl
  | cons c cs => exact skipSpace_cons (h c rfl) cs offset

theorem Blank.closes {blank : List Char} (h : Blank blank) {rest : List Char}
    (hrest : Closes rest) : Closes (blank ++ rest) := by
  cases blank with
  | nil => exact hrest
  | cons c blank =>
    refine closes_cons ?_ _
    have hspace := h c (List.mem_cons_self ..)
    simp only [Cursor.isSpace, Bool.or_eq_true, beq_iff_eq] at hspace
    rcases hspace with ((rfl | rfl) | rfl) | rfl <;> rfl

theorem skipSpace_blank {blank : List Char} (h : Blank blank) {rest : List Char}
    (hrest : Unspaced rest) (offset : Nat) :
    Cursor.skipSpace ⟨blank ++ rest, offset⟩ = ⟨rest, offset + blank.length⟩ := by
  induction blank generalizing offset with
  | nil => exact hrest.skipSpace offset
  | cons c blank ih =>
    obtain ⟨hc, hblank⟩ := List.forall_mem_cons.mp h
    have hstep : Cursor.skipSpace ⟨c :: (blank ++ rest), offset⟩ =
        Cursor.skipSpace ⟨blank ++ rest, offset + 1⟩ := by
      simp only [Cursor.skipSpace, List.dropWhile_cons, List.takeWhile_cons, hc, if_true,
        List.length_cons]
      congr 1
      omega
    rw [List.cons_append, hstep, ih hblank, List.length_cons, Nat.add_assoc, Nat.add_comm 1]

theorem exists_blank (c : Cursor) : ∃ blank, Blank blank ∧ c.rest = blank ++ c.skipSpace.rest ∧
    Unspaced c.skipSpace.rest := by
  refine ⟨c.rest.takeWhile Cursor.isSpace, List.all_eq_true.mp List.all_takeWhile,
    List.takeWhile_append_dropWhile.symm, fun d hd => ?_⟩
  have := List.head?_dropWhile_not Cursor.isSpace c.rest
  rw [show (c.rest.dropWhile Cursor.isSpace).head? = some d from hd] at this
  simpa using this

/-! ## Readers -/

/-- From a place where no space comes next the reader takes some characters, and it finds the
same value wherever these stand. -/
def Portable (read : Cursor → Outcome α) : Prop :=
  ∀ c x after, Unspaced c.rest → read c = .ok (x, after) →
    ∃ taken, c.rest = taken ++ after.rest ∧ Comes taken ∧ Reads read taken x

theorem Reads.alone {read : Cursor → Outcome α} {chars : List Char} {x : α}
    (h : Reads read chars x) : ∃ offset, read ⟨chars, 0⟩ = .ok (x, ⟨[], offset⟩) := by
  obtain ⟨offset, hread⟩ := h [] 0 closes_nil
  rw [List.append_nil] at hread
  exact ⟨offset, hread⟩

/-! ## Escapes -/

theorem hexUnit_eq_ok {c : Cursor} {n : Nat} (h : hexUnit c = .ok n) :
    ∃ w x y z rest, c.rest = w :: x :: y :: z :: rest ∧
      ∀ rest offset, hexUnit ⟨w :: x :: y :: z :: rest, offset⟩ = .ok n := by
  unfold hexUnit at h
  split at h
  · rename_i hdigits
    match hrest : c.rest with
    | w :: x :: y :: z :: rest =>
      rw [hrest] at hdigits
      refine ⟨w, x, y, z, rest, rfl, fun rest offset => ?_⟩
      simp only [hexUnit, List.take_succ_cons, List.take_zero] at hdigits ⊢
      rw [hdigits]
      exact h
    | [] | [w] | [w, x] | [w, x, y] =>
      simp [hrest, Option.bind_eq_some_iff] at hdigits
  · dsimp only at h
    split at h <;> cases h

/-- the character and the length of an escape depend on the characters of the escape -/
theorem unicodeAt_eq_ok {c : Cursor} {ch : Char} {n : Nat} (h : unicodeAt c = .ok (ch, n)) :
    ∃ written rest, written.length = n ∧ c.rest = written ++ rest ∧
      ∀ rest offset, unicodeAt ⟨written ++ rest, offset⟩ = .ok (ch, n) := by
  obtain ⟨cs, offset⟩ := c
  obtain ⟨high, hhigh, h⟩ := bind_eq_ok.mp h
  obtain ⟨w, x, y, z, rest, rfl, hunit⟩ := hexUnit_eq_ok hhigh
  split at h
  · cases h
  rename_i hlow
  split at h
  · rename_i hsurrogate
    split at h
    · cases h
    · cases h
    · rename_i rest' hrest
      obtain rfl : rest = '\\' :: 'u' :: rest' := hrest
      obtain ⟨low, hlow', h⟩ := bind_eq_ok.mp h
      obtain ⟨w', x', y', z', rest'', hrest', hunit'⟩ := hexUnit_eq_ok hlow'
      obtain rfl : rest' = w' :: x' :: y' :: z' :: rest'' := hrest'
      split at h
      · rename_i hpair
        obtain ⟨hch, hn⟩ := Prod.mk.inj (Except.ok.inj h)
        refine ⟨[w, x, y, z, '\\', 'u', w', x', y', z'], rest'', hn, rfl, fun rest offset => ?_⟩
        refine bind_eq_ok.mpr ⟨high, hunit _ _, ?_⟩
        rw [if_neg hlow, if_pos hsurrogate]
        refine bind_eq_ok.mpr ⟨low, hunit' _ _, ?_⟩
        rw [if_pos hpair]
        exact h
      · cases h
    · cases h
    · cases h
  · rename_i hsurrogate
    obtain ⟨hch, hn⟩ := Prod.mk.inj (Except.ok.inj h)
    refine ⟨[w, x, y, z], rest, hn, rfl, fun rest offset => ?_⟩
    refine bind_eq_ok.mpr ⟨high, hunit _ _, ?_⟩
    rw [if_neg hlow, if_neg hsurrogate]
    exact h

theorem escapeAt_eq_ok {c : Cursor} {ch : Char} {n : Nat} (h : escapeAt c = .ok (ch, n)) :
    ∃ written rest, written.length = n ∧ c.rest = written ++ rest ∧
      ∀ rest offset, escapeAt ⟨written ++ rest, offset⟩ = .ok (ch, n) := by
  obtain ⟨cs, offset⟩ := c
  unfold escapeAt at h
  split at h
  · cases h
  · rename_i rest hrest
    obtain rfl : cs = 'u' :: rest := hrest
    cases hunicode : unicodeAt (Cursor.skip ⟨'u' :: rest, offset⟩ 1) with
    | error m =>
      rw [hunicode] at h
      cases h
    | ok r =>
      rw [hunicode] at h
      cases h
      obtain ⟨written, rest', hlength, hrest', hall⟩ := unicodeAt_eq_ok hunicode
      refine ⟨'u' :: written, rest', congrArg (· + 1) hlength, congrArg ('u' :: ·) hrest',
        fun rest offset => ?_⟩
      show (unicodeAt ⟨written ++ rest, _⟩).map _ = _
      rw [hall]
      rfl
  · rename_i e rest _ hrest
    obtain rfl : cs = e :: rest := hrest
    split at h
    · rename_i hshort
      cases h
      exact ⟨[e], rest, rfl, rfl, fun rest offset => by simp [escapeAt, hshort]⟩
    · cases h

/-! ## Strings -/

/-- The characters up to the closing quote are read wherever they stand.  An escape that reaches
into them ends before the quote. -/
theorem charsToQuote_eq_ok {skipped offset : Nat} {cs xs : List Char} {after : Cursor}
    (h : charsToQuote skipped offset cs = .ok (xs, after)) :
    ∃ taken, cs = taken ++ after.rest ∧ skipped < taken.length ∧ ∀ rest offset, ∃ offset',
      charsToQuote skipped offset (taken ++ rest) = .ok (xs, ⟨rest, offset'⟩) := by
  induction cs generalizing skipped offset xs with
  | nil => cases h
  | cons c cs ih =>
    cases skipped with
    | succ n =>
      obtain ⟨taken, rfl, hlength, hreads⟩ := ih h
      exact ⟨c :: taken, rfl, Nat.succ_lt_succ hlength, fun rest offset => hreads rest _⟩
    | zero =>
      rw [charsToQuote] at h
      split at h
      · rename_i hquote
        cases h
        refine ⟨[c], rfl, Nat.one_pos, fun rest offset => ⟨offset + 1, ?_⟩⟩
        rw [List.cons_append, charsToQuote, if_pos hquote]
        rfl
      rename_i hquote
      split at h
      · rename_i hslash
        split at h
        · cases h
        rename_i ch n hescape
        obtain ⟨xs, hchars, rfl⟩ := Outcome.as_eq_ok.mp h
        obtain ⟨taken, hcs, hlength, hreads⟩ := ih hchars
        obtain ⟨written, beyond, rfl, hwritten, hall⟩ := escapeAt_eq_ok hescape
        replace hwritten : cs = written ++ beyond := hwritten
        -- the quote comes behind the escape, so that all of the escape has been taken
        obtain ⟨more, rfl⟩ : written <+: taken := List.prefix_of_prefix_length_le
          (hwritten ▸ List.prefix_append ..) (hcs ▸ List.prefix_append ..)
          (Nat.le_of_lt hlength)
        refine ⟨c :: (written ++ more), congrArg (c :: ·) hcs, Nat.succ_pos _,
          fun rest offset => ?_⟩
        obtain ⟨offset', hread⟩ := hreads rest (offset + 1)
        refine ⟨offset', ?_⟩
        rw [List.append_assoc] at hread
        rw [List.cons_append, List.append_assoc, charsToQuote, if_neg hquote, if_pos hslash, hall]
        dsimp only
        rw [hread]
        rfl
      rename_i hslash
      split at h
      · cases h
      · rename_i hplain
        obtain ⟨xs, hchars, rfl⟩ := Outcome.as_eq_ok.mp h
        obtain ⟨taken, rfl, hlength, hreads⟩ := ih hchars
        refine ⟨c :: taken, rfl, Nat.succ_pos _, fun rest offset => ?_⟩
        obtain ⟨offset', hread⟩ := hreads rest (offset + c.utf8Size)
        refine ⟨offset', ?_⟩
        rw [List.cons_append, charsToQuote, if_neg hquote, if_neg hslash, if_neg hplain, hread]
        rfl

theorem portable_name : Portable nameAt := by
  intro c s after _ h
  obtain ⟨cs, offset⟩ := c
  unfold nameAt at h
  split at h
  · rename_i rest hrest
    obtain rfl : cs = '"' :: rest := hrest
    obtain ⟨xs, hchars, rfl⟩ := Outcome.as_eq_ok.mp h
    obtain ⟨taken, heq, -, hreads⟩ := charsToQuote_eq_ok hchars
    refine ⟨'"' :: taken, congrArg ('"' :: ·) heq, ⟨'"', taken, rfl, rfl, by decide, by decide⟩,
      fun rest offset _ => ?_⟩
    obtain ⟨offset', hread⟩ := hreads rest (offset + 1)
    exact ⟨offset', Outcome.as_eq_ok.mpr ⟨xs, hread, rfl⟩⟩
  · cases h

/-! ## Scalars -/

theorem wordRest_taken {v w : Value} {word : List Char} {c after : Cursor}
    (h : wordRest v word c = .ok (w, after)) : c.rest = word ++ after.rest := by
  induction word generalizing c with
  | nil => cases h; rfl
  | cons d ds ih =>
    unfold wordRest at h
    split at h
    · cases h
    rename_i e rest hrest
    split at h
    · rename_i he
      have hds : rest = ds ++ after.rest := by simpa [Cursor.skip, hrest] using ih h
      rw [hrest, he, hds, List.cons_append]
    · cases h

theorem scalarAt_cases {c after : Cursor} {v : Value} (h : scalarAt c = .ok (v, after)) :
    (v = .null ∨ ∃ b, v = .bool b) ∧ c.rest = v.chars ++ after.rest ∨
      (∃ s, v = .string s ∧ nameAt c = .ok (s, after)) ∨
      IsNumber v ∧ numberAt c = .ok (v, after) := by
  have hword {w : Char} {word rest : List Char} {u : Value} (hc : c.rest = w :: rest)
      (hrest : wordRest u word (c.skip 1) = .ok (v, after)) :
      c.rest = w :: word ++ after.rest := by
    have htaken := wordRest_taken hrest
    rw [Cursor.skip, hc] at htaken
    rw [hc, List.cons_append]
    exact congrArg (w :: ·) htaken
  unfold scalarAt at h
  split at h
  · cases h
  · obtain rfl := wordRest_eq_ok h
    exact .inl ⟨.inl rfl, hword ‹_› h⟩
  · obtain rfl := wordRest_eq_ok h
    exact .inl ⟨.inr ⟨true, rfl⟩, hword ‹_› h⟩
  · obtain rfl := wordRest_eq_ok h
    exact .inl ⟨.inr ⟨false, rfl⟩, hword ‹_› h⟩
  · obtain ⟨s, hs, rfl⟩ := Outcome.as_eq_ok.mp h
    refine .inr (.inl ⟨s, rfl, ?_⟩)
    simp only [nameAt, ‹c.rest = _›]
    exact hs
  · split at h
    · exact .inr (.inr ⟨(numberAt_local _ _ _ h).1, h⟩)
    · cases h

theorem scalarAt_string {c after : Cursor} {s : String} :
    scalarAt c = .ok (.string s, after) ↔ nameAt c = .ok (s, after) := by
  constructor
  · intro h
    obtain ⟨⟨⟨⟩⟩ | ⟨b, ⟨⟩⟩, -⟩ | ⟨s', ⟨⟩, hname⟩ | ⟨⟨⟩, -⟩ := scalarAt_cases h
    exact hname
  · intro h
    unfold nameAt at h
    split at h
    · simp only [scalarAt, ‹c.rest = _›]
      exact Outcome.as_eq_ok.mpr ⟨s, h, rfl⟩
    · cases h

theorem Reads.name {chars : List Char} {s : String} (h : Reads scalarAt chars (.string s)) :
    Reads nameAt chars s := fun rest offset hrest =>
  (h rest offset hrest).imp fun _ => scalarAt_string.mp

theorem Reads.string {chars : List Char} {s : String} (h : Reads nameAt chars s) :
    Reads scalarAt chars (.string s) := fun rest offset hrest =>
  (h rest offset hrest).imp fun _ => scalarAt_string.mpr

theorem portable_scalar : Portable scalarAt := by
  intro c v after hspace h
  have htaken : ∃ taken, c.rest = taken ++ after.rest ∧ Reads scalarAt taken v := by
    obtain ⟨rfl | ⟨b, rfl⟩, hrest⟩ | ⟨s, rfl, hname⟩ | ⟨-, hnumber⟩ := scalarAt_cases h
    · exact ⟨_, hrest, reads_null⟩
    · exact ⟨_, hrest, reads_bool b⟩
    · obtain ⟨taken, hrest, -, hreads⟩ := portable_name c s after hspace hname
      exact ⟨taken, hrest, hreads.string⟩
    · obtain ⟨-, taken, hrest, hreads⟩ := numberAt_local c v after hnumber
      exact ⟨taken, hrest, hreads.scalar⟩
  obtain ⟨taken, hrest, hreads⟩ := htaken
  exact ⟨taken, hrest, hreads.comes, hreads⟩

end RhythmLobby.Json
