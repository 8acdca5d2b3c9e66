import RhythmLobby.Proofs.Json.Listing

/-!
# Objects as their members' texts

The text of an object is put together from a text for each member, and each of these is the text
of a name and the text of a value with a colon between them.  Any texts of this kind make an
object, with the members in the order of the texts, if no value is nested too deep.

* `Json.Value.nesting`        how many brackets and braces are open at once;
* `Json.Reads.atDepth`        a reader of another depth finds the same value;
* `Json.MemberText`           the text of a member;
* `Json.objectText`           the text of an object;
* `Json.parse_objectText`     it is read as the object;
* `Json.exists_memberTexts`   every object that is read has such a text.
-/

namespace RhythmLobby.Json

variable {α : Type}

/-! ## Nesting -/

mutual

/-- how many brackets and braces are open at once in the text of a value -/
def Value.nesting : Value → Nat
  | .array vs => itemsNesting vs + 1
  | .object ms => membersNesting ms + 1
  | _ => 0

def itemsNesting : List Value → Nat
  | [] => 0
  | v :: vs => max v.nesting (itemsNesting vs)

def membersNesting : List (String × Value) → Nat
  | [] => 0
  | (_, v) :: ms => max v.nesting (membersNesting ms)

end

theorem itemsNesting_le {vs : List Value} {n : Nat} :
    itemsNesting vs ≤ n ↔ ∀ v ∈ vs, v.nesting ≤ n := by
  induction vs with
  | nil => simp [itemsNesting]
  | cons v vs ih => rw [itemsNesting, Nat.max_le, ih, List.forall_mem_cons]

theorem membersNesting_le {ms : List (String × Value)} {n : Nat} :
    membersNesting ms ≤ n ↔ ∀ m ∈ ms, m.2.nesting ≤ n := by
  induction ms with
  | nil => simp [membersNesting]
  | cons m ms ih => rw [membersNesting, Nat.max_le, ih, List.forall_mem_cons]

theorem Reads.nesting_scalar {chars : List Char} {v : Value} (h : Reads scalarAt chars v) :
    v.nesting = 0 := by
  obtain ⟨offset, hread⟩ := h.alone
  obtain ⟨rfl | ⟨b, rfl⟩, -⟩ | ⟨s, rfl, -⟩ | ⟨hnumber, -⟩ := scalarAt_cases hread
  · rfl
  · rfl
  · rfl
  · cases hnumber <;> rfl

theorem Reads.spells {depth : Nat} {chars : List Char} {v : Value} (hcomes : Comes chars)
    (h : Reads (valueAt depth) chars v) : Spells depth chars v := by
  obtain ⟨offset, hread⟩ := h.alone
  obtain ⟨chars', heq, hv⟩ :=
    valueAt_spells (fun d _ => portable_value d) hcomes.unspaced hread
  rw [List.append_nil] at heq
  obtain rfl : chars = chars' := heq
  exact hv

theorem Reads.nesting_le {depth : Nat} {chars : List Char} {v : Value} (hcomes : Comes chars)
    (h : Reads (valueAt depth) chars v) : v.nesting ≤ depth := by
  induction depth generalizing chars v with
  | zero =>
    cases h.spells hcomes with
    | scalar h => exact Nat.le_of_eq h.nesting_scalar
  | succ depth ih =>
    cases h.spells hcomes with
    | scalar h => exact h.nesting_scalar ▸ Nat.zero_le _
    | list hall =>
      refine Nat.succ_le_succ (itemsNesting_le.mpr fun v hv => ?_)
      obtain ⟨chars, hcomes, hreads⟩ := hall.found v hv
      exact ih hcomes hreads
    | object hall =>
      refine Nat.succ_le_succ (membersNesting_le.mpr fun m hm => ?_)
      obtain ⟨chars, hcomes, hreads⟩ := hall.found m hm
      obtain ⟨-, -, -, -, hvalue, hv⟩ := hreads.spellsMember (portable_value depth) hcomes
      exact ih hvalue hv

theorem Spells.atDepth {depth depth' : Nat} {chars : List Char} {v : Value}
    (h : Spells depth chars v) (hdepth : v.nesting ≤ depth') : Spells depth' chars v := by
  have hportable (d bound : Nat) (_ : d < bound) : Portable (valueAt d) := portable_value d
  -- on the depth and not on the value: the elements are read by a reader of one depth less
  induction depth generalizing depth' chars v with
  | zero =>
    cases h with
    | scalar h => exact .scalar h
  | succ depth ih =>
    have hinner {depth' : Nat} {chars : List Char} {v : Value} (hcomes : Comes chars)
        (hv : Reads (valueAt depth) chars v) (hdepth : v.nesting ≤ depth') :
        Reads (valueAt depth') chars v :=
      (ih (hv.spells hcomes) hdepth).reads (hportable · _)
    cases h with
    | scalar h => exact .scalar h
    | list hall =>
      cases depth' with
      | zero => cases hdepth
      | succ depth' =>
        have hnesting := itemsNesting_le.mp (Nat.le_of_succ_le_succ hdepth)
        exact .list (hall.imp fun v hv chars hcomes hreads => hinner hcomes hreads (hnesting v hv))
    | object hall =>
      cases depth' with
      | zero => cases hdepth
      | succ depth' =>
        have hnesting := membersNesting_le.mp (Nat.le_of_succ_le_succ hdepth)
        refine .object (hall.imp fun m hm chars hcomes hreads => ?_)
        obtain ⟨hname, hk, hbefore, hbehind, hvalue, hv⟩ :=
          hreads.spellsMember (portable_value depth) hcomes
        exact SpellsMember.reads
          (.mk hname hk hbefore hbehind hvalue (hinner hvalue hv (hnesting _ hm)))

theorem Reads.atDepth {depth depth' : Nat} {chars : List Char} {v : Value} (hcomes : Comes chars)
    (h : Reads (valueAt depth) chars v) (hdepth : v.nesting ≤ depth') :
    Reads (valueAt depth') chars v :=
  ((h.spells hcomes).atDepth hdepth).reads fun d _ => portable_value d

/-! ## Whole texts -/

theorem valueAt_skipSpace (depth : Nat) (c : Cursor) :
    valueAt depth c.skipSpace = valueAt depth c := by
  cases depth <;> simp only [valueAt, skipSpace_skipSpace]

/-- a whole text is what the reader takes and space around it -/
theorem parse_iff_padded {text : String} {v : Value} :
    parse text = .ok v ↔ Padded (valueAt maxNesting) text.toList v := by
  rw [parse_eq_ok]
  constructor
  · intro h
    obtain ⟨after, hread, hend⟩ := h
    obtain ⟨before, hbefore, heq, hspace⟩ := exists_blank (.start text.toList)
    obtain ⟨behind, hbehind, heq', -⟩ := exists_blank after
    rw [← valueAt_skipSpace] at hread
    obtain ⟨taken, htaken, hcomes, hreads⟩ := portable_value _ _ _ _ hspace hread
    refine ⟨before, taken, behind, ?_, hbefore, hbehind, hcomes, hreads⟩
    rw [hend, List.append_nil] at heq'
    rw [← heq', ← htaken]
    exact heq
  · intro h
    obtain ⟨before, chars, behind, heq, hbefore, hbehind, hcomes, hreads⟩ := h
    have hskip := skipSpace_blank hbefore (hcomes.append behind).unspaced 0
    have hcloses := hbehind.closes closes_nil
    rw [List.append_nil] at hcloses
    obtain ⟨offset, hread⟩ := hreads behind (0 + before.length) hcloses
    refine ⟨⟨behind, offset⟩, ?_, ?_⟩
    · rw [← valueAt_skipSpace, Cursor.start, heq, hskip]
      exact hread
    · have hend := skipSpace_blank hbehind unspaced_nil offset
      rw [List.append_nil] at hend
      rw [hend]

/-! ## Members and objects -/

/-- the text of a member of an object: the text of its name, a colon and the text of its value,
which is not nested too deep to stand in an object -/
def MemberText (text : String) (m : String × Value) : Prop :=
  ∃ name value, text = name ++ ":" ++ value ∧ parse name = .ok (.string m.1) ∧
    parse value = .ok m.2 ∧ m.2.nesting < maxNesting

/-- the text of an object made of the texts of its members -/
def objectText (texts : List String) : String := "\x7b" ++ ",".intercalate texts ++ "\x7d"

theorem memberText_iff_padded {text : String} {m : String × Value} :
    MemberText text m ↔ Padded (memberAt (valueAt memberNesting)) text.toList m := by
  constructor
  · intro h
    obtain ⟨name, value, rfl, hname, hvalue, hnesting⟩ := h
    obtain ⟨before, chars, behind, heq, hbefore, hbehind, hcomes, hreads⟩ :=
      parse_iff_padded.mp hname
    obtain ⟨before', chars', behind', heq', hbefore', hbehind', hcomes', hreads'⟩ :=
      parse_iff_padded.mp hvalue
    cases hreads.spells hcomes with
    | scalar hscalar =>
      have hmember := SpellsMember.mk hcomes hscalar.name hbehind hbefore' hcomes'
        (hreads'.atDepth hcomes' (Nat.le_of_lt_succ hnesting))
      refine ⟨before, _, behind', ?_, hbefore, hbehind', hmember.comes, hmember.reads⟩
      have hcolon : ":".toList = [':'] := rfl
      rw [String.toList_append, String.toList_append, heq, heq', hcolon]
      simp only [List.append_assoc, List.cons_append, List.nil_append]
  · intro h
    obtain ⟨before, chars, behind, heq, hbefore, hbehind, hcomes, hreads⟩ := h
    obtain ⟨hname, hk, hbefore', hbehind', hvalue, hv⟩ :=
      hreads.spellsMember (portable_value _) hcomes
    rename_i name before' behind' value k v
    have hnesting := hv.nesting_le hvalue
    refine ⟨.ofList (before ++ (name ++ before')), .ofList (behind' ++ (value ++ behind)), ?_,
      parse_iff_padded.mpr ?_, parse_iff_padded.mpr ?_, Nat.lt_succ_of_le hnesting⟩
    · rw [← String.toList_inj, heq]
      simp only [String.toList_append, String.toList_ofList, List.append_assoc, List.cons_append]
      rfl
    · rw [String.toList_ofList]
      exact ⟨before, name, before', rfl, hbefore, hbefore', hname, hk.string.value _⟩
    · rw [String.toList_ofList]
      exact ⟨behind', value, behind, rfl, hbehind', hbehind, hvalue,
        hv.atDepth hvalue (Nat.le_succ_of_le hnesting)⟩

theorem intercalate_comma (text : List Char) (texts : List (List Char)) :
    [','].intercalate (text :: texts) = text ++ texts.flatMap (',' :: ·) := by
  induction texts generalizing text with
  | nil => simp
  | cons next texts ih =>
    rw [List.intercalate_cons_cons, ih, List.flatMap_cons]
    simp only [List.append_assoc, List.cons_append, List.nil_append]

theorem Enumerates.of_texts {read : Cursor → Outcome α} {texts : List (List Char)} {xs : List α}
    (h : List.Forall₂ (Padded read) texts xs) : Enumerates read ([','].intercalate texts) xs := by
  cases h with
  | nil => exact .none blank_nil
  | cons hx hxs =>
    rw [intercalate_comma]
    exact .some hx hxs

theorem Enumerates.exists_texts {read : Cursor → Outcome α} {inside : List Char} {xs : List α}
    (h : Enumerates read inside xs) (hne : xs ≠ []) :
    ∃ texts, inside = [','].intercalate texts ∧ List.Forall₂ (Padded read) texts xs := by
  cases h with
  | none hblank => exact absurd rfl hne
  | @some text texts x xs hx hxs =>
    exact ⟨text :: texts, (intercalate_comma _ _).symm, .cons hx hxs⟩

theorem toList_objectText (texts : List String) :
    (objectText texts).toList =
      '{' :: ([','].intercalate (texts.map String.toList) ++ ['}']) := by
  simp [objectText]

theorem forall₂_memberText {texts : List String} {ms : List (String × Value)} :
    List.Forall₂ MemberText texts ms ↔
      List.Forall₂ (Padded (memberAt (valueAt memberNesting))) (texts.map String.toList) ms := by
  rw [List.forall₂_map_left_iff]
  exact ⟨.imp fun _ _ => memberText_iff_padded.mp, .imp fun _ _ => memberText_iff_padded.mpr⟩

/-- texts of members make the text of an object, whatever space stands around it -/
theorem parse_objectText {texts : List String} {ms : List (String × Value)}
    (h : List.Forall₂ MemberText texts ms) {before after : String} (hbefore : Blank before.toList)
    (hafter : Blank after.toList) :
    parse (before ++ objectText texts ++ after) = .ok (.object ms) := by
  have hobject : Spells (memberNesting + 1) (objectText texts).toList (.object ms) := by
    rw [toList_objectText]
    exact .object (.of_texts (forall₂_memberText.mp h))
  refine parse_iff_padded.mpr ⟨before.toList, _, after.toList, ?_, hbefore, hafter, hobject.comes,
    hobject.reads fun d _ => portable_value d⟩
  rw [String.toList_append, String.toList_append, List.append_assoc]

theorem exists_memberTexts {text : String} {ms : List (String × Value)}
    (h : parse text = .ok (.object ms)) (hne : ms ≠ []) :
    ∃ before texts after, text = before ++ objectText texts ++ after ∧ Blank before.toList ∧
      Blank after.toList ∧ List.Forall₂ MemberText texts ms := by
  obtain ⟨before, chars, after, heq, hbefore, hafter, hcomes, hreads⟩ := parse_iff_padded.mp h
  have hobject : Spells (memberNesting + 1) chars (.object ms) := hreads.spells hcomes
  cases hobject with
  | scalar hscalar =>
    obtain ⟨offset, hread⟩ := hscalar.alone
    obtain ⟨⟨⟨⟩⟩ | ⟨b, ⟨⟩⟩, -⟩ | ⟨s, ⟨⟩, -⟩ | ⟨⟨⟩, -⟩ := scalarAt_cases hread
  | object hall =>
    obtain ⟨texts, rfl, htexts⟩ := hall.exists_texts hne
    have hmap : (texts.map String.ofList).map String.toList = texts := by
      simp [Function.comp_def, String.toList_ofList]
    refine ⟨.ofList before, texts.map .ofList, .ofList after, ?_, ?_, ?_, ?_⟩
    · rw [← String.toList_inj, heq, String.toList_append, String.toList_append, toList_objectText,
        hmap, String.toList_ofList, String.toList_ofList, List.append_assoc]
    · rwa [String.toList_ofList]
    · rwa [String.toList_ofList]
    · rw [forall₂_memberText, hmap]
      exact htexts

end RhythmLobby.Json
