import RhythmLobby.Proofs.Json.Numbers

/-!
# Values read back

The compact text of a value reads back as the value, if its whole numbers fit into 64 bits, its
floating point numbers read back and no more brackets are open at once than a reader allows.

* `Json.parse_eq_ok`      what it takes to read a whole text;
* `Json.ReadsBack`        a floating point number whose text is read as the same number;
* `Json.Legible`          a value whose text reads back;
* `Json.Legible.reads`    wherever the text stands;
* `Json.Legible.parse`    as a text of its own.
-/

namespace RhythmLobby.Json

/-! ## Whole texts -/

theorem finish_eq_ok {c : Cursor} {u : Unit} : finish c = .ok u ↔ c.skipSpace.rest = [] := by
  unfold finish
  dsimp only
  split
  · exact ⟨fun _ => List.isEmpty_iff.mp ‹_›, fun _ => rfl⟩
  · exact ⟨nofun, fun h => absurd (List.isEmpty_iff.mpr h) ‹_›⟩

/-- a text is accepted if the reader finds something that can be taken, and only space follows -/
theorem readText_eq_ok {reader : Cursor → Outcome α} {make : α → Except Fault β} {text : String}
    {y : β} :
    readText reader make text = .ok y ↔
      ∃ x c, reader (.start text.toList) = .ok (x, c) ∧ make x = .ok y ∧
        c.skipSpace.rest = [] := by
  unfold readText
  dsimp only
  constructor
  · intro h
    split at h
    · cases h
    rename_i x c hread
    split at h
    · cases h
    rename_i z hmake
    cases hend : finish c with
    | error m =>
      rw [hend] at h
      cases h
    | ok u =>
      rw [hend] at h
      cases h
      exact ⟨x, c, hread, hmake, finish_eq_ok.mp hend⟩
  · intro hexists
    obtain ⟨x, c, hread, hmake, hend⟩ := hexists
    have hfinish : finish c = .ok () := finish_eq_ok.mpr hend
    simp only [hread, hmake, hfinish]
    rfl

theorem parse_eq_ok {text : String} {v : Value} :
    parse text = .ok v ↔
      ∃ c, valueAt maxNesting (.start text.toList) = .ok (v, c) ∧ c.skipSpace.rest = [] := by
  rw [parse, readText_eq_ok]
  constructor
  · intro h
    obtain ⟨x, c, hread, ⟨⟩, hend⟩ := h
    exact ⟨c, hread, hend⟩
  · intro h
    obtain ⟨c, hread, hend⟩ := h
    exact ⟨v, c, hread, rfl, hend⟩

/-! ## Space -/

theorem skipSpace_cons {c : Char} (hc : Cursor.isSpace c = false) (cs : List Char)
    (offset : Nat) : Cursor.skipSpace ⟨c :: cs, offset⟩ = ⟨c :: cs, offset⟩ := by
  simp [Cursor.skipSpace, hc]

theorem skipSpace_unbroken {cs : List Char} (h : Unbroken cs) (offset : Nat) :
    Cursor.skipSpace ⟨cs, offset⟩ = ⟨cs, offset⟩ := by
  cases cs with
  | nil => rfl
  | cons c cs => exact skipSpace_cons (h c (List.mem_cons_self ..)) cs offset

/-! ## Scalars -/

theorem wordRest_eq_ok {v w : Value} {word : List Char} {c after : Cursor}
    (h : wordRest v word c = .ok (w, after)) : w = v := by
  induction word generalizing c with
  | nil => cases h; rfl
  | cons d ds ih =>
    unfold wordRest at h
    split at h
    · cases h
    split at h
    · exact ih h
    · cases h

theorem numberAt_of_scalarAt {c after : Cursor} {x : Binary64}
    (h : scalarAt c = .ok (.float x, after)) : numberAt c = .ok (.float x, after) := by
  unfold scalarAt at h
  split at h
  · cases h
  · cases wordRest_eq_ok h
  · cases wordRest_eq_ok h
  · cases wordRest_eq_ok h
  · obtain ⟨s, -, ⟨⟩⟩ := Outcome.as_eq_ok.mp h
  · split at h
    · exact h
    · cases h

/-- the characters that a scalar starts with -/
def leads (c : Char) : Bool := c.isDigit || c ∈ ['n', 't', 'f', '"', '-']

theorem ne_of_leads {c d : Char} (hc : leads c) (hd : leads d = false) : c ≠ d := by
  intro heq
  subst heq
  rw [hc] at hd
  cases hd

theorem isSpace_of_leads {c : Char} (h : leads c) : Cursor.isSpace c = false := by
  cases hspace : Cursor.isSpace c with
  | false => rfl
  | true =>
    simp only [Cursor.isSpace, Bool.or_eq_true, beq_iff_eq] at hspace
    rcases hspace with ((rfl | rfl) | rfl) | rfl <;> cases h

theorem scalarAt_leads {cs : List Char} {offset : Nat} {r : Value × Cursor}
    (h : scalarAt ⟨cs, offset⟩ = .ok r) : ∃ c rest, cs = c :: rest ∧ leads c := by
  cases cs with
  | nil => cases h
  | cons c rest =>
    refine ⟨c, rest, rfl, ?_⟩
    cases hc : leads c with
    | true => rfl
    | false =>
      simp only [leads, List.mem_cons, Bool.or_eq_false_iff, decide_eq_false_iff_not, not_or] at hc
      simp [scalarAt, hc, Cursor.failNext] at h

theorem valueAt_of_scalarAt {cs : List Char} {offset : Nat} {r : Value × Cursor}
    (h : scalarAt ⟨cs, offset⟩ = .ok r) (depth : Nat) : valueAt depth ⟨cs, offset⟩ = .ok r := by
  obtain ⟨c, rest, rfl, hc⟩ := scalarAt_leads h
  have hlist : c ≠ '[' := ne_of_leads hc rfl
  have hobject : c ≠ '{' := ne_of_leads hc rfl
  cases depth <;> simp [valueAt, skipSpace_cons (isSpace_of_leads hc), hlist, hobject, h]

theorem Reads.value {chars : List Char} {v : Value} (h : Reads scalarAt chars v) (depth : Nat) :
    Reads (valueAt depth) chars v := by
  intro rest offset hrest
  obtain ⟨offset', hread⟩ := h rest offset hrest
  exact ⟨offset', valueAt_of_scalarAt hread depth⟩

theorem reads_word (word : List Char) (v : Value) (rest : List Char) (offset : Nat) :
    ∃ offset', wordRest v word ⟨word ++ rest, offset⟩ = .ok (v, ⟨rest, offset'⟩) := by
  induction word generalizing offset with
  | nil => exact ⟨offset, rfl⟩
  | cons c cs ih =>
    obtain ⟨offset', hread⟩ := ih (offset + c.utf8Size)
    refine ⟨offset', ?_⟩
    show (if c = c then wordRest v cs _ else _) = _
    rw [if_pos rfl]
    exact hread

theorem reads_null : Reads scalarAt ['n', 'u', 'l', 'l'] .null :=
  fun rest offset _ => reads_word ['u', 'l', 'l'] .null rest (offset + 1)

theorem reads_bool (b : Bool) : Reads scalarAt (Value.bool b).chars (.bool b) := by
  intro rest offset _
  cases b with
  | true => exact reads_word ['r', 'u', 'e'] (.bool true) rest (offset + 1)
  | false => exact reads_word ['a', 'l', 's', 'e'] (.bool false) rest (offset + 1)

/-! ## Floating point numbers -/

/-- a number whose text is read as the same number -/
def ReadsBack (x : Binary64) : Prop := parse (Value.float x).text = .ok (.float x)

/-- whether a text was read as the number -/
def readAs (x : Binary64) : Except Malformed Value → Bool
  | .ok (.float y) => y = x
  | _ => false

theorem readAs_iff {x : Binary64} {r : Except Malformed Value} :
    readAs x r = true ↔ r = .ok (.float x) := by
  unfold readAs
  split
  · simp
  · rename_i hother
    exact ⟨nofun, fun h => absurd h (hother x)⟩

instance (x : Binary64) : Decidable (ReadsBack x) := decidable_of_iff _ readAs_iff

/-- a floating point number that is read is read as a scalar -/
theorem scalarAt_of_valueAt {depth : Nat} {cs : List Char} (hcs : Unbroken cs) {offset : Nat}
    {x : Binary64} {after : Cursor} (h : valueAt depth ⟨cs, offset⟩ = .ok (.float x, after)) :
    scalarAt ⟨cs, offset⟩ = .ok (.float x, after) := by
  cases depth with
  | zero =>
    simp only [valueAt, skipSpace_unbroken hcs] at h
    split at h
    · cases h
    · cases h
    · exact h
  | succ depth =>
    simp only [valueAt, skipSpace_unbroken hcs] at h
    split at h
    · obtain ⟨vs, -, ⟨⟩⟩ := Outcome.as_eq_ok.mp h
    · obtain ⟨ms, -, ⟨⟩⟩ := Outcome.as_eq_ok.mp h
    · exact h

/-- a number that reads back as a text of its own reads back wherever it stands -/
theorem reads_float {x : Binary64} (h : ReadsBack x) :
    Reads scalarAt (floatChars x) (.float x) := by
  obtain ⟨after, hread, hend⟩ := parse_eq_ok.mp h
  rw [Value.text, String.toList_ofList] at hread
  have hscalar := scalarAt_of_valueAt (unbroken_floatChars x) hread
  obtain ⟨-, taken, heq, hreads⟩ := numberAt_local _ _ _ (numberAt_of_scalarAt hscalar)
  replace heq : floatChars x = taken ++ after.rest := heq
  have hafter : Unbroken after.rest := fun d hd =>
    unbroken_floatChars x d (heq ▸ List.mem_append_right taken hd)
  rw [skipSpace_unbroken hafter] at hend
  rw [show after.rest = [] from hend, List.append_nil] at heq
  rw [heq]
  exact hreads.scalar

/-! ## Lists and objects -/

/-- a value whose text reads back, with at most `depth` brackets open at once -/
inductive Legible : Nat → Value → Prop
  | null {depth : Nat} : Legible depth .null
  | bool {depth : Nat} (b : Bool) : Legible depth (.bool b)
  | integer {depth : Nat} {n : Int} (h : InRange n) : Legible depth (.integer n)
  | float {depth : Nat} {x : Binary64} (h : ReadsBack x) : Legible depth (.float x)
  | string {depth : Nat} (s : String) : Legible depth (.string s)
  | array {depth : Nat} {vs : List Value} (h : ∀ v ∈ vs, Legible depth v) :
      Legible (depth + 1) (.array vs)
  | object {depth : Nat} {ms : List (String × Value)} (h : ∀ m ∈ ms, Legible depth m.2) :
      Legible (depth + 1) (.object ms)

/-- an element or a member comes next, neither space nor the end of the list or object -/
def Comes (cs : List Char) : Prop :=
  ∃ c rest, cs = c :: rest ∧ Cursor.isSpace c = false ∧ c ≠ ']' ∧ c ≠ '}'

theorem Comes.append {cs : List Char} (h : Comes cs) (more : List Char) : Comes (cs ++ more) := by
  obtain ⟨c, rest, rfl, hc⟩ := h
  exact ⟨c, rest ++ more, rfl, hc⟩

theorem Reads.comes {chars : List Char} {v : Value} (h : Reads scalarAt chars v) :
    Comes chars := by
  obtain ⟨offset', hread⟩ := h [] 0 closes_nil
  rw [List.append_nil] at hread
  obtain ⟨c, rest, rfl, hc⟩ := scalarAt_leads hread
  exact ⟨c, rest, rfl, isSpace_of_leads hc, ne_of_leads hc rfl, ne_of_leads hc rfl⟩

theorem Legible.comes {depth : Nat} {v : Value} (h : Legible depth v) : Comes v.chars := by
  cases h with
  | null => exact reads_null.comes
  | bool b => exact (reads_bool b).comes
  | integer h => exact (reads_integer h).scalar.comes
  | float h => exact (reads_float h).comes
  | string s => exact (reads_string s).comes
  | @array _ vs h => cases vs <;> exact ⟨'[', _, rfl, rfl, by decide, by decide⟩
  | @object _ ms h => cases ms <;> exact ⟨'{', _, rfl, rfl, by decide, by decide⟩

theorem Comes.skipSpace {cs : List Char} (h : Comes cs) (offset : Nat) :
    Cursor.skipSpace ⟨cs, offset⟩ = ⟨cs, offset⟩ := by
  obtain ⟨c, rest, rfl, hc, -⟩ := h
  exact skipSpace_cons hc rest offset

theorem itemsChars_length (vs : List Value) : vs.length < (itemsChars vs).length := by
  induction vs with
  | nil => simp [itemsChars]
  | cons v vs ih => simp [itemsChars]; omega

theorem membersChars_length (ms : List (String × Value)) :
    ms.length < (membersChars ms).length := by
  induction ms with
  | nil => simp [membersChars]
  | cons m ms ih => simp [membersChars]; omega

theorem closes_itemsChars (vs : List Value) (rest : List Char) :
    Closes (itemsChars vs ++ rest) := by
  cases vs <;> exact closes_cons rfl _

theorem closes_membersChars (ms : List (String × Value)) (rest : List Char) :
    Closes (membersChars ms ++ rest) := by
  cases ms <;> exact closes_cons rfl _

section Items

variable {item : Cursor → Outcome Value}

theorem moreItems_comma {cs : List Char} (h : Comes cs) (b : Char) (bound : List Char)
    (offset : Nat) :
    moreItems item (b :: bound) ⟨',' :: cs, offset⟩ =
      (item ⟨cs, offset + 1⟩).andThen fun x c => (moreItems item bound c).as (x :: ·) := by
  obtain ⟨c, rest, rfl, hspace, hlist, -⟩ := h
  have hcomma : Cursor.isSpace ',' = false := rfl
  simp only [moreItems, skipSpace_cons hcomma, Cursor.skip, List.drop_one, List.tail_cons,
    skipSpace_cons hspace]
  split
  · cases ‹_›
  · rename_i hend
    exact absurd (List.cons.inj hend).1 hlist
  · rfl

theorem itemsAt_comes {cs : List Char} (h : Comes cs) (offset : Nat) :
    itemsAt item ⟨cs, offset⟩ =
      (item ⟨cs, offset⟩).andThen fun x c => (moreItems item c.rest c).as (x :: ·) := by
  obtain ⟨c, rest, rfl, hspace, hlist, -⟩ := h
  simp only [itemsAt, skipSpace_cons hspace]
  split
  · cases ‹_›
  · rename_i hend
    exact absurd (List.cons.inj hend).1 hlist
  · rfl

/-- the elements behind the first one; the bound is no obstacle -/
theorem moreItems_itemsChars {vs : List Value}
    (hitems : ∀ v ∈ vs, Comes v.chars ∧ Reads item v.chars v) {bound : List Char}
    (hbound : vs.length < bound.length) (rest : List Char) (offset : Nat) :
    ∃ offset', moreItems item bound ⟨itemsChars vs ++ rest, offset⟩ =
      .ok (vs, ⟨rest, offset'⟩) := by
  induction vs generalizing bound offset with
  | nil =>
    cases bound with
    | nil => cases hbound
    | cons b bound => exact ⟨offset + 1, rfl⟩
  | cons v vs ih =>
    cases bound with
    | nil => cases hbound
    | cons b bound =>
      obtain ⟨hcomes, hreads⟩ := hitems v (List.mem_cons_self ..)
      obtain ⟨offset₁, hitem⟩ :=
        hreads (itemsChars vs ++ rest) (offset + 1) (closes_itemsChars vs rest)
      obtain ⟨offset₂, hmore⟩ := ih (fun w hw => hitems w (List.mem_cons_of_mem v hw))
        (Nat.lt_of_succ_lt_succ hbound) offset₁
      refine ⟨offset₂, ?_⟩
      rw [itemsChars, List.cons_append, List.cons_append, List.append_assoc,
        moreItems_comma (hcomes.append _), hitem, Outcome.andThen_ok, hmore]
      rfl

theorem reads_items {v : Value} {vs : List Value}
    (hitems : ∀ w ∈ v :: vs, Comes w.chars ∧ Reads item w.chars w) :
    Reads (itemsAt item) (v.chars ++ itemsChars vs) (v :: vs) := by
  intro rest offset _
  obtain ⟨hcomes, hreads⟩ := hitems v (List.mem_cons_self ..)
  obtain ⟨offset₁, hitem⟩ := hreads (itemsChars vs ++ rest) offset (closes_itemsChars vs rest)
  have hbound : vs.length < (itemsChars vs ++ rest).length := by
    have := itemsChars_length vs
    rw [List.length_append]
    omega
  obtain ⟨offset₂, hmore⟩ := moreItems_itemsChars
    (fun w hw => hitems w (List.mem_cons_of_mem v hw)) hbound rest offset₁
  refine ⟨offset₂, ?_⟩
  rw [List.append_assoc, itemsAt_comes (hcomes.append _), hitem, Outcome.andThen_ok, hmore]
  rfl

end Items

section Members

/-- a member of an object as it is read from a text -/
def memberOf (item : Cursor → Outcome Value) (_ : Unit) (c : Cursor) :
    Outcome ((String × Value) × Unit) :=
  (memberAt item c).as (·, ())

variable {item : Cursor → Outcome Value}

theorem colonAt_comes {cs : List Char} (h : Comes cs) (offset : Nat) :
    colonAt ⟨':' :: cs, offset⟩ = .ok ⟨cs, offset + 1⟩ := by
  have hcolon : Cursor.isSpace ':' = false := rfl
  simp only [colonAt, skipSpace_cons hcolon, Cursor.skip, List.drop_one, List.tail_cons]
  exact congrArg Except.ok (h.skipSpace (offset + 1))

theorem reads_member (name : String) {v : Value} (hcomes : Comes v.chars)
    (hreads : Reads item v.chars v) :
    Reads (memberOf item ()) (stringChars name ++ ':' :: v.chars) ((name, v), ()) := by
  intro rest offset hrest
  obtain ⟨offset₁, hname⟩ := reads_name name (':' :: (v.chars ++ rest)) offset (closes_cons rfl _)
  obtain ⟨offset₂, hitem⟩ := hreads rest (offset₁ + 1) hrest
  refine ⟨offset₂, ?_⟩
  rw [List.append_assoc, List.cons_append, memberOf, memberAt, hname, Outcome.andThen_ok,
    colonAt_comes (hcomes.append rest)]
  show ((item _).as _).as _ = _
  rw [hitem]
  rfl

variable {member : Unit → Cursor → Outcome ((String × Value) × Unit)}

theorem moreMembers_comma {cs : List Char} (h : Comes cs) (b : Char) (bound : List Char)
    (offset : Nat) :
    moreMembers member (b :: bound) () ⟨',' :: cs, offset⟩ =
      (member () ⟨cs, offset + 1⟩).andThen fun (x, s) c =>
        (moreMembers member bound s c).as (x :: ·) := by
  obtain ⟨c, rest, rfl, hspace, -, hobject⟩ := h
  have hcomma : Cursor.isSpace ',' = false := rfl
  simp only [moreMembers, skipSpace_cons hcomma, Cursor.skip, List.drop_one, List.tail_cons,
    skipSpace_cons hspace]
  split
  · cases ‹_›
  · rename_i hend
    exact absurd (List.cons.inj hend).1 hobject
  · rfl

theorem membersAt_comes {cs : List Char} (h : Comes cs) (offset : Nat) :
    membersAt member () ⟨cs, offset⟩ =
      (member () ⟨cs, offset⟩).andThen fun (x, s) c =>
        (moreMembers member c.rest s c).as (x :: ·) := by
  obtain ⟨c, rest, rfl, hspace, -, hobject⟩ := h
  simp only [membersAt, skipSpace_cons hspace]
  split
  · cases ‹_›
  · rename_i hend
    exact absurd (List.cons.inj hend).1 hobject
  · rfl

theorem comes_name (name : String) (rest : List Char) : Comes (stringChars name ++ rest) :=
  ⟨'"', _, rfl, rfl, by decide, by decide⟩

/-- the members behind the first one; the bound is no obstacle -/
theorem moreMembers_membersChars {ms : List (String × Value)}
    (hitems : ∀ m ∈ ms, Comes m.2.chars ∧ Reads item m.2.chars m.2) {bound : List Char}
    (hbound : ms.length < bound.length) (rest : List Char) (offset : Nat) :
    ∃ offset', moreMembers (memberOf item) bound () ⟨membersChars ms ++ rest, offset⟩ =
      .ok (ms, ⟨rest, offset'⟩) := by
  induction ms generalizing bound offset with
  | nil =>
    cases bound with
    | nil => cases hbound
    | cons b bound => exact ⟨offset + 1, rfl⟩
  | cons m ms ih =>
    cases bound with
    | nil => cases hbound
    | cons b bound =>
      obtain ⟨name, v⟩ := m
      obtain ⟨hcomes, hreads⟩ := hitems (name, v) (List.mem_cons_self ..)
      obtain ⟨offset₁, hmember⟩ := reads_member name hcomes hreads (membersChars ms ++ rest)
        (offset + 1) (closes_membersChars ms rest)
      obtain ⟨offset₂, hmore⟩ := ih (fun w hw => hitems w (List.mem_cons_of_mem _ hw))
        (Nat.lt_of_succ_lt_succ hbound) offset₁
      refine ⟨offset₂, ?_⟩
      have hchars : membersChars ((name, v) :: ms) ++ rest =
          ',' :: ((stringChars name ++ ':' :: v.chars) ++ (membersChars ms ++ rest)) := by
        simp [membersChars]
      have hcomes : Comes ((stringChars name ++ ':' :: v.chars) ++ (membersChars ms ++ rest)) :=
        (comes_name name _).append _
      rw [hchars, moreMembers_comma hcomes, hmember, Outcome.andThen_ok]
      dsimp only
      rw [hmore]
      rfl

theorem reads_members {name : String} {v : Value} {ms : List (String × Value)}
    (hitems : ∀ m ∈ (name, v) :: ms, Comes m.2.chars ∧ Reads item m.2.chars m.2) :
    Reads (membersAt (memberOf item) ()) (stringChars name ++ ':' :: v.chars ++ membersChars ms)
      ((name, v) :: ms) := by
  intro rest offset _
  obtain ⟨hcomes, hreads⟩ := hitems (name, v) (List.mem_cons_self ..)
  obtain ⟨offset₁, hmember⟩ := reads_member name hcomes hreads (membersChars ms ++ rest)
    offset (closes_membersChars ms rest)
  have hbound : ms.length < (membersChars ms ++ rest).length := by
    have := membersChars_length ms
    rw [List.length_append]
    omega
  obtain ⟨offset₂, hmore⟩ := moreMembers_membersChars
    (fun m hm => hitems m (List.mem_cons_of_mem _ hm)) hbound rest offset₁
  have hcomes : Comes ((stringChars name ++ ':' :: v.chars) ++ (membersChars ms ++ rest)) :=
    (comes_name name _).append _
  refine ⟨offset₂, ?_⟩
  rw [List.append_assoc, membersAt_comes hcomes, hmember, Outcome.andThen_ok]
  dsimp only
  rw [hmore]
  rfl

end Members

/-! ## Values -/

theorem valueAt_list {depth : Nat} (cs : List Char) (offset : Nat) :
    valueAt (depth + 1) ⟨'[' :: cs, offset⟩ =
      (itemsAt (valueAt depth) ⟨cs, offset + 1⟩).as .array := rfl

theorem valueAt_object {depth : Nat} (cs : List Char) (offset : Nat) :
    valueAt (depth + 1) ⟨'{' :: cs, offset⟩ =
      (membersAt (memberOf (valueAt depth)) () ⟨cs, offset + 1⟩).as .object := rfl

theorem Legible.reads {depth : Nat} {v : Value} (h : Legible depth v) :
    Reads (valueAt depth) v.chars v := by
  induction h with
  | null => exact reads_null.value _
  | bool b => exact (reads_bool b).value _
  | integer h => exact (reads_integer h).scalar.value _
  | float h => exact (reads_float h).value _
  | string s => exact (reads_string s).value _
  | @array depth vs h ih =>
    intro rest offset hrest
    cases vs with
    | nil => exact ⟨offset + 1 + 1, rfl⟩
    | cons v vs =>
      obtain ⟨offset', hitems⟩ := reads_items (fun w hw => ⟨(h w hw).comes, ih w hw⟩) rest
        (offset + 1) hrest
      refine ⟨offset', ?_⟩
      rw [Value.chars, List.cons_append, List.cons_append, valueAt_list, hitems]
      rfl
  | @object depth ms h ih =>
    intro rest offset hrest
    cases ms with
    | nil => exact ⟨offset + 1 + 1, rfl⟩
    | cons m ms =>
      obtain ⟨name, v⟩ := m
      obtain ⟨offset', hmembers⟩ := reads_members (fun m hm => ⟨(h m hm).comes, ih m hm⟩) rest
        (offset + 1) hrest
      refine ⟨offset', ?_⟩
      have hchars : (Value.object ((name, v) :: ms)).chars ++ rest =
          '{' :: (stringChars name ++ ':' :: v.chars ++ membersChars ms ++ rest) := by
        simp [Value.chars]
      rw [hchars, valueAt_object, hmembers]
      rfl

theorem Legible.parse {v : Value} (h : Legible maxNesting v) : Json.parse v.text = .ok v := by
  obtain ⟨offset', hread⟩ := h.reads [] 0 closes_nil
  rw [List.append_nil] at hread
  refine parse_eq_ok.mpr ⟨⟨[], offset'⟩, ?_, rfl⟩
  rw [Value.text, String.toList_ofList]
  exact hread

end RhythmLobby.Json
