import RhythmLobby.Proofs.Json.Values
import RhythmLobby.Json.Tagged

/-!
# Which texts are tagged records

A tagged record checks its kind while the text is still being read.  What it accepts is
nevertheless a matter of the value alone that the text writes: the text is JSON, the value names
a known kind, and the rest of it makes a record of that kind.

* `Json.Tagged`              the kind that a value names, and the rest of it;
* `Json.kindAt_eq_ok`        a kind is a string that is known;
* `Json.partAt_eq_ok`        a member of a tagged record against a member of an object;
* `Json.readTagged_eq_ok`    the texts that are accepted.
-/

namespace RhythmLobby.Json

/-- the kind that a value names, and the value that is left without it -/
inductive Tagged (tag : String) : Value → String → Value → Prop
  | object {before after : List (String × Value)} (kind : String)
      (hbefore : ∀ m ∈ before, m.1 ≠ tag) (hafter : ∀ m ∈ after, m.1 ≠ tag) :
      Tagged tag (.object (before ++ (tag, .string kind) :: after)) kind (.object (before ++ after))
  | array (kind : String) (items : List Value) :
      Tagged tag (.array (.string kind :: items)) kind (.array items)

theorem filter_tag {tag : String} {before after : List (String × Value)} {v : Value}
    (hbefore : ∀ m ∈ before, m.1 ≠ tag) (hafter : ∀ m ∈ after, m.1 ≠ tag) :
    (before ++ (tag, v) :: after).filter (·.1 == tag) = [(tag, v)] := by
  have hnone {ms : List (String × Value)} (h : ∀ m ∈ ms, m.1 ≠ tag) :
      ms.filter (·.1 == tag) = [] :=
    List.filter_eq_nil_iff.mpr fun m hm => by simpa using h m hm
  rw [List.filter_append, List.filter_cons_of_pos (by simp), hnone hbefore, hnone hafter]
  rfl

/-! ## Kinds -/

/-- a value without space in front of it is a scalar unless it opens a list or an object -/
theorem valueAt_scalar {c : Cursor} (hskip : c.skipSpace = c)
    (hlist : ∀ rest, c.rest ≠ '[' :: rest) (hobject : ∀ rest, c.rest ≠ '{' :: rest)
    (depth : Nat) : valueAt depth c = scalarAt c := by
  cases depth <;> simp only [valueAt, hskip]

theorem valueAt_list_ne_string {depth : Nat} {c : Cursor} (hskip : c.skipSpace = c)
    {rest : List Char} (hc : c.rest = '[' :: rest) {s : String} {after : Cursor} :
    valueAt depth c ≠ .ok (.string s, after) := by
  intro h
  cases depth with
  | zero =>
    simp only [valueAt, hskip, hc] at h
    cases h
  | succ depth =>
    simp only [valueAt, hskip, hc] at h
    obtain ⟨vs, -, ⟨⟩⟩ := Outcome.as_eq_ok.mp h

theorem valueAt_object_ne_string {depth : Nat} {c : Cursor} (hskip : c.skipSpace = c)
    {rest : List Char} (hc : c.rest = '{' :: rest) {s : String} {after : Cursor} :
    valueAt depth c ≠ .ok (.string s, after) := by
  intro h
  cases depth with
  | zero =>
    simp only [valueAt, hskip, hc] at h
    cases h
  | succ depth =>
    simp only [valueAt, hskip, hc] at h
    obtain ⟨ms, -, ⟨⟩⟩ := Outcome.as_eq_ok.mp h

theorem kindAt_eq_ok {kinds : List String} {c : Cursor} (hskip : c.skipSpace = c) (depth : Nat)
    {kind : String} {after : Cursor} :
    kindAt kinds c = .ok (kind, after) ↔
      valueAt depth c = .ok (.string kind, after) ∧ kind ∈ kinds := by
  unfold kindAt
  split
  · rename_i hc
    exact ⟨nofun, fun h => absurd h.1 (valueAt_list_ne_string hskip hc)⟩
  · rename_i hc
    exact ⟨nofun, fun h => absurd h.1 (valueAt_object_ne_string hskip hc)⟩
  · rename_i hlist hobject
    rw [valueAt_scalar hskip hlist hobject, Outcome.andThen_eq_ok]
    constructor
    · intro hexists
      obtain ⟨v, c', hread, h⟩ := hexists
      split at h
      · split at h
        · cases h
          exact ⟨hread, ‹_›⟩
        · cases h
      · cases h
    · intro hboth
      obtain ⟨hread, hkind⟩ := hboth
      exact ⟨_, _, hread, by simp [hkind]⟩

/-! ## Members -/

theorem skipSpace_skipSpace (c : Cursor) : c.skipSpace.skipSpace = c.skipSpace := by
  have hstop : ∀ d ∈ (c.rest.dropWhile Cursor.isSpace).head?, Cursor.isSpace d = false := by
    intro d hd
    have := List.head?_dropWhile_not Cursor.isSpace c.rest
    rw [Option.mem_def.mp hd] at this
    simpa using this
  show Cursor.skipSpace ⟨c.rest.dropWhile Cursor.isSpace, _⟩ = ⟨_, _⟩
  cases hrest : c.rest.dropWhile Cursor.isSpace with
  | nil => rfl
  | cons d ds => exact skipSpace_cons (hstop d (by rw [hrest]; rfl)) ds _

theorem skipSpace_of_colonAt {c after : Cursor} (h : colonAt c = .ok after) :
    after.skipSpace = after := by
  unfold colonAt at h
  dsimp only at h
  split at h
  · cases h
  · cases h
    exact skipSpace_skipSpace _
  · cases h

/-- what becomes of a member of an object when its record is read; the flag says whether the
kind has been read before it, and behind it -/
inductive PartOf (t : Tagging) : Bool → String × Value → Part → Bool → Prop
  | kind {kind : String} (h : kind ∈ t.kinds) :
      PartOf t false (t.tag, .string kind) (.kind kind) true
  | other {seen : Bool} {name : String} (h : name ≠ t.tag) (v : Value) :
      PartOf t seen (name, v) (.other name v) seen

theorem partAt_eq_ok {t : Tagging} {seen seen' : Bool} {c after : Cursor} {part : Part} :
    partAt t seen c = .ok ((part, seen'), after) ↔
      ∃ m, memberAt (valueAt memberNesting) c = .ok (m, after) ∧ PartOf t seen m part seen' := by
  unfold partAt memberAt
  simp only [Outcome.andThen_eq_ok]
  constructor
  · intro hexists
    obtain ⟨name, c₁, hname, h⟩ := hexists
    split at h
    · rename_i htag
      subst htag
      split at h
      · split at h <;> cases h
      · rename_i hseen
        obtain rfl : seen = false := by simpa using hseen
        split at h
        · cases h
        · rename_i c₂ hcolon
          obtain ⟨kind, hkind, heq⟩ := Outcome.as_eq_ok.mp h
          cases heq
          obtain ⟨hread, hmem⟩ :=
            (kindAt_eq_ok (skipSpace_of_colonAt hcolon) memberNesting).mp hkind
          refine ⟨(t.tag, .string kind), ⟨_, _, hname, ?_⟩, .kind hmem⟩
          simp only [hcolon]
          exact Outcome.as_eq_ok.mpr ⟨_, hread, rfl⟩
    · rename_i htag
      split at h
      · cases h
      · rename_i c₂ hcolon
        obtain ⟨v, hread, heq⟩ := Outcome.as_eq_ok.mp h
        cases heq
        refine ⟨(name, v), ⟨_, _, hname, ?_⟩, .other htag v⟩
        simp only [hcolon]
        exact Outcome.as_eq_ok.mpr ⟨_, hread, rfl⟩
  · intro hexists
    obtain ⟨m, ⟨name, c₁, hname, h⟩, hpart⟩ := hexists
    split at h
    · cases h
    rename_i c₂ hcolon
    obtain ⟨v, hread, rfl⟩ := Outcome.as_eq_ok.mp h
    refine ⟨name, c₁, hname, ?_⟩
    cases hpart with
    | kind hmem =>
      have hkind := (kindAt_eq_ok (skipSpace_of_colonAt hcolon) memberNesting).mpr ⟨hread, hmem⟩
      simp only [if_true, Bool.false_eq_true, if_false, hcolon]
      exact Outcome.as_eq_ok.mpr ⟨_, hkind, rfl⟩
    | other htag v =>
      simp only [if_neg htag, hcolon]
      exact Outcome.as_eq_ok.mpr ⟨_, hread, rfl⟩

/-- what becomes of all members of an object -/
inductive PartsOf (t : Tagging) : Bool → List (String × Value) → List Part → Prop
  | nil {seen : Bool} : PartsOf t seen [] []
  | cons {seen seen' : Bool} {m : String × Value} {part : Part} {ms : List (String × Value)}
      {parts : List Part} (hpart : PartOf t seen m part seen') (hrest : PartsOf t seen' ms parts) :
      PartsOf t seen (m :: ms) (part :: parts)

theorem memberOf_eq_ok {item : Cursor → Outcome Value} {u u' : Unit} {c after : Cursor}
    {m : String × Value} :
    memberOf item u c = .ok ((m, u'), after) ↔ memberAt item c = .ok (m, after) := by
  rw [memberOf, Outcome.as_eq_ok]
  constructor
  · intro hexists
    obtain ⟨m', h, ⟨⟩⟩ := hexists
    exact h
  · exact fun h => ⟨m, h, rfl⟩

/-- a member and those behind it, if those are as the parts behind it -/
theorem firstMember_eq_ok {t : Tagging} {bound : Cursor → List Char} {after : Cursor}
    (hmore : ∀ {seen c parts}, moreMembers (partAt t) (bound c) seen c = .ok (parts, after) ↔
      ∃ ms, moreMembers (memberOf (valueAt memberNesting)) (bound c) () c = .ok (ms, after) ∧
        PartsOf t seen ms parts)
    {seen : Bool} {c : Cursor} {parts : List Part} :
    (partAt t seen c).andThen (fun (x, s) c =>
        (moreMembers (partAt t) (bound c) s c).as (x :: ·)) = .ok (parts, after) ↔
      ∃ ms, (memberOf (valueAt memberNesting) () c).andThen (fun (x, s) c =>
          (moreMembers (memberOf (valueAt memberNesting)) (bound c) s c).as (x :: ·)) =
            .ok (ms, after) ∧
        PartsOf t seen ms parts := by
  simp only [Outcome.andThen_eq_ok, Outcome.as_eq_ok]
  constructor
  · intro h
    obtain ⟨⟨part, seen'⟩, c₁, hpart, parts', hparts, rfl⟩ := h
    obtain ⟨m, hmember, hm⟩ := partAt_eq_ok.mp hpart
    obtain ⟨ms, hmembers, hms⟩ := hmore.mp hparts
    exact ⟨m :: ms, ⟨(m, ()), c₁, memberOf_eq_ok.mpr hmember, ms, hmembers, rfl⟩, .cons hm hms⟩
  · intro h
    obtain ⟨ms, ⟨⟨m, _⟩, c₁, hmember, ms', hmembers, rfl⟩, hall⟩ := h
    cases hall with
    | cons hm hms =>
      exact ⟨_, c₁, partAt_eq_ok.mpr ⟨m, memberOf_eq_ok.mp hmember, hm⟩, _,
        hmore.mpr ⟨ms', hmembers, hms⟩, rfl⟩

theorem error_iff_no_parts {α β γ : Type} {f g : Mishap} {x : β} {y : α → γ} {P : α → Prop} :
    (Except.error f : Except Mishap β) = .ok x ↔
      ∃ a, (Except.error g : Except Mishap γ) = .ok (y a) ∧ P a := by
  constructor
  · intro h
    cases h
  · intro hexists
    obtain ⟨_, h, -⟩ := hexists
    cases h

theorem moreMembers_eq_ok {t : Tagging} {bound : List Char} {seen : Bool} {c after : Cursor}
    {parts : List Part} :
    moreMembers (partAt t) bound seen c = .ok (parts, after) ↔
      ∃ ms, moreMembers (memberOf (valueAt memberNesting)) bound () c = .ok (ms, after) ∧
        PartsOf t seen ms parts := by
  induction bound generalizing seen c parts with
  | nil => exact error_iff_no_parts
  | cons b bound ih =>
    simp only [moreMembers]
    split
    · exact error_iff_no_parts
    · constructor
      · intro hfalse
        cases hfalse
        exact ⟨[], rfl, .nil⟩
      · intro h
        obtain ⟨ms, ⟨⟩, hparts⟩ := h
        cases hparts
        rfl
    · split
      · exact error_iff_no_parts
      · exact error_iff_no_parts
      · exact firstMember_eq_ok ih
    · exact error_iff_no_parts

/-- the members of a tagged record are read as those of an object -/
theorem membersAt_eq_ok {t : Tagging} {seen : Bool} {c after : Cursor} {parts : List Part} :
    membersAt (partAt t) seen c = .ok (parts, after) ↔
      ∃ ms, membersAt (memberOf (valueAt memberNesting)) () c = .ok (ms, after) ∧
        PartsOf t seen ms parts := by
  simp only [membersAt]
  split
  · exact error_iff_no_parts
  · constructor
    · intro hfalse
      cases hfalse
      exact ⟨[], rfl, .nil⟩
    · intro h
      obtain ⟨ms, ⟨⟩, hparts⟩ := h
      cases hparts
      rfl
  · exact firstMember_eq_ok moreMembers_eq_ok

/-! ## Parts -/

theorem PartsOf.seen {t : Tagging} {ms : List (String × Value)} {parts : List Part}
    (h : PartsOf t true ms parts) :
    (∀ m ∈ ms, m.1 ≠ t.tag) ∧ parts.findSome? Part.kind? = none ∧
      parts.filterMap Part.other? = ms := by
  generalize hseen : true = seen at h
  induction h with
  | nil => exact ⟨nofun, rfl, rfl⟩
  | cons hpart hrest ih =>
    subst hseen
    cases hpart with
    | other hname v =>
      obtain ⟨hnames, hkind, hothers⟩ := ih rfl
      exact ⟨List.forall_mem_cons.mpr ⟨hname, hnames⟩, hkind, congrArg (_ :: ·) hothers⟩

theorem PartsOf.append {t : Tagging} {seen : Bool} {before after : List (String × Value)}
    {parts : List Part} (hbefore : ∀ m ∈ before, m.1 ≠ t.tag) (h : PartsOf t seen after parts) :
    PartsOf t seen (before ++ after) (before.map (fun m => .other m.1 m.2) ++ parts) := by
  induction before with
  | nil => exact h
  | cons m ms ih =>
    obtain ⟨hm, hms⟩ := List.forall_mem_cons.mp hbefore
    exact .cons (.other hm m.2) (ih hms)

/-- where no kind has been read, one of the members names it, and the others are what is left -/
theorem PartsOf.tagged {t : Tagging} {ms : List (String × Value)} {parts : List Part}
    (h : PartsOf t false ms parts) {kind : String}
    (hkind : parts.findSome? Part.kind? = some kind) :
    kind ∈ t.kinds ∧ ∃ before after, ms = before ++ (t.tag, .string kind) :: after ∧
      (∀ m ∈ before, m.1 ≠ t.tag) ∧ (∀ m ∈ after, m.1 ≠ t.tag) ∧
      parts.filterMap Part.other? = before ++ after := by
  generalize hseen : false = seen at h
  induction h with
  | nil => cases hkind
  | cons hpart hrest ih =>
    subst hseen
    cases hpart with
    | kind hmem =>
      cases hkind
      obtain ⟨hnames, -, hothers⟩ := hrest.seen
      exact ⟨hmem, [], _, rfl, nofun, hnames, hothers⟩
    | other hname v =>
      obtain ⟨hmem, before, after, rfl, hbefore, hafter, hothers⟩ := ih hkind rfl
      exact ⟨hmem, (_, v) :: before, after, rfl, List.forall_mem_cons.mpr ⟨hname, hbefore⟩, hafter,
        congrArg (_ :: ·) hothers⟩

theorem findSome?_kind_others (ms : List (String × Value)) (parts : List Part) :
    (ms.map (fun m => Part.other m.1 m.2) ++ parts).findSome? Part.kind? =
      parts.findSome? Part.kind? := by
  induction ms with
  | nil => rfl
  | cons m ms ih => exact ih

theorem filterMap_other_others (ms : List (String × Value)) (parts : List Part) :
    (ms.map (fun m => Part.other m.1 m.2) ++ parts).filterMap Part.other? =
      ms ++ parts.filterMap Part.other? := by
  induction ms with
  | nil => rfl
  | cons m ms ih => exact congrArg (m :: ·) ih

theorem Tagged.parts {t : Tagging} {before after : List (String × Value)} {kind : String}
    (hbefore : ∀ m ∈ before, m.1 ≠ t.tag) (hafter : ∀ m ∈ after, m.1 ≠ t.tag)
    (hkind : kind ∈ t.kinds) :
    ∃ parts, PartsOf t false (before ++ (t.tag, .string kind) :: after) parts ∧
      parts.findSome? Part.kind? = some kind ∧
      parts.filterMap Part.other? = before ++ after := by
  have hrest : PartsOf t true (after ++ []) (after.map (fun m => .other m.1 m.2) ++ []) :=
    .append hafter .nil
  rw [List.append_nil, List.append_nil] at hrest
  refine ⟨_, .append hbefore (.cons (.kind hkind) hrest), ?_, ?_⟩
  · rw [findSome?_kind_others]
    rfl
  · have hothers := filterMap_other_others after []
    rw [List.append_nil, List.filterMap_nil, List.append_nil] at hothers
    rw [filterMap_other_others]
    exact congrArg (before ++ ·) hothers

/-! ## Whole records -/

theorem tagged_object {tag : String} {ms : List (String × Value)} {kind : String} {body : Value} :
    Tagged tag (.object ms) kind body ↔
      ∃ before after, ms = before ++ (tag, .string kind) :: after ∧ (∀ m ∈ before, m.1 ≠ tag) ∧
        (∀ m ∈ after, m.1 ≠ tag) ∧ body = .object (before ++ after) := by
  constructor
  · intro h
    generalize hv : Value.object ms = v at h
    cases h with
    | object kind hbefore hafter =>
      cases hv
      exact ⟨_, _, rfl, hbefore, hafter, rfl⟩
    | array kind items => cases hv
  · intro hexists
    obtain ⟨before, after, rfl, hbefore, hafter, rfl⟩ := hexists
    exact .object kind hbefore hafter

theorem not_tagged_of_scalarAt {c after : Cursor} {v : Value} (h : scalarAt c = .ok (v, after))
    {tag kind : String} {body : Value} : ¬Tagged tag v kind body := by
  intro htagged
  unfold scalarAt at h
  split at h
  · cases h
  · cases wordRest_eq_ok h
    cases htagged
  · cases wordRest_eq_ok h
    cases htagged
  · cases wordRest_eq_ok h
    cases htagged
  · obtain ⟨s, -, rfl⟩ := Outcome.as_eq_ok.mp h
    cases htagged
  · split at h
    · obtain ⟨hnumber, -⟩ := numberAt_local _ _ _ h
      cases hnumber <;> cases htagged
    · cases h

theorem tagged_array {tag : String} {items : List Value} {kind : String} {body : Value} :
    Tagged tag (.array items) kind body ↔
      ∃ rest, items = .string kind :: rest ∧ body = .array rest := by
  constructor
  · intro h
    generalize hv : Value.array items = v at h
    cases h with
    | object kind hbefore hafter => cases hv
    | array kind rest =>
      cases hv
      exact ⟨rest, rfl, rfl⟩
  · intro hexists
    obtain ⟨rest, rfl, rfl⟩ := hexists
    exact .array kind rest

/-- the elements of a tagged record are read as those of a list whose first one is its kind -/
theorem taggedItems_eq_ok {kinds : List String} {c after : Cursor} (hskip : c.skipSpace = c)
    {kind : String} {items : List Value} :
    ((kindAt kinds c).andThen fun kind c =>
        (moreItems (valueAt memberNesting) c.rest c).as fun vs => (kind, Value.array vs)) =
          .ok ((kind, .array items), after) ↔
      ((valueAt memberNesting c).andThen fun x c =>
          (moreItems (valueAt memberNesting) c.rest c).as (x :: ·)) =
            .ok (.string kind :: items, after) ∧ kind ∈ kinds := by
  simp only [Outcome.andThen_eq_ok, Outcome.as_eq_ok]
  constructor
  · intro h
    obtain ⟨kind, c', hkind, vs, hmore, ⟨⟩⟩ := h
    obtain ⟨hread, hmem⟩ := (kindAt_eq_ok hskip memberNesting).mp hkind
    exact ⟨⟨_, c', hread, items, hmore, rfl⟩, hmem⟩
  · intro h
    obtain ⟨⟨v, c', hread, vs, hmore, ⟨⟩⟩, hmem⟩ := h
    exact ⟨kind, c', (kindAt_eq_ok hskip memberNesting).mpr ⟨hread, hmem⟩, items, hmore, rfl⟩

section Read

variable {t : Tagging} {c after : Cursor} {kind : String} {body : Value}

/-- the elements of a list, unless it is empty -/
theorem itemsAt_of_skipSpace {item : Cursor → Outcome Value} {vs : List Value}
    (hnil : c.skipSpace.rest ≠ []) (hend : ∀ rest, c.skipSpace.rest ≠ ']' :: rest) :
    itemsAt item c = .ok (vs, after) ↔ (item c.skipSpace).andThen
      (fun x c => (moreItems item c.rest c).as (x :: ·)) = .ok (vs, after) := by
  simp only [itemsAt]

theorem taggedAt_object {rest : List Char} (hc : c.skipSpace.rest = '{' :: rest) :
    taggedAt t c = .ok ((kind, body), after) ↔ ∃ v, valueAt (memberNesting + 1) c = .ok (v, after) ∧
      Tagged t.tag v kind body ∧ kind ∈ t.kinds := by
  simp only [taggedAt, valueAt, hc]
  rw [Outcome.andThen_eq_ok]
  constructor
  · intro hexists
    obtain ⟨parts, c', hparts, h⟩ := hexists
    obtain ⟨ms, hmembers, hms⟩ := membersAt_eq_ok.mp hparts
    split at h
    · cases h
      obtain ⟨hmem, before, after, rfl, hbefore, hafter, hothers⟩ := hms.tagged ‹_›
      refine ⟨_, Outcome.as_eq_ok.mpr ⟨_, hmembers, rfl⟩, ?_, hmem⟩
      rw [hothers]
      exact .object _ hbefore hafter
    · cases h
  · intro hexists
    obtain ⟨v, hread, htagged, hmem⟩ := hexists
    obtain ⟨ms, hmembers, rfl⟩ := Outcome.as_eq_ok.mp hread
    obtain ⟨before, after, rfl, hbefore, hafter, rfl⟩ := tagged_object.mp htagged
    obtain ⟨parts, hparts, hkind, hothers⟩ := Tagged.parts hbefore hafter hmem
    refine ⟨parts, _, membersAt_eq_ok.mpr ⟨_, hmembers, hparts⟩, ?_⟩
    rw [hkind, hothers]

theorem taggedAt_list {rest : List Char} (hc : c.skipSpace.rest = '[' :: rest) :
    taggedAt t c = .ok ((kind, body), after) ↔ ∃ v, valueAt (memberNesting + 1) c = .ok (v, after) ∧
      Tagged t.tag v kind body ∧ kind ∈ t.kinds := by
  simp only [taggedAt, valueAt, hc]
  split
  · rename_i hend
    constructor
    · intro h
      cases h
    · intro hexists
      obtain ⟨v, hread, -, -⟩ := hexists
      simp only [itemsAt, hend] at hread
      cases hread
  · rename_i hend
    constructor
    · intro h
      cases h
    · intro hexists
      obtain ⟨v, hread, htagged, -⟩ := hexists
      simp only [itemsAt, hend] at hread
      cases hread
      cases htagged
  · rename_i hnil hend
    constructor
    · intro h
      have hbody : ∃ items, body = .array items := by
        obtain ⟨_, _, -, h⟩ := Outcome.andThen_eq_ok.mp h
        obtain ⟨items, -, ⟨⟩⟩ := Outcome.as_eq_ok.mp h
        exact ⟨items, rfl⟩
      obtain ⟨items, rfl⟩ := hbody
      obtain ⟨hread, hmem⟩ := (taggedItems_eq_ok (skipSpace_skipSpace _)).mp h
      have hitems := (itemsAt_of_skipSpace hnil hend).mpr hread
      exact ⟨_, Outcome.as_eq_ok.mpr ⟨_, hitems, rfl⟩, .array kind items, hmem⟩
    · intro hexists
      obtain ⟨v, hread, htagged, hmem⟩ := hexists
      obtain ⟨items, hlist, rfl⟩ := Outcome.as_eq_ok.mp hread
      obtain ⟨rest, rfl, rfl⟩ := tagged_array.mp htagged
      exact (taggedItems_eq_ok (skipSpace_skipSpace _)).mpr
        ⟨(itemsAt_of_skipSpace hnil hend).mp hlist, hmem⟩

/-- a tagged record is read as a value that names a known kind -/
theorem taggedAt_eq_ok :
    taggedAt t c = .ok ((kind, body), after) ↔
      ∃ v, valueAt maxNesting c = .ok (v, after) ∧ Tagged t.tag v kind body ∧ kind ∈ t.kinds := by
  show _ ↔ ∃ v, valueAt (memberNesting + 1) c = .ok (v, after) ∧ _
  by_cases hobject : ∃ rest, c.skipSpace.rest = '{' :: rest
  · obtain ⟨rest, hc⟩ := hobject
    exact taggedAt_object hc
  by_cases hlist : ∃ rest, c.skipSpace.rest = '[' :: rest
  · obtain ⟨rest, hc⟩ := hlist
    exact taggedAt_list hc
  rw [not_exists] at hobject hlist
  simp only [taggedAt, valueAt]
  constructor
  · intro h
    obtain ⟨v, c', -, ⟨⟩⟩ := Outcome.andThen_eq_ok.mp h
  · intro hexists
    obtain ⟨v, hread, htagged, -⟩ := hexists
    exact absurd htagged (not_tagged_of_scalarAt hread)

end Read

/-- The texts accepted as records of a type: JSON that names one of its kinds, and whose rest makes
a record of that kind. -/
theorem readTagged_eq_ok {vs : Variants α} {text : String} {x : α} :
    readTagged vs text = .ok x ↔
      ∃ v kind body, parse text = .ok v ∧ Tagged Variants.tag v kind body ∧
        kind ∈ vs.cases.map (·.1) ∧ vs.decode kind body = .ok x := by
  rw [readTagged, readText_eq_ok]
  constructor
  · intro h
    obtain ⟨⟨kind, body⟩, c, hread, hdecode, hend⟩ := h
    obtain ⟨v, hvalue, htagged, hmem⟩ := taggedAt_eq_ok.mp hread
    exact ⟨v, kind, body, parse_eq_ok.mpr ⟨c, hvalue, hend⟩, htagged, hmem, hdecode⟩
  · intro h
    obtain ⟨v, kind, body, hparse, htagged, hmem, hdecode⟩ := h
    obtain ⟨c, hvalue, hend⟩ := parse_eq_ok.mp hparse
    exact ⟨(kind, body), c, taggedAt_eq_ok.mpr ⟨v, hvalue, htagged, hmem⟩, hdecode, hend⟩

end RhythmLobby.Json
