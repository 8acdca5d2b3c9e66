import Mathlib.Data.List.Forall2
import RhythmLobby.Proofs.Json.Spelling

/-!
# Lists and objects piece by piece

The inside of a list or an object is a text for each element, with commas between them.  Which
texts these are does not depend on one another: wherever an element stands it is read as the same
value, and how deep a reader may go matters only for what is nested deeper.

* `Json.Following`, `Json.Inside`   one element after the other, up to the closing character;
* `Json.Enumerates`                 the texts of the elements with commas between them;
* `Json.Spells`                     the texts that a reader of a given depth takes for a value;
* `Json.Value.nesting`              how deep a reader has to go for a value;
* `Json.portable_value`, `Json.Reads.atDepth`   values may be moved to other places and depths.
-/

namespace RhythmLobby.Json

variable {α : Type}

/-! ## One element after the other -/

section Elements

variable (close : Char) (read : Cursor → Outcome α)

/-- the elements that are read behind the first one, up to the closing character -/
inductive Following : Cursor → List α → Cursor → Prop
  | done {c d : Cursor} {rest : List Char} (hskip : c.skipSpace = d)
      (hclose : d.rest = close :: rest) : Following c [] (d.skip 1)
  | more {c d e c' after : Cursor} {rest : List Char} {x : α} {xs : List α}
      (hskip : c.skipSpace = d) (hcomma : d.rest = ',' :: rest) (hskip' : (d.skip 1).skipSpace = e)
      (hcomes : Comes e.rest) (hx : read e = .ok (x, c')) (hxs : Following c' xs after) :
      Following c (x :: xs) after

/-- all elements up to the closing character -/
inductive Inside : Cursor → List α → Cursor → Prop
  | none {c d : Cursor} {rest : List Char} (hskip : c.skipSpace = d)
      (hclose : d.rest = close :: rest) : Inside c [] (d.skip 1)
  | some {c d c' after : Cursor} {x : α} {xs : List α} (hskip : c.skipSpace = d)
      (hcomes : Comes d.rest) (hx : read d = .ok (x, c')) (hxs : Following close read c' xs after) :
      Inside c (x :: xs) after

end Elements

section Lists

variable {item : Cursor → Outcome Value}

theorem Portable.comes {read : Cursor → Outcome α} (hread : Portable read) {c : Cursor} {x : α}
    {after : Cursor} (h : read c.skipSpace = .ok (x, after)) : Comes c.skipSpace.rest := by
  obtain ⟨-, -, -, hspace⟩ := exists_blank c
  obtain ⟨taken, heq, hcomes, -⟩ := hread _ x after hspace h
  rw [heq]
  exact hcomes.append _

theorem Portable.length_lt {read : Cursor → Outcome α} (hread : Portable read) {c : Cursor} {x : α}
    {after : Cursor} (h : read c.skipSpace = .ok (x, after)) :
    after.rest.length < c.rest.length := by
  obtain ⟨blank, -, heq, hspace⟩ := exists_blank c
  obtain ⟨taken, htaken, ⟨d, ds, rfl, -⟩, -⟩ := hread _ x after hspace h
  rw [heq, htaken]
  simp only [List.length_append, List.length_cons]
  omega

theorem Following.length_lt {close : Char} {read : Cursor → Outcome α} (hread : Portable read)
    {c after : Cursor} {xs : List α} (h : Following close read c xs after) :
    xs.length < c.rest.length := by
  induction h with
  | @done c d rest hskip hclose =>
    obtain ⟨blank, -, heq, -⟩ := exists_blank c
    rw [heq, hskip, hclose, List.length_append]
    exact Nat.add_pos_right _ (Nat.succ_pos _)
  | @more c d e c' after rest x xs hskip hcomma hskip' hcomes hx hxs ih =>
    subst hskip'
    obtain ⟨blank, -, heq, -⟩ := exists_blank c
    have hlt := hread.length_lt hx
    rw [Cursor.skip, hcomma] at hlt
    rw [heq, hskip, hcomma]
    simp only [List.drop_one, List.tail_cons, List.length_append, List.length_cons] at hlt ⊢
    omega

theorem moreItems_following (hitem : Portable item) {bound : List Char} {c after : Cursor}
    {vs : List Value} :
    moreItems item bound c = .ok (vs, after) ↔
      Following ']' item c vs after ∧ vs.length < bound.length := by
  induction bound generalizing c vs with
  | nil => exact ⟨nofun, fun h => absurd h.2 (Nat.not_lt_zero _)⟩
  | cons b bound ih =>
    simp only [moreItems]
    constructor
    · intro h
      split at h
      · cases h
      · cases h
        exact ⟨.done rfl ‹_›, Nat.succ_pos _⟩
      · rename_i hcomma
        split at h
        · cases h
        · cases h
        · obtain ⟨v, c', hv, h⟩ := Outcome.andThen_eq_ok.mp h
          obtain ⟨vs, hvs, rfl⟩ := Outcome.as_eq_ok.mp h
          obtain ⟨hfollowing, hlength⟩ := ih.mp hvs
          exact ⟨.more rfl hcomma rfl (hitem.comes hv) hv hfollowing, Nat.succ_lt_succ hlength⟩
      · cases h
    · intro hboth
      obtain ⟨h, hlength⟩ := hboth
      cases h with
      | done hskip hclose =>
        subst hskip
        simp only [hclose]
      | more hskip hcomma hskip' hcomes hv hfollowing =>
        subst hskip hskip'
        obtain ⟨d, rest, hrest, -, hend, -⟩ := hcomes
        have hmore := ih.mpr ⟨hfollowing, Nat.lt_of_succ_lt_succ hlength⟩
        simp only [hcomma, hrest]
        split
        · cases ‹_›
        · rename_i heq
          exact absurd (List.cons.inj heq).1 hend
        · exact Outcome.andThen_eq_ok.mpr ⟨_, _, hv, Outcome.as_eq_ok.mpr ⟨_, hmore, rfl⟩⟩

theorem itemsAt_inside (hitem : Portable item) {c after : Cursor} {vs : List Value} :
    itemsAt item c = .ok (vs, after) ↔ Inside ']' item c vs after := by
  simp only [itemsAt]
  constructor
  · intro h
    split at h
    · cases h
    · cases h
      exact .none rfl ‹_›
    · obtain ⟨v, c', hv, h⟩ := Outcome.andThen_eq_ok.mp h
      obtain ⟨vs, hvs, rfl⟩ := Outcome.as_eq_ok.mp h
      exact .some rfl (hitem.comes hv) hv ((moreItems_following hitem).mp hvs).1
  · intro h
    cases h with
    | none hskip hclose =>
      subst hskip
      simp only [hclose]
    | some hskip hcomes hv hfollowing =>
      subst hskip
      obtain ⟨d, rest, hrest, -, hend, -⟩ := hcomes
      have hmore := (moreItems_following hitem).mpr ⟨hfollowing, hfollowing.length_lt hitem⟩
      simp only [hrest]
      split
      · cases ‹_›
      · rename_i heq
        exact absurd (List.cons.inj heq).1 hend
      · exact Outcome.andThen_eq_ok.mpr ⟨_, _, hv, Outcome.as_eq_ok.mpr ⟨_, hmore, rfl⟩⟩

end Lists

section Objects

variable {item : Cursor → Outcome Value}

theorem moreMembers_following (hmember : Portable (memberAt item)) {bound : List Char}
    {c after : Cursor} {ms : List (String × Value)} :
    moreMembers (memberOf item) bound () c = .ok (ms, after) ↔
      Following '}' (memberAt item) c ms after ∧ ms.length < bound.length := by
  induction bound generalizing c ms with
  | nil => exact ⟨nofun, fun h => absurd h.2 (Nat.not_lt_zero _)⟩
  | cons b bound ih =>
    simp only [moreMembers]
    constructor
    · intro h
      split at h
      · cases h
      · cases h
        exact ⟨.done rfl ‹_›, Nat.succ_pos _⟩
      · rename_i hcomma
        split at h
        · cases h
        · cases h
        · obtain ⟨⟨m, _⟩, c', hm, h⟩ := Outcome.andThen_eq_ok.mp h
          obtain ⟨ms, hms, rfl⟩ := Outcome.as_eq_ok.mp h
          obtain ⟨hfollowing, hlength⟩ := ih.mp hms
          rw [memberOf_eq_ok] at hm
          exact ⟨.more rfl hcomma rfl (hmember.comes hm) hm hfollowing, Nat.succ_lt_succ hlength⟩
      · cases h
    · intro hboth
      obtain ⟨h, hlength⟩ := hboth
      cases h with
      | done hskip hclose =>
        subst hskip
        simp only [hclose]
      | more hskip hcomma hskip' hcomes hm hfollowing =>
        subst hskip hskip'
        obtain ⟨d, rest, hrest, -, -, hend⟩ := hcomes
        have hmore := ih.mpr ⟨hfollowing, Nat.lt_of_succ_lt_succ hlength⟩
        simp only [hcomma, hrest]
        split
        · cases ‹_›
        · rename_i heq
          exact absurd (List.cons.inj heq).1 hend
        · exact Outcome.andThen_eq_ok.mpr ⟨(_, ()), _, memberOf_eq_ok.mpr hm,
            Outcome.as_eq_ok.mpr ⟨_, hmore, rfl⟩⟩

theorem membersAt_inside (hmember : Portable (memberAt item)) {c after : Cursor}
    {ms : List (String × Value)} :
    membersAt (memberOf item) () c = .ok (ms, after) ↔
      Inside '}' (memberAt item) c ms after := by
  simp only [membersAt]
  constructor
  · intro h
    split at h
    · cases h
    · cases h
      exact .none rfl ‹_›
    · obtain ⟨⟨m, _⟩, c', hm, h⟩ := Outcome.andThen_eq_ok.mp h
      obtain ⟨ms, hms, rfl⟩ := Outcome.as_eq_ok.mp h
      rw [memberOf_eq_ok] at hm
      exact .some rfl (hmember.comes hm) hm ((moreMembers_following hmember).mp hms).1
  · intro h
    cases h with
    | none hskip hclose =>
      subst hskip
      simp only [hclose]
    | some hskip hcomes hm hfollowing =>
      subst hskip
      obtain ⟨d, rest, hrest, -, -, hend⟩ := hcomes
      have hmore := (moreMembers_following hmember).mpr ⟨hfollowing, hfollowing.length_lt hmember⟩
      simp only [hrest]
      split
      · cases ‹_›
      · rename_i heq
        exact absurd (List.cons.inj heq).1 hend
      · exact Outcome.andThen_eq_ok.mpr ⟨(_, ()), _, memberOf_eq_ok.mpr hm,
          Outcome.as_eq_ok.mpr ⟨_, hmore, rfl⟩⟩

end Objects

/-! ## The texts of the elements -/

/-- a text that consists of what a reader takes and space around it -/
def Padded (read : Cursor → Outcome α) (text : List Char) (x : α) : Prop :=
  ∃ before chars after, text = before ++ (chars ++ after) ∧ Blank before ∧ Blank after ∧
    Comes chars ∧ Reads read chars x

/-- the texts of the elements, with commas between them -/
inductive Enumerates (read : Cursor → Outcome α) : List Char → List α → Prop
  | none {blank : List Char} (h : Blank blank) : Enumerates read blank []
  | some {text : List Char} {texts : List (List Char)} {x : α} {xs : List α}
      (hx : Padded read text x) (hxs : List.Forall₂ (Padded read) texts xs) :
      Enumerates read (text ++ texts.flatMap (',' :: ·)) (x :: xs)

section Texts

variable {close : Char} {read : Cursor → Outcome α} {c after : Cursor} {xs : List α}

theorem Following.texts (hread : Portable read) (h : Following close read c xs after) :
    ∃ blank texts, c.rest = blank ++ (texts.flatMap (',' :: ·) ++ close :: after.rest) ∧
      Blank blank ∧ List.Forall₂ (Padded read) texts xs := by
  induction h with
  | @done c d rest hskip hclose =>
    obtain ⟨blank, hblank, heq, -⟩ := exists_blank c
    refine ⟨blank, [], ?_, hblank, .nil⟩
    rw [heq, hskip, Cursor.skip, hclose]
    rfl
  | @more c d e c' after rest x xs hskip hcomma hskip' hcomes hx hxs ih =>
    obtain ⟨blank, hblank, heq, -⟩ := exists_blank c
    obtain ⟨blank', hblank', heq', hspace⟩ := exists_blank (d.skip 1)
    rw [hskip'] at heq' hspace
    obtain ⟨taken, htaken, hcomes, hreads⟩ := hread _ x c' hspace hx
    obtain ⟨blank'', texts, hrest, hblank'', hall⟩ := ih
    refine ⟨blank, (blank' ++ (taken ++ blank'')) :: texts, ?_, hblank,
      .cons ⟨blank', taken, blank'', rfl, hblank', hblank'', hcomes, hreads⟩ hall⟩
    rw [htaken, hrest, Cursor.skip, hcomma] at heq'
    replace heq' : rest = _ := heq'
    rw [heq, hskip, hcomma, heq']
    simp only [List.flatMap_cons, List.cons_append, List.append_assoc]

theorem Inside.texts (hread : Portable read) (h : Inside close read c xs after) :
    ∃ taken, c.rest = taken ++ close :: after.rest ∧ Enumerates read taken xs := by
  obtain ⟨blank, hblank, heq, hspace⟩ := exists_blank c
  cases h with
  | none hskip hclose =>
    refine ⟨blank, ?_, .none hblank⟩
    rw [heq, hskip, Cursor.skip, hclose]
    rfl
  | some hskip hcomes hx hxs =>
    subst hskip
    obtain ⟨taken, htaken, hcomes, hreads⟩ := hread _ _ _ hspace hx
    obtain ⟨blank', texts, hrest, hblank', hall⟩ := hxs.texts hread
    refine ⟨_, ?_, .some ⟨blank, taken, blank', rfl, hblank, hblank', hcomes, hreads⟩ hall⟩
    rw [heq, htaken, hrest]
    simp only [List.append_assoc]

variable (hspace : Cursor.isSpace close = false) (hnumber : extendsNumber close = false)
include hspace hnumber

omit hspace in
theorem closes_texts (texts : List (List Char)) (rest : List Char) :
    Closes (texts.flatMap (',' :: ·) ++ close :: rest) := by
  cases texts with
  | nil => exact closes_cons hnumber rest
  | cons text texts => exact closes_cons rfl _

/-- the texts behind the first one are read wherever they stand -/
theorem following_of_texts {texts : List (List Char)} (h : List.Forall₂ (Padded read) texts xs)
    {blank : List Char} (hblank : Blank blank) (rest : List Char) (offset : Nat) :
    ∃ offset', Following close read
      ⟨blank ++ (texts.flatMap (',' :: ·) ++ close :: rest), offset⟩ xs ⟨rest, offset'⟩ := by
  induction h generalizing blank offset with
  | nil => exact ⟨_, .done (skipSpace_blank hblank (unspaced_cons hspace rest) offset) rfl⟩
  | @cons text x texts xs hx hxs ih =>
    obtain ⟨before, chars, behind, rfl, hbefore, hbehind, hcomes, hreads⟩ := hx
    have hskip := skipSpace_blank hblank (unspaced_cons (c := ',') rfl
      (before ++ (chars ++ (behind ++ (texts.flatMap (',' :: ·) ++ close :: rest))))) offset
    have hskip' := skipSpace_blank hbefore (hcomes.append
      (behind ++ (texts.flatMap (',' :: ·) ++ close :: rest))).unspaced (offset + blank.length + 1)
    obtain ⟨offset₁, hread⟩ := hreads _ (offset + blank.length + 1 + before.length)
      (hbehind.closes (closes_texts hnumber texts rest))
    obtain ⟨offset₂, hfollowing⟩ := ih hbehind offset₁
    refine ⟨offset₂, ?_⟩
    have hmore := Following.more hskip rfl hskip' (hcomes.append _) hread hfollowing
    simpa only [List.flatMap_cons, List.cons_append, List.append_assoc] using hmore

theorem Enumerates.inside {taken : List Char} (h : Enumerates read taken xs) (rest : List Char)
    (offset : Nat) :
    ∃ offset', Inside close read ⟨taken ++ close :: rest, offset⟩ xs ⟨rest, offset'⟩ := by
  cases h with
  | none hblank => exact ⟨_, .none (skipSpace_blank hblank (unspaced_cons hspace rest) offset) rfl⟩
  | @some text texts x xs hx hxs =>
    obtain ⟨before, chars, behind, rfl, hbefore, hbehind, hcomes, hreads⟩ := hx
    have hskip := skipSpace_blank hbefore (hcomes.append
      (behind ++ (texts.flatMap (',' :: ·) ++ close :: rest))).unspaced offset
    obtain ⟨offset₁, hread⟩ := hreads _ (offset + before.length)
      (hbehind.closes (closes_texts hnumber texts rest))
    obtain ⟨offset₂, hfollowing⟩ := following_of_texts hspace hnumber hxs hbehind rest offset₁
    refine ⟨offset₂, ?_⟩
    have hinside := Inside.some hskip (hcomes.append _) hread hfollowing
    simpa only [List.append_assoc] using hinside

end Texts

theorem Padded.imp {read read' : Cursor → Outcome α} {text : List Char} {x : α}
    (h : Padded read text x)
    (himp : ∀ chars, Comes chars → Reads read chars x → Reads read' chars x) :
    Padded read' text x := by
  obtain ⟨before, chars, behind, heq, hbefore, hbehind, hcomes, hreads⟩ := h
  exact ⟨before, chars, behind, heq, hbefore, hbehind, hcomes, himp chars hcomes hreads⟩

theorem Padded.found {read : Cursor → Outcome α} {text : List Char} {x : α}
    (h : Padded read text x) : ∃ chars, Comes chars ∧ Reads read chars x := by
  obtain ⟨-, chars, -, -, -, -, hcomes, hreads⟩ := h
  exact ⟨chars, hcomes, hreads⟩

theorem Enumerates.imp {read read' : Cursor → Outcome α} {taken : List Char} {xs : List α}
    (h : Enumerates read taken xs)
    (himp : ∀ x ∈ xs, ∀ chars, Comes chars → Reads read chars x → Reads read' chars x) :
    Enumerates read' taken xs := by
  cases h with
  | none hblank => exact .none hblank
  | some hx hxs =>
    obtain ⟨himpx, himpxs⟩ := List.forall_mem_cons.mp himp
    have hall := (List.forall₂_and_left _ _).mpr ⟨himpxs, hxs.flip⟩
    exact .some (hx.imp himpx) (hall.imp fun y text h => Padded.imp h.2 h.1).flip

theorem Enumerates.found {read : Cursor → Outcome α} {taken : List Char} {xs : List α}
    (h : Enumerates read taken xs) : ∀ x ∈ xs, ∃ chars, Comes chars ∧ Reads read chars x := by
  cases h with
  | none hblank => nofun
  | @some text texts x xs hx hxs =>
    have hall : List.Forall₂ (fun x text => (∃ chars, Comes chars ∧ Reads read chars x) ∧
        Padded read text x) (x :: xs) (text :: texts) :=
      ((List.Forall₂.cons hx hxs).imp fun text x h => ⟨h.found, h⟩).flip
    exact ((List.forall₂_and_left _ _).mp hall).1

/-! ## Members -/

/-- the characters of a name, a colon and the characters of a value, with space around the colon -/
inductive SpellsMember (item : Cursor → Outcome Value) : List Char → String × Value → Prop
  | mk {name before behind value : List Char} {k : String} {v : Value} (hname : Comes name)
      (hk : Reads nameAt name k) (hbefore : Blank before) (hbehind : Blank behind)
      (hvalue : Comes value) (hv : Reads item value v) :
      SpellsMember item (name ++ (before ++ ':' :: (behind ++ value))) (k, v)

theorem colonAt_eq_ok {c after : Cursor} (h : colonAt c = .ok after) :
    ∃ before behind, c.rest = before ++ ':' :: (behind ++ after.rest) ∧ Blank before ∧
      Blank behind ∧ Unspaced after.rest := by
  obtain ⟨before, hbefore, heq, -⟩ := exists_blank c
  unfold colonAt at h
  dsimp only at h
  split at h
  · cases h
  · rename_i rest hcolon
    cases h
    obtain ⟨behind, hbehind, heq', hspace⟩ := exists_blank (c.skipSpace.skip 1)
    refine ⟨before, behind, ?_, hbefore, hbehind, hspace⟩
    rw [← heq', Cursor.skip, hcolon, heq, hcolon]
    rfl
  · cases h

theorem colonAt_blank {before behind rest : List Char} (hbefore : Blank before)
    (hbehind : Blank behind) (hrest : Unspaced rest) (offset : Nat) :
    ∃ offset', colonAt ⟨before ++ ':' :: (behind ++ rest), offset⟩ = .ok ⟨rest, offset'⟩ := by
  have hskip := skipSpace_blank hbefore (unspaced_cons (c := ':') rfl (behind ++ rest)) offset
  simp only [colonAt, hskip, Cursor.skip, List.drop_one, List.tail_cons,
    skipSpace_blank hbehind hrest]
  exact ⟨_, rfl⟩

section Members

variable {item : Cursor → Outcome Value}

theorem SpellsMember.comes {chars : List Char} {m : String × Value}
    (h : SpellsMember item chars m) : Comes chars := by
  obtain ⟨hname, -, -, -, -, -⟩ := h
  exact hname.append _

theorem SpellsMember.reads {chars : List Char} {m : String × Value}
    (h : SpellsMember item chars m) : Reads (memberAt item) chars m := by
  obtain ⟨hname, hk, hbefore, hbehind, hvalue, hv⟩ := h
  rename_i name before behind value k v
  intro rest offset hrest
  obtain ⟨offset₁, hk⟩ := hk (before ++ ':' :: (behind ++ (value ++ rest))) offset
    (hbefore.closes (closes_cons rfl _))
  obtain ⟨offset₂, hcolon⟩ := colonAt_blank hbefore hbehind (hvalue.append rest).unspaced offset₁
  obtain ⟨offset₃, hv⟩ := hv rest offset₂ hrest
  refine ⟨offset₃, ?_⟩
  have hchars : name ++ (before ++ ':' :: (behind ++ value)) ++ rest =
      name ++ (before ++ ':' :: (behind ++ (value ++ rest))) := by
    simp only [List.append_assoc, List.cons_append]
  rw [hchars, memberAt, hk, Outcome.andThen_ok]
  simp only [hcolon]
  exact Outcome.as_eq_ok.mpr ⟨v, hv, rfl⟩

theorem memberAt_spells (hitem : Portable item) {c after : Cursor} {m : String × Value}
    (hspace : Unspaced c.rest) (h : memberAt item c = .ok (m, after)) :
    ∃ chars, c.rest = chars ++ after.rest ∧ SpellsMember item chars m := by
  obtain ⟨k, c₁, hk, h⟩ := Outcome.andThen_eq_ok.mp h
  split at h
  · cases h
  rename_i c₂ hcolon
  obtain ⟨v, hv, rfl⟩ := Outcome.as_eq_ok.mp h
  obtain ⟨name, heq, hname, hk⟩ := portable_name c k c₁ hspace hk
  obtain ⟨before, behind, heq₁, hbefore, hbehind, hspace₂⟩ := colonAt_eq_ok hcolon
  obtain ⟨value, heq₂, hvalue, hv⟩ := hitem c₂ v after hspace₂ hv
  refine ⟨_, ?_, .mk hname hk hbefore hbehind hvalue hv⟩
  rw [heq, heq₁, heq₂]
  simp only [List.append_assoc, List.cons_append]

theorem portable_member (hitem : Portable item) : Portable (memberAt item) := by
  intro c m after hspace h
  obtain ⟨chars, heq, hm⟩ := memberAt_spells hitem hspace h
  exact ⟨chars, heq, hm.comes, hm.reads⟩

theorem Reads.spellsMember (hitem : Portable item) {chars : List Char} {m : String × Value}
    (hcomes : Comes chars) (h : Reads (memberAt item) chars m) : SpellsMember item chars m := by
  obtain ⟨offset, hread⟩ := h.alone
  obtain ⟨chars', heq, hm⟩ := memberAt_spells hitem hcomes.unspaced hread
  rw [List.append_nil] at heq
  obtain rfl : chars = chars' := heq
  exact hm

end Members

/-! ## Values -/

/-- the characters that a reader of the given depth takes for a value -/
inductive Spells : Nat → List Char → Value → Prop
  | scalar {depth : Nat} {chars : List Char} {v : Value} (h : Reads scalarAt chars v) :
      Spells depth chars v
  | list {depth : Nat} {inside : List Char} {vs : List Value}
      (h : Enumerates (valueAt depth) inside vs) :
      Spells (depth + 1) ('[' :: (inside ++ [']'])) (.array vs)
  | object {depth : Nat} {inside : List Char} {ms : List (String × Value)}
      (h : Enumerates (memberAt (valueAt depth)) inside ms) :
      Spells (depth + 1) ('{' :: (inside ++ ['}'])) (.object ms)

theorem Spells.comes {depth : Nat} {chars : List Char} {v : Value} (h : Spells depth chars v) :
    Comes chars := by
  cases h with
  | scalar h => exact h.comes
  | list h => exact ⟨'[', _, rfl, rfl, by decide, by decide⟩
  | object h => exact ⟨'{', _, rfl, rfl, by decide, by decide⟩

theorem Spells.reads {depth : Nat} (hinner : ∀ d < depth, Portable (valueAt d)) {chars : List Char}
    {v : Value} (h : Spells depth chars v) : Reads (valueAt depth) chars v := by
  cases h with
  | scalar h => exact h.value depth
  | @list depth inside vs h =>
    intro rest offset hrest
    obtain ⟨offset', hinside⟩ : ∃ offset', Inside ']' (valueAt depth)
        ⟨inside ++ ']' :: rest, offset + 1⟩ vs ⟨rest, offset'⟩ := h.inside rfl rfl rest (offset + 1)
    refine ⟨offset', ?_⟩
    rw [List.cons_append, List.append_assoc, valueAt_list]
    exact Outcome.as_eq_ok.mpr
      ⟨vs, (itemsAt_inside (hinner depth (Nat.lt_succ_self _))).mpr hinside, rfl⟩
  | @object depth inside ms h =>
    intro rest offset hrest
    obtain ⟨offset', hinside⟩ : ∃ offset', Inside '}' (memberAt (valueAt depth))
        ⟨inside ++ '}' :: rest, offset + 1⟩ ms ⟨rest, offset'⟩ :=
      h.inside rfl rfl rest (offset + 1)
    refine ⟨offset', ?_⟩
    rw [List.cons_append, List.append_assoc, valueAt_object]
    exact Outcome.as_eq_ok.mpr ⟨ms,
      (membersAt_inside (portable_member (hinner depth (Nat.lt_succ_self _)))).mpr hinside, rfl⟩

theorem valueAt_spells {depth : Nat} (hinner : ∀ d < depth, Portable (valueAt d)) {c after : Cursor}
    {v : Value} (hspace : Unspaced c.rest) (h : valueAt depth c = .ok (v, after)) :
    ∃ chars, c.rest = chars ++ after.rest ∧ Spells depth chars v := by
  have hskip : c.skipSpace = c := hspace.skipSpace c.offset
  have hscalar (h : scalarAt c = .ok (v, after)) :
      ∃ chars, c.rest = chars ++ after.rest ∧ Spells depth chars v := by
    obtain ⟨chars, heq, -, hreads⟩ := portable_scalar c v after hspace h
    exact ⟨chars, heq, .scalar hreads⟩
  cases depth with
  | zero =>
    simp only [valueAt, hskip] at h
    split at h
    · cases h
    · cases h
    · exact hscalar h
  | succ depth =>
    have hvalue := hinner depth (Nat.lt_succ_self _)
    simp only [valueAt, hskip] at h
    split at h
    · rename_i rest hopen
      obtain ⟨vs, hvs, rfl⟩ := Outcome.as_eq_ok.mp h
      obtain ⟨inside, heq, hall⟩ := ((itemsAt_inside hvalue).mp hvs).texts hvalue
      refine ⟨_, ?_, .list hall⟩
      rw [Cursor.skip, hopen] at heq
      replace heq : rest = _ := heq
      rw [hopen, heq, List.cons_append, List.append_assoc]
      rfl
    · rename_i rest hopen
      obtain ⟨ms, hms, rfl⟩ := Outcome.as_eq_ok.mp h
      have hmember := portable_member hvalue
      obtain ⟨inside, heq, hall⟩ := ((membersAt_inside hmember).mp hms).texts hmember
      refine ⟨_, ?_, .object hall⟩
      rw [Cursor.skip, hopen] at heq
      replace heq : rest = _ := heq
      rw [hopen, heq, List.cons_append, List.append_assoc]
      rfl
    · exact hscalar h

theorem portable_value (depth : Nat) : Portable (valueAt depth) := by
  induction depth using Nat.strongRecOn with
  | ind depth hinner =>
    intro c v after hspace h
    obtain ⟨chars, heq, hv⟩ := valueAt_spells hinner hspace h
    exact ⟨chars, heq, hv.comes, hv.reads hinner⟩

end RhythmLobby.Json
