import RhythmLobby.Cache.Key

/-!
# Keys of different records differ

* `wholeText_injective`   a whole number is known by its text;
* `Key.text_injective`    a record is known by its key.
-/

namespace RhythmLobby

/-! ## Whole numbers -/

theorem mem_wholeChars {n : Int} {c : Char} (h : c ∈ wholeChars n) : c.isDigit ∨ c = '-' := by
  cases n with
  | ofNat n => exact .inl (Nat.isDigit_of_mem_toDigits (by decide) (by decide) h)
  | negSucc n =>
    rcases List.mem_cons.mp h with rfl | h
    · exact .inr rfl
    · exact .inl (Nat.isDigit_of_mem_toDigits (by decide) (by decide) h)

theorem toDigits_injective {m n : Nat} (h : Nat.toDigits 10 m = Nat.toDigits 10 n) : m = n := by
  rw [← Nat.ofDigitChars_ten_toDigits (n := m), h, Nat.ofDigitChars_ten_toDigits]

theorem toDigits_ne_hyphen (m : Nat) (rest : List Char) : Nat.toDigits 10 m ≠ '-' :: rest := by
  intro h
  have : '-'.isDigit = true :=
    Nat.isDigit_of_mem_toDigits (by decide) (by decide) (h ▸ List.mem_cons_self ..)
  exact absurd this (by decide)

theorem wholeChars_injective {m n : Int} (h : wholeChars m = wholeChars n) : m = n := by
  cases m with
  | ofNat m =>
    cases n with
    | ofNat n => rw [toDigits_injective h]
    | negSucc n => exact absurd h (toDigits_ne_hyphen m _)
  | negSucc m =>
    cases n with
    | ofNat n => exact absurd h.symm (toDigits_ne_hyphen n _)
    | negSucc n =>
      have := toDigits_injective (List.cons.inj h).2
      rw [Nat.succ.inj this]

theorem toList_wholeText (n : Int) : (wholeText n).toList = wholeChars n := String.toList_ofList

theorem wholeText_injective {m n : Int} (h : wholeText m = wholeText n) : m = n := by
  apply wholeChars_injective
  rw [← toList_wholeText, h, toList_wholeText]

theorem colon_notMem_wholeChars (n : Int) : ':' ∉ wholeChars n := by
  intro h
  rcases mem_wholeChars h with h | h
  · exact absurd h (by decide)
  · exact absurd h (by decide)

/-! ## Keys -/

namespace Cache

/-- what stands before the first occurrence of a character, and what stands behind it -/
theorem append_cons_inj {a b x y : List Char} {c : Char} (ha : c ∉ a) (hb : c ∉ b)
    (h : a ++ c :: x = b ++ c :: y) : a = b ∧ x = y := by
  induction a generalizing b with
  | nil =>
    cases b with
    | nil => exact ⟨rfl, (List.cons.inj h).2⟩
    | cons d b =>
      have : c = d := (List.cons.inj h).1
      exact absurd (this ▸ List.mem_cons_self ..) hb
  | cons d a ih =>
    cases b with
    | nil =>
      have : d = c := (List.cons.inj h).1
      exact absurd (this ▸ List.mem_cons_self ..) ha
    | cons e b =>
      obtain ⟨hde, h⟩ := List.cons.inj h
      obtain ⟨hab, hxy⟩ := ih (fun m => ha (List.mem_cons_of_mem _ m))
        (fun m => hb (List.mem_cons_of_mem _ m)) h
      exact ⟨by rw [hde, hab], hxy⟩

/-- the character of a key that tells sessions, statuses, the count and rooms apart -/
def Key.mark : Key → Char
  | .session _ => 's'
  | .status _ => 'u'
  | .online => 'o'
  | .room _ => 'm'
  | .player _ _ => 'm'

theorem getElem?_append_toList {p s : String} {c : Char} (h : p.toList[7]? = some c) :
    (p ++ s).toList[7]? = some c := by
  obtain ⟨hlt, _⟩ := List.getElem?_eq_some_iff.mp h
  rw [String.toList_append, List.getElem?_append_left hlt, h]

theorem Key.getElem?_text (k : Key) : k.text.toList[7]? = some k.mark := by
  have multiplayer : "server:multiplayer:".toList[7]? = some 'm' := by decide
  cases k with
  | session token =>
    have h : "server:session:".toList[7]? = some 's' := by decide
    exact getElem?_append_toList h
  | status user =>
    have h : "server:user_status:".toList[7]? = some 'u' := by decide
    exact getElem?_append_toList h
  | online =>
    show "server:online_users".toList[7]? = some 'o'
    decide
  | room id => exact getElem?_append_toList multiplayer
  | player id user =>
    exact getElem?_append_toList (getElem?_append_toList (getElem?_append_toList multiplayer))

theorem toInt_wholeText_inj {a b : Int32} (h : wholeText a.toInt = wholeText b.toInt) : a = b :=
  Int32.toInt_inj.mp (wholeText_injective h)

theorem Key.toList_text_room (id : Int32) :
    (Key.room id).text.toList = "server:multiplayer:".toList ++ wholeChars id.toInt := by
  show ("server:multiplayer:" ++ wholeText id.toInt).toList = _
  rw [String.toList_append, toList_wholeText]

/-- behind the id of the room a member's key goes on with a colon -/
theorem Key.toList_text_player (id user : Int32) :
    (Key.player id user).text.toList = "server:multiplayer:".toList ++
      (wholeChars id.toInt ++ ':' :: ("player:".toList ++ wholeChars user.toInt)) := by
  show ("server:multiplayer:" ++ wholeText id.toInt ++ ":player:" ++
    wholeText user.toInt).toList = _
  simp only [String.toList_append, toList_wholeText, List.append_assoc]
  rfl

theorem Key.room_ne_player (a b v : Int32) : (Key.room a).text ≠ (Key.player b v).text := by
  intro h
  have h := congrArg String.toList h
  rw [Key.toList_text_room, Key.toList_text_player] at h
  have hc : ':' ∈ wholeChars a.toInt := by
    rw [List.append_cancel_left h]
    exact List.mem_append_right _ (List.mem_cons_self ..)
  exact colon_notMem_wholeChars _ hc

theorem Key.player_inj {a u b v : Int32} (h : (Key.player a u).text = (Key.player b v).text) :
    a = b ∧ u = v := by
  have h := congrArg String.toList h
  rw [Key.toList_text_player, Key.toList_text_player] at h
  obtain ⟨hid, huser⟩ := append_cons_inj (colon_notMem_wholeChars _) (colon_notMem_wholeChars _)
    (List.append_cancel_left h)
  exact ⟨Int32.toInt_inj.mp (wholeChars_injective hid),
    Int32.toInt_inj.mp (wholeChars_injective (List.append_cancel_left huser))⟩

theorem Key.text_injective {k l : Key} (h : k.text = l.text) : k = l := by
  have hmark : k.mark = l.mark := by
    have := k.getElem?_text
    rw [h, l.getElem?_text] at this
    exact (Option.some.inj this).symm
  cases k with
  | session s =>
    cases l with
    | session t => rw [(String.append_right_inj _).mp h]
    | _ => exact absurd hmark (by simp [mark])
  | status u =>
    cases l with
    | status v => rw [toInt_wholeText_inj ((String.append_right_inj _).mp h)]
    | _ => exact absurd hmark (by simp [mark])
  | online =>
    cases l with
    | online => rfl
    | _ => exact absurd hmark (by simp [mark])
  | room a =>
    cases l with
    | room b => rw [toInt_wholeText_inj ((String.append_right_inj _).mp h)]
    | player b v => exact absurd h (Key.room_ne_player a b v)
    | _ => exact absurd hmark (by simp [mark])
  | player a u =>
    cases l with
    | room b => exact absurd h.symm (Key.room_ne_player b a u)
    | player b v =>
      obtain ⟨rfl, rfl⟩ := Key.player_inj h
      rfl
    | _ => exact absurd hmark (by simp [mark])

@[simp] theorem Key.text_inj {k l : Key} : k.text = l.text ↔ k = l :=
  ⟨Key.text_injective, fun h => h ▸ rfl⟩

end Cache
end RhythmLobby
