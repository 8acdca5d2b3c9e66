import Mathlib.Algebra.GroupWithZero.Nat
import Mathlib.Data.List.TakeWhile
import RhythmLobby.Database

/-!
# Who is known to the database

* `Database.sameName_iff`           names without a NUL are the same up to the capitals of ASCII;
* `PasswordHasher.verifyPassword_eq`   what is said of a password;
* `Database.account?_eq_some`       the account with a name;
* `Database.authenticate_eq_ok`     which account a name and a password open;
* `Database.authenticate_invalid`   what is said of all others.
-/

namespace RhythmLobby

/-! ## Names -/

/-- a character of ASCII that is a capital, and the small letter in its place -/
theorem toLower_cases (c : Char) : c.toLower = c ∨
    65 ≤ c.val.toNat ∧ c.val.toNat ≤ 90 ∧ c.toLower.val.toNat = c.val.toNat + 32 := by
  unfold Char.toLower
  split
  · rename_i hcapital
    obtain ⟨hlow, hhigh⟩ := hcapital
    have hA : 'A'.val.toNat = 65 := rfl
    have hZ : 'Z'.val.toNat = 90 := rfl
    have hshift : ('a'.val - 'A'.val).toNat = 32 := rfl
    rw [ge_iff_le, UInt32.le_iff_toNat_le, hA] at hlow
    rw [UInt32.le_iff_toNat_le, hZ] at hhigh
    refine .inr ⟨hlow, hhigh, ?_⟩
    show (c.val + ('a'.val - 'A'.val)).toNat = _
    rw [UInt32.toNat_add, hshift]
    omega
  · exact .inl rfl

theorem utf8Size_toLower (c : Char) : c.toLower.utf8Size = c.utf8Size := by
  rcases toLower_cases c with h | ⟨hlow, hhigh, h⟩
  · rw [h]
  · have hsmall : ∀ d : Char, d.val.toNat ≤ 127 → d.utf8Size = 1 := fun d hd =>
      Char.utf8Size_eq_one_iff.mpr (UInt32.le_iff_toNat_le.mpr hd)
    rw [hsmall c (by omega), hsmall _ (by omega)]

theorem toLower_eq_nul (c : Char) : c.toLower = '\x00' ↔ c = '\x00' := by
  rcases toLower_cases c with h | ⟨hlow, hhigh, h⟩
  · rw [h]
  · have hnul : '\x00'.val.toNat = 0 := rfl
    constructor
    · intro heq
      rw [heq] at h
      omega
    · intro heq
      rw [heq] at hlow
      omega

theorem utf8ByteSize_eq (s : String) : s.utf8ByteSize = (s.toList.map Char.utf8Size).sum := by
  have hbytes : s.utf8ByteSize = (s.toList.flatMap String.utf8EncodeChar).toByteArray.size := by
    show s.toByteArray.size = _
    rw [← String.utf8Encode_toList]
    rfl
  rw [hbytes, List.size_toByteArray, List.length_flatMap]
  simp

/-- a text with the capitals of ASCII made small -/
def small (name : String) : List Char := name.toList.map Char.toLower

theorem utf8ByteSize_small (name : String) :
    name.utf8ByteSize = ((small name).map Char.utf8Size).sum := by
  rw [utf8ByteSize_eq, small, List.map_map]
  exact congrArg List.sum (List.map_congr_left fun c _ => (utf8Size_toLower c).symm)

/-- the folded form of a name, read off its small letters -/
theorem foldedName_eq (name : String) :
    Database.foldedName name = (small name).takeWhile (· ≠ '\x00') := by
  rw [Database.foldedName, small, List.takeWhile_map]
  congr 2
  funext c
  simp [toLower_eq_nul]

/-- a beginning of a text that is as long in bytes is all of it -/
theorem takeWhile_eq_of_size {p : Char → Bool} {cs : List Char}
    (h : (cs.map Char.utf8Size).sum ≤ ((cs.takeWhile p).map Char.utf8Size).sum) :
    cs.takeWhile p = cs := by
  induction cs with
  | nil => rfl
  | cons c cs ih =>
    have hc := c.utf8Size_pos
    by_cases hp : p c = true
    · rw [List.takeWhile_cons_of_pos hp] at h ⊢
      simp only [List.map_cons, List.sum_cons] at h
      rw [ih (by omega)]
    · rw [List.takeWhile_cons_of_neg hp] at h
      simp only [List.map_cons, List.sum_cons, List.map_nil, List.sum_nil] at h
      omega

theorem Database.sameName_eq_true {a b : String} : Database.sameName a b = true ↔
    a.utf8ByteSize = b.utf8ByteSize ∧ Database.foldedName a = Database.foldedName b := by
  rw [Database.sameName, Bool.and_eq_true, beq_iff_eq, beq_iff_eq]

/-- Names are the same if they are so up to the capitals of ASCII, and only then unless both of
them contain a NUL. -/
theorem Database.sameName_iff {a b : String} (h : '\x00' ∉ a.toList ∨ '\x00' ∉ b.toList) :
    Database.sameName a b = true ↔ small a = small b := by
  have hplain : ∀ {name : String}, '\x00' ∉ name.toList →
      (small name).takeWhile (· ≠ '\x00') = small name := by
    intro name hname
    rw [List.takeWhile_eq_self_iff]
    intro c hc
    obtain ⟨d, hd, rfl⟩ := List.mem_map.mp hc
    simp only [ne_eq, decide_not, Bool.not_eq_true', decide_eq_false_iff_not, toLower_eq_nul]
    intro heq
    subst heq
    exact hname hd
  -- the folded form of one name is all of it, so that by its size the other's is, too
  have hother : ∀ {x y : String}, '\x00' ∉ x.toList → x.utf8ByteSize = y.utf8ByteSize →
      Database.foldedName x = Database.foldedName y → small x = small y := by
    intro x y hx hsize hfolded
    rw [foldedName_eq, foldedName_eq, hplain hx] at hfolded
    rw [utf8ByteSize_small, utf8ByteSize_small, hfolded] at hsize
    rw [hfolded]
    exact takeWhile_eq_of_size (Nat.le_of_eq hsize.symm)
  rw [sameName_eq_true]
  constructor
  · intro hboth
    obtain ⟨hsize, hfolded⟩ := hboth
    rcases h with ha | hb
    · exact hother ha hsize hfolded
    · exact (hother hb hsize.symm hfolded.symm).symm
  · intro hsmall
    rw [utf8ByteSize_small, utf8ByteSize_small, foldedName_eq, foldedName_eq, hsmall]
    exact ⟨rfl, rfl⟩

/-! ## Passwords -/

namespace PasswordHasher

variable {H : PasswordHasher} {password hash : String}

/-- the text parses as a hash, and the hash verifies the password -/
def Opens (H : PasswordHasher) (hash password : String) : Prop :=
  ∃ parsed, H.parse hash = some parsed ∧ H.verifies parsed password = true

theorem verifyPassword_of_opens (h : H.Opens hash password) :
    H.verifyPassword password hash = .ok () := by
  obtain ⟨parsed, hparsed, hverifies⟩ := h
  simp only [verifyPassword, hparsed, hverifies]
  rfl

/-- a text that is no hash and a hash of another password are answered alike -/
theorem verifyPassword_of_not_opens (h : ¬ H.Opens hash password) :
    H.verifyPassword password hash = .error .invalidCredentials := by
  rw [verifyPassword]
  cases hparsed : H.parse hash with
  | none => rfl
  | some parsed =>
    have hverifies : H.verifies parsed password = false :=
      Bool.eq_false_iff.mpr fun hv => h ⟨parsed, hparsed, hv⟩
    simp only [hverifies]
    rfl

end PasswordHasher

/-! ## Accounts -/

namespace Account

/-- the id fits in 32 bits -/
def Fits (a : Account) : Prop :=
  Int32.minValue.toInt ≤ a.id.toInt ∧ a.id.toInt ≤ Int32.maxValue.toInt

/-- what a session learns of an account -/
def profile (a : Account) : Profile :=
  ⟨Int32.ofInt a.id.toInt, a.steamId, a.username, a.groups, a.muteEnd, a.country, a.avatarUrl⟩

end Account

theorem toInt_ofInt_eq {x : Int} : (Int32.ofInt x).toInt = x ↔
    Int32.minValue.toInt ≤ x ∧ x ≤ Int32.maxValue.toInt := by
  have hmin : Int32.minValue.toInt = -2147483648 := rfl
  have hmax : Int32.maxValue.toInt = 2147483647 := rfl
  have hsize : (Int32.size : Int) = 4294967296 := rfl
  rw [Int32.toInt_ofInt, hmin, hmax]
  constructor
  · intro h
    have hlow := Int.le_bmod (x := x) (m := Int32.size) (by decide)
    have hhigh := Int.bmod_lt (x := x) (m := Int32.size) (by decide)
    rw [h] at hlow hhigh
    omega
  · intro hboth
    obtain ⟨hlow, hhigh⟩ := hboth
    exact Int.bmod_eq_of_le (by omega) (by omega)

theorem Account.Fits.id {a : Account} (h : a.Fits) : a.profile.id.toInt = a.id.toInt :=
  toInt_ofInt_eq.mpr h

theorem narrow_eq_ok {column : String} {x : Int} {y : Int32} : narrow column x = .ok y ↔
    (Int32.minValue.toInt ≤ x ∧ x ≤ Int32.maxValue.toInt) ∧ y = Int32.ofInt x := by
  have hnarrow : narrow column x = if (Int32.ofInt x).toInt = x then .ok (Int32.ofInt x) else
      .error (.outOfRange column x) := rfl
  rw [← toInt_ofInt_eq, hnarrow]
  split
  · rename_i h
    rw [Except.ok.injEq, eq_comm]
    exact (and_iff_right h).symm
  · rename_i h
    exact ⟨nofun, fun hy => absurd hy.1 h⟩

namespace Database

variable {d : Database} {H : PasswordHasher} {name password : String}

/-- no two accounts have the same name -/
def Distinct (d : Database) : Prop :=
  ∀ a ∈ d.accounts, ∀ b ∈ d.accounts, sameName a.username b.username = true → a = b

theorem account?_some {a : Account} (h : d.account? name = some a) :
    a ∈ d.accounts ∧ sameName a.username name = true := by
  unfold account? at h
  exact ⟨List.mem_of_find?_eq_some h, (List.find?_some h :)⟩

theorem account?_eq_some (hd : d.Distinct) {a : Account} :
    d.account? name = some a ↔ a ∈ d.accounts ∧ sameName a.username name = true := by
  refine ⟨account?_some, ?_⟩
  intro h
  obtain ⟨ha, hname⟩ := h
  obtain ⟨b, hb⟩ : ∃ b, d.account? name = some b := by
    rw [← Option.isSome_iff_exists, account?, List.find?_isSome]
    exact ⟨a, ha, hname⟩
  obtain ⟨hbmem, hbname⟩ := account?_some hb
  have hsame : sameName a.username b.username = true := by
    rw [sameName_eq_true] at hname hbname ⊢
    exact ⟨hname.1.trans hbname.1.symm, hname.2.trans hbname.2.symm⟩
  rw [hd a ha b hbmem hsame]
  exact hb

theorem authenticate_of_account (hopen : d.isOpen = true) {a : Account}
    (ha : d.account? name = some a) : d.authenticate H name password = do
      H.verifyPassword password a.passwordHash
      let id ← narrow "users.id" a.id.toInt
      return { a.profile with id := id } := by
  simp only [authenticate, hopen, ha]
  rfl

theorem authenticate_of_closed (hclosed : d.isOpen = false) :
    d.authenticate H name password = .error .unavailable := by
  simp only [authenticate, hclosed]
  rfl

theorem authenticate_invalid (hopen : d.isOpen = true)
    (h : ∀ a ∈ d.accounts, sameName a.username name = true → ¬ H.Opens a.passwordHash password) :
    d.authenticate H name password = .error .invalidCredentials := by
  cases hfound : d.account? name with
  | none =>
    simp only [authenticate, hopen, hfound]
    rfl
  | some a =>
    obtain ⟨ha, hname⟩ := account?_some hfound
    rw [authenticate_of_account hopen hfound,
      PasswordHasher.verifyPassword_of_not_opens (h a ha hname)]
    rfl

/-- Where names are distinct, a name and a password open the account with the name, if the text that
is stored with it parses and verifies the password. -/
theorem authenticate_eq_ok (hd : d.Distinct) {profile : Profile} :
    d.authenticate H name password = .ok profile ↔
      d.isOpen = true ∧ ∃ a ∈ d.accounts, sameName a.username name = true ∧
        H.Opens a.passwordHash password ∧ a.Fits ∧ profile = a.profile := by
  constructor
  · intro h
    have hopen : d.isOpen = true := by
      refine (Bool.not_eq_false _).mp fun hclosed => ?_
      rw [authenticate_of_closed hclosed] at h
      cases h
    by_cases hsome : ∃ a ∈ d.accounts, sameName a.username name = true ∧
        H.Opens a.passwordHash password
    · obtain ⟨a, ha, hname, hopens⟩ := hsome
      rw [authenticate_of_account hopen ((account?_eq_some hd).mpr ⟨ha, hname⟩),
        PasswordHasher.verifyPassword_of_opens hopens] at h
      cases hid : narrow "users.id" a.id.toInt with
      | error e =>
        rw [hid] at h
        cases h
      | ok id =>
        obtain ⟨hfits, rfl⟩ := narrow_eq_ok.mp hid
        rw [hid] at h
        cases h
        exact ⟨hopen, a, ha, hname, hopens, hfits, rfl⟩
    · have hnone : ∀ a ∈ d.accounts, sameName a.username name = true →
          ¬ H.Opens a.passwordHash password := fun a ha hname hopens =>
        hsome ⟨a, ha, hname, hopens⟩
      rw [authenticate_invalid hopen hnone] at h
      cases h
  · intro hboth
    obtain ⟨hopen, a, ha, hname, hopens, hfits, rfl⟩ := hboth
    rw [authenticate_of_account hopen ((account?_eq_some hd).mpr ⟨ha, hname⟩),
      PasswordHasher.verifyPassword_of_opens hopens]
    show (narrow "users.id" a.id.toInt >>= _) = _
    rw [narrow_eq_ok.mpr ⟨hfits, rfl⟩]
    rfl

end Database
end RhythmLobby
