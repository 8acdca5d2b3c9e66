import Mathlib.Data.List.Nodup
import RhythmLobby.Database

/-!
# Ranks

The rank of a user is one more than the number of better rows, once among all rows of a mode and
once among those of users from a country.  Where ratings are numbers, ranks put users in the order
of their ratings, and users with equal ratings share a rank.

* `better`                  how many rows have a higher rating;
* `better_lt_iff`, `better_eq_iff`   it puts rows in the order of their ratings, the best first;
* `Database.WellKept`       what the columns of the database promise;
* `Database.joined`         better rows with the accounts of their users;
* `Database.countryRank_joined`   no better row counts twice for a country;
* `ranks_follow_ratings`    ranks, ratings, modes and countries.
-/

namespace RhythmLobby

/-! ## Ratings -/

namespace Binary64

variable {x y : Binary64}

theorem lt_iff (hx : x.isNaN = false) (hy : y.isNaN = false) :
    x.lt y = true ↔ x.order < y.order := by
  simp [lt, hx, hy]

theorem eqv_iff (hx : x.isNaN = false) (hy : y.isNaN = false) :
    x.eqv y = true ↔ x.order = y.order := by
  simp [eqv, hx, hy]

theorem order_of_isZero (h : x.isZero = true) : x.order = 0 := by
  have hmagnitude : x.magnitude = 0 := by simpa [isZero] using h
  have hunits : x.units = 0 := by simp [units, significand, exponent, fraction, hmagnitude]
  simp [order, hunits]

theorem isNaN_of_isZero (h : x.isZero = true) : x.isNaN = false := by
  have hmagnitude : x.magnitude = 0 := by simpa [isZero] using h
  simp [isNaN, exponent, fraction, hmagnitude]

theorem dropZeroSign_eqv (hx : x.isNaN = false) : x.dropZeroSign.eqv x = true := by
  unfold dropZeroSign
  split
  · rename_i hzero
    rw [eqv_iff (isNaN_of_isZero (by decide)) hx, order_of_isZero hzero]
    decide
  · exact eqv_refl hx

end Binary64

/-! ## Better rows -/

/-- how many rows have a higher rating -/
def better (rows : List StatsRow) (rating : Binary64) : Nat :=
  rows.countP fun r => rating.lt r.rating

theorem better_le (rows : List StatsRow) (rating : Binary64) : better rows rating ≤ rows.length :=
  List.countP_le_length

/-- a test that fails at one element only of those where another one holds -/
theorem countP_lt_of_mem {α : Type} {p q : α → Bool} {l : List α}
    (himp : ∀ x ∈ l, p x = true → q x = true) {x : α} (hx : x ∈ l) (hp : ¬ p x = true)
    (hq : q x = true) : l.countP p < l.countP q := by
  obtain ⟨s, t, rfl⟩ := List.append_of_mem hx
  have hs : s.countP p ≤ s.countP q :=
    List.countP_mono_left fun y hy => himp y (List.mem_append_left _ hy)
  have ht : t.countP p ≤ t.countP q :=
    List.countP_mono_left fun y hy => himp y (List.mem_append_right _ (List.mem_cons_of_mem _ hy))
  rw [List.countP_append, List.countP_append, List.countP_cons_of_neg hp,
    List.countP_cons_of_pos hq]
  omega

/-! ## Ranks of 64 bits -/

theorem toInt_rank {n : Nat} (h : (n : Int) ≤ Int64.maxValue.toInt) :
    (Int64.ofNat n).toInt = n := by
  have hmax : Int64.maxValue.toInt = 9223372036854775807 := rfl
  exact Int64.toInt_ofNat_of_lt (by omega)

theorem rank_lt_iff {m n : Nat} (hm : (m : Int) ≤ Int64.maxValue.toInt)
    (hn : (n : Int) ≤ Int64.maxValue.toInt) :
    Int64.ofNat m < Int64.ofNat n ↔ m < n := by
  rw [Int64.lt_iff_toInt_lt, toInt_rank hm, toInt_rank hn, Int.ofNat_lt]

theorem rank_eq_iff {m n : Nat} (hm : (m : Int) ≤ Int64.maxValue.toInt)
    (hn : (n : Int) ≤ Int64.maxValue.toInt) :
    Int64.ofNat m = Int64.ofNat n ↔ m = n := by
  rw [← Int64.toInt_inj, toInt_rank hm, toInt_rank hn, Int.ofNat_inj]

/-! ## The order of the rows -/

section

variable {rows : List StatsRow} {a b : StatsRow} (hrated : ∀ r ∈ rows, r.rating.isNaN = false)
  (ha : a ∈ rows) (hb : b ∈ rows)
include hrated ha hb

/-- whoever has the lower rating is behind the other one, and behind all who are ahead of him -/
theorem better_lt (hlt : b.rating.order < a.rating.order) :
    better rows a.rating < better rows b.rating := by
  refine countP_lt_of_mem (fun r hr h => ?_) ha ?_ ?_
  · rw [Binary64.lt_iff (hrated a ha) (hrated r hr)] at h
    rw [Binary64.lt_iff (hrated b hb) (hrated r hr)]
    exact Int.lt_trans hlt h
  · rw [Binary64.lt_iff (hrated a ha) (hrated a ha)]
    exact Int.lt_irrefl _
  · exact (Binary64.lt_iff (hrated b hb) (hrated a ha)).mpr hlt

theorem better_congr (heq : a.rating.order = b.rating.order) :
    better rows a.rating = better rows b.rating := by
  refine List.countP_congr fun r hr => ?_
  rw [Binary64.lt_iff (hrated a ha) (hrated r hr), Binary64.lt_iff (hrated b hb) (hrated r hr), heq]

theorem better_lt_iff :
    better rows a.rating < better rows b.rating ↔ b.rating.lt a.rating = true := by
  rw [Binary64.lt_iff (hrated b hb) (hrated a ha)]
  refine ⟨fun h => ?_, better_lt hrated ha hb⟩
  rcases Int.lt_trichotomy b.rating.order a.rating.order with hlt | heq | hlt
  · exact hlt
  · rw [better_congr hrated hb ha heq] at h
    exact absurd h (Nat.lt_irrefl _)
  · exact absurd h (Nat.lt_asymm (better_lt hrated hb ha hlt))

theorem better_eq_iff :
    better rows a.rating = better rows b.rating ↔ a.rating.eqv b.rating = true := by
  rw [Binary64.eqv_iff (hrated a ha) (hrated b hb)]
  refine ⟨fun h => ?_, better_congr hrated ha hb⟩
  rcases Int.lt_trichotomy a.rating.order b.rating.order with hlt | heq | hlt
  · exact absurd h (Nat.ne_of_gt (better_lt hrated hb ha hlt))
  · exact heq
  · exact absurd h (Nat.ne_of_lt (better_lt hrated ha hb hlt))

theorem ranks_order (hfew : (rows.length : Int) < Int64.maxValue.toInt) :
    (Int64.ofNat (better rows a.rating + 1) < Int64.ofNat (better rows b.rating + 1) ↔
      b.rating.lt a.rating = true) ∧
    (Int64.ofNat (better rows a.rating + 1) = Int64.ofNat (better rows b.rating + 1) ↔
      a.rating.eqv b.rating = true) := by
  have hfits : ∀ x, ((better rows x + 1 : Nat) : Int) ≤ Int64.maxValue.toInt := fun x => by
    have := better_le rows x
    omega
  rw [rank_lt_iff (hfits _) (hfits _), rank_eq_iff (hfits _) (hfits _), Nat.add_lt_add_iff_right,
    Nat.add_right_cancel_iff]
  exact ⟨better_lt_iff hrated ha hb, better_eq_iff hrated ha hb⟩

end

namespace Database

/-! ## What is stored -/

/-- what the columns of the database promise -/
structure WellKept (d : Database) : Prop where
  /-- no two accounts have one id -/
  ids : (d.accounts.map (·.id)).Nodup
  /-- a user has at most one row in a mode -/
  pairs : (d.rows.map fun r => (r.user, r.mode)).Nodup
  /-- every rating is a number -/
  rated : ∀ r ∈ d.rows, r.rating.isNaN = false
  /-- the rows can be counted with 64 bits -/
  few : (d.rows.length : Int) < Int64.maxValue.toInt

/-- the database has a row of a user in a mode -/
def Holds (d : Database) (user : Int32) (mode : GameMode) (r : StatsRow) : Prop :=
  r ∈ d.rows ∧ r.user.toInt = user.toInt ∧ r.mode.toInt = mode.number

variable {d : Database} {user : Int32} {country : String} {mode : GameMode} {r : StatsRow}
  {s : UserStats}

theorem mem_rowsOf : r ∈ d.rowsOf mode ↔ r ∈ d.rows ∧ r.mode.toInt = mode.number := by
  rw [rowsOf, List.mem_filter, beq_iff_eq]

theorem Holds.mem_rowsOf (h : d.Holds user mode r) : r ∈ d.rowsOf mode :=
  Database.mem_rowsOf.mpr ⟨h.1, h.2.2⟩

theorem row?_eq_none (h : ∀ r, ¬ d.Holds user mode r) : d.row? user mode = none := by
  rw [row?, List.find?_eq_none]
  intro r hr huser
  obtain ⟨hmem, hmode⟩ := mem_rowsOf.mp hr
  exact h r ⟨hmem, beq_iff_eq.mp huser, hmode⟩

/-- a user has one row in a mode, and this is the one that is read -/
theorem Holds.row? (hd : d.WellKept) (h : d.Holds user mode r) : d.row? user mode = some r := by
  obtain ⟨r', hr'⟩ : ∃ r', d.row? user mode = some r' := by
    rw [← Option.isSome_iff_exists, Database.row?, List.find?_isSome]
    exact ⟨r, h.mem_rowsOf, beq_iff_eq.mpr h.2.1⟩
  have huser : r'.user.toInt = user.toInt := beq_iff_eq.mp (List.find?_some hr' :)
  obtain ⟨hmem, hmode⟩ := Database.mem_rowsOf.mp (List.mem_of_find?_eq_some hr')
  have hpair : (r'.user, r'.mode) = (r.user, r.mode) := by
    rw [Int64.toInt_inj.mp (huser.trans h.2.1.symm), Int64.toInt_inj.mp (hmode.trans h.2.2.symm)]
  rw [hr', List.inj_on_of_nodup_map hd.pairs hmem h.1 hpair]

theorem WellKept.rowsOf_rated (hd : d.WellKept) :
    ∀ r ∈ d.rowsOf mode, r.rating.isNaN = false :=
  fun r hr => hd.rated r (Database.mem_rowsOf.mp hr).1

theorem length_rowsOf_le (d : Database) (mode : GameMode) :
    (d.rowsOf mode).length ≤ d.rows.length := List.length_filter_le ..

/-! ## What is read -/

/-- the rows of a mode whose users live in a country -/
def rowsFrom (d : Database) (country : String) (mode : GameMode) : List StatsRow :=
  (d.rowsOf mode).filter fun r => d.livesIn country r.user

theorem globalRank_eq (d : Database) (mode : GameMode) (rating : Binary64) :
    d.globalRank mode rating = better (d.rowsOf mode) rating + 1 := rfl

theorem countryRank_eq (d : Database) (country : String) (mode : GameMode) (rating : Binary64) :
    d.countryRank country mode rating = better (d.rowsFrom country mode) rating + 1 := by
  rw [countryRank, better, rowsFrom, List.countP_filter]
  simp only [Bool.and_comm]

theorem countryRank_le (d : Database) (country : String) (mode : GameMode) (rating : Binary64) :
    d.countryRank country mode rating ≤ d.globalRank mode rating := by
  rw [countryRank_eq, globalRank_eq]
  exact Nat.add_le_add_right (List.filter_sublist.countP_le ..) 1

theorem globalRank_le (d : Database) (mode : GameMode) (rating : Binary64) :
    d.globalRank mode rating ≤ (d.rowsOf mode).length + 1 :=
  Nat.add_le_add_right (better_le ..) 1

/-- the row that is read of a user -/
def readRow (d : Database) (user : Int32) (mode : GameMode) : StatsRow :=
  (d.row? user mode).getD (noRow user mode)

/-- what is said of a user with a row -/
def statsOf (d : Database) (country : String) (mode : GameMode) (r : StatsRow)
    (playCount : Int32) : UserStats where
  mode := mode
  totalScore := r.totalScore
  rankedScore := r.rankedScore
  accuracy := r.accuracy.dropZeroSign
  rating := r.rating.dropZeroSign
  playCount := playCount
  globalRank := Int64.ofNat (d.globalRank mode r.rating)
  countryRank := Int64.ofNat (d.countryRank country mode r.rating)

theorem userStats_eq (d : Database) (user : Int32) (country : String) (mode : GameMode) :
    d.userStats user country mode =
      if d.isOpen then
        (narrow "user_stats.play_count" (d.readRow user mode).playCount.toInt).map
          (d.statsOf country mode (d.readRow user mode))
      else .error .unavailable := by
  unfold userStats readRow
  cases d.isOpen with
  | false => rfl
  | true =>
    dsimp only
    generalize (d.row? user mode).getD (noRow user mode) = r
    cases narrow "user_stats.play_count" r.playCount.toInt with
    | error e => rfl
    | ok n => rfl

theorem userStats_eq_ok (h : d.userStats user country mode = .ok s) :
    ∃ n, s = d.statsOf country mode (d.readRow user mode) n := by
  rw [userStats_eq] at h
  split at h
  · cases hn : narrow "user_stats.play_count" (d.readRow user mode).playCount.toInt with
    | error e =>
      rw [hn] at h
      cases h
    | ok n =>
      rw [hn] at h
      cases h
      exact ⟨n, rfl⟩
  · cases h

/-- nothing stands in the way of the achievements of a user without a row -/
theorem userStats_of_none (hopen : d.isOpen = true) (h : d.row? user mode = none) :
    d.userStats user country mode = .ok (d.statsOf country mode (noRow user mode) 0) := by
  rw [userStats_eq, if_pos hopen, readRow, h]
  rfl

/-! ## Rows and accounts together -/

/-- the better rows of a mode, each with the accounts of its user that have a country -/
def joined (d : Database) (country : String) (mode : GameMode) (rating : Binary64) :
    List (StatsRow × Account) :=
  (d.rowsOf mode).flatMap fun r => (d.accounts.filter fun a =>
    a.id == r.user && a.country == country && rating.lt r.rating).map fun a => (r, a)

theorem countP_accounts (hids : (d.accounts.map (·.id)).Nodup) (country : String) (user : Int64) :
    d.accounts.countP (fun a => a.id == user && a.country == country) =
      if d.livesIn country user then 1 else 0 := by
  have hle : d.accounts.countP (fun a => a.id == user && a.country == country) ≤ 1 := by
    calc d.accounts.countP (fun a => a.id == user && a.country == country)
        ≤ d.accounts.countP fun a => a.id == user :=
          List.countP_mono_left fun a _ h => (Bool.and_eq_true_iff.mp h).1
      _ = (d.accounts.map (·.id)).count user := by rw [List.count, List.countP_map]; rfl
      _ ≤ 1 := List.nodup_iff_count_le_one.mp hids user
  have hpos : 0 < d.accounts.countP (fun a => a.id == user && a.country == country) ↔
      d.livesIn country user = true := by
    rw [List.countP_pos_iff, livesIn, List.any_eq_true]
  split
  · rename_i hlives
    have := hpos.mpr hlives
    omega
  · rename_i hnot
    have := mt hpos.mp hnot
    omega

theorem length_flatMap_eq_countP {α β : Type} {f : α → List β} {p : α → Bool}
    (h : ∀ x, (f x).length = if p x then 1 else 0) (l : List α) :
    (l.flatMap f).length = l.countP p := by
  induction l with
  | nil => rfl
  | cons x l ih =>
    rw [List.flatMap_cons, List.length_append, h, ih, List.countP_cons, Nat.add_comm]

theorem countryRank_joined (hids : (d.accounts.map (·.id)).Nodup) (country : String)
    (mode : GameMode) (rating : Binary64) :
    d.countryRank country mode rating = (d.joined country mode rating).length + 1 := by
  rw [countryRank, joined, length_flatMap_eq_countP fun r => ?_]
  rw [List.length_map, ← List.countP_eq_length_filter]
  cases rating.lt r.rating with
  | true => simpa using countP_accounts hids country r.user
  | false => simp

/-! ## Other modes -/

/-- the database with other ratings in all other modes -/
def rerated (d : Database) (mode : GameMode) (f : StatsRow → Binary64) : Database :=
  { d with rows := d.rows.map fun r : StatsRow =>
      if r.mode.toInt = (mode.number : Int) then r else { r with rating := f r } }

theorem rowsOf_rerated (d : Database) (mode : GameMode) (f : StatsRow → Binary64) :
    (d.rerated mode f).rowsOf mode = d.rowsOf mode := by
  rw [rowsOf, rowsOf, rerated]
  induction d.rows with
  | nil => rfl
  | cons r rows ih =>
    by_cases hmode : r.mode.toInt = (mode.number : Int)
    · simpa [hmode] using ih
    · simpa [hmode] using ih

theorem userStats_congr {d' : Database} (hopen : d'.isOpen = d.isOpen)
    (haccounts : d'.accounts = d.accounts) (hrows : d'.rowsOf mode = d.rowsOf mode) :
    d'.userStats user country mode = d.userStats user country mode := by
  have hread : d'.readRow user mode = d.readRow user mode := by
    rw [readRow, row?, hrows]
    rfl
  have hstats : d'.statsOf country mode = d.statsOf country mode := by
    funext r n
    simp only [statsOf, globalRank, countryRank, livesIn, hrows, haccounts]
  rw [userStats_eq, userStats_eq, hopen, hread, hstats]

/-! ## Ranks -/

theorem Holds.stats (hd : d.WellKept) (h : d.Holds user mode r)
    (hs : d.userStats user country mode = .ok s) : ∃ n, s = d.statsOf country mode r n := by
  obtain ⟨n, rfl⟩ := userStats_eq_ok hs
  refine ⟨n, ?_⟩
  rw [readRow, h.row? hd, Option.getD_some]

theorem WellKept.few_rowsOf (hd : d.WellKept) (mode : GameMode) :
    ((d.rowsOf mode).length : Int) < Int64.maxValue.toInt := by
  have := d.length_rowsOf_le mode
  have := hd.few
  omega

theorem WellKept.few_rowsFrom (hd : d.WellKept) (country : String) (mode : GameMode) :
    ((d.rowsFrom country mode).length : Int) < Int64.maxValue.toInt := by
  have : (d.rowsFrom country mode).length ≤ (d.rowsOf mode).length := List.length_filter_le ..
  have := hd.few_rowsOf mode
  omega

theorem WellKept.toInt_ranks (hd : d.WellKept) (country : String) (mode : GameMode)
    (r : StatsRow) (n : Int32) :
    (d.statsOf country mode r n).globalRank.toInt = d.globalRank mode r.rating ∧
    (d.statsOf country mode r n).countryRank.toInt = d.countryRank country mode r.rating := by
  have hfew := hd.few_rowsOf mode
  have hglobal := d.globalRank_le mode r.rating
  have hcountry := d.countryRank_le country mode r.rating
  exact ⟨toInt_rank (by omega), toInt_rank (by omega)⟩

end Database

/-- Where ratings are numbers, users with rows are ranked in the order of their ratings, among all
users of a mode and among those from one country.  No rank is below one or above the number of rows
by more than one, and no user has a lower rank in the world than at home.  A user without a row
stands behind all who have a positive rating, and ratings of other modes do not matter. -/
theorem ranks_follow_ratings (d : Database) (hd : d.WellKept) (mode : GameMode) :
    -- two users with rows
    (∀ (a b : Int32) (ra rb : StatsRow) (home away : String) (sa sb : UserStats),
      d.Holds a mode ra → d.Holds b mode rb →
      d.userStats a home mode = .ok sa → d.userStats b away mode = .ok sb →
        sa.rating.eqv ra.rating = true ∧
        (sa.globalRank < sb.globalRank ↔ rb.rating.lt ra.rating = true) ∧
        (sa.globalRank = sb.globalRank ↔ ra.rating.eqv rb.rating = true) ∧
        (home = away → d.livesIn home ra.user = true → d.livesIn home rb.user = true →
          (sa.countryRank < sb.countryRank ↔ rb.rating.lt ra.rating = true) ∧
          (sa.countryRank = sb.countryRank ↔ ra.rating.eqv rb.rating = true))) ∧
    -- any user
    (∀ (user : Int32) (country : String) (s : UserStats),
      d.userStats user country mode = .ok s →
        1 ≤ s.countryRank.toInt ∧ s.countryRank.toInt ≤ s.globalRank.toInt ∧
        s.globalRank.toInt ≤ (d.rowsOf mode).length + 1) ∧
    -- a user without a row
    (∀ (user : Int32) (country : String), d.isOpen = true → (∀ r, ¬ d.Holds user mode r) →
      ∃ s, d.userStats user country mode = .ok s ∧
        s.globalRank.toInt =
          (d.rowsOf mode).countP (fun r => Binary64.zero.lt r.rating) + 1 ∧
        s.countryRank.toInt = (d.joined country mode .zero).length + 1) ∧
    -- other modes
    (∀ (f : StatsRow → Binary64) (user : Int32) (country : String),
      (d.rerated mode f).userStats user country mode = d.userStats user country mode) := by
  refine ⟨fun a b ra rb home away sa sb ha hb hsa hsb => ?_, fun user country s hs => ?_,
    fun user country hopen hnone => ?_, fun f user country => ?_⟩
  · obtain ⟨na, rfl⟩ := ha.stats hd hsa
    obtain ⟨nb, rfl⟩ := hb.stats hd hsb
    obtain ⟨hlt, heq⟩ := ranks_order hd.rowsOf_rated ha.mem_rowsOf hb.mem_rowsOf
      (hd.few_rowsOf mode)
    refine ⟨Binary64.dropZeroSign_eqv (hd.rated ra ha.1), hlt, heq, ?_⟩
    intro hsame hlivesa hlivesb
    subst hsame
    have hrated : ∀ r ∈ d.rowsFrom home mode, r.rating.isNaN = false := fun r hr =>
      hd.rowsOf_rated r (List.mem_of_mem_filter hr)
    have horder := ranks_order hrated (List.mem_filter.mpr ⟨ha.mem_rowsOf, hlivesa⟩)
      (List.mem_filter.mpr ⟨hb.mem_rowsOf, hlivesb⟩) (hd.few_rowsFrom home mode)
    simpa only [Database.statsOf, Database.countryRank_eq] using horder
  · obtain ⟨n, rfl⟩ := Database.userStats_eq_ok hs
    obtain ⟨hglobal, hcountry⟩ := hd.toInt_ranks country mode (d.readRow user mode) n
    have hle := d.countryRank_le country mode (d.readRow user mode).rating
    have htop := d.globalRank_le mode (d.readRow user mode).rating
    have hpos : 1 ≤ d.countryRank country mode (d.readRow user mode).rating :=
      Nat.le_add_left ..
    omega
  · obtain ⟨hglobal, hcountry⟩ := hd.toInt_ranks country mode (Database.noRow user mode) 0
    refine ⟨_, Database.userStats_of_none hopen (Database.row?_eq_none hnone), ?_, ?_⟩
    · rw [hglobal]
      rfl
    · rw [hcountry, Database.countryRank_joined hd.ids]
      rfl
  · exact Database.userStats_congr rfl rfl (d.rowsOf_rerated mode f)

/-! ## Four users and a newcomer -/

namespace Database

def settler (id : Int64) (country : String) : Account :=
  ⟨id, "S", "ann", 0, 0, country, "", "none"⟩

def scored (user mode : Int64) (rating : Nat) : StatsRow :=
  ⟨user, mode, 1000, 900, .ofNat 97, .ofNat rating, 12⟩

/-- three users from one country and one from another, two of them with the same rating -/
def leaders : Database where
  accounts := [settler 1 "NL", settler 2 "US", settler 3 "NL", settler 4 "NL"]
  rows := [scored 1 1 300, scored 2 1 200, scored 3 1 100, scored 4 1 100, scored 3 4 999]
  isOpen := true

theorem wellKept_leaders : leaders.WellKept where
  ids := by decide
  pairs := by decide
  rated := by decide +kernel
  few := by decide

end Database

open Database in
theorem ranks_follow_ratings_leaders : ∃ top low tied new : UserStats,
    leaders.userStats 1 "NL" .keys4 = .ok top ∧ leaders.userStats 3 "NL" .keys4 = .ok low ∧
    leaders.userStats 4 "NL" .keys4 = .ok tied ∧ leaders.userStats 5 "NL" .keys4 = .ok new ∧
    top.globalRank < low.globalRank ∧ low.globalRank = tied.globalRank ∧
    top.countryRank < low.countryRank ∧ low.countryRank = tied.countryRank ∧
    new.globalRank.toInt = 5 ∧ new.countryRank.toInt = 4 := by
  obtain ⟨hrows, -, hnone, -⟩ := ranks_follow_ratings leaders wellKept_leaders .keys4
  have htop : leaders.Holds 1 .keys4 (scored 1 1 300) := ⟨.head _, rfl, rfl⟩
  have hlow : leaders.Holds 3 .keys4 (scored 3 1 100) := ⟨.tail _ (.tail _ (.head _)), rfl, rfl⟩
  have htied : leaders.Holds 4 .keys4 (scored 4 1 100) :=
    ⟨.tail _ (.tail _ (.tail _ (.head _))), rfl, rfl⟩
  have hnobody : ∀ r ∈ leaders.rows, r.user.toInt ≠ (5 : Int32).toInt := by decide
  have hnew : ∀ r, ¬ leaders.Holds 5 .keys4 r := fun r h => hnobody r h.1 h.2.1
  obtain ⟨new, hsnew, hglobal, hcountry⟩ := hnone 5 "NL" rfl hnew
  obtain ⟨-, hlt, -, hhome⟩ := hrows 1 3 _ _ "NL" "NL" _ _ htop hlow rfl rfl
  obtain ⟨-, -, heq, hsame⟩ := hrows 3 4 _ _ "NL" "NL" _ _ hlow htied rfl rfl
  refine ⟨_, _, _, new, rfl, rfl, rfl, hsnew, hlt.mpr ?_, heq.mpr ?_,
    (hhome rfl ?_ ?_).1.mpr ?_, (hsame rfl ?_ ?_).2.mpr ?_, hglobal.trans ?_, hcountry.trans ?_⟩
  all_goals decide +kernel

end RhythmLobby
