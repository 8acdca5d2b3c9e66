/-!
# Wildcard patterns

A pattern describes a set of texts.  `?` stands for one character, `*` for any number of them, and
`[...]` for one of a set, or one outside it after `[!`.  A path component `**` stands for any number
of whole components.

* `Glob.Token`       the parts of a pattern;
* `Glob.parse`       a pattern, or the place of its first flaw;
* `Glob.accepts`     whether a text is in the set, part by part;
* `Glob.covers`      the same, decided without trying the ways of dividing the text one by one;
* `covers_eq_accepts`   they agree.
-/

namespace RhythmLobby.Glob

/-- characters between two ends; a single character is both ends -/
structure Span where
  first : Char
  last : Char
  deriving DecidableEq

def Span.contains (s : Span) (c : Char) : Bool := s.first ≤ c && c ≤ s.last

/-- a part of a pattern -/
inductive Token where
  | char (c : Char)
  | anyChar
  | anyText
  /-- whole path components -/
  | anyPath
  | within (spans : List Span)
  | except (spans : List Span)
  deriving DecidableEq

/-! ## Reading -/

/-- why a text is no pattern, and the number of characters before the place of the flaw -/
inductive Flaw where
  | tooManyStars (place : Nat)
  | notAComponent (place : Nat)
  | invalidRange (place : Nat)
  deriving DecidableEq

def Flaw.message : Flaw → String
  | .tooManyStars n =>
    "Pattern syntax error near position " ++ toString n ++
      ": wildcards are either regular `*` or recursive `**`"
  | .notAComponent n =>
    "Pattern syntax error near position " ++ toString n ++
      ": recursive wildcards must form a single path component"
  | .invalidRange n =>
    "Pattern syntax error near position " ++ toString n ++ ": invalid range pattern"

def isSeparator (c : Char) : Bool := c == '/'

/-- single characters, and spans written with a hyphen -/
def spans : List Char → List Span
  | a :: '-' :: b :: rest => ⟨a, b⟩ :: spans rest
  | a :: rest => ⟨a, a⟩ :: spans rest
  | [] => []

/-- the characters before the first closing bracket -/
def untilBracket (cs : List Char) : Option (List Char) :=
  if ']' ∈ cs then some (cs.takeWhile (· ≠ ']')) else none

/-- a set whose opening bracket has been read, and how many characters it has without it.  The
first character of a set may be a closing bracket. -/
def setAt (pos : Nat) : List Char → Except Flaw (Token × Nat)
  | '!' :: c :: cs =>
    match untilBracket cs with
    | some inner => .ok (.except (spans (c :: inner)), inner.length + 3)
    | none => .error (.invalidRange pos)
  | '!' :: [] => .error (.invalidRange pos)
  | c :: cs =>
    match untilBracket cs with
    | some inner => .ok (.within (spans (c :: inner)), inner.length + 2)
    | none => .error (.invalidRange pos)
  | [] => .error (.invalidRange pos)

/-- one or two stars, and how many characters they take without the first star; two stars take
the separator behind them with them -/
def starsAt (pos : Nat) (before : Option Char) (cs : List Char) : Except Flaw (Token × Nat) :=
  match (cs.takeWhile (· == '*')).length with
  | 0 => .ok (.anyText, 0)
  | 1 =>
    if before.all isSeparator then
      match cs.drop 1 with
      | [] => .ok (.anyPath, 1)
      | c :: _ => if isSeparator c then .ok (.anyPath, 2) else .error (.notAComponent (pos + 2))
    else .error (.notAComponent (pos - 1))
  | _ => .error (.tooManyStars (pos + 2))

/-- the parts of a pattern; the next `skipped` characters belong to a part already read -/
def tokens (skipped pos : Nat) (before : Option Char) : List Char → Except Flaw (List Token)
  | [] => .ok []
  | c :: cs =>
    match skipped with
    | n + 1 => tokens n (pos + 1) (some c) cs
    | 0 =>
      let read :=
        if c = '?' then .ok (.anyChar, 0)
        else if c = '*' then starsAt pos before cs
        else if c = '[' then setAt pos cs
        else .ok (.char c, 0)
      match read with
      | .error e => .error e
      | .ok (t, n) => (tokens n (pos + 1) (some c) cs).map (t :: ·)

def parse (pattern : String) : Except Flaw (List Token) := tokens 0 0 none pattern.toList

/-! ## Matching -/

/-- whether some end of the text satisfies the test -/
def someSuffix (test : List Char → Bool) : List Char → Bool
  | [] => test []
  | c :: cs => test (c :: cs) || someSuffix test cs

/-- whether a text behind a separator, or the empty one at the end, satisfies the test -/
def someComponent (test : List Char → Bool) : List Char → Bool
  | [] => test []
  | c :: cs => (isSeparator c && test cs) || someComponent test cs

def accepts : List Token → List Char → Bool
  | [], cs => cs.isEmpty
  | .anyText :: ts, cs => someSuffix (accepts ts) cs
  | .anyPath :: ts, cs => accepts ts cs || someComponent (accepts ts) cs
  | .char a :: ts, c :: cs => a == c && accepts ts cs
  | .anyChar :: ts, _ :: cs => accepts ts cs
  | .within spans :: ts, c :: cs => spans.any (·.contains c) && accepts ts cs
  | .except spans :: ts, c :: cs => !spans.any (·.contains c) && accepts ts cs
  | .char _ :: _, [] | .anyChar :: _, [] | .within _ :: _, [] | .except _ :: _, [] => false

/-- a star at the end of a pattern stands for every text -/
theorem someSuffix_isEmpty (cs : List Char) : someSuffix List.isEmpty cs = true := by
  induction cs with
  | nil => rfl
  | cons c cs ih => rw [someSuffix, ih, Bool.or_true]

/-! ## Deciding

Every star of a pattern could end anywhere in the text.  The pattern is therefore decided from its
last part to its first, each time for the text and all its ends at once. -/

/-- the answers of a test for a text and all its ends, the longest first -/
def answers (test : List Char → Bool) : List Char → List Bool
  | [] => [test []]
  | c :: cs => test (c :: cs) :: answers test cs

theorem headD_answers (test : List Char → Bool) (cs : List Char) :
    (answers test cs).headD false = test cs := by
  cases cs <;> rfl

/-- the answers when one character of a class comes first -/
def charRow (isIn : Char → Bool) : List Char → List Bool → List Bool
  | c :: cs, _ :: row => (isIn c && row.headD false) :: charRow isIn cs row
  | _, _ => [false]

/-- the answers when any text comes first -/
def textRow : List Bool → List Bool
  | [] => []
  | b :: row =>
    let later := textRow row
    (b || later.headD false) :: later

/-- the answers when whole path components come first -/
def pathRow : List Char → List Bool → List Bool
  | c :: cs, _ :: row =>
    let later := pathRow cs row
    ((isSeparator c && row.headD false) || later.headD false) :: later
  | _, row => row

/-- the answers for a pattern from those for the pattern without its first part -/
def Token.row (cs : List Char) (row : List Bool) : Token → List Bool
  | .char a => charRow (a == ·) cs row
  | .anyChar => charRow (fun _ => true) cs row
  | .anyText => textRow row
  | .anyPath => List.zipWith or row (pathRow cs row)
  | .within spans => charRow (fun c => spans.any (·.contains c)) cs row
  | .except spans => charRow (fun c => !spans.any (·.contains c)) cs row

def covers (ts : List Token) (cs : List Char) : Bool :=
  (ts.foldr (fun t row => t.row cs row) (answers List.isEmpty cs)).headD false

/-- a test that asks for one character of a class and leaves the rest to another test -/
def afterOne (isIn : Char → Bool) (test : List Char → Bool) : List Char → Bool
  | [] => false
  | c :: cs => isIn c && test cs

theorem charRow_answers (isIn : Char → Bool) (test : List Char → Bool) (cs : List Char) :
    charRow isIn cs (answers test cs) = answers (afterOne isIn test) cs := by
  induction cs with
  | nil => rfl
  | cons c cs ih => rw [answers, charRow, ih, headD_answers, answers, afterOne]

theorem textRow_answers (test : List Char → Bool) (cs : List Char) :
    textRow (answers test cs) = answers (someSuffix test) cs := by
  induction cs with
  | nil => simp [answers, textRow, someSuffix]
  | cons c cs ih => simp only [answers, textRow, ih, headD_answers, someSuffix]

theorem pathRow_answers (test : List Char → Bool) (cs : List Char) :
    pathRow cs (answers test cs) = answers (someComponent test) cs := by
  induction cs with
  | nil => rfl
  | cons c cs ih => simp only [answers, pathRow, ih, headD_answers, someComponent]

theorem zipWith_answers (f : Bool → Bool → Bool) (p q : List Char → Bool) (cs : List Char) :
    List.zipWith f (answers p cs) (answers q cs) = answers (fun ds => f (p ds) (q ds)) cs := by
  induction cs with
  | nil => rfl
  | cons c cs ih => rw [answers, answers, List.zipWith_cons_cons, ih, answers]

/-- the answers for a pattern are those of `accepts` -/
theorem row_answers (t : Token) (ts : List Token) (cs : List Char) :
    t.row cs (answers (accepts ts) cs) = answers (accepts (t :: ts)) cs := by
  cases t with
  | anyText =>
    rw [Token.row, textRow_answers]
    exact congrArg (answers · cs) (funext fun ds => by rw [accepts])
  | anyPath =>
    rw [Token.row, pathRow_answers, zipWith_answers]
    exact congrArg (answers · cs) (funext fun ds => by rw [accepts])
  | char a =>
    rw [Token.row, charRow_answers]
    exact congrArg (answers · cs) (funext fun ds => by cases ds <;> rfl)
  | anyChar =>
    rw [Token.row, charRow_answers]
    exact congrArg (answers · cs) (funext fun ds => by cases ds <;> rfl)
  | within spans =>
    rw [Token.row, charRow_answers]
    exact congrArg (answers · cs) (funext fun ds => by cases ds <;> rfl)
  | except spans =>
    rw [Token.row, charRow_answers]
    exact congrArg (answers · cs) (funext fun ds => by cases ds <;> rfl)

theorem covers_eq_accepts (ts : List Token) (cs : List Char) : covers ts cs = accepts ts cs := by
  have rows : ts.foldr (fun t row => t.row cs row) (answers List.isEmpty cs) =
      answers (accepts ts) cs := by
    induction ts with
    | nil => exact congrArg (answers · cs) (funext fun ds => by rw [accepts])
    | cons t ts ih => rw [List.foldr_cons, ih, row_answers]
  rw [covers, rows, headD_answers]

end RhythmLobby.Glob
