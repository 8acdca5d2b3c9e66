import RhythmLobby.Text.Reader

/-!
# Space, comments, strings and keys of TOML

A string stands between single or double quotes, or between three of them when it may have line
breaks.  Only double quotes know escapes.  Before the closing three quotes a string may end in one
or two quotes of its own.

* `Toml.newline`, `Toml.space`, `Toml.comment`   what stands between tokens;
* `Toml.stringReader`                            a string in any of the four ways;
* `Toml.keyReader`                               a path of keys with dots between them.
-/

namespace RhythmLobby.Toml

open Reader

/-! ## Space and comments -/

/-- a line feed, or a carriage return and a line feed -/
def newline : Reader Unit := word ['\n'] <|> word ['\r', '\n']

def isSpace (c : Char) : Bool := c == ' ' || c == '\t'

def space : Reader Unit := discard (span isSpace)

/-- the characters of a comment: no control characters but the tab -/
def isPlain (c : Char) : Bool := c == '\t' || (' ' ≤ c && c != '\x7f')

def comment : Reader Unit := do
  the '#'
  discard (span isPlain)

/-- spaces, line breaks and comments -/
def gap : Reader Unit := discard (many (discard (char isSpace) <|> newline <|> comment))

/-! ## Escapes -/

/-- the character with a number of exactly `n` hexadecimal digits -/
def codePoint (n : Nat) : Reader Char := do
  let code := numeral 16 (← digitsOf 16 n)
  if h : code.isValidChar then return Char.ofNatAux code h else failure

/-- the character that an escape stands for, behind the backslash -/
def escaped : Reader Char := do
  match ← char fun _ => true with
  | 'b' => return '\x08'
  | 't' => return '\t'
  | 'n' => return '\n'
  | 'f' => return '\x0c'
  | 'r' => return '\r'
  | '"' => return '"'
  | '\\' => return '\\'
  | 'u' => codePoint 4
  | 'U' => codePoint 8
  | _ => failure

def escape : Reader Char := do
  the '\\'
  escaped

/-! ## Strings on one line -/

def basicChar : Reader Char := char (fun c => isPlain c && c != '"' && c != '\\') <|> escape

def isLiteral (c : Char) : Bool := isPlain c && c != '\''

def basicLine : Reader (List Char) := do
  the '"'
  let cs ← many basicChar
  the '"'
  return cs

def literalLine : Reader (List Char) := do
  the '\''
  let cs ← span isLiteral
  the '\''
  return cs

/-! ## Strings on several lines -/

/-- a backslash at the end of a line: nothing up to the next character that is not space -/
def lineJoin : Reader (List Char) := do
  the '\\'
  space
  newline
  discard (many (discard (char isSpace) <|> newline))
  return []

/-- a piece of a string between three double quotes -/
def basicPiece : Reader (List Char) :=
  (([·]) <$> char fun c => isPlain c && c != '"' && c != '\\') <|>
  lineJoin <|>
  (([·]) <$> escape) <|>
  (newline *> pure ['\n'])

/-- a piece of a string between three single quotes -/
def literalPiece : Reader (List Char) := (([·]) <$> char isLiteral) <|> (newline *> pure ['\n'])

/-- one or two quotes that are not part of three -/
def fewQuotes (q : Char) : Reader (List Char) := do
  let qs ← span1 (· == q)
  guard (qs.length ≤ 2)
  return qs

/-- the closing three quotes, and the one or two quotes in front of them -/
def closingQuotes (q : Char) : Reader (List Char) := do
  let qs ← span1 (· == q)
  guard (3 ≤ qs.length ∧ qs.length ≤ 5)
  return qs.drop 3

/-- a string between three quotes; a line break right behind the opening ones does not count -/
def severalLines (q : Char) (piece : Reader (List Char)) : Reader (List Char) := do
  word [q, q, q]
  discard (maybe newline)
  let pieces ← many (piece <|> fewQuotes q)
  let last ← closingQuotes q
  return pieces.flatten ++ last

def stringReader : Reader String :=
  String.ofList <$>
    (severalLines '"' basicPiece <|> basicLine <|> severalLines '\'' literalPiece <|> literalLine)

/-! ## Keys -/

def isBare (c : Char) : Bool := c.isAlphanum || c == '_' || c == '-'

def simpleKey : Reader String := String.ofList <$> (span1 isBare <|> basicLine <|> literalLine)

/-- how many keys a path may not have -/
def tooManyKeys : Nat := 80

/-- a path of keys, with the space around each of them: all but the last, and the last -/
def keyReader : Reader (List String × String) := do
  let keys ← separated (the '.') (space *> simpleKey <* space)
  guard (keys.length < tooManyKeys)
  match keys.getLast? with
  | some last => return (keys.dropLast, last)
  | none => failure

end RhythmLobby.Toml
