import RhythmLobby.Toml.Scalar

/-!
# Reading TOML

Every line of a document says something about one table: it gives a member to the table opened last,
or it opens another one.  A table is opened by its own header once, and by longer headers or dotted
keys only as long as that leaves no doubt what it holds.

* `Toml.atPath`                          the table that a path of keys leads to;
* `Toml.setMember`, `Toml.openTable`,
  `Toml.addTable`                        what one line does to it;
* `Toml.valueReader`                     a value;
* `Toml.Statement`, `Toml.parse?`        a line, and a whole document.
-/

namespace RhythmLobby.Toml

open Reader

/-! ## Tables -/

def Form.admitsDots : Form → Bool
  | .dotted | .implied => true
  | .inline | .headed => false

def Form.admitsHeaders : Form → Bool
  | .inline => false
  | _ => true

/-- how a path leads from table to table: what it may pass, and what it makes where nothing is -/
structure Route where
  admits : Form → Bool
  fresh : Form

def Route.ofDots : Route := ⟨Form.admitsDots, .dotted⟩

def Route.ofHeader : Route := ⟨Form.admitsHeaders, .implied⟩

/-- changes the table that a path leads to; of the tables of a repeated header, the path leads
through the last one -/
def atPath (route : Route) (change : Form → Members → Option Members) :
    List String → Form → Members → Option Members
  | [], form, ms => change form ms
  | k :: ks, _, ms =>
    match lookup ms k with
    | none => do
      let inner ← atPath route change ks route.fresh []
      return put ms k (.table route.fresh inner)
    | some (.table form inner) => do
      guard (route.admits form)
      let inner ← atPath route change ks form inner
      return put ms k (.table form inner)
    | some (.tables items) => do
      let last ← items.getLast?
      let last ← atPath route change ks .headed last
      return put ms k (.tables (items.dropLast ++ [last]))
    | some _ => none

/-- adds a member whose name is new.  Behind a dotted path the table must be made of such paths. -/
def setMember (path : List String) (name : String) (v : Value) (form : Form) (ms : Members) :
    Option Members :=
  atPath Route.ofDots (fun form ms => do
    guard (path = [] ∨ form = .dotted)
    guard (lookup ms name).isNone
    return put ms name v) path form ms

/-- opens a table by its header -/
def openTable (name : String) (ms : Members) : Option Members :=
  match lookup ms name with
  | none => some (put ms name (.table .headed []))
  | some (.table .implied inner) => some (put ms name (.table .headed inner))
  | some _ => none

/-- opens one more table of a repeated header -/
def addTable (name : String) (ms : Members) : Option Members :=
  match lookup ms name with
  | none => some (put ms name (.tables [[]]))
  | some (.tables items) => some (put ms name (.tables (items ++ [[]])))
  | some _ => none

/-! ## Values -/

/-- how deep arrays and inline tables may be nested -/
def maxNesting : Nat := 79

def scalarReader : Reader Value :=
  (.string <$> stringReader) <|>
  (.moment <$> momentReader) <|>
  (.float <$> floatReader) <|>
  (.integer <$> integerReader) <|>
  (word ['t', 'r', 'u', 'e'] *> pure (.bool true)) <|>
  (word ['f', 'a', 'l', 's', 'e'] *> pure (.bool false))

/-- a key, the sign of equality and a value -/
def pairReader (value : Reader Value) : Reader ((List String × String) × Value) := do
  let key ← keyReader
  the '='
  space
  return (key, ← value)

/-- the rest of an array; a comma may stand behind the last value -/
def arrayRest (value : Reader Value) : Reader Value := do
  let items ← separated (the ',') (gap *> value <* gap)
  unless items.isEmpty do discard (maybe (the ','))
  gap
  the ']'
  return .array items

def inlineRest (value : Reader Value) : Reader Value := do
  let pairs ← separated (the ',') (pairReader value <* space)
  space
  the '}'
  let members := pairs.foldlM (fun ms ((path, name), v) => setMember path name v .headed ms) []
  return .table .inline (← fun cs => members.map (·, cs))

/-- a value with at most `depth` brackets and braces open at once -/
def valueReader : (depth : Nat) → Reader Value
  | 0 => scalarReader
  | depth + 1 =>
    scalarReader <|>
    (the '[' *> arrayRest (valueReader depth)) <|>
    (the '{' *> inlineRest (valueReader depth))

/-! ## Documents -/

inductive Statement where
  | member (path : List String) (name : String) (v : Value)
  | header (path : List String) (name : String)
  | repeated (path : List String) (name : String)

def statementReader : Reader Statement :=
  (do
    word ['[', '[']
    let (path, name) ← keyReader
    word [']', ']']
    return .repeated path name) <|>
  (do
    the '['
    let (path, name) ← keyReader
    the ']'
    return .header path name) <|>
  (do
    let ((path, name), v) ← pairReader (valueReader maxNesting)
    return .member path name v)

/-- a line with its end; it may say nothing -/
def lineReader : Reader (Option Statement) := do
  unfinished
  space
  let s ← maybe statementReader
  space
  discard (maybe comment)
  newline <|> done
  return s

/-- a whole text, which may begin with a byte order mark -/
def statementsReader : Reader (List Statement) := do
  discard (maybe (the '\ufeff'))
  let lines ← many lineReader
  return lines.filterMap id

/-- the tables said so far, and the path to the one opened last -/
structure Document where
  members : Members
  current : List String

def Document.empty : Document := ⟨[], []⟩

def Document.add (d : Document) : Statement → Option Document
  | .member path name v => do
    let ms ← atPath Route.ofHeader (setMember path name v) d.current .headed d.members
    return ⟨ms, d.current⟩
  | .header path name => do
    let ms ← atPath Route.ofHeader (fun _ => openTable name) path .headed d.members
    return ⟨ms, path ++ [name]⟩
  | .repeated path name => do
    let ms ← atPath Route.ofHeader (fun _ => addTable name) path .headed d.members
    return ⟨ms, path ++ [name]⟩

/-- the members of the outermost table of a document -/
def parse? (text : String) : Option Members := do
  let lines ← statementsReader.all? text
  return (← lines.foldlM Document.add Document.empty).members

end RhythmLobby.Toml
