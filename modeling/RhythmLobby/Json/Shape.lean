import RhythmLobby.Json.Decode

/-!
# Objects with known members

A `Shape` lists the members of a record in order, with a decoder for each, and builds the record
from them.  The same record may be written as an object, whose members come in any order and may
be joined by unknown ones, or as a list of the members' values in order.

* `Json.Shape`           the members and the record;
* `Json.Shape.scan`      the first repeated or faulty member, in the order of the text;
* `Json.Shape.build`     the record, or the first member that is missing;
* `Json.Shape.ofObject`, `Json.Shape.ofList`   the two ways of writing.
-/

namespace RhythmLobby.Json

structure Field (α : Type) where
  name : String
  decode : Decoder α
  /-- what stands for the member where it is missing -/
  fallback : Option α

/-- the members of a record in order, and the record they make -/
inductive Shape : Type → Type 1 where
  | pure : α → Shape α
  | member : Shape (β → α) → Field β → Shape α

namespace Shape

/-- one more member, which may not be missing -/
def required (s : Shape (β → α)) (name : String) (d : Decoder β) : Shape α :=
  s.member ⟨name, d, none⟩

/-- one more member, which may be missing -/
def optional (s : Shape (β → α)) (name : String) (d : Decoder β) (fallback : β) : Shape α :=
  s.member ⟨name, d, some fallback⟩

/-- the same members for something made of the record -/
def map (f : α → β) : Shape α → Shape β
  | .pure x => .pure (f x)
  | .member s field => .member (s.map (f ∘ ·)) field

def names : Shape α → List String
  | .pure _ => []
  | .member s f => s.names ++ [f.name]

/-- the members that may not be missing -/
def neededNames : Shape α → List String
  | .pure _ => []
  | .member s f => s.neededNames ++ if f.fallback.isNone then [f.name] else []

/-- whether a value is allowed for a name; unknown names allow every value -/
def allows : Shape α → String → Value → Except Fault Unit
  | .pure _, _, _ => .ok ()
  | .member s f, name, v =>
    if f.name = name then (f.decode v).map fun _ => () else s.allows name v

/-- the first member that is repeated or whose value is not allowed -/
def scan (s : Shape α) : (seen : List String) → List (String × Value) → Except Fault Unit
  | _, [] => .ok ()
  | seen, (k, v) :: rest =>
    if k ∈ s.names then
      if k ∈ seen then .error (.duplicate k)
      else do
        s.allows k v
        s.scan (k :: seen) rest
    else s.scan seen rest

/-- the record made of the values found, or the first member that is missing -/
def build : Shape α → (String → Option Value) → Except Fault α
  | .pure x, _ => .ok x
  | .member s f, find => do
    let g ← s.build find
    match find f.name, f.fallback with
    | some v, _ => return g (← f.decode v)
    | none, some x => return g x
    | none, none => throw (.missing f.name)

def ofObject (s : Shape α) (members : List (String × Value)) : Except Fault α := do
  s.scan [] members
  s.build (lookup members)

/-- "1 element" or a number of elements -/
def elements (n : Nat) : String :=
  if n = 1 then "1 element" else toString n ++ " elements"

/-- the record written as a list of its members' values; `title` says what it is -/
def ofList (s : Shape α) (title : String) (items : List Value) : Except Fault α := do
  let members := s.names.zip items
  s.scan [] members
  if let some name := s.neededNames.find? fun name => (lookup members name).isNone then
    throw (.length (s.names.idxOf name) (title ++ " with " ++ elements s.names.length))
  if s.names.length < items.length then
    throw (.length items.length (elements s.names.length ++ " in sequence"))
  s.build (lookup members)

/-- the record written in either way; `title` says what it is -/
def decoder (s : Shape α) (title : String) : Decoder α
  | .object members => s.ofObject members
  | .array items => s.ofList title items
  | v => .error (.kind v title)

end Shape
end RhythmLobby.Json
