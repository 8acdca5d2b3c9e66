import RhythmLobby.Json.Parser
import RhythmLobby.Json.Shape

/-!
# Records that name their own kind

A tagged record is an object one of whose members, the tag, names its kind, or a list whose first
element does.  The kind is checked as soon as it is read, so that a flaw further on is not seen.

* `Json.Part`         a member of a tagged record: its kind or something else;
* `Json.taggedAt`     the kind and the rest of the record;
* `Json.Variant`      how the records of one kind are read;
* `Json.readTagged`   a whole text that writes one tagged record.
-/

namespace RhythmLobby.Json

/-- the kinds of record that are known, with the name of the tag and a name for them all -/
structure Tagging where
  tag : String
  title : String
  kinds : List String

inductive Part where
  | kind (name : String)
  | other (name : String) (v : Value)

namespace Part

def kind? : Part → Option String
  | .kind name => some name
  | .other _ _ => none

def other? : Part → Option (String × Value)
  | .kind _ => none
  | .other name v => some (name, v)

end Part

def Cursor.failFault (c : Cursor) (f : Fault) : Except Mishap α := .error ⟨.fault f, c.offset⟩

/-- the kind of a record; of a list or an object nothing is read -/
def kindAt (kinds : List String) (c : Cursor) : Outcome String :=
  match c.rest with
  | '[' :: _ => c.failFault (.kind (.array []) "variant identifier")
  | '{' :: _ => c.failFault (.kind (.object []) "variant identifier")
  | _ =>
    Outcome.andThen (scalarAt c) fun v c =>
      match v with
      | .string s => if s ∈ kinds then .ok (s, c) else c.failFault (.variant s kinds)
      | v => c.failFault (.kind v "variant identifier")

/-- how deep the members of a record may be nested -/
def memberNesting : Nat := maxNesting - 1

/-- one member of a record; `seen` if the kind has been read already.  A second kind is reported
behind the space that follows its name, or behind a brace there. -/
def partAt (t : Tagging) (seen : Bool) (c : Cursor) : Outcome (Part × Bool) :=
  Outcome.andThen (nameAt c) fun k c =>
    if k = t.tag then
      if seen then
        let c := c.skipSpace
        match c.rest with
        | '}' :: _ => (c.skip 1).failFault (.duplicate k)
        | _ => c.failFault (.duplicate k)
      else
        match colonAt c with
        | .error m => .error m
        | .ok c => Outcome.as (kindAt t.kinds c) (.kind ·, true)
    else
      match colonAt c with
      | .error m => .error m
      | .ok c => Outcome.as (valueAt memberNesting c) (.other k ·, seen)

/-- the kind of a record, and its other members as an object or a list -/
def taggedAt (t : Tagging) (c : Cursor) : Outcome (String × Value) :=
  let c := c.skipSpace
  match c.rest with
  | '{' :: _ =>
    Outcome.andThen (membersAt (partAt t) false (c.skip 1)) fun parts c =>
      match parts.findSome? Part.kind? with
      | some kind => .ok ((kind, .object (parts.filterMap Part.other?)), c)
      | none => c.failFault (.missing t.tag)
  | '[' :: _ =>
    let c := (c.skip 1).skipSpace
    match c.rest with
    | [] => c.failNext .endInList
    | ']' :: _ => (c.skip 1).failFault (.missing t.tag)
    | _ =>
      Outcome.andThen (kindAt t.kinds c) fun kind c =>
        Outcome.as (moreItems (valueAt memberNesting) c.rest c) fun vs =>
          (kind, .array vs)
  | _ => Outcome.andThen (scalarAt c) fun v c => c.failFault (.kind v t.title)

/-! ## Kinds -/

inductive Variant (α : Type) : Type 1 where
  /-- nothing but the kind -/
  | bare (x : α)
  | record (title : String) (s : Shape α)
  /-- a record whose members may all be missing and that is never a list -/
  | patch (title : String) (s : Shape α)

/-- the record that is left when the kind has been taken out -/
def Variant.decoder : Variant α → Decoder α
  | .bare x, v =>
    match v with
    | .array (_ :: vs) =>
      .error (.length (vs.length + 1) (Shape.elements 0 ++ " in sequence"))
    | _ => .ok x
  | .record title s, v => s.decoder title v
  | .patch title s, v =>
    match v with
    | .object members => s.ofObject members
    | v => .error (.kind v title)

/-- the kinds of a type of records, in the order in which messages list them -/
structure Variants (α : Type) : Type 1 where
  title : String
  cases : List (String × Variant α)

namespace Variants

def tag : String := "t"

def tagging (vs : Variants α) : Tagging := ⟨tag, vs.title, vs.cases.map (·.1)⟩

def decode (vs : Variants α) (kind : String) (body : Value) : Except Fault α :=
  match vs.cases.find? (·.1 == kind) with
  | some (_, v) => v.decoder body
  | none => .error (.variant kind (vs.cases.map (·.1)))

end Variants

def readTagged (vs : Variants α) (text : String) : Except Malformed α :=
  readText (taggedAt vs.tagging) (fun (kind, body) => vs.decode kind body) text

end RhythmLobby.Json
