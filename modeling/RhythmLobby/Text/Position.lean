/-!
# Positions in a text

A place in a text is known by the number of bytes before it in UTF-8; a `Position` is what a reader
is told: the line, counted from one, and the bytes before the place on that line.
-/

namespace RhythmLobby

structure Position where
  line : Nat
  column : Nat
  deriving DecidableEq

namespace Position

/-- the position after `bytes` more bytes of a text -/
def advance : List Char → Nat → Position → Position
  | [], _, p => p
  | c :: cs, bytes, p =>
    if bytes = 0 then p
    else if c = '\n' then advance cs (bytes - 1) ⟨p.line + 1, 0⟩
    else advance cs (bytes - c.utf8Size) ⟨p.line, p.column + min bytes c.utf8Size⟩

/-- the position of the place with `bytes` bytes before it -/
def ofOffset (text : List Char) (bytes : Nat) : Position := advance text bytes ⟨1, 0⟩

def text (p : Position) : String :=
  "line " ++ toString p.line ++ " column " ++ toString p.column

end Position

def byteLength (cs : List Char) : Nat := cs.foldr (fun c n => c.utf8Size + n) 0

theorem byteLength_nil : byteLength [] = 0 := rfl

theorem byteLength_cons (c : Char) (cs : List Char) :
    byteLength (c :: cs) = c.utf8Size + byteLength cs := rfl

theorem byteLength_append (a b : List Char) :
    byteLength (a ++ b) = byteLength a + byteLength b := by
  induction a with
  | nil => simp [byteLength_nil]
  | cons c a ih => rw [List.cons_append, byteLength_cons, byteLength_cons, ih, Nat.add_assoc]

end RhythmLobby
