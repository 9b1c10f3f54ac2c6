/-! Places in a source text are lines and columns, both counted from one and in
characters. A cursor is a place together with the text from there on, so that reading
a text and knowing where one stands cannot drift apart. -/
namespace WidgetScript

structure Position where
  line : Nat
  column : Nat
deriving DecidableEq, Repr, Inhabited

namespace Position

def start : Position := ⟨1, 1⟩

/-- The place of what was made by the program and stands in no source. -/
def none : Position := ⟨0, 0⟩

def advance (p : Position) (c : Char) : Position :=
  if c = '\n' then ⟨p.line + 1, 1⟩ else ⟨p.line, p.column + 1⟩

def text (p : Position) : String := toString p.line ++ ":" ++ toString p.column

end Position

structure Cursor where
  rest : List Char
  pos : Position
deriving DecidableEq, Repr

namespace Cursor

def next (s : Cursor) : Cursor :=
  match s.rest with
  | [] => s
  | c :: cs => ⟨cs, s.pos.advance c⟩

def takeWhile (p : Char → Bool) : (rest : List Char) → (pos : Position) → List Char × Cursor
  | [], pos => ([], ⟨[], pos⟩)
  | c :: cs, pos =>
      if p c then
        let (run, s) := takeWhile p cs (pos.advance c)
        (c :: run, s)
      else ([], ⟨c :: cs, pos⟩)

def span (s : Cursor) (p : Char → Bool) : List Char × Cursor := takeWhile p s.rest s.pos

end Cursor
end WidgetScript
