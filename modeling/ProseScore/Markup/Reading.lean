import ProseScore.Markup.Piece

/-!
# Reading markup

Tags nest: a closing tag closes the tag that was opened last.  Markup in which
every tag is closed makes a paragraph, and any other markup has a first fault.
-/

namespace ProseScore

namespace Markup

variable {R : Type}

/-- The first fault of pieces behind the open tags, the innermost first, each
with its column.  A tag that is left open is a fault in its own column. -/
def fault? : (openTags : List (Nat × Element)) → List (Piece R) → Option (Nat × MarkupFault)
  | [], [] => none
  | (column, element) :: _, [] => some (column, .neverClosed element)
  | openTags, .char _ :: ps => fault? openTags ps
  | openTags, .opening column tag :: ps => fault? ((column, tag.element) :: openTags) ps
  | [], .closing column name :: _ => some (column, .notOpened name)
  | (start, element) :: openTags, .closing column name :: ps =>
    if element.name = name then fault? openTags ps
    else some (column, .mismatch name element start)
  | _, .broken column fault :: _ => some (column, fault)

/-- The paragraph up to the first closing tag that the pieces themselves do not
open, and what stands behind it and each further one. -/
def build : List (Piece R) → Paragraph R × List (Paragraph R)
  | [] => (.done, [])
  | piece :: ps =>
    let (here, outer) := build ps
    match piece with
    | .char c => (here.cons c, outer)
    | .opening _ tag =>
      match outer with
      | [] => (.span tag.style here .done, [])
      | next :: outer => (.span tag.style here next, outer)
    | .closing _ _ => (.done, here :: outer)
    | .broken _ _ => (here, outer)

end Markup

variable {R : Type} [Scalar R]

/-- Read the markup of one paragraph.  A fault comes with its column. -/
def Paragraph.ofMarkup (s : Text) : Except (Nat × MarkupFault) (Paragraph R) :=
  let pieces : List (Piece R) := Piece.ofText s
  match Markup.fault? [] pieces with
  | some fault => .error fault
  | none => .ok (Markup.build pieces).1

structure MarkupError where
  line : Nat
  column : Nat
  fault : MarkupFault
  deriving DecidableEq, Repr

def MarkupError.message (e : MarkupError) : String :=
  "Markup error at line " ++ toString e.line ++ ", column " ++ toString e.column ++ ": " ++
    e.fault.message

def Document.ofMarkupFrom (line : Nat) : List Text → Except MarkupError (Document R)
  | [] => .ok []
  | s :: rest =>
    match Paragraph.ofMarkup s with
    | .error (column, fault) => .error ⟨line, column, fault⟩
    | .ok p => (ofMarkupFrom (line + 1) rest).map (p :: ·)

def Document.ofMarkup (s : Text) : Except MarkupError (Document R) :=
  ofMarkupFrom 1 (Text.lines s)

end ProseScore
