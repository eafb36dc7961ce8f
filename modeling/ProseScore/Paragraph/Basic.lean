import ProseScore.Style.Basic

/-!
# Paragraphs

A paragraph is a sequence of text runs and styled spans, and a span holds such a
sequence again.  A document is a list of paragraphs.
-/

namespace ProseScore

/-- A sequence of runs and spans: nothing, or its first member and the members
after it. -/
inductive Paragraph (R : Type) where
  | done
  | run (text : Text) (next : Paragraph R)
  | span (style : Style R) (inner next : Paragraph R)
  deriving DecidableEq, Repr

/-- A document: its paragraphs from the first to the last. -/
abbrev Document (R : Type) :=
  List (Paragraph R)

namespace Paragraph

variable {R : Type}

def plain (text : Text) : Paragraph R :=
  .run text .done

def text : Paragraph R → Text
  | done => []
  | run s next => s ++ next.text
  | span _ inner next => inner.text ++ next.text

@[simp] theorem text_plain (s : Text) : (plain s : Paragraph R).text = s := by
  simp [plain, text]

/-- The paragraph with a further character in front, which joins a run that
stands there. -/
def cons (c : Char) : Paragraph R → Paragraph R
  | run s next => .run (c :: s) next
  | p => .run [c] p

end Paragraph

/-- The unstyled document of a text: a paragraph a line. -/
def Document.ofText {R : Type} (s : Text) : Document R :=
  (Text.lines s).map Paragraph.plain

end ProseScore
