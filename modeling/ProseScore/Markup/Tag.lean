import ProseScore.Paragraph.Basic
import ProseScore.Style.Size

/-!
# Tags

What stands between angle brackets: the name of an element and its attributes,
each of them a key and a value with an equals sign between.
-/

namespace ProseScore

inductive Element where
  | b
  | strong
  | i
  | em
  | u
  | span
  deriving DecidableEq, Repr

namespace Element

def all : List Element :=
  [b, strong, i, em, u, span]

def name : Element → Text
  | b => ['b']
  | strong => "strong".toList
  | i => ['i']
  | em => "em".toList
  | u => ['u']
  | span => "span".toList

def ofName? (s : Text) : Option Element :=
  all.find? (·.name = s)

def style {R : Type} : Element → Style R
  | b | strong => { bold := true }
  | i | em => { italic := true }
  | u => { underline := true }
  | span => {}

end Element

inductive MarkupFault where
  /-- The line ends before the character that ends a tag or an entity. -/
  | unfinished (stop : Char)
  | unterminatedQuote
  | emptyTag
  | unknownTag (name : Text)
  /-- An attribute without an equals sign. -/
  | noValue (declaration : Text)
  | badSize (value : Text)
  | unknownAttribute (key : Text) (element : Element)
  | unknownEntity (name : Text)
  /-- A closing tag with nothing to close. -/
  | notOpened (name : Text)
  /-- A closing tag of another name than the tag that is open. -/
  | mismatch (name : Text) (openElement : Element) (openColumn : Nat)
  | neverClosed (element : Element)
  deriving DecidableEq, Repr

def MarkupFault.message (fault : MarkupFault) : String :=
  let bracketed (name : Text) := "<" ++ String.ofList name ++ ">"
  let closing (name : Text) := "</" ++ String.ofList name ++ ">"
  match fault with
  | unfinished stop => "Expected '" ++ stop.toString ++ "' before end of line"
  | unterminatedQuote => "Unterminated quoted attribute value"
  | emptyTag => "Empty tag <>"
  | unknownTag name => "Unknown tag " ++ bracketed name
  | noValue declaration =>
    "Attribute '" ++ String.ofList declaration ++ "' must look like key=value"
  | badSize value => "Invalid size '" ++ String.ofList value ++ "'"
  | unknownAttribute key element =>
    "Unknown attribute '" ++ String.ofList key ++ "' on " ++ bracketed element.name
  | unknownEntity name => "Unknown entity &" ++ String.ofList name ++ ";"
  | notOpened name => "Closing tag " ++ closing name ++ " has no opening tag"
  | mismatch name element column =>
    "Closing tag " ++ closing name ++ " does not match " ++ bracketed element.name ++
      " opened at column " ++ toString column
  | neverClosed element => "Tag " ++ bracketed element.name ++ " is never closed"

/-- An opening tag: an element, and what it declares with its attributes. -/
structure Tag (R : Type) where
  element : Element
  style : Style R
  deriving DecidableEq, Repr

namespace Tag

def isQuote (c : Char) : Bool :=
  c = '"' || c = '\''

/-- The parts of a tag up to the first blank outside quotes, and those behind
it.  A quoted stretch ends at the character that opened it. -/
def partsFrom : (quote : Option Char) → Text → Option (Text × List Text)
  | none, [] => some ([], [])
  | some _, [] => none
  | some q, c :: r =>
    (partsFrom (if c = q then none else some q) r).map fun (part, parts) => (c :: part, parts)
  | none, c :: r =>
    if isQuote c then
      (partsFrom (some c) r).map fun (part, parts) => (c :: part, parts)
    else if isBlank c then
      (partsFrom none r).map fun (part, parts) => ([], if part = [] then parts else part :: parts)
    else
      (partsFrom none r).map fun (part, parts) => (c :: part, parts)

/-- The parts of a tag between blanks outside quotes, none of them empty.  There
are none if a quote is left open. -/
def parts? (body : Text) : Option (List Text) :=
  (partsFrom none body).map fun (part, parts) => if part = [] then parts else part :: parts

section

variable {R : Type} [Scalar R]

def declare (element : Element) (style : Style R) (declaration : Text) :
    Except MarkupFault (Style R) :=
  match Text.splitAtFirst? '=' declaration with
  | none => .error (.noValue declaration)
  | some (key, quoted) =>
    let value := Text.trimBy isQuote quoted
    let key := Text.lowercase key
    if key = "color".toList then .ok { style with color := some (Color.ofText value) }
    else if key = "size".toList then
      match Size.ofText? value with
      | some size => .ok { style with size := some size }
      | none => .error (.badSize value)
    else .error (.unknownAttribute key element)

def ofParts : List Text → Except MarkupFault (Tag R)
  | [] => .error .emptyTag
  | name :: attributes =>
    let name := Text.lowercase name
    match Element.ofName? name with
    | none => .error (.unknownTag name)
    | some element =>
      (attributes.foldlM (declare element) element.style).map (⟨element, ·⟩)

def ofText (body : Text) : Except MarkupFault (Tag R) :=
  match parts? body with
  | none => .error .unterminatedQuote
  | some parts => ofParts parts

end

end Tag

end ProseScore
