import ProseScore.Yaml.Scalar

/-!
# Names and tags

An anchor gives a node a name by which an alias can stand for it.  A tag says
what kind of thing a node is.  It is written out between angle brackets, or it
begins with a handle, which stands for its first characters.
-/

namespace ProseScore.Yaml

def isNameChar (c : Char) : Bool :=
  c.isAlphanum || c = '-' || c = '_'

def name? (ps : List Placed) : Option (Text × List Placed) :=
  match span isNameChar ps with
  | ([], _) => none
  | (name, r) =>
    if atGap r || r.head?.any (fun p => "?:,]\x7d%@\x60".toList.contains p.char) then
      some (name, r)
    else none

abbrev Handles :=
  List (Text × Text)

def Handles.withStandard (h : Handles) : Handles :=
  h ++ [("!".toList, "!".toList), ("!!".toList, "tag:yaml.org,2002:".toList)]

/-! ## The characters of a tag -/

/-- The characters of a tag.  Brackets and commas belong to it if `bracketed`
says so. -/
def isTagChar (bracketed : Bool) (c : Char) : Bool :=
  isNameChar c || ";/?:@&=+$.!~*'()".toList.contains c ||
    (bracketed && (c = ',' || c = '[' || c = ']'))

def announced? (octet : Nat) : Option Nat :=
  if octet < 128 then some 0
  else if octet / 32 = 6 then some 1
  else if octet / 16 = 14 then some 2
  else if octet / 8 = 30 then some 3
  else none

/-- The longest run of characters of a tag, while `left` announced octets are to
come.  A percent sign and two hexadecimal digits stand for an octet, which is
shown as the character of its number. -/
def tagSpan? (bracketed : Bool) : (left : Nat) → List Placed → Option (Text × List Placed)
  | left, [] => if left = 0 then some ([], []) else none
  | left, p :: r => do
    if p.char = '%' then
      match r with
      | x :: y :: r =>
        let octet := 16 * (← hexDigit? x.char) + (← hexDigit? y.char)
        let left ←
          match left with
          | 0 => announced? octet
          | left + 1 => if octet / 64 = 2 then some left else none
        prepend [.ofNat octet] (tagSpan? bracketed left r)
      | _ => none
    else if left ≠ 0 then none
    else if isTagChar bracketed p.char then prepend [p.char] (tagSpan? bracketed 0 r)
    else some ([], p :: r)

/-- What a run of characters of a tag says.  A null character and what is behind
it says nothing. -/
def tagMeaning (text : Text) : Text :=
  text.takeWhile (· ≠ '\x00')

def tagText? (bracketed : Bool) (ps : List Placed) : Option (Text × List Placed) := do
  let (text, r) ← tagSpan? bracketed 0 ps
  if text.isEmpty then none else some (tagMeaning text, r)

/-! ## Tags -/

def tagBody? (handles : Handles) (ps : List Placed) : Option (Text × List Placed) :=
  match ps with
  | [] => some (['!'], [])
  | p :: r =>
    if p.char = '<' then do
      let (tag, r) ← tagText? true r
      match r with
      | q :: r => if q.char = '>' then some (tag, r) else none
      | [] => none
    else
      match span isNameChar (p :: r) with
      | (name, q :: behind) =>
        if q.char = '!' then do
          let first ← handles.lookup ('!' :: name ++ ['!'])
          prepend first (tagText? false behind)
        else local?
      | _ => local?
where
  local? : Option (Text × List Placed) := do
    let (text, r) ← tagSpan? false 0 ps
    let meaning := tagMeaning text
    if meaning.isEmpty then some (['!'], r)
    else (handles.lookup ['!']).map fun first => (first ++ meaning, r)

/-- The tag behind its mark.  A gap follows it, or a comma between braces. -/
def tag? (flow : Bool) (handles : Handles) (ps : List Placed) : Option (Text × List Placed) := do
  let (tag, r) ← tagBody? handles ps
  if atGap r || (flow && r.head?.any (·.char = ',')) then some (tag, r) else none

end ProseScore.Yaml
