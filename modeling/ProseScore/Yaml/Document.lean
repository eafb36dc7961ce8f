import ProseScore.Yaml.Entry

/-!
# Documents

A file holds one document.  Directives can come first, each on a line of its own
that begins with a percent sign, and a marker behind them.  The document holds a
mapping, which can have an anchor and a tag, or nothing.
-/

namespace ProseScore.Yaml

structure Document where
  anchor : Option Text
  entries : List Entry

/-! ## Directives -/

structure Directives where
  /-- Whether the version has been said. -/
  versioned : Bool := false
  handles : Handles := []

def atDirective : List Placed → Bool
  | [] => false
  | p :: _ => p.char = '%' && p.column = 0

def versionNumber? (ps : List Placed) : Option (Nat × List Placed) :=
  let (digits, r) := span Char.isDigit ps
  if 1 ≤ digits.length ∧ digits.length ≤ 9 then
    some (digits.foldl (fun n c => 10 * n + (c.toNat - '0'.toNat)) 0, r)
  else none

def version? (ps : List Placed) : Option (List Placed) := do
  let (major, r) ← versionNumber? ps
  match r with
  | [] => none
  | p :: r =>
    let (minor, r) ← versionNumber? r
    if p.char = '.' && major = 1 && (minor = 1 || minor = 2) then some r else none

def handle? (ps : List Placed) : Option ((Text × Text) × List Placed) := do
  match ps with
  | [] => none
  | p :: r =>
    let (name, r) := span isNameChar r
    let (handle, r) ←
      match r with
      | q :: s => if q.char = '!' then some ('!' :: name ++ ['!'], s) else bare name (q :: s)
      | [] => bare name []
    if p.char = '!' && r.head?.any (isSpace ·.char) then
      let (first, r) ← tagText? true (skipBlanks r)
      if atGap r then some ((handle, first), r) else none
    else none
where
  bare (name : Text) (r : List Placed) : Option (Text × List Placed) :=
    if name.isEmpty then some (['!'], r) else none

def directive? (d : Directives) (ps : List Placed) : Option (Directives × List Placed) := do
  let (name, r) := span isNameChar ps
  if !atGap r then none
  else if name = "YAML".toList then
    let r ← version? (skipBlanks r)
    if d.versioned then none else some ({ d with versioned := true }, ← nextLine? r)
  else if name = "TAG".toList then
    let (handle, r) ← handle? (skipBlanks r)
    if (d.handles.lookup handle.1).isSome then none
    else some ({ d with handles := d.handles ++ [handle] }, ← nextLine? r)
  else none

/-- All directives.  One takes at least one character, so the number of
characters suffices for `fuel`. -/
def directives? : (fuel : Nat) → Directives → List Placed → Option (Directives × List Placed)
  | 0, d, ps => some (d, ps)
  | fuel + 1, d, ps => do
    if atDirective ps then
      let (d, r) ← directive? d ps.tail
      directives? fuel d (skip false true r)
    else some (d, ps)

/-! ## Content -/

/-- One more line of properties of the mapping.  Properties on the line of a key
are the key's. -/
def lineOfProperties? (handles : Handles) (known : Properties) (ps : List Placed) :
    Option (Properties × List Placed) := do
  match ps with
  | [] => some (known, [])
  | p :: r =>
    let (found, behind) ← properties? ⟨false, 0, handles⟩ (·.line = p.line) known (p :: r)
    if behind.head?.any (fun q => q.line = p.line && q.char ≠ '\x7b') then some (known, p :: r)
    else some (found, behind)

/-- The content of a document, which begins on the line of its marker if that is
`barred` to keys.  There are two properties at most, so two lines of them. -/
def body? (handles : Handles) (barred : Option Nat) (ps : List Placed) : Option Document := do
  let (known, r) ← lineOfProperties? handles {} ps
  let (known, r) ← lineOfProperties? handles known r
  match r with
  | [] => some ⟨known.anchor, []⟩
  | p :: r =>
    let (entries, rest) ←
      if p.char = '\x7b' then
        (flowEntries? ⟨true, 0, handles⟩ r.length (skip true true r)).map fun (entries, r) =>
          (entries, skip false true r)
      else if barred = some p.line then none
      else blockEntries? handles p.column (r.length + 1) (p :: r)
    if isOver rest then some ⟨known.anchor, entries⟩ else none

def document? (file : Text) : Option Document := do
  if file.all isAllowed then
    let ps := skip false false (place file)
    let (d, r) ← directives? ps.length {} ps
    let handles := d.handles.withStandard
    match marker? r, r with
    | some .opening, p :: _ => body? handles (some p.line) (skip false true (r.drop 3))
    | none, r => if atDirective ps then none else body? handles none r
    | _, _ => none
  else none

end ProseScore.Yaml
