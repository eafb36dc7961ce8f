import ProseScore.Yaml.Node

/-!
# Entries of a settings file

The entries of a mapping stand between braces, or one below the other in the same
column.  A key can be announced by a question mark.  Otherwise its colon follows
it on the line on which it begins.
-/

namespace ProseScore.Yaml

abbrev Entry :=
  Node × Node

def isNear (start colon : Placed) : Bool :=
  colon.line = start.line && colon.column ≤ start.column + 1024

/-! ## Between braces -/

def flowValue? (s : Scope) (ps : List Placed) : Option (Node × List Placed) :=
  match ps with
  | [] => some (.absent, [])
  | p :: r => if p.char = ':' then node? s (skip true true r) else some (.absent, p :: r)

def flowEntry? (s : Scope) (p : Placed) (r : List Placed) : Option (Entry × List Placed) := do
  if p.char = '?' then
    let (key, r) ← node? s (skip true true r)
    let (value, r) ← flowValue? s r
    some ((key, value), r)
  else
    let (key, r) ← node? s (p :: r)
    if r.head?.any (fun q => q.char = ':' && !isNear p q) then none
    let (value, r) ← flowValue? s r
    some ((key, value), r)

/-- The entries up to the closing brace, and what is behind it.  An entry takes
at least one character, so the number of characters suffices for `fuel`. -/
def flowEntries? (s : Scope) : (fuel : Nat) → List Placed → Option (List Entry × List Placed)
  | 0, _ => none
  | _, [] => none
  | fuel + 1, p :: r => do
    if p.char = '\x7d' then some ([], r)
    else
      let (entry, r) ← flowEntry? s p r
      match r with
      | [] => none
      | q :: r =>
        if q.char = '\x7d' then some ([entry], r)
        else if q.char = ',' then
          let (entries, r) ← flowEntries? s fuel (skip true true r)
          some (entry :: entries, r)
        else none

/-! ## One below the other -/

def blockValue? (handles : Handles) (column : Nat) (tabs : Bool) (ps : List Placed) :
    Option (Node × List Placed) :=
  node? ⟨false, column + 1, handles⟩ (skip false tabs ps)

def blockEntry? (handles : Handles) (column : Nat) (p : Placed) (r : List Placed) :
    Option (Entry × List Placed) := do
  if p.char = '?' && atGap r then
    let (key, r) ← blockValue? handles column false r
    match r with
    | [] => some ((key, .absent), [])
    | q :: r =>
      if q.column = column && q.char = ':' && atGap r then
        let (value, r) ← blockValue? handles column false r
        some ((key, value), r)
      else some ((key, .absent), q :: r)
  else
    let (key, r) ← node? ⟨false, column, handles⟩ (p :: r)
    match r with
    | [] => none
    | q :: r =>
      if q.char = ':' && atGap r && isNear p q then
        let (value, r) ← blockValue? handles column true r
        some ((key, value), r)
      else none

/-- The entries in a column up to a marker or the end.  An entry takes at least
one character, so the number of characters suffices for `fuel`. -/
def blockEntries? (handles : Handles) (column : Nat) :
    (fuel : Nat) → List Placed → Option (List Entry × List Placed)
  | _, [] => some ([], [])
  | 0, _ => none
  | fuel + 1, p :: r => do
    if (marker? (p :: r)).isSome then some ([], p :: r)
    else if p.column = column then
      let (entry, r) ← blockEntry? handles column p r
      let (entries, r) ← blockEntries? handles column fuel r
      some (entry :: entries, r)
    else none

end ProseScore.Yaml
