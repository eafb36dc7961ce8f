import ProseScore.Yaml.Block
import ProseScore.Yaml.Tag

/-!
# Nodes of a settings file

A node is a scalar or an alias of another node.  An anchor and a tag can stand
before a scalar, in either order.
-/

namespace ProseScore.Yaml

structure Properties where
  anchor : Option Text := none
  tag : Option Text := none
  deriving DecidableEq, Repr

inductive Content where
  | scalar (scalar : Scalar)
  | alias (name : Text)
  deriving DecidableEq, Repr

structure Node where
  anchor : Option Text
  content : Content
  deriving DecidableEq, Repr

def Node.absent : Node :=
  ⟨none, .scalar .absent⟩

/-- Where a node stands: whether between braces, the column that it must reach,
and the handles of its document. -/
structure Scope where
  flow : Bool
  floor : Nat
  handles : Handles

/-- The characters behind the gap that follows something.  Outside braces a tab
belongs to it only if it does not open a line. -/
def Scope.skip (s : Scope) (ps : List Placed) : List Placed :=
  Yaml.skip s.flow (s.flow || ps.head?.all (0 < ·.column)) ps

def property? (s : Scope) (here : Placed → Bool) (known : Properties) (ps : List Placed) :
    Option (Properties × List Placed) :=
  match ps with
  | [] => some (known, [])
  | p :: r =>
    if here p && p.char = '&' && known.anchor.isNone then
      (name? r).map fun (name, r) => ({ known with anchor := some name }, s.skip r)
    else if here p && p.char = '!' && known.tag.isNone then
      (tag? s.flow s.handles r).map fun (tag, r) =>
        ({ known with tag := some tag }, s.skip r)
    else some (known, p :: r)

/-- The properties that come first `here`, of which there are two at most. -/
def properties? (s : Scope) (here : Placed → Bool) (known : Properties) (ps : List Placed) :
    Option (Properties × List Placed) := do
  let (known, r) ← property? s here known ps
  property? s here known r

def content? (s : Scope) (p : Placed) (r : List Placed) :
    Option ((Text × ScalarStyle) × List Placed) :=
  if (marker? (p :: r)).isSome then none
  else if p.char = '"' then styled .quoted (double .text {} r)
  else if p.char = '\'' then styled .quoted (single {} r)
  else if p.char = '|' && !s.flow then styled .literal (block? false (s.floor - 1) r)
  else if p.char = '>' && !s.flow then styled .folded (block? true (s.floor - 1) r)
  else if beginsBare s.flow p.char r then styled .plain (bare s.flow s.floor {} (p :: r))
  else none
where
  styled (style : ScalarStyle) :
      Option (Text × List Placed) → Option ((Text × ScalarStyle) × List Placed) :=
    Option.map fun (text, r) => ((text, style), r)

/-- Whether a node has no content before these characters.  The mark of indented
lines need not be deeper than a key in the column before the floor. -/
def Scope.ends (s : Scope) : List Placed → Bool
  | [] => true
  | p :: _ =>
    if s.flow then p.char = ',' || p.char = '\x7d'
    else if p.char = '|' || p.char = '>' then p.column + 1 < s.floor
    else p.column < s.floor

def node? (s : Scope) (ps : List Placed) : Option (Node × List Placed) := do
  let (before, r) ← properties? s (s.floor ≤ ·.column) {} ps
  if s.ends r then some (⟨before.anchor, .scalar ⟨[], .plain, before.tag⟩⟩, r)
  else
    match r with
    | [] => none
    | p :: r =>
      if p.char = '*' then
        if before = {} then
          (name? r).map fun (name, r) => (⟨none, .alias name⟩, s.skip r)
        else none
      else
        let ((text, style), r) ← content? s p r
        some (⟨before.anchor, .scalar ⟨text, style, before.tag⟩⟩, s.skip r)

end ProseScore.Yaml
