import ProseScore.Yaml.Scalar

/-!
# Scalars of indented lines

A scalar can stand on lines of its own that are deeper than what they belong to.
Its header says whether the lines are folded, what becomes of the line ends
behind the last of them, and how deep they are if that is not to be seen from
the first.
-/

namespace ProseScore.Yaml

inductive Chomping where
  | strip
  /-- The first of them is kept. -/
  | clip
  | keep
  deriving DecidableEq, Repr

def Chomping.ofChar? (c : Char) : Option Chomping :=
  if c = '-' then some .strip else if c = '+' then some .keep else none

def indicators? : Option Chomping → Option Nat → List Placed →
    Option (Chomping × Option Nat × List Placed)
  | chomping, depth, [] => some (chomping.getD .clip, depth, [])
  | chomping, depth, p :: r =>
    match chomping, Chomping.ofChar? p.char with
    | none, some c => indicators? (some c) depth r
    | _, _ =>
      if depth.isNone && p.char.isDigit then
        if p.char = '0' then none
        else indicators? chomping (some (p.char.toNat - '0'.toNat)) r
      else some (chomping.getD .clip, depth, p :: r)

/-- A line of a block, its end, and the ends of the empty lines behind it. -/
structure BlockLine where
  text : Text
  stop : Text
  empty : Text

/-- The margin of a line and empty lines before it: the ends of the empty lines,
the widest column that the margin reaches, and the characters behind it.  Without
a `depth` the margin goes on as long as there are spaces.  It holds no tab. -/
def margin? (depth : Option Nat) (widest : Nat) : List Placed →
    Option (Text × Nat × List Placed)
  | [] => some ([], widest, [])
  | p :: r =>
    let inMargin := depth.all (p.column < ·)
    if inMargin && p.char = ' ' then margin? depth (max widest (p.column + 1)) r
    else if inMargin && p.char = '\t' then none
    else
      let widest := max widest p.column
      if isBreak p.char then
        (margin? depth widest r).map fun (ends, widest, r) => (p.char :: ends, widest, r)
      else some ([], widest, p :: r)

theorem length_margin?_le {depth : Option Nat} {widest : Nat} {ps : List Placed} {ends : Text}
    {w : Nat} {r : List Placed} (h : margin? depth widest ps = some (ends, w, r)) :
    r.length ≤ ps.length := by
  induction ps generalizing widest ends w r with
  | nil => simp_all [margin?]
  | cons p ps ih =>
    unfold margin? at h
    simp only at h
    split at h
    · exact Nat.le_succ_of_le (ih h)
    · split at h
      · simp at h
      · split at h
        · obtain ⟨⟨ends', w', r'⟩, h', heq⟩ := Option.map_eq_some_iff.mp h
          simp only [Prod.mk.injEq] at heq
          obtain ⟨-, -, rfl⟩ := heq
          exact Nat.le_succ_of_le (ih h')
        · simp only [Option.some.injEq, Prod.mk.injEq] at h
          exact Nat.le_of_eq (by rw [← h.2.2])

def blockLines? (depth : Nat) (ps : List Placed) : Option (List BlockLine × List Placed) :=
  match ps with
  | [] => some ([], [])
  | p :: r =>
    if p.column = depth then
      let behind := r.dropWhile (!isBreak ·.char)
      match _h : margin? (some depth) 0 behind.tail with
      | none => none
      | some (empty, _, rest) =>
        (blockLines? depth rest).map fun (lines, rest) =>
          (⟨p.char :: (r.takeWhile (!isBreak ·.char)).map Placed.char,
            (behind.take 1).map Placed.char, empty⟩ :: lines, rest)
    else some ([], p :: r)
termination_by ps.length
decreasing_by
  have h₁ := length_margin?_le _h
  have h₂ : behind.length ≤ r.length := (List.dropWhile_sublist _).length_le
  simp only [List.length_tail, List.length_cons] at *
  omega

/-- The text of lines behind a line with the end `stop`, which is deeper than the
others if `deep` says so, and behind empty lines.  Folding makes a space of a
single line feed between two lines that are not deeper, and drops the first of
more. -/
def blockText (folded : Bool) (chomping : Chomping) :
    (stop empty : Text) → (deep : Bool) → List BlockLine → Text
  | stop, empty, _, [] =>
    match chomping with
    | .strip => []
    | .clip => stop
    | .keep => stop ++ empty
  | stop, empty, deep, l :: ls =>
    let deeper := l.text.head?.any isSpace
    let gap :=
      if folded && stop = ['\n'] && !deep && !deeper then
        if empty.isEmpty then [' '] else empty
      else stop ++ empty
    gap ++ l.text ++ blockText folded chomping l.stop l.empty deeper ls

def block? (folded : Bool) (parent : Nat) (ps : List Placed) :
    Option (Text × List Placed) := do
  let (chomping, depth, r) ← indicators? none none ps
  let r ← nextLine? r
  let (empty, widest, r) ← margin? (depth.map (parent + ·)) 0 r
  let depth := (depth.map (parent + ·)).getD (max widest (parent + 1))
  let (lines, r) ← blockLines? depth r
  some (blockText folded chomping [] empty false lines, r)

end ProseScore.Yaml
