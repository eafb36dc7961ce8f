import ProseScore.Config.Basic
import ProseScore.Sound.Generator
import ProseScore.Style.Size
import ProseScore.Token.Basic

/-!
# Sounds

What a letter or a chord sounds like: its pitches, how long and how loud it is,
and the waveform and effects that its attributes call for.
-/

namespace ProseScore

inductive Waveform where
  | sine
  | square
  | triangle
  deriving DecidableEq, Repr

namespace Waveform

def ofColor : Color → Waveform
  | .blue => sine
  | .green => square
  | .red | .black => triangle

end Waveform

structure Vibrato (R : Type) where
  frequency : R
  depth : R
  wet : R
  deriving DecidableEq, Repr

structure Distortion (R : Type) where
  amount : R
  wet : R
  deriving DecidableEq, Repr

structure Reverb (R : Type) where
  decay : R
  preDelay : R
  wet : R
  deriving DecidableEq, Repr

/-- The effects on a tone.  Every tone echoes. -/
structure Effects (R : Type) where
  vibrato : Option (Vibrato R)
  distortion : Option (Distortion R)
  reverb : Reverb R
  deriving DecidableEq, Repr

structure Sound (R : Type) where
  pitches : List Pitch
  duration : R
  velocity : R
  waveform : Waveform
  effects : Effects R
  deriving DecidableEq, Repr

structure NoteEvent (R : Type) extends Sound R where
  start : R
  deriving DecidableEq, Repr

variable {R : Type} [Scalar R]

/-- Italics shake, bold and red letters are distorted, the red ones more, and
underlined letters echo longer. -/
def Effects.ofAttributes (a : Attributes R) : Effects R where
  vibrato := if a.italic then some ⟨5.0, 0.16, 0.5⟩ else none
  distortion :=
    if a.color = .red then some ⟨0.35, 0.6⟩
    else if a.bold then some ⟨0.35, 0.45⟩
    else none
  reverb := ⟨2.2, 0.03, if a.underline then 0.28 else 0.15⟩

namespace VelocityCurve

/-- The bounds are in order.  Otherwise, and where one of them is undefined, nothing can
be clamped between them. -/
def Bounded (c : VelocityCurve R) : Prop :=
  c.minimum ≤ c.maximum

instance (c : VelocityCurve R) : Decidable c.Bounded :=
  inferInstanceAs (Decidable (_ ≤ _))

/-- The velocity of a letter of so many points without an accent, where the bounds are in
order. -/
def plain (c : VelocityCurve R) (size : R) : R :=
  let t := (Size.pixels size - c.low) / (c.high - c.low)
  let v := c.minimum + t * (c.maximum - c.minimum)
  if v < c.minimum then c.minimum else if c.maximum < v then c.maximum else v

/-- The velocity of a letter of so many points, where the bounds are in order.  An accent
never goes beyond the maximum. -/
def velocity (c : VelocityCurve R) (size : R) (accent : Bool) : R :=
  if accent then
    let v := c.plain size + c.accentBonus
    if v ≤ c.maximum then v else c.maximum
  else c.plain size

/-- The velocity of a letter of so many points, if there is one.  Who asks for it where
there is none gets no answer at all. -/
def velocity? (c : VelocityCurve R) (size : R) (accent : Bool) : Option R :=
  if c.Bounded then some (c.velocity size accent) else none

end VelocityCurve

def Letter.pitches (random : Bool) (letters : List (Letter R)) (g : Generator) :
    List Pitch × Generator :=
  if random then g.draw letters.length
  else (letters.filterMap fun l => Pitch.ofLetter? l.char, g)

namespace Sound

def ofPitches (config : Config R) (accent : Bool) (a : Attributes R) (ps : List Pitch) :
    Sound R where
  pitches := ps
  duration := config.baseDuration
  velocity := config.velocity.velocity a.size accent
  waveform := .ofColor a.color
  effects := .ofAttributes a

/-- The sound of a single character: a drawn pitch if it is the random symbol or
has the random flag, its own if it is a letter. -/
def ofChar? (config : Config R) (accent random : Bool) (a : Attributes R) (c : Char)
    (g : Generator) : Option (Sound R) × Generator :=
  if random || c = config.symbols .random then
    let (p, g) := g.next
    (some (ofPitches config accent a [p]), g)
  else ((Pitch.ofLetter? c).map fun p => ofPitches config accent a [p], g)

def ofToken? (config : Config R) (t : Token R) (g : Generator) :
    Option (Sound R) × Generator :=
  match t.attributes? with
  | none => (none, g)
  | some a =>
    match Letter.pitches t.random t.letters g with
    | ([], g) => (none, g)
    | (p :: ps, g) => (some (ofPitches config t.accent a (p :: ps)), g)

end Sound

end ProseScore
