import ProseScore.Scalar
import ProseScore.Text.Basic

/-!
# Configuration

A configuration assigns a symbol to every role of the notation and fixes the
durations, the velocity curve and the seed of the random pitches.
-/

namespace ProseScore

inductive Role where
  /-- Ends a paragraph that asks to be played. -/
  | terminator
  | loopOpen
  | loopClose
  | liveOpen
  | liveClose
  | accent
  | random
  /-- Opens and closes a muted stretch. -/
  | quote
  | rest
  /-- Typed in a live region, stops everything. -/
  | silence
  deriving DecidableEq, Repr

namespace Role

/-- The roles that need symbols of their own. -/
def distinct : List Role :=
  [terminator, loopOpen, loopClose, liveOpen, liveClose, accent, random, quote, rest]

def all : List Role :=
  distinct ++ [silence]

theorem mem_all (r : Role) : r ∈ all := by
  cases r <;> decide

def name : Role → String
  | terminator => "terminator"
  | loopOpen => "loop-open"
  | loopClose => "loop-close"
  | liveOpen => "live-open"
  | liveClose => "live-close"
  | accent => "accent"
  | random => "random"
  | quote => "quote"
  | rest => "rest"
  | silence => "silence"

end Role

abbrev Symbols :=
  Role → Char

def Symbols.standard : Symbols
  | .terminator => '.'
  | .loopOpen => '['
  | .loopClose => ']'
  | .liveOpen => '('
  | .liveClose => ')'
  | .accent => '!'
  | .random => '?'
  | .quote => '"'
  | .rest => '/'
  | .silence => '/'

/-- How the size of a letter, in pixels, turns into a velocity: from the minimum
at the low mark to the maximum at the high mark.  An accent adds its bonus. -/
structure VelocityCurve (R : Type) where
  low : R
  high : R
  minimum : R
  maximum : R
  accentBonus : R
  deriving Repr

/-- A configuration.  Durations and periods are in seconds, the size is in
points. -/
structure Config (R : Type) where
  symbols : Symbols
  /-- How long a letter or a chord lasts. -/
  baseDuration : R
  restDuration : R
  /-- The period of a loop whose own duration is not positive. -/
  fallbackPeriod : R
  /-- The size of undeclared text. -/
  baseSize : R
  velocity : VelocityCurve R
  seed : Option UInt64

variable {R : Type} [Scalar R]

def VelocityCurve.standard : VelocityCurve R :=
  ⟨12.0, 24.0, 0.5, 1.0, 0.2⟩

def Config.standard : Config R where
  symbols := .standard
  baseDuration := 0.34
  restDuration := 2.0
  fallbackPeriod := 0.2
  baseSize := 12.0
  velocity := .standard
  seed := none

end ProseScore
