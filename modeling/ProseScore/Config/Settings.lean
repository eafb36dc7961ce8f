import ProseScore.Config.Basic
import ProseScore.Decimal.Layout
import ProseScore.Style.Size
import ProseScore.Text.Quoted

/-!
# Settings

Settings are what somebody chose, each of them optional and none of them
checked.  They make a configuration if they have no fault; what is not chosen
keeps its standard value.
-/

namespace ProseScore

inductive Timing where
  | base
  | rest
  | fallback
  deriving DecidableEq, Repr

namespace Timing

def all : List Timing :=
  [base, rest, fallback]

def name : Timing → String
  | base => "base-duration"
  | rest => "rest-duration"
  | fallback => "loop-fallback-period"

def standard {R : Type} [Scalar R] : Timing → R
  | base => Config.standard.baseDuration
  | rest => Config.standard.restDuration
  | fallback => Config.standard.fallbackPeriod

end Timing

/-- Chosen values, as they were given. -/
structure Settings (R : Type) where
  symbol : Role → Option Text := fun _ => none
  timing : Timing → Option R := fun _ => none
  baseSize : Option Text := none
  low : Option R := none
  high : Option R := none
  minimum : Option R := none
  maximum : Option R := none
  accentBonus : Option R := none
  seed : Option UInt64 := none

inductive ConfigFault (R : Type) where
  /-- A symbol would be taken for a letter or white space. -/
  | indistinct (role : Role)
  | notSingle (role : Role) (given : Text)
  | shared (first second : Role) (symbol : Char)
  | silenceTaken (symbol : Char)
  | size (given : Text)
  /-- The high mark of the curve is not above the low one. -/
  | emptyCurve
  | velocityBounds
  | notPositive (timing : Timing) (given : R)
  deriving DecidableEq, Repr

namespace Settings

variable {R : Type} [Scalar R]

/-- What is wrong with the text chosen for a symbol. -/
def symbolFault? (role : Role) : Option Text → Option (ConfigFault R)
  | none => none
  | some [c] => if isLetter c || isBlank c then some (.indistinct role) else none
  | some s => some (.notSingle role s)

def symbols (s : Settings R) : Symbols := fun role =>
  match s.symbol role with
  | some [c] => c
  | _ => Symbols.standard role

/-- The first two roles of a list that share a symbol. -/
def firstShared? (symbols : Symbols) : List Role → Option (Role × Role)
  | [] => none
  | a :: rest =>
    match rest.find? (symbols a == symbols ·) with
    | some b => some (a, b)
    | none => firstShared? symbols rest

/-- What is wrong with symbols that are each fit for use.  The silence key may
be the rest symbol and no other. -/
def collision? (symbols : Symbols) : Option (ConfigFault R) :=
  match firstShared? symbols Role.distinct with
  | some (a, b) => some (.shared a b (symbols a))
  | none =>
    if symbols .silence ≠ symbols .rest ∧
        Role.distinct.any (symbols · == symbols .silence) then
      some (.silenceTaken (symbols .silence))
    else none

def sizeFault? (s : Settings R) : Option (ConfigFault R) :=
  match s.baseSize with
  | none => none
  | some given => if (Size.ofText? given : Option R).isSome then none else some (.size given)

def velocity (s : Settings R) : VelocityCurve R where
  low := s.low.getD VelocityCurve.standard.low
  high := s.high.getD VelocityCurve.standard.high
  minimum := s.minimum.getD VelocityCurve.standard.minimum
  maximum := s.maximum.getD VelocityCurve.standard.maximum
  accentBonus := s.accentBonus.getD VelocityCurve.standard.accentBonus

def curveFault? (c : VelocityCurve R) : Option (ConfigFault R) :=
  if c.high ≤ c.low then some .emptyCurve
  else if 0 ≤ c.minimum ∧ c.minimum ≤ 1.0 ∧ 0 ≤ c.maximum ∧ c.maximum ≤ 1.0 ∧
      ¬ c.maximum < c.minimum then none
  else some .velocityBounds

def timingFault? (t : Timing) : Option R → Option (ConfigFault R)
  | none => none
  | some x => if Scalar.isFinite x ∧ 0 < x then none else some (.notPositive t x)

/-- The first fault of settings: of the single symbols, of the symbols together,
of the size, of the velocity curve, of the timings. -/
def fault? (s : Settings R) : Option (ConfigFault R) :=
  (Role.all.findSome? fun role => symbolFault? role (s.symbol role)) <|>
    collision? s.symbols <|>
    s.sizeFault? <|>
    curveFault? s.velocity <|>
    Timing.all.findSome? fun t => timingFault? t (s.timing t)

def fill (s : Settings R) : Config R where
  symbols := s.symbols
  baseDuration := (s.timing .base).getD (Timing.standard .base)
  restDuration := (s.timing .rest).getD (Timing.standard .rest)
  fallbackPeriod := (s.timing .fallback).getD (Timing.standard .fallback)
  baseSize := (s.baseSize.bind Size.ofText?).getD Config.standard.baseSize
  velocity := s.velocity
  seed := s.seed

def config (s : Settings R) : Except (ConfigFault R) (Config R) :=
  match s.fault? with
  | some fault => .error fault
  | none => .ok s.fill

theorem config_eq_ok_iff {s : Settings R} {c : Config R} :
    s.config = .ok c ↔ s.fault? = none ∧ s.fill = c := by
  unfold config
  cases s.fault? <;> simp

end Settings

def ConfigFault.message : ConfigFault Float → String
  | indistinct role => role.name ++ " cannot be a letter or whitespace"
  | notSingle role given =>
    role.name ++ " must be a single character, got " ++ String.ofList (Quoted.text given)
  | shared a b symbol =>
    a.name ++ " and " ++ b.name ++ " both use " ++ String.ofList (Quoted.char symbol)
  | silenceTaken symbol =>
    "silence " ++ String.ofList (Quoted.char symbol) ++ " collides with another symbol"
  | size given => "Invalid base-size: " ++ String.ofList given
  | emptyCurve => "velocity-high-px must be greater than velocity-low-px"
  | velocityBounds => "velocities must satisfy 0 <= min-velocity <= max-velocity <= 1"
  | notPositive t given =>
    t.name ++ " must be positive, got " ++ String.ofList (NumberLayout.message.render given)

end ProseScore
