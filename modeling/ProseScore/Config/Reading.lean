import ProseScore.Config.Settings
import ProseScore.Yaml.Mapping

/-!
# Reading a configuration

A settings file is a mapping from the names of settings to their values.  Each
name is known and stands at most once, and each value has the kind that its name
asks for: a text, a number or a seed.
-/

namespace ProseScore

namespace Yaml.Scalar

def standardTag (kind : String) : Text :=
  ("tag:yaml.org,2002:" ++ kind).toList

def isNullWord (text : Text) : Bool :=
  ["null", "Null", "NULL", "~"].any (text == ·.toList)

/-- Whether a scalar stands for nothing.  This can be said only of plain ones,
and where a tag says so they hold a word for it. -/
def isNull? (s : Scalar) : Option Bool :=
  if s.style ≠ .plain then some false
  else
    match s.tag with
    | none => some (s.text.isEmpty || isNullWord s.text)
    | some tag =>
      if tag ≠ standardTag "null" then some false
      else if isNullWord s.text then some true
      else none

/-- Whether a scalar can stand for a number of a kind: plain, or as lines that
their tag says to be one. -/
def isNumeric (kind : String) (s : Scalar) : Bool :=
  s.style = .plain || (s.style = .literal && s.tag = some (standardTag kind))

/-- A scalar as a binary64 number.  Numerals beyond its range are none. -/
def number? (s : Scalar) : Option Float :=
  if !s.isNumeric "float" then none
  else if [".inf", ".Inf", ".INF", "+.inf", "+.Inf", "+.INF"].any (s.text == ·.toList) then
    some (1 / 0)
  else if ["-.inf", "-.Inf", "-.INF"].any (s.text == ·.toList) then some (-1 / 0)
  else if [".nan", ".NaN", ".NAN"].any (s.text == ·.toList) then some (0 / 0)
  else (Numeral.ofText? s.text).bind Numeral.value?

def natural? (base : Nat) (digits : Text) : Option Nat :=
  if digits.isEmpty then none
  else digits.foldl (fun n c => do
    let n ← n
    let d ← hexDigit? c
    if d < base then some (base * n + d) else none) (some 0)

/-- A scalar as a natural number: decimal digits without a leading zero, or
digits to the base sixteen, eight or two behind their mark. -/
def unsigned? (s : Scalar) : Option Nat :=
  if !s.isNumeric "int" then none
  else
    match (match s.text with | '+' :: r => r | r => r) with
    | '0' :: 'x' :: r => natural? 16 r
    | '0' :: 'o' :: r => natural? 8 r
    | '0' :: 'b' :: r => natural? 2 r
    | ['0'] => some 0
    | '0' :: _ => none
    | r => natural? 10 r

def seed? (s : Scalar) : Option UInt64 :=
  s.unsigned?.bind fun n => if n < Nat.pow 2 64 then some (.ofNat n) else none

end Yaml.Scalar

namespace Settings

def putNumber? (name : Text) (x : Float) (s : Settings Float) : Option (Settings Float) :=
  match Timing.all.find? (·.name.toList == name) with
  | some t => some { s with timing := fun t' => if t' = t then some x else s.timing t' }
  | none =>
    if name = "velocity-low-px".toList then some { s with low := some x }
    else if name = "velocity-high-px".toList then some { s with high := some x }
    else if name = "min-velocity".toList then some { s with minimum := some x }
    else if name = "max-velocity".toList then some { s with maximum := some x }
    else if name = "accent-bonus".toList then some { s with accentBonus := some x }
    else none

def putText? (name text : Text) (s : Settings Float) : Option (Settings Float) :=
  match Role.all.find? (·.name.toList == name) with
  | some r => some { s with symbol := fun r' => if r' = r then some text else s.symbol r' }
  | none => if name = "base-size".toList then some { s with baseSize := some text } else none

def isKnown (name : Text) : Bool :=
  name = "seed".toList || (putText? name [] {}).isSome || (putNumber? name 0 {}).isSome

def put? (s : Settings Float) (name : Text) (value : Yaml.Scalar) : Option (Settings Float) :=
  match value.isNull? with
  | none => none
  | some true => if isKnown name then some s else none
  | some false =>
    if name = "seed".toList then value.seed?.map fun n => { s with seed := some n }
    else
      match putText? name value.text s with
      | some s => some s
      | none => value.number?.bind fun x => putNumber? name x s

def ofMapping? (m : Yaml.Mapping) : Option (Settings Float) :=
  if (m.map Prod.fst).Nodup then
    m.foldlM (fun s (name, value) => s.put? name value) {}
  else none

end Settings

inductive ConfigError where
  /-- The file holds no mapping of settings. -/
  | unreadable
  | fault (fault : ConfigFault Float)

/-- The configuration of a settings file.  An empty file chooses nothing. -/
def Config.ofText (file : Text) : Except ConfigError (Config Float) :=
  if (Text.trim file).isEmpty then .ok .standard
  else
    match (Yaml.mapping? file).bind Settings.ofMapping? with
    | none => .error .unreadable
    | some settings => settings.config.mapError .fault

def ConfigError.message : ConfigError → String
  | unreadable => "Invalid configuration: not a mapping of settings"
  | fault f => "Invalid configuration: " ++ f.message

end ProseScore
