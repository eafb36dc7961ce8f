import ProseScore.Decimal.Numeral

/-!
# Command-line options

The command takes the name of an input file, and may take the name of a settings
file and the number of seconds to play.
-/

namespace ProseScore.Cli

structure Options where
  input : Text
  config : Option Text
  seconds : Float

inductive UsageFault where
  | noConfigPath
  | noSeconds
  | badSeconds (given : Text)
  | unknownOption (given : Text)
  | secondInput
  | noInput
  deriving DecidableEq, Repr

def UsageFault.message : UsageFault → String
  | noConfigPath => "--config needs a path"
  | noSeconds => "--seconds needs a value"
  | badSeconds given => "Invalid --seconds value '" ++ String.ofList given ++ "'"
  | unknownOption given => "Unknown option '" ++ String.ofList given ++ "'"
  | secondInput => "Only one input file may be given"
  | noInput => "Missing input file"

def usage : String :=
  "Usage: tonetype [--config <config.yaml>] [--seconds <N>] <input.txt>"

namespace Options

/-- Read a number of seconds, which is not negative. -/
def seconds? (s : Text) : Option Float :=
  ((Numeral.ofText? s).bind Numeral.value?).filter fun x => 0 ≤ x

/-- Read arguments behind others that have given this much. -/
def readFrom (input config : Option Text) (seconds : Float) :
    List Text → Except UsageFault Options
  | [] =>
    match input with
    | none => .error .noInput
    | some input => .ok ⟨input, config, seconds⟩
  | a :: rest =>
    if a = "--config".toList then
      match rest with
      | [] => .error .noConfigPath
      | path :: rest => readFrom input (some path) seconds rest
    else if a = "--seconds".toList then
      match rest with
      | [] => .error .noSeconds
      | given :: rest =>
        match seconds? given with
        | none => .error (.badSeconds given)
        | some seconds => readFrom input config seconds rest
    else if "--".toList.isPrefixOf a then .error (.unknownOption a)
    else if input.isSome then .error .secondInput
    else readFrom (some a) config seconds rest

/-- Read arguments.  Four seconds are played unless others are asked for. -/
def read (args : List Text) : Except UsageFault Options :=
  readFrom none none 4 args

end Options

end ProseScore.Cli
