import ProseScore.Decimal.Layout
import ProseScore.Sound.Basic

/-!
# Listings

A listing shows events one below the other, each as a nested list of names and
values.  Lines are indented by two spaces a level.
-/

namespace ProseScore

def Waveform.name : Waveform → String
  | sine => "sine"
  | square => "square"
  | triangle => "triangle"

namespace Listing

def number (name : String) (x : Float) : String :=
  name ++ ": " ++ String.ofList (NumberLayout.listing.render x)

def indent (lines : List String) : List String :=
  lines.map ("  " ++ ·)

def effects (e : Effects Float) : List String :=
  let vibrato := match e.vibrato with
    | none => []
    | some v =>
      "vibrato:" :: indent
        [number "frequency" v.frequency, number "depth" v.depth, number "wet" v.wet]
  let distortion := match e.distortion with
    | none => []
    | some d => "distortion:" :: indent [number "amount" d.amount, number "wet" d.wet]
  let reverb := "reverb:" :: indent
    [number "decay" e.reverb.decay, number "preDelay" e.reverb.preDelay,
      number "wet" e.reverb.wet]
  vibrato ++ distortion ++ reverb

/-- The lines of an event.  The first one is marked, the others stand below its
text. -/
def event (e : NoteEvent Float) : List String :=
  let pitches := e.pitches.map fun p => "- " ++ String.ofList p.name
  "- pitches:" :: indent
    (pitches ++
      [number "duration" e.duration, number "startTime" e.start, number "velocity" e.velocity,
        "waveform: " ++ e.waveform.name, "effects:"] ++
      indent (effects e.effects))

def events (es : List (NoteEvent Float)) : String :=
  if es.isEmpty then "[]\n"
  else String.join ((es.flatMap event).map (· ++ "\n"))

end Listing

end ProseScore
