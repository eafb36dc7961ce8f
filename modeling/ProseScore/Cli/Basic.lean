import ProseScore.Cli.Directory
import ProseScore.Cli.Options
import ProseScore.Config.Reading
import ProseScore.Markup.Reading
import ProseScore.Session.Basic
import ProseScore.Sound.Listing

/-!
# The command

The command reads a document, plays it for some seconds and lists the events.
What it answers depends on its arguments, on the files that they name and on the
seed for settings without one.
-/

namespace ProseScore.Cli

/-- What stops the command once its arguments are understood. -/
inductive Failure where
  | file (fault : FileFault)
  | config (error : ConfigError)
  | markup (error : MarkupError)
  /-- Some loop is too short for the clock to move on. -/
  | endless

def Failure.message : Failure → String
  | file fault => "I/O error: " ++ fault.message
  | config error => error.message
  | markup error => error.message
  | endless => "Playback does not end"

structure Playback where
  oneShots : Nat
  loops : Nat
  events : List (NoteEvent Float)

/-- Play a document.  Settings that have been read have the bounds of their velocities in
order, so that only an endless loop can get in the way. -/
def play (config : Config Float) (seed : UInt64) (document : Document Float)
    (seconds : Float) : Except Failure Playback :=
  let drawn := Generator.ofSeed seed
  let (oneShots, s) := (Session.new { config with seed } drawn drawn).edit document
  match s.advance? seconds with
  | none => .error .endless
  | some (loops, s) => .ok ⟨oneShots.length, loops.length, s.recorder.events.toList⟩

abbrev Files :=
  Text → Except FileFault Text

def Options.configuration (o : Options) (files : Files) : Except Failure (Config Float) :=
  match o.config with
  | none => .ok .standard
  | some path =>
    match files path with
    | .error fault => .error (.file fault)
    | .ok text => (Config.ofText text).mapError .config

/-- Carry out the command.  The settings are looked at before the document. -/
def Options.carryOut (o : Options) (files : Files) (seed : UInt64) : Except Failure Playback := do
  let config ← o.configuration files
  let source ← (files o.input).mapError Failure.file
  let document ← (Document.ofMarkup source).mapError Failure.markup
  play config (config.seed.getD seed) document o.seconds

structure Answer where
  exit : UInt32
  stdout : String
  stderr : String

def Playback.summary (p : Playback) (seconds : Float) : String :=
  "[INFO  tonetype] " ++ toString p.oneShots ++ " one-shot and " ++ toString p.loops ++
    " loop playbacks in " ++ String.ofList (NumberLayout.message.render seconds) ++ "s\n"

def run (files : Files) (seed : UInt64) (args : List Text) : Answer :=
  match Options.read args with
  | .error fault => ⟨1, "", fault.message ++ "\n" ++ usage ++ "\n"⟩
  | .ok o =>
    match o.carryOut files seed with
    | .error failure => ⟨1, "", "Error: " ++ failure.message ++ "\n"⟩
    | .ok p => ⟨0, Listing.events p.events, p.summary o.seconds⟩

end ProseScore.Cli
