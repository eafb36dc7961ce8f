import ProseScore.Session.LoopTable
import ProseScore.Sound.Performance
import ProseScore.Timer.Drain

/-!
# Sessions

A session plays a document while it is edited.  A paragraph's body plays once
when the paragraph becomes active, and its loops play whenever their timers
fire.  What has been played is held by a recorder with a clock of its own.
-/

namespace ProseScore

/-- What has been played, and the time at which the next sound can begin. -/
structure Recorder (R : Type) where
  now : R
  events : Array (NoteEvent R)
  /-- How often everything has been silenced. -/
  stops : Nat

namespace Recorder

variable {R : Type}

def empty [Zero R] : Recorder R :=
  ⟨0, #[], 0⟩

/-- Move the clock to a time, unless it is there already or beyond. -/
def advanceTo [LT R] [DecidableLT R] (r : Recorder R) (time : R) : Recorder R :=
  { r with now := if r.now < time then time else r.now }

def record (r : Recorder R) (events : List (NoteEvent R)) : Recorder R :=
  { r with events := r.events ++ events }

@[simp] theorem toList_events_record (r : Recorder R) (es : List (NoteEvent R)) :
    (r.record es).events.toList = r.events.toList ++ es := by
  simp [record]

def silence (r : Recorder R) : Recorder R :=
  { r with stops := r.stops + 1 }

def clear (r : Recorder R) : Recorder R :=
  { r with events := #[] }

end Recorder

inductive Source where
  | oneShot
  | loop (key : RegionKey)
  deriving DecidableEq, Repr

/-- One performance of a body or a loop. -/
structure Report (R : Type) where
  paragraph : Nat
  source : Source
  start : R
  duration : R
  /-- The indices of the letters that sound. -/
  letters : List Nat
  deriving DecidableEq, Repr

/-- A document that is being played.  What its calls do is told for those that come
back, which is all calls where the bounds of the velocities are in order. -/
structure Session (R : Type) where
  config : Config R
  document : Document R
  table : LoopTable R
  registry : Registry R
  recorder : Recorder R
  /-- Draws the pitches of bodies and loops. -/
  generator : Generator
  /-- Draws the pitches of keystrokes. -/
  liveGenerator : Generator

namespace Session

variable {R : Type} [Scalar R]

/-- A session without a document.  Keystrokes draw from the seed after the
configured one, so that they do not echo the document.  Without a configured seed
both generators are drawn by the host. -/
def new (config : Config R) (drawn drawnLive : Generator) : Session R where
  config
  document := []
  table := []
  registry := .empty
  recorder := .empty
  generator := .begin config.seed drawn
  liveGenerator := .begin (config.seed.map (· + 1)) drawnLive

def now (s : Session R) : R :=
  s.registry.timers.now

/-- Whether a call that has led to another session comes back to its host: there are
velocities for what it has recorded, or it has recorded nothing. -/
def comesBack (s later : Session R) : Bool :=
  s.config.velocity.Bounded || later.recorder.events.size = s.recorder.events.size

theorem comesBack_iff {s later : Session R} {es : List (NoteEvent R)}
    (h : later.recorder.events.toList = s.recorder.events.toList ++ es) :
    s.comesBack later = true ↔ s.config.velocity.Bounded ∨ es = [] := by
  have hsize : later.recorder.events.size = s.recorder.events.size + es.length := by
    rw [← Array.length_toList, h, List.length_append, Array.length_toList]
  simp [comesBack, hsize]

def schedule (s : Session R) (tokens : List (Token R)) (start : R) :
    (R × List Nat) × Session R :=
  let p := perform s.config start s.generator tokens
  ((p.stop - start, p.letters),
    { s with generator := p.generator, recorder := s.recorder.record p.events })

/-- Schedule tokens, if the call comes back. -/
def schedule? (s : Session R) (tokens : List (Token R)) (start : R) :
    Option ((R × List Nat) × Session R) :=
  some (s.schedule tokens start) |>.filter fun (_, later) => s.comesBack later

def play (s : Session R) (paragraph : Nat) (source : Source) (tokens : List (Token R)) :
    Report R × Session R :=
  let start := s.recorder.now
  let ((duration, letters), s) := s.schedule tokens start
  (⟨paragraph, source, start, duration, letters⟩, s)

def playBodies : Session R → List (Nat × List (Token R)) → List (Report R) × Session R
  | s, [] => ([], s)
  | s, (paragraph, tokens) :: rest =>
    let (report, s) := s.play paragraph .oneShot tokens
    let (reports, s) := s.playBodies rest
    (report :: reports, s)

def scores (s : Session R) : List (Option (Score R)) :=
  s.document.map (Score.ofActive? s.config)

/-- Bring everything in line with the document: the bodies of the paragraphs
that become active are played, and the loops are started and stopped. -/
def tick (s : Session R) : List (Report R) × Session R :=
  let scores := s.scores
  let (reports, played) := s.playBodies (s.table.openings 0 scores)
  let (table, registry) := s.table.follow s.config 0 scores s.registry
  (reports, { played with table, registry })

def edit (s : Session R) (document : Document R) : List (Report R) × Session R :=
  tick { s with document }

/-- Play the loop of a timer that fires, if there is something to play. -/
def timerFired (s : Session R) (handle : Nat) : Option (Report R) × Session R :=
  match s.registry.owner? handle with
  | none => (none, s)
  | some owner =>
    match s.document[owner.paragraph]? with
    | none => (none, s)
    | some p =>
      match (Score.ofParagraph s.config p).loop owner.key with
      | [] => (none, s)
      | tokens =>
        let (report, s) := s.play owner.paragraph (.loop owner.key) tokens
        (some report, s)

/-- Deliver firings, each at the time when it was due. -/
def deliver : Session R → List (Firing R) → List (Firing R × Option (Report R)) × Session R
  | s, [] => ([], s)
  | s, f :: fs =>
    let (report, s) :=
      timerFired { s with recorder := s.recorder.advanceTo f.due } f.handle
    let (rest, s) := s.deliver fs
    ((f, report) :: rest, s)

/-- Let time go on to a horizon.  The answer lists the firings with their
reports; there is none if some timer would fire forever. -/
def advanceTo? (s : Session R) (horizon : R) :
    Option (List (Firing R × Option (Report R)) × Session R) :=
  (s.registry.timers.drain? horizon).map fun (firings, timers) =>
    let (delivered, s) := s.deliver firings
    (delivered,
      { s with
        registry := { s.registry with timers }
        recorder := s.recorder.advanceTo horizon })

def advance? (s : Session R) (seconds : R) : Option (List (Report R) × Session R) :=
  (s.advanceTo? (s.now + seconds)).map fun (delivered, s) =>
    (delivered.filterMap Prod.snd, s)

/-- Stop all loops, make all paragraphs idle and silence everything. -/
def stopAll (s : Session R) : Session R :=
  { s with
    table := []
    registry := s.registry.clear
    recorder := s.recorder.silence }

end Session

end ProseScore
