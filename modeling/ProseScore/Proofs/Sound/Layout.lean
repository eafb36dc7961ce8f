import ProseScore.Sound.Performance

/-!
# Sounds and their times

A performance does two things at once: it turns tokens into sounds, drawing pitches
on the way, and it lays them out in time.  Neither hangs on the other, so a
performance is the sounds of its tokens at the times where the tokens begin.
-/

namespace ProseScore

variable {R : Type} [Scalar R]

/-- The sounds of tokens, each drawn behind the one before it. -/
def Sound.ofTokens (config : Config R) : Generator → List (Token R) → List (Option (Sound R))
  | _, [] => []
  | g, t :: ts =>
    let (sound?, g) := Sound.ofToken? config t g
    sound? :: ofTokens config g ts

/-- When tokens that follow each other begin, and when the last one ends. -/
def Token.starts (time : R) (ts : List (Token R)) : List R :=
  ts.scanl (fun time t => time + t.duration) time

omit [Scalar R] in
/-- Sounds at their times.  What does not sound takes its time but makes no event. -/
def NoteEvent.layOut (sounds : List (Option (Sound R))) (times : List R) : List (NoteEvent R) :=
  (sounds.zip times).filterMap fun (sound?, time) => sound?.map fun sound => ⟨sound, time⟩

theorem stop_perform (config : Config R) (time : R) (g : Generator) (ts : List (Token R)) :
    (perform config time g ts).stop = ts.foldl (fun time t => time + t.duration) time := by
  induction ts generalizing time g with
  | nil => rfl
  | cons t ts ih =>
      rw [perform, List.foldl_cons]
      cases hs : (Sound.ofToken? config t g).1 with
      | none => simp only [hs, ih]
      | some sound => simp only [hs, ih]

end ProseScore
