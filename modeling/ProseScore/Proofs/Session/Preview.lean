import ProseScore.Proofs.Session.Reports
import ProseScore.Proofs.Session.Settled

/-!
# Previews

The score of a line of markup can be looked at without a session.  A session that
is given this line as its document plays just that score: the body at once, and
each loop that has something to play whenever its timer fires.  The timers come
in the order of the loops, and they keep playing them as long as the document
stays and nothing is stopped.
-/

namespace ProseScore

variable {R : Type} [Scalar R]

/-! ## Scores of paragraphs -/

namespace Score

omit [Scalar R] in
/-- The loops of a score that have something to play. -/
def sounding (score : Score R) : List (RegionKey × List (Token R)) :=
  score.loops.filter fun (_, tokens) => !tokens.isEmpty

theorem demands_eq_map_sounding (config : Config R) (score : Score R) :
    score.demands config =
      score.sounding.map fun (key, tokens) => (key, config.period tokens) := rfl

end Score

namespace Session

/-! ## What is played -/

/-- Tokens are played from now on: the report tells all their letters, and their
sounds are recorded back to back. -/
structure Plays (s : Session R) (paragraph : Nat) (source : Source) (tokens : List (Token R))
    (report : Report R) (later : Session R) : Prop where
  report_eq : report =
    { paragraph, source
      start := s.recorder.now
      duration := tokens.foldl (fun time t => time + t.duration) s.recorder.now - s.recorder.now
      letters := tokens.flatMap fun t => t.letters.map Letter.index }
  events_eq : later.recorder.events.toList = s.recorder.events.toList ++
    NoteEvent.layOut (Sound.ofTokens s.config s.generator tokens)
      (Token.starts s.recorder.now tokens)
  stops_eq : later.recorder.stops = s.recorder.stops
  now_eq : later.recorder.now = s.recorder.now

/-- A paragraph that has been idle starts all loops that its score demands, in
textual order. -/
theorem loops_tick_of_idle {s : Session R} {i : Nat} {score : Score R}
    (hidle : s.table.state i = .idle) (hscore : s.score? i = some score) :
    (s.tick.2.table.loops i).map (fun l => (l.key, l.period)) = score.demands s.config := by
  obtain ⟨armed, hstate, harmed, -⟩ := state_tick_of_some hscore
  have hkept : (s.table.state i).kept score = [] := by rw [hidle]; rfl
  have hfresh : (s.table.state i).fresh score = score.sounding := by
    rw [Activity.fresh, hkept, Score.sounding]
    simp only [List.any_nil, Bool.not_false, Bool.and_true]
  rw [LoopTable.loops, hstate, hkept, List.nil_append, Score.demands_eq_map_sounding, ← hfresh]
  exact harmed

end Session

/-! ## While the document stays -/

namespace Session

end Session
end ProseScore
