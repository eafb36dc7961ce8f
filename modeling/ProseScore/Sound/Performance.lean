import ProseScore.Sound.Basic

/-!
# Performances

Tokens are performed back to back: each begins where the one before it ends,
whether that one sounds or not.
-/

namespace ProseScore

structure Performance (R : Type) where
  events : List (NoteEvent R)
  /-- The indices of the letters that sound. -/
  letters : List Nat
  /-- When the last token ends. -/
  stop : R
  generator : Generator

variable {R : Type} [Scalar R]

def perform (config : Config R) : (time : R) → Generator → List (Token R) → Performance R
  | time, g, [] => ⟨[], [], time, g⟩
  | time, g, t :: ts =>
    let (sound, g) := Sound.ofToken? config t g
    let rest := perform config (time + t.duration) g ts
    match sound with
    | none => rest
    | some s =>
      { rest with
        events := ⟨s, time⟩ :: rest.events
        letters := t.letters.map Letter.index ++ rest.letters }

end ProseScore
