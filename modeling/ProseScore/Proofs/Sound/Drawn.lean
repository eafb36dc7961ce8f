import Mathlib.Data.List.Forall2
import ProseScore.Proofs.Token.Letters

/-!
# What hangs on a generator

Two performances of the same tokens with different generators sound at the same
times, equally long and loud, with the same waveforms and effects and with as many
pitches.  The pitches themselves differ at most where they are drawn.
-/

namespace ProseScore

variable {R : Type}

/-- Events of so many pitches that differ in nothing but pitches, and in these only if
they are random. -/
structure NoteEvent.Alike (random : Bool) (count : Nat) (e e' : NoteEvent R) : Prop where
  eq_of_fixed : random = false → e = e'
  eq_but_pitches : ({ e with pitches := [] } : NoteEvent R) = { e' with pitches := [] }
  length_pitches : e.pitches.length = count
  length_pitches' : e'.pitches.length = count

/-- Two lists of events, an event for each token with letters, that differ at most in
the pitches of random tokens. -/
inductive Token.SoundAlike : List (Token R) → List (NoteEvent R) → List (NoteEvent R) → Prop
  | nil : SoundAlike [] [] []
  | silent {t : Token R} {ts : List (Token R)} {es es' : List (NoteEvent R)} :
      t.letters = [] → SoundAlike ts es es' → SoundAlike (t :: ts) es es'
  | sound {t : Token R} {ts : List (Token R)} {e e' : NoteEvent R} {es es' : List (NoteEvent R)} :
      e.Alike t.random t.letters.length e' → SoundAlike ts es es' →
      SoundAlike (t :: ts) (e :: es) (e' :: es')

/-- Two lists of events with an origin for each place: the origin tells how many pitches
there are and whether they are random, and in nothing else the events differ. -/
inductive NoteEvent.AlikeBy {α : Type} (random : α → Bool) (count : α → Nat) :
    List α → List (NoteEvent R) → List (NoteEvent R) → Prop
  | nil : AlikeBy random count [] [] []
  | cons {a : α} {as : List α} {e e' : NoteEvent R} {es es' : List (NoteEvent R)} :
      e.Alike (random a) (count a) e' → AlikeBy random count as es es' →
      AlikeBy random count (a :: as) (e :: es) (e' :: es')

namespace NoteEvent.AlikeBy

variable {α β : Type} {random : α → Bool} {count : α → Nat} {as bs : List α}
  {es es' fs fs' : List (NoteEvent R)}

theorem append (h : AlikeBy random count as es es') (h' : AlikeBy random count bs fs fs') :
    AlikeBy random count (as ++ bs) (es ++ fs) (es' ++ fs') := by
  induction h with
  | nil => exact h'
  | cons halike _ ih => exact .cons halike ih

theorem map {random : β → Bool} {count : β → Nat} {f : α → β}
    (h : AlikeBy (random ∘ f) (count ∘ f) as es es') :
    AlikeBy random count (as.map f) es es' := by
  induction h with
  | nil => exact .nil
  | cons halike _ ih => exact .cons halike ih

theorem eq_nil_iff (h : AlikeBy random count as es es') : es = [] ↔ es' = [] := by
  cases h with
  | nil => rfl
  | cons _ _ => simp

theorem forall₂ (h : AlikeBy random count as es es') :
    List.Forall₂ (fun a e => e.pitches.length = count a) as es := by
  induction h with
  | nil => exact .nil
  | cons halike _ ih => exact .cons halike.length_pitches ih

end NoteEvent.AlikeBy

variable [Scalar R]

theorem Sound.ofToken?_of_letters_nil (config : Config R) {t : Token R} (h : t.letters = [])
    (g : Generator) : (Sound.ofToken? config t g).1 = none := by
  rw [ofToken?, h]
  cases t.attributes? with
  | none => rfl
  | some a => cases t.random <;> rfl

theorem events_perform_silent (config : Config R) (time : R) (g : Generator) {t : Token R}
    (hnil : t.letters = []) (ts : List (Token R)) : ∃ rest,
    (perform config time g (t :: ts)).events =
      (perform config (time + t.duration) rest ts).events := by
  rw [perform]
  simp only [Sound.ofToken?_of_letters_nil config hnil]
  exact ⟨_, rfl⟩

theorem events_perform_sound (config : Config R) (time : R) (g g' : Generator) {t : Token R}
    (ht : ∀ l ∈ t.letters, isLetter l.char = true) (hne : t.letters ≠ []) (ts : List (Token R)) :
    ∃ e e' rest rest', e.Alike t.random t.letters.length e' ∧
      (perform config time g (t :: ts)).events =
        e :: (perform config (time + t.duration) rest ts).events ∧
      (perform config time g' (t :: ts)).events =
        e' :: (perform config (time + t.duration) rest' ts).events := by
  obtain ⟨a, hsound⟩ := Sound.exists_ofToken? config ht hne
  rw [perform, perform]
  simp only [hsound]
  refine ⟨_, _, _, _, ?_, rfl, rfl⟩
  refine ⟨fun hfixed => ?_, rfl, ?_, ?_⟩
  · -- Letters that are not random have their own pitches.
    rw [hfixed]
    rfl
  · exact Letter.length_pitches _ g ht
  · exact Letter.length_pitches _ g' ht

theorem soundAlike_perform (config : Config R) (time : R) (g g' : Generator)
    {ts : List (Token R)} (h : ∀ t ∈ ts, ∀ l ∈ t.letters, isLetter l.char = true) :
    Token.SoundAlike ts (perform config time g ts).events (perform config time g' ts).events := by
  induction ts generalizing time g g' with
  | nil => exact .nil
  | cons t ts ih =>
      obtain ⟨ht, hts⟩ := List.forall_mem_cons.mp h
      by_cases hnil : t.letters = []
      · obtain ⟨rest, hevents⟩ := events_perform_silent config time g hnil ts
        obtain ⟨rest', hevents'⟩ := events_perform_silent config time g' hnil ts
        rw [hevents, hevents']
        exact .silent hnil (ih _ _ _ hts)
      · obtain ⟨e, e', rest, rest', halike, hevents, hevents'⟩ :=
          events_perform_sound config time g g' ht hnil ts
        rw [hevents, hevents']
        exact .sound halike (ih _ _ _ hts)

/-- A performance has an event for each token with letters, and no other. -/
theorem alikeBy_perform (config : Config R) (time : R) (g g' : Generator)
    {ts : List (Token R)} (h : ∀ t ∈ ts, ∀ l ∈ t.letters, isLetter l.char = true) :
    NoteEvent.AlikeBy Token.random (fun t => t.letters.length)
      (ts.filter fun t => !t.letters.isEmpty)
      (perform config time g ts).events (perform config time g' ts).events := by
  induction ts generalizing time g g' with
  | nil => exact .nil
  | cons t ts ih =>
      obtain ⟨ht, hts⟩ := List.forall_mem_cons.mp h
      by_cases hnil : t.letters = []
      · obtain ⟨rest, hevents⟩ := events_perform_silent config time g hnil ts
        obtain ⟨rest', hevents'⟩ := events_perform_silent config time g' hnil ts
        rw [List.filter_cons_of_neg (by simp [hnil]), hevents, hevents']
        exact ih _ _ _ hts
      · obtain ⟨e, e', rest, rest', halike, hevents, hevents'⟩ :=
          events_perform_sound config time g g' ht hnil ts
        rw [List.filter_cons_of_pos (by simp [hnil]), hevents, hevents']
        exact .cons halike (ih _ _ _ hts)

end ProseScore
