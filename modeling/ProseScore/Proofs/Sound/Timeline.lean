import Mathlib.Data.List.Forall2
import ProseScore.Proofs.Sound.Layout
import ProseScore.Proofs.Token.Duration
import ProseScore.Proofs.Token.Letters
import ProseScore.Session.Basic

/-!
# Tokens on the time line

Each token that is read rests, or it has letters and sounds as long as it lasts.  So
the events of a performance are those of the tokens with letters, each at the time
where the durations of the tokens in front of it end, and with exact numbers none
begins before the one in front of it is over.
-/

namespace ProseScore

variable {R : Type}

namespace Token

def isRest (t : Token R) : Bool :=
  match t.kind with
  | .rest => true
  | _ => false

/-- A token of a word. -/
structure Voiced (config : Config R) (t : Token R) : Prop where
  not_rest : t.isRest = false
  letters_ne : t.letters ≠ []
  duration_eq : t.duration = config.baseDuration

theorem voiced_of_mem_token? {config : Config R} {w : Word R} {t : Token R}
    (h : t ∈ (w.token? config).toList) : t.Voiced config := by
  obtain ⟨kind, hkind, rfl⟩ := Option.map_eq_some_iff.mp (Option.mem_toList.mp h)
  rw [Word.kind?] at hkind
  split at hkind
  · cases hkind
  · cases hkind
    exact ⟨rfl, List.cons_ne_nil _ _, rfl⟩
  · cases hkind
    exact ⟨rfl, List.cons_ne_nil _ _, rfl⟩

theorem isRest_or_voiced_of_mem_read {config : Config R} {ms : List (Mark R)} {t : Token R}
    (h : t ∈ (read config ms).2) : t.isRest = true ∨ t.Voiced config := by
  induction ms with
  | nil => exact absurd h List.not_mem_nil
  | cons m ms ih =>
      cases m with
      | letter l => exact ih h
      | accent => exact ih h
      | random => exact ih h
      | gap =>
          rcases List.mem_append.mp h with hword | hrest
          · exact Or.inr (voiced_of_mem_token? hword)
          · exact ih hrest
      | rest =>
          rcases List.mem_cons.mp h with rfl | h
          · exact Or.inl rfl
          · rcases List.mem_append.mp h with hword | hrest
            · exact Or.inr (voiced_of_mem_token? hword)
            · exact ih hrest

variable [Scalar R]

/-- The event that a token makes at a time. -/
structure Makes (config : Config R) (t : Token R) (time : R) (e : NoteEvent R) : Prop where
  start_eq : e.start = time
  duration_eq : e.duration = t.duration
  length_pitches : e.pitches.length = t.letters.length
  styled : ∃ a, t.attributes? = some a ∧ e.waveform = .ofColor a.color ∧
    e.effects = .ofAttributes a ∧ e.velocity = config.velocity.velocity a.size t.accent

/-- Tokens one after the other from a time on, and their events: rests pass the time and
make none. -/
inductive LaidOut (config : Config R) : R → List (Token R) → List (NoteEvent R) → Prop
  | nil {time : R} : LaidOut config time [] []
  | rest {time : R} {t : Token R} {ts : List (Token R)} {es : List (NoteEvent R)} :
      t.isRest = true → LaidOut config (time + t.duration) ts es →
      LaidOut config time (t :: ts) es
  | sound {time : R} {t : Token R} {ts : List (Token R)} {e : NoteEvent R}
      {es : List (NoteEvent R)} :
      t.isRest = false → t.Makes config time e → LaidOut config (time + t.duration) ts es →
      LaidOut config time (t :: ts) (e :: es)

end Token

variable [Scalar R]

/-- Tokens can be played where the bounds of the velocities are in order, and everywhere
if all of them rest. -/
def Config.CanPlay (config : Config R) (ts : List (Token R)) : Prop :=
  config.velocity.Bounded ∨ ∀ t ∈ ts, t.isRest = true

instance (config : Config R) (ts : List (Token R)) : Decidable (config.CanPlay ts) :=
  inferInstanceAs (Decidable (_ ∨ _))

theorem Sound.ofToken?_of_isRest (config : Config R) {t : Token R} (h : t.isRest = true)
    (g : Generator) : Sound.ofToken? config t g = (none, g) := by
  have hnone : t.attributes? = none := by
    rw [Token.isRest] at h
    rw [Token.attributes?]
    split at h
    · rename_i hkind
      rw [hkind]
    · cases h
  rw [Sound.ofToken?, hnone]

theorem Token.Voiced.exists_sound {config : Config R} {t : Token R} (h : t.Voiced config)
    (hletters : ∀ l ∈ t.letters, isLetter l.char = true) (time : R) (g : Generator) :
    ∃ sound, (Sound.ofToken? config t g).1 = some sound ∧ t.Makes config time ⟨sound, time⟩ := by
  obtain ⟨a, ha⟩ := Token.exists_attributes h.letters_ne
  refine ⟨_, Sound.ofToken?_of_attributes? config ha hletters h.letters_ne g, ?_⟩
  exact ⟨rfl, h.duration_eq.symm, Letter.length_pitches t.random g hletters, a, ha, rfl, rfl, rfl⟩

theorem laidOut_perform (config : Config R) (time : R) (g : Generator) {ts : List (Token R)}
    (hletters : ∀ t ∈ ts, ∀ l ∈ t.letters, isLetter l.char = true)
    (hkinds : ∀ t ∈ ts, t.isRest = true ∨ t.Voiced config) :
    Token.LaidOut config time ts (perform config time g ts).events := by
  induction ts generalizing time g with
  | nil => exact .nil
  | cons t ts ih =>
      obtain ⟨hletter, hletters⟩ := List.forall_mem_cons.mp hletters
      obtain ⟨hkind, hkinds⟩ := List.forall_mem_cons.mp hkinds
      rcases hkind with hrest | hvoiced
      · rw [perform, Sound.ofToken?_of_isRest config hrest]
        exact .rest hrest (ih _ _ hletters hkinds)
      · obtain ⟨sound, hsound, hmakes⟩ := hvoiced.exists_sound hletter time g
        rw [perform]
        simp only [hsound]
        exact .sound hvoiced.not_rest hmakes (ih _ _ hletters hkinds)

namespace Token

variable {config : Config R} {time : R} {ts : List (Token R)} {es : List (NoteEvent R)}

theorem LaidOut.eq_nil_iff (h : LaidOut config time ts es) :
    es = [] ↔ ∀ t ∈ ts, t.isRest = true := by
  induction h with
  | nil => simp
  | rest hrest _ ih => simp [hrest, ih]
  | sound hsound _ _ _ => simp [hsound]

/-- When the token with a number begins, if the first one begins at the time. -/
def begins (time : R) (ts : List (Token R)) (j : Nat) : R :=
  (ts.take j).foldl (fun time t => time + t.duration) time

/-- The events are those of the tokens that do not rest, each when its token begins. -/
theorem LaidOut.forall₂ (h : LaidOut config time ts es) :
    List.Forall₂ (fun x e => x.1.Makes config (begins time ts x.2) e)
      (ts.zipIdx.filter fun x => !x.1.isRest) es := by
  induction h with
  | nil => exact .nil
  | rest hrest _ ih =>
      rw [List.zipIdx_cons, List.filter_cons_of_neg (by simp [hrest]), List.zipIdx_succ,
        List.filter_map, List.forall₂_map_left_iff]
      exact ih
  | sound hsound hmakes _ ih =>
      rw [List.zipIdx_cons, List.filter_cons_of_pos (by simp [hsound]), List.zipIdx_succ,
        List.filter_map]
      refine .cons hmakes ?_
      rw [List.forall₂_map_left_iff]
      exact ih

section Exact

variable {config : Config Rat} {time : Rat} {ts : List (Token Rat)} {es : List (NoteEvent Rat)}

theorem LaidOut.le_start (h : LaidOut config time ts es) (hpos : ∀ t ∈ ts, 0 < t.duration) :
    ∀ e ∈ es, time ≤ e.start := by
  induction h with
  | nil => exact fun e he => absurd he List.not_mem_nil
  | rest _ _ ih =>
      obtain ⟨ht, hts⟩ := List.forall_mem_cons.mp hpos
      exact fun e he => (le_add_of_nonneg_right ht.le).trans (ih hts e he)
  | sound _ hmakes _ ih =>
      obtain ⟨ht, hts⟩ := List.forall_mem_cons.mp hpos
      refine List.forall_mem_cons.mpr ⟨hmakes.start_eq.ge, fun e he => ?_⟩
      exact (le_add_of_nonneg_right ht.le).trans (ih hts e he)

theorem LaidOut.pairwise (h : LaidOut config time ts es) (hpos : ∀ t ∈ ts, 0 < t.duration) :
    es.Pairwise fun e f => e.start + e.duration ≤ f.start := by
  induction h with
  | nil => exact .nil
  | rest _ _ ih => exact ih (List.forall_mem_cons.mp hpos).2
  | sound _ hmakes hrest ih =>
      have hts := (List.forall_mem_cons.mp hpos).2
      refine List.pairwise_cons.mpr ⟨fun f hf => ?_, ih hts⟩
      rw [hmakes.start_eq, hmakes.duration_eq]
      exact hrest.le_start hts f hf

end Exact

end Token

theorem Token.laidOut_ofCells (config : Config R) (time : R) (g : Generator)
    (excluded : List Extent) (cs : List (Cell R)) :
    Token.LaidOut config time (Token.ofCells config excluded cs)
      (perform config time g (Token.ofCells config excluded cs)).events :=
  laidOut_perform config time g (fun _ ht _ hl => Token.isLetter_of_mem_ofCells ht hl)
    fun _ ht => Token.isRest_or_voiced_of_mem_read ht

namespace Session

end Session

end ProseScore
