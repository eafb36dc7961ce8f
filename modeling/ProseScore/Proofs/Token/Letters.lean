import Mathlib.Tactic.ByContra
import ProseScore.Sound.Performance
import ProseScore.Token.Reading

/-!
# The letters of tokens

Reading loses no letter and moves none: the letters of the tokens, one token
after the other, are the letters of the marks.  Each comes from a cell with a
letter in it and so has a pitch, which is why every token with letters sounds.
-/

namespace ProseScore

variable {R : Type}

/-- The letter of a mark. -/
def Mark.letter? : Mark R → Option (Letter R)
  | .letter l => some l
  | _ => none

namespace Token

theorem letters_token? (config : Config R) (w : Word R) :
    (w.token? config).toList.flatMap letters = w.letters := by
  obtain ⟨ls, accent, random⟩ := w
  match ls with
  | [] => rfl
  | [l] => rfl
  | l :: l' :: ls => simp [Word.token?, Word.kind?, letters]

theorem letters_read (config : Config R) (ms : List (Mark R)) :
    (read config ms).1.letters ++ (read config ms).2.flatMap letters =
      ms.filterMap Mark.letter? := by
  induction ms with
  | nil => rfl
  | cons m ms ih =>
      cases m with
      | letter l =>
          have hl : (Mark.letter l).letter? = some l := rfl
          rw [read, List.filterMap_cons_some hl, ← ih, List.cons_append]
      | accent => rw [read, List.filterMap_cons_none rfl, ← ih]
      | random => rw [read, List.filterMap_cons_none rfl, ← ih]
      | gap => rw [read, List.filterMap_cons_none rfl, ← ih, List.flatMap_append, letters_token?,
          List.nil_append]
      | rest =>
          have hsilent : (silent config).letters = [] := rfl
          rw [read, List.filterMap_cons_none rfl, ← ih, List.flatMap_cons, List.flatMap_append,
            letters_token?, hsilent, List.nil_append, List.nil_append]

theorem letters_ofMarks (config : Config R) (ms : List (Mark R)) :
    (ofMarks config ms).flatMap letters = ms.filterMap Mark.letter? := by
  have h := letters_read config (.gap :: ms)
  have hword : (read config (.gap :: ms)).1.letters = [] := rfl
  rwa [hword, List.nil_append, List.filterMap_cons_none rfl] at h

end Token

theorem Mark.letter_mem_ofCells {symbols : Symbols} {muted : Bool} {xs : List (Option (Cell R))}
    {l : Letter R} (h : .letter l ∈ Mark.ofCells symbols muted xs) :
    ∃ c : Cell R, some c ∈ xs ∧ isLetter c.char = true ∧
      l = ⟨c.char, c.attributes, c.letterIndex⟩ := by
  induction xs generalizing muted with
  | nil => simp [Mark.ofCells] at h
  | cons x xs ih =>
      have hlater {muted : Bool} (h : .letter l ∈ Mark.ofCells symbols muted xs) :
          ∃ c : Cell R, some c ∈ x :: xs ∧ isLetter c.char = true ∧
            l = ⟨c.char, c.attributes, c.letterIndex⟩ := by
        obtain ⟨c, hc, hl⟩ := ih h
        exact ⟨c, List.mem_cons_of_mem x hc, hl⟩
      cases x with
      | none =>
          rw [Mark.ofCells, List.mem_cons] at h
          exact hlater (h.resolve_left (by simp))
      | some c =>
          rw [Mark.ofCells] at h
          split at h
          · rw [List.mem_cons] at h
            exact hlater (h.resolve_left (by simp))
          · split at h
            · exact hlater h
            · rcases List.mem_append.mp h with hc | hxs
              · refine ⟨c, List.mem_cons_self, ?_⟩
                rw [Option.mem_toList, Mark.ofCell?] at hc
                grind
              · exact hlater hxs

theorem Token.isLetter_of_mem_ofCells {config : Config R} {excluded : List Extent}
    {cs : List (Cell R)} {t : Token R} (ht : t ∈ Token.ofCells config excluded cs) {l : Letter R}
    (hl : l ∈ t.letters) : isLetter l.char = true := by
  have hmem : l ∈ (Token.ofCells config excluded cs).flatMap Token.letters :=
    List.mem_flatMap.mpr ⟨t, ht, hl⟩
  rw [Token.ofCells, Token.letters_ofMarks, List.mem_filterMap] at hmem
  obtain ⟨m, hm, hml⟩ := hmem
  cases m with
  | letter l' =>
      obtain rfl : l' = l := Option.some_inj.mp hml
      obtain ⟨c, -, hc, rfl⟩ := Mark.letter_mem_ofCells hm
      exact hc
  | accent => simp [Mark.letter?] at hml
  | random => simp [Mark.letter?] at hml
  | rest => simp [Mark.letter?] at hml
  | gap => simp [Mark.letter?] at hml

/-! ## Letters that sound -/

/-- Each letter has a pitch, drawn or its own. -/
theorem Letter.length_pitches (random : Bool) {ls : List (Letter R)} (g : Generator)
    (h : ∀ l ∈ ls, isLetter l.char = true) :
    (Letter.pitches random ls g).1.length = ls.length := by
  cases random with
  | true => exact Generator.length_draw ls.length g
  | false =>
      apply List.filterMap_length_eq_length.mpr
      intro l hl
      simp [Pitch.ofLetter?, h l hl]

theorem Token.exists_attributes {t : Token R} (hne : t.letters ≠ []) :
    ∃ a, t.attributes? = some a := by
  cases hk : t.kind with
  | letter l => exact ⟨l.attributes, by rw [Token.attributes?, hk]⟩
  | chord ls a => exact ⟨a, by rw [Token.attributes?, hk]⟩
  | rest => exact absurd (by rw [Token.letters, hk]) hne

variable [Scalar R]

theorem Sound.ofToken?_of_attributes? (config : Config R) {t : Token R} {a : Attributes R}
    (ha : t.attributes? = some a) (h : ∀ l ∈ t.letters, isLetter l.char = true)
    (hne : t.letters ≠ []) (g : Generator) : (Sound.ofToken? config t g).1 =
      some (ofPitches config t.accent a (Letter.pitches t.random t.letters g).1) := by
  have hlength := Letter.length_pitches t.random g h
  rw [Sound.ofToken?, ha]
  rcases hp : Letter.pitches t.random t.letters g with ⟨_ | ⟨p, ps⟩, g'⟩
  · rw [hp] at hlength
    exact absurd (List.length_eq_zero_iff.mp hlength.symm) hne
  · rfl

theorem Sound.exists_ofToken? (config : Config R) {t : Token R}
    (h : ∀ l ∈ t.letters, isLetter l.char = true) (hne : t.letters ≠ []) :
    ∃ a, ∀ g, (Sound.ofToken? config t g).1 =
      some (ofPitches config t.accent a (Letter.pitches t.random t.letters g).1) := by
  obtain ⟨a, ha⟩ := Token.exists_attributes hne
  exact ⟨a, Sound.ofToken?_of_attributes? config ha h hne⟩

/-- A token whose letters are letters is silent only if it has none. -/
theorem Sound.letters_eq_nil_of_ofToken? {config : Config R} {t : Token R} {g : Generator}
    (h : ∀ l ∈ t.letters, isLetter l.char = true) (hs : (Sound.ofToken? config t g).1 = none) :
    t.letters = [] := by
  by_contra hne
  obtain ⟨a, hsound⟩ := Sound.exists_ofToken? config h hne
  exact absurd (hs.symm.trans (hsound g)) (Option.some_ne_none _).symm

theorem letters_perform (config : Config R) (time : R) (g : Generator) {ts : List (Token R)}
    (h : ∀ t ∈ ts, ∀ l ∈ t.letters, isLetter l.char = true) :
    (perform config time g ts).letters = ts.flatMap fun t => t.letters.map Letter.index := by
  induction ts generalizing time g with
  | nil => rfl
  | cons t ts ih =>
      have ih' := fun time g => ih time g fun u hu => h u (List.mem_cons_of_mem t hu)
      rw [perform]
      cases hs : (Sound.ofToken? config t g).1 with
      | none =>
          have hnil := Sound.letters_eq_nil_of_ofToken? (h t List.mem_cons_self) hs
          simp [hs, ih', hnil]
      | some s => simp [hs, ih']

end ProseScore
