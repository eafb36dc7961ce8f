import ProseScore.Proofs.Config.Symbols
import ProseScore.Proofs.Paragraph.Inheritance

/-!
# Keys in live regions

A key that is pressed in a live region plays one note if it is a letter or the random
symbol, and silences everything if it is the silence symbol.  All other keys, and all
keys elsewhere, change nothing.
-/

namespace ProseScore

theorem Symbols.inLiveRegion_iff {symbols : Symbols} {s : Text} {offset : Nat} :
    symbols.inLiveRegion s offset = true ↔ ∃ before behind,
      s.take offset = before ++ symbols .liveOpen :: behind ∧
        symbols .liveOpen ∉ behind ∧ symbols .liveClose ∉ behind := by
  simp only [inLiveRegion, decide_eq_true_eq, List.getLast?_filter,
    List.find?_eq_some_iff_append]
  constructor
  · rintro ⟨-, after, before, heq, hafter⟩
    refine ⟨before.reverse, after.reverse, ?_, ?_, ?_⟩
    · simpa using congrArg List.reverse heq
    · exact fun hmem => by simpa using hafter _ (List.mem_reverse.mp hmem)
    · exact fun hmem => by simpa using hafter _ (List.mem_reverse.mp hmem)
  · rintro ⟨before, behind, heq, hopen, hclose⟩
    refine ⟨by simp, behind.reverse, before.reverse, by simp [heq], fun c hc => ?_⟩
    have hmem := List.mem_reverse.mp hc
    simpa using ⟨fun h => hopen (h ▸ hmem), fun h => hclose (h ▸ hmem)⟩

variable {R : Type}

namespace Paragraph

/-- What is typed behind so many characters has these attributes: those of the character
before it, at the beginning those of the character behind it, and those of plain text
where there is no such character. -/
inductive TypedWith (base : R) (p : Paragraph R) : (offset : Nat) → Attributes R → Prop
  | before {spans : List (Style R)} {i : Nat} {c : Char} (h : p.Holds spans i c) :
      TypedWith base p (i + 1) (.inside base spans)
  | behind {spans : List (Style R)} {c : Char} (h : p.Holds spans 0 c) :
      TypedWith base p 0 (.inside base spans)
  | plain {offset : Nat} (h : p.text[offset - 1]? = none) : TypedWith base p offset (.plain base)

theorem typedWith_attributesAt (base : R) (p : Paragraph R) (offset : Nat) :
    p.TypedWith base offset (p.attributesAt base offset) := by
  cases hc : p.text[offset - 1]? with
  | none =>
      have hplain : p.attributesAt base offset = .plain base := by
        have hlength : p.text.length ≤ offset - 1 := List.getElem?_eq_none_iff.mp hc
        have hnone {i : Nat} (hi : offset - 1 ≤ i) : (p.glyphs base)[i]? = none :=
          List.getElem?_eq_none (p.length_glyphs base ▸ Nat.le_trans hlength hi)
        simp [attributesAt, hnone (Nat.le_refl _), hnone (Nat.sub_le offset 1)]
      rw [hplain]
      exact .plain hc
  | some c =>
      obtain ⟨spans, h⟩ := exists_holds hc
      cases offset with
      | zero =>
          have hbehind : p.attributesAt base 0 = .inside base spans := by
            simp [attributesAt, h.getElem?_glyphs base]
          rw [hbehind]
          exact .behind h
      | succ i =>
          have hbefore : p.attributesAt base (i + 1) = .inside base spans :=
            h.attributesAt_succ base
          rw [hbefore]
          exact .before h

end Paragraph

namespace Session

/-- The caret stands in a live region: of the live symbols before it in its paragraph, the
last one opens a region. -/
def LiveAt (s : Session R) (caret : Caret) : Prop :=
  ∃ p before behind, s.document[caret.paragraph]? = some p ∧
    p.text.take caret.offset = before ++ s.config.symbols .liveOpen :: behind ∧
    s.config.symbols .liveOpen ∉ behind ∧ s.config.symbols .liveClose ∉ behind

theorem liveAt_iff {s : Session R} {caret : Caret} : s.LiveAt caret ↔
    ∃ p, s.document[caret.paragraph]? = some p ∧
      s.config.symbols.inLiveRegion p.text caret.offset = true := by
  simp only [LiveAt, Symbols.inLiveRegion_iff, exists_and_left]

variable [Scalar R]

theorem keystroke_of_not_liveAt {s : Session R} {caret : Caret} (h : ¬ s.LiveAt caret)
    (key : Char) : s.keystroke caret key = (.ignored, s) := by
  rw [liveAt_iff] at h
  simp only [keystroke]
  split
  · split
    · rfl
    · rename_i p hp
      rw [if_pos]
      simpa using fun hlive => h ⟨p, hp, hlive⟩
  · rfl

/-- The key sounds at the caret. -/
def Sounds (s : Session R) (caret : Caret) (key : Char) : Prop :=
  s.LiveAt caret ∧ (isLetter key = true ∨ key = s.config.symbols .random)

/-- The key silences at the caret. -/
def Silences (s : Session R) (caret : Caret) (key : Char) : Prop :=
  s.LiveAt caret ∧ key = s.config.symbols .silence

/-- The pitch of a key and the generator behind it: a letter has its own pitch, and for the
random symbol one is drawn. -/
inductive Pitches (s : Session R) : (key : Char) → Pitch → Generator → Prop
  | letter {key : Char} {pitch : Pitch} (hkey : key ≠ s.config.symbols .random)
      (h : Pitch.ofLetter? key = some pitch) : Pitches s key pitch s.liveGenerator
  | random : Pitches s (s.config.symbols .random) s.liveGenerator.next.1 s.liveGenerator.next.2

/-- A note of the pitch that sounds now, without an accent, in the style of these
attributes. -/
def note (s : Session R) (a : Attributes R) (pitch : Pitch) : NoteEvent R where
  pitches := [pitch]
  duration := s.config.baseDuration
  velocity := s.config.velocity.velocity a.size false
  waveform := .ofColor a.color
  effects := .ofAttributes a
  start := s.recorder.now

theorem exists_strike (s : Session R) (a : Attributes R) {key : Char}
    (hkey : isLetter key = true ∨ key = s.config.symbols .random) :
    ∃ pitch liveGenerator, s.Pitches key pitch liveGenerator ∧
      s.strike a key = (.played (s.note a pitch), { s with
        liveGenerator
        recorder := s.recorder.record [s.note a pitch] }) := by
  by_cases hrandom : key = s.config.symbols .random
  · subst hrandom
    refine ⟨_, _, .random, ?_⟩
    rcases hnext : s.liveGenerator.next with ⟨pitch, liveGenerator⟩
    simp [strike, Sound.ofChar?, hnext, Sound.ofPitches, note]
  · have hletter : isLetter key = true := hkey.resolve_right hrandom
    have hpitch : Pitch.ofLetter? key = some (Fin.ofNat 21 (key.toLower.toNat - 'a'.toNat)) := by
      rw [Pitch.ofLetter?, if_pos hletter]
    refine ⟨_, _, .letter hrandom hpitch, ?_⟩
    simp [strike, Sound.ofChar?, hrandom, hpitch, Sound.ofPitches, note]

variable {settings : Settings R} {s : Session R} {caret : Caret} {key : Char}

theorem not_silences_of_sounds (h : settings.config = .ok s.config)
    (hsounds : s.Sounds caret key) : ¬ s.Silences caret key := by
  rintro ⟨-, rfl⟩
  rcases hsounds.2 with hletter | hrandom
  · exact absurd hletter (by simp [(Settings.plain_symbol h .silence).1])
  · exact Settings.silence_ne h (by decide) (by decide) hrandom

theorem keystroke_of_silences (hsilences : s.Silences caret key) :
    s.keystroke caret key = (.silenced, { s with recorder := s.recorder.silence }) := by
  obtain ⟨hlive, hkey⟩ := hsilences
  obtain ⟨p, hp, hregion⟩ := liveAt_iff.mp hlive
  simp [keystroke, hkey, hp, hregion]

theorem keystroke_of_sounds (h : settings.config = .ok s.config)
    (hsounds : s.Sounds caret key) : ∃ p a pitch liveGenerator,
      s.document[caret.paragraph]? = some p ∧
      p.TypedWith s.config.baseSize caret.offset a ∧
      s.Pitches key pitch liveGenerator ∧
      s.keystroke caret key = (.played (s.note a pitch), { s with
        liveGenerator
        recorder := s.recorder.record [s.note a pitch] }) := by
  have hsilence : key ≠ s.config.symbols .silence := fun heq =>
    not_silences_of_sounds h hsounds ⟨hsounds.1, heq⟩
  obtain ⟨hlive, hkey⟩ := hsounds
  obtain ⟨p, hp, hregion⟩ := liveAt_iff.mp hlive
  obtain ⟨pitch, liveGenerator, hpitch, hstrike⟩ :=
    s.exists_strike (p.attributesAt s.config.baseSize caret.offset) hkey
  refine ⟨p, _, pitch, liveGenerator, hp, p.typedWith_attributesAt _ _, hpitch, ?_⟩
  have hkind : (isLetter key || decide (key = s.config.symbols .random)) = true := by
    simpa using hkey
  rw [← hstrike]
  simp [keystroke, hkind, hsilence, hp, hregion]

theorem keystroke_of_neither (hsounds : ¬ s.Sounds caret key)
    (hsilences : ¬ s.Silences caret key) : s.keystroke caret key = (.ignored, s) := by
  by_cases hlive : s.LiveAt caret
  · have hkind : (isLetter key || decide (key = s.config.symbols .random)) = false := by
      simpa using fun hkey => hsounds ⟨hlive, hkey⟩
    have hsilence : key ≠ s.config.symbols .silence := fun hkey => hsilences ⟨hlive, hkey⟩
    simp [keystroke, hkind, hsilence]
  · exact keystroke_of_not_liveAt hlive key

/-- **A keystroke is one note, one silence or nothing.**  In a live region a letter or the
random symbol plays one note at once, of its own pitch or of one that is drawn, without an
accent and in the style at the caret.  There the silence symbol silences everything once.
Any other keystroke changes nothing. -/
theorem keystroke_plays_or_silences (h : settings.config = .ok s.config) (caret : Caret)
    (key : Char) :
    ((∃ event, (s.keystroke caret key).1 = .played event) ↔ s.Sounds caret key) ∧
    ((s.keystroke caret key).1 = .silenced ↔ s.Silences caret key) ∧
    (s.Sounds caret key → ∃ p a pitch liveGenerator recorder,
      s.document[caret.paragraph]? = some p ∧
      p.TypedWith s.config.baseSize caret.offset a ∧
      s.Pitches key pitch liveGenerator ∧
      s.keystroke caret key =
        (.played (s.note a pitch), { s with liveGenerator, recorder }) ∧
      recorder.events.toList = s.recorder.events.toList ++ [s.note a pitch] ∧
      recorder.stops = s.recorder.stops ∧ recorder.now = s.recorder.now) ∧
    (s.Silences caret key → ∃ recorder,
      s.keystroke caret key = (.silenced, { s with recorder }) ∧
      recorder.events = s.recorder.events ∧ recorder.stops = s.recorder.stops + 1 ∧
      recorder.now = s.recorder.now) ∧
    (¬ s.Sounds caret key → ¬ s.Silences caret key → s.keystroke caret key = (.ignored, s)) := by
  refine ⟨⟨?_, fun hsounds => ?_⟩, ⟨?_, fun hsilences => ?_⟩, fun hsounds => ?_,
    fun hsilences => ⟨_, keystroke_of_silences hsilences, rfl, rfl, rfl⟩, keystroke_of_neither⟩
  · rintro ⟨event, hevent⟩
    by_contra hsounds
    by_cases hsilences : s.Silences caret key
    · rw [keystroke_of_silences hsilences] at hevent
      cases hevent
    · rw [keystroke_of_neither hsounds hsilences] at hevent
      cases hevent
  · obtain ⟨p, a, pitch, liveGenerator, -, -, -, hplayed⟩ := keystroke_of_sounds h hsounds
    exact ⟨_, congrArg Prod.fst hplayed⟩
  · intro hsilenced
    by_contra hsilences
    by_cases hsounds : s.Sounds caret key
    · obtain ⟨p, a, pitch, liveGenerator, -, -, -, hplayed⟩ := keystroke_of_sounds h hsounds
      rw [hplayed] at hsilenced
      cases hsilenced
    · rw [keystroke_of_neither hsounds hsilences] at hsilenced
      cases hsilenced
  · exact congrArg Prod.fst (keystroke_of_silences hsilences)
  · obtain ⟨p, a, pitch, liveGenerator, hp, ha, hpitch, hplayed⟩ := keystroke_of_sounds h hsounds
    exact ⟨p, a, pitch, liveGenerator, _, hp, ha, hpitch, hplayed,
      Recorder.toList_events_record _ _, rfl, rfl⟩

/-- Behind a blue letter in a live region, a letter plays its note as a sine, the silence
symbol silences, and a digit does nothing. -/
theorem keystroke_plays_in_blue :
    let settings : Settings Rat := { seed := some 7 }
    let p : Paragraph Rat := .run ['x', '('] (.span { bold := true, color := some .blue }
      (.run ['c'] .done) (.run [')'] .done))
    let s : Session Rat := { new settings.fill (.ofSeed 0) (.ofSeed 1) with
      document := [.plain "ab.".toList, p] }
    settings.config = .ok s.config ∧ s.Sounds ⟨1, 3⟩ 'h' ∧ s.Silences ⟨1, 3⟩ '/' ∧
      (s.keystroke ⟨1, 3⟩ 'h').1 = .played (s.note ⟨true, false, false, .blue, 12⟩ 7) ∧
      (s.note ⟨true, false, false, .blue, 12⟩ 7).waveform = .sine ∧
      (∃ recorder, s.keystroke ⟨1, 3⟩ '/' = (.silenced, { s with recorder }) ∧
        recorder.stops = 1) ∧
      s.keystroke ⟨1, 3⟩ '1' = (.ignored, s) := by
  intro settings p s
  have h : settings.config = .ok s.config :=
    Settings.config_eq_ok_iff.mpr ⟨by decide +kernel, rfl⟩
  have hlive : s.LiveAt ⟨1, 3⟩ := ⟨p, ['x'], ['c'], rfl, rfl, by decide, by decide⟩
  have hplayed : (s.keystroke ⟨1, 3⟩ 'h').1 =
      .played (s.note ⟨true, false, false, .blue, 12⟩ 7) := by
    decide +kernel
  have hsilences : s.Silences ⟨1, 3⟩ '/' := ⟨hlive, rfl⟩
  have hdigit : ¬ s.Sounds ⟨1, 3⟩ '1' := fun hsounds => absurd hsounds.2 (by decide)
  have hdigit' : ¬ s.Silences ⟨1, 3⟩ '1' := fun hsilences => absurd hsilences.2 (by decide)
  have hsounds := (keystroke_plays_or_silences h ⟨1, 3⟩ 'h').1.mp ⟨_, hplayed⟩
  obtain ⟨-, -, -, hsilenced, -⟩ := keystroke_plays_or_silences h ⟨1, 3⟩ '/'
  obtain ⟨recorder, hkeystroke, -, hstops, -⟩ := hsilenced hsilences
  obtain ⟨-, -, -, -, hignored⟩ := keystroke_plays_or_silences h ⟨1, 3⟩ '1'
  exact ⟨h, hsounds, hsilences, hplayed, rfl, ⟨recorder, hkeystroke, hstops⟩,
    hignored hdigit hdigit'⟩

end Session

end ProseScore
