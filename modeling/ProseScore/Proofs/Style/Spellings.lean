import Mathlib.Data.List.Infix
import ProseScore.Sound.Basic

/-!
# How colors are spelled

Every documented spelling of a color is read as that color, and so are texts in which
a name or a triple of components stands inside something longer.  Hexadecimal spellings
are told from all others.  Among triples of components only the red one is told from
all others: for blue and green a first component that ends in a zero passes for zero.
-/

namespace ProseScore

/-- A stretch with two stops stands in a text with two stops only so that they meet. -/
theorem Text.infix_triple_iff {stop : Char} {a b c x y z : Text} (ha : stop ∉ a) (hb : stop ∉ b)
    (hc : stop ∉ c) (hx : stop ∉ x) (hy : stop ∉ y) (hz : stop ∉ z) :
    a ++ stop :: (b ++ stop :: c) <:+: x ++ stop :: (y ++ stop :: z) ↔
      a <:+ x ∧ b = y ∧ c <+: z := by
  constructor
  · rintro ⟨front, back, heq⟩
    have hcount := congrArg (List.count stop) heq
    simp only [List.count_append, List.count_cons_self, List.count_eq_zero_of_not_mem ha,
      List.count_eq_zero_of_not_mem hb, List.count_eq_zero_of_not_mem hc,
      List.count_eq_zero_of_not_mem hx, List.count_eq_zero_of_not_mem hy,
      List.count_eq_zero_of_not_mem hz] at hcount
    have hfront : stop ∉ front ++ a := by
      rw [List.mem_append, not_or]
      exact ⟨List.count_eq_zero.mp (by omega), ha⟩
    have heq' : (front ++ a) ++ stop :: (b ++ stop :: (c ++ back)) =
        x ++ stop :: (y ++ stop :: z) := by
      simpa using heq
    obtain ⟨rfl, hbehind⟩ := append_cons_inj hfront hx heq'
    obtain ⟨rfl, rfl⟩ := append_cons_inj hb hy hbehind
    exact ⟨List.suffix_append _ _, rfl, List.prefix_append _ _⟩
  · rintro ⟨⟨front, rfl⟩, rfl, ⟨back, rfl⟩⟩
    exact ⟨front, back, by simp⟩

namespace Color

/-- What is read of a description: neither white space nor letter case. -/
def bare (description : Text) : Text :=
  Text.lowercase (description.filter (!isBlank ·))

/-- The spellings of a color that are promised: its name, its components, and forms in
hexadecimal. -/
def documented : Color → List Text
  | black => []
  | blue => ["blue".toList, "rgb(0,0,255)".toList, "#0000ff".toList, "#00f".toList]
  | green => ["green".toList, "rgb(0,128,0)".toList, "#008000".toList]
  | red => ["red".toList, "rgb(255,0,0)".toList, "#ff0000".toList, "#f00".toList]

/-- The stretches that tell a color wherever they stand. -/
def stretches : Color → List Text
  | black => []
  | blue => ["blue".toList, "0,0,255".toList]
  | green => ["green".toList, "0,128,0".toList]
  | red => ["red".toList, "255,0,0".toList]

def Tells (color : Color) (s : Text) : Prop :=
  s ∈ color.documented ∨ ∃ stretch ∈ color.stretches, stretch <:+: s

def isHexadecimal (c : Char) : Bool :=
  c.isDigit || 'a' ≤ c && c ≤ 'f'

/-- A color by its components, each of them a byte. -/
def rgb (r g b : Fin 256) : Text :=
  ("rgb(".toList ++ Text.ofNat r) ++ ',' :: (Text.ofNat g ++ ',' :: (Text.ofNat b ++ [')']))

/-! ## The spellings that are tried -/

/-- A documented spelling is in hexadecimal or has one of the stretches of its color, and
nothing in it tells another color. -/
theorem stretches_of_documented {color : Color} {s : Text} (h : s ∈ color.documented) :
    (s.head? ≠ some '#' → ∃ stretch ∈ color.stretches, stretch <:+: s) ∧
      ∀ other : Color, other ≠ color →
        s ∉ other.documented ∧ ∀ stretch ∈ other.stretches, ¬ stretch <:+: s := by
  have hall : ∀ s ∈ color.documented,
      (s.head? ≠ some '#' → ∃ stretch ∈ color.stretches, stretch <:+: s) ∧
        ∀ other ∈ [black, blue, green, red], other ≠ color →
          s ∉ other.documented ∧ ∀ stretch ∈ other.stretches, ¬ stretch <:+: s := by
    cases color <;> decide +kernel
  obtain ⟨hown, hother⟩ := hall s h
  exact ⟨hown, fun other => hother other (by cases other <;> simp)⟩

theorem matches_iff {spelling : Spelling} (h : spelling ∈ spellings) {s : Text} :
    spelling.matches s = true ↔ spelling.color.Tells s := by
  have hparts : spelling.stretches.Perm spelling.color.stretches ∧
      spelling.wholes = spelling.color.documented.filter (·.head? = some '#') := by
    revert spelling
    decide +kernel
  obtain ⟨hstretches, hwholes⟩ := hparts
  have hsplit : spelling.matches s = true ↔
      (∃ stretch ∈ spelling.color.stretches, stretch <:+: s) ∨
        s ∈ spelling.color.documented ∧ s.head? = some '#' := by
    simp [Spelling.matches, hwholes, Text.occurs_iff, hstretches.mem_iff]
  rw [hsplit, Tells]
  constructor
  · rintro (hstretch | ⟨hs, -⟩)
    · exact Or.inr hstretch
    · exact Or.inl hs
  · rintro (hs | hstretch)
    · by_cases hhead : s.head? = some '#'
      · exact Or.inr ⟨hs, hhead⟩
      · exact Or.inl ((stretches_of_documented hs).1 hhead)
    · exact Or.inl hstretch

/-- The first color that a description tells, with blue tried before green and green
before red. -/
theorem ofText_eq_iff (description : Text) :
    (ofText description = blue ↔ blue.Tells (bare description)) ∧
      (ofText description = green ↔
        ¬ blue.Tells (bare description) ∧ green.Tells (bare description)) ∧
      (ofText description = red ↔ ¬ blue.Tells (bare description) ∧
        ¬ green.Tells (bare description) ∧ red.Tells (bare description)) ∧
      (ofText description = black ↔ ¬ blue.Tells (bare description) ∧
        ¬ green.Tells (bare description) ∧ ¬ red.Tells (bare description)) := by
  have hmatches : ∀ spelling ∈ spellings,
      (spelling.color.Tells (bare description) ↔ spelling.matches (bare description) = true) :=
    fun spelling h => (matches_iff h).symm
  simp only [spellings, List.forall_mem_cons] at hmatches
  obtain ⟨hblue, hgreen, hred, -⟩ := hmatches
  rw [ofText, ← bare, spellings, hblue, hgreen, hred]
  simp only [List.find?_cons, List.find?_nil]
  generalize Spelling.matches ⟨blue, _, _⟩ _ = isBlue
  generalize Spelling.matches ⟨green, _, _⟩ _ = isGreen
  generalize Spelling.matches ⟨red, _, _⟩ _ = isRed
  cases isBlue <;> cases isGreen <;> cases isRed <;> decide

theorem ofText_of_documented {description : Text} {color : Color}
    (h : bare description ∈ color.documented) : ofText description = color := by
  have hother (other : Color) (hne : other ≠ color) : ¬ other.Tells (bare description) := by
    obtain ⟨hdocumented, hstretch⟩ := (stretches_of_documented h).2 other hne
    rintro (hs | ⟨stretch, hmem, hs⟩)
    · exact hdocumented hs
    · exact hstretch stretch hmem hs
  have htells : color.Tells (bare description) := Or.inl h
  obtain ⟨hblue, hgreen, hred, -⟩ := ofText_eq_iff description
  cases color with
  | black => exact absurd h List.not_mem_nil
  | blue => exact hblue.mpr htells
  | green => exact hgreen.mpr ⟨hother blue (by decide), htells⟩
  | red => exact hred.mpr ⟨hother blue (by decide), hother green (by decide), htells⟩

/-! ## Forms of components -/

theorem tells_hexadecimal_iff {digits : Text} (h : ∀ c ∈ digits, isHexadecimal c = true)
    {color : Color} : color.Tells ('#' :: digits) ↔ '#' :: digits ∈ color.documented := by
  have hforeign : ∀ stretch ∈ color.stretches,
      stretch.all (fun c => c = '#' || isHexadecimal c) = false := by
    cases color <;> decide
  refine ⟨?_, Or.inl⟩
  rintro (hs | ⟨stretch, hmem, hs⟩)
  · exact hs
  · apply absurd (hforeign stretch hmem)
    rw [Bool.not_eq_false, List.all_eq_true]
    intro c hc
    rcases List.mem_cons.mp (hs.subset hc) with rfl | hc
    · rfl
    · rw [h c hc, Bool.or_true]

section

variable {r g b : Fin 256}

/-- What a byte is told by where it stands first, second and third. -/
theorem spelled_byte (n : Fin 256) :
    (',' ∉ Text.ofNat n ∧ 'e' ∉ Text.ofNat n) ∧
      ((['0'] <:+ "rgb(".toList ++ Text.ofNat n ↔ (n : Nat) % 10 = 0) ∧
        (['2', '5', '5'] <:+ "rgb(".toList ++ Text.ofNat n ↔ n = 255)) ∧
      ((['0'] = Text.ofNat n ↔ n = 0) ∧ (['1', '2', '8'] = Text.ofNat n ↔ n = 128)) ∧
      (['0'] <+: Text.ofNat n ++ [')'] ↔ n = 0) ∧
        (['2', '5', '5'] <+: Text.ofNat n ++ [')'] ↔ n = 255) := by
  revert n
  decide +kernel

theorem tells_rgb_iff {color : Color} {name x y z : Text} (hname : 'e' ∈ name)
    (hstretches : color.stretches = [name, x ++ ',' :: (y ++ ',' :: z)])
    (hx : ',' ∉ x) (hy : ',' ∉ y) (hz : ',' ∉ z) : color.Tells (rgb r g b) ↔
      x <:+ "rgb(".toList ++ Text.ofNat r ∧ y = Text.ofNat g ∧ z <+: Text.ofNat b ++ [')'] := by
  have hplain (n : Fin 256) : ',' ∉ Text.ofNat n ∧ 'e' ∉ Text.ofNat n := (spelled_byte n).1
  have hletter : 'e' ∉ rgb r g b := by
    delta rgb
    simp [hplain]
  have hinfix := Text.infix_triple_iff hx hy hz (x := "rgb(".toList ++ Text.ofNat r)
    (y := Text.ofNat g) (z := Text.ofNat b ++ [')']) (by simp [hplain]) (hplain g).1
    (by simp [hplain])
  rw [← hinfix]
  constructor
  · intro h
    have hstretch : ∃ stretch ∈ color.stretches, stretch <:+: rgb r g b := by
      rcases h with hs | hstretch
      · exact (stretches_of_documented hs).1 (by delta rgb; simp)
      · exact hstretch
    rw [hstretches] at hstretch
    obtain ⟨stretch, hmem, hs⟩ := hstretch
    rcases List.mem_cons.mp hmem with rfl | hmem
    · exact absurd (hs.subset hname) hletter
    · rwa [← List.mem_singleton.mp hmem]
  · intro hs
    exact Or.inr ⟨_, hstretches ▸ List.mem_cons_of_mem _ List.mem_cons_self, hs⟩

theorem tells_rgb_cases :
    (blue.Tells (rgb r g b) ↔ (r : Nat) % 10 = 0 ∧ g = 0 ∧ b = 255) ∧
      (green.Tells (rgb r g b) ↔ (r : Nat) % 10 = 0 ∧ g = 128 ∧ b = 0) ∧
      (red.Tells (rgb r g b) ↔ r = 255 ∧ g = 0 ∧ b = 0) := by
  obtain ⟨-, hfirst, -, -⟩ := spelled_byte r
  obtain ⟨-, -, hsecond, -⟩ := spelled_byte g
  obtain ⟨-, -, -, hthird⟩ := spelled_byte b
  refine ⟨?_, ?_, ?_⟩
  · rw [tells_rgb_iff (x := ['0']) (y := ['0']) (z := ['2', '5', '5']) (by decide) rfl
      (by decide) (by decide) (by decide), hfirst.1, hsecond.1, hthird.2]
  · rw [tells_rgb_iff (x := ['0']) (y := ['1', '2', '8']) (z := ['0']) (by decide) rfl
      (by decide) (by decide) (by decide), hfirst.1, hsecond.2, hthird.1]
  · rw [tells_rgb_iff (x := ['2', '5', '5']) (y := ['0']) (z := ['0']) (by decide) rfl
      (by decide) (by decide) (by decide), hfirst.2, hsecond.1, hthird.1]

/-- A reader of components takes any first one that ends in a zero for zero. -/
theorem ofText_rgb {description : Text} (h : bare description = rgb r g b) :
    (ofText description = blue ↔ (r : Nat) % 10 = 0 ∧ g = 0 ∧ b = 255) ∧
      (ofText description = green ↔ (r : Nat) % 10 = 0 ∧ g = 128 ∧ b = 0) ∧
      (ofText description = red ↔ r = 255 ∧ g = 0 ∧ b = 0) := by
  obtain ⟨hblue, hgreen, hred, -⟩ := ofText_eq_iff description
  obtain ⟨hblue', hgreen', hred'⟩ := tells_rgb_cases (r := r) (g := g) (b := b)
  rw [hblue, hgreen, hred, h, hblue', hgreen', hred']
  refine ⟨Iff.rfl, ⟨And.right, ?_⟩, ⟨fun hall => hall.2.2, ?_⟩⟩
  · rintro ⟨hr, rfl, rfl⟩
    refine ⟨?_, hr, rfl, rfl⟩
    rintro ⟨-, hzero, -⟩
    exact absurd hzero (by decide)
  · rintro ⟨rfl, rfl, rfl⟩
    decide

end

/-- **What descriptions are read as a color.**  Those that spell it as promised, and those
with its name or its components somewhere in them.  A hexadecimal form is read as promised.
Of three components those of red are read as promised, but blue and green do not need the
first component to be zero: it only ends in a zero. -/
theorem ofText_reads_spellings (description : Text) :
    ((ofText description = blue ↔ blue.Tells (bare description)) ∧
      (ofText description = green ↔
        ¬ blue.Tells (bare description) ∧ green.Tells (bare description)) ∧
      (ofText description = red ↔ ¬ blue.Tells (bare description) ∧
        ¬ green.Tells (bare description) ∧ red.Tells (bare description)) ∧
      (ofText description = black ↔ ¬ blue.Tells (bare description) ∧
        ¬ green.Tells (bare description) ∧ ¬ red.Tells (bare description))) ∧
    (∀ color : Color, bare description ∈ color.documented → ofText description = color) ∧
    (∀ digits : Text, (∀ c ∈ digits, isHexadecimal c = true) → bare description = '#' :: digits →
      ∀ color : Color, color ≠ black →
        (ofText description = color ↔ bare description ∈ color.documented)) ∧
    ∀ r g b : Fin 256, bare description = rgb r g b →
      (ofText description = blue ↔ (r : Nat) % 10 = 0 ∧ g = 0 ∧ b = 255) ∧
        (ofText description = green ↔ (r : Nat) % 10 = 0 ∧ g = 128 ∧ b = 0) ∧
        (ofText description = red ↔ r = 255 ∧ g = 0 ∧ b = 0) := by
  refine ⟨ofText_eq_iff description, fun color => ofText_of_documented, ?_,
    fun r g b => ofText_rgb⟩
  intro digits hdigits hbare color hcolor
  refine ⟨fun h => ?_, ofText_of_documented⟩
  rw [hbare, ← tells_hexadecimal_iff hdigits, ← hbare]
  obtain ⟨hblue, hgreen, hred, -⟩ := ofText_eq_iff description
  cases color with
  | black => exact absurd rfl hcolor
  | blue => exact hblue.mp h
  | green => exact (hgreen.mp h).2
  | red => exact (hred.mp h).2.2

/-- Of two olive tones one is taken for green; in hexadecimal only green itself is. -/
theorem ofText_reads_spellings_near_green :
    ofText "RGB( 90, 128, 0 )".toList = green ∧ ofText "RGB( 95, 128, 0 )".toList ≠ green ∧
      ofText " #00 80 00".toList = green ∧ ofText "#0080FF".toList ≠ green := by
  refine ⟨?_, ?_, ?_, ?_⟩
  · obtain ⟨-, hgreen, -⟩ := (ofText_reads_spellings "RGB( 90, 128, 0 )".toList).2.2.2 90 128 0
      (by decide +kernel)
    exact hgreen.mpr (by decide)
  · obtain ⟨-, hgreen, -⟩ := (ofText_reads_spellings "RGB( 95, 128, 0 )".toList).2.2.2 95 128 0
      (by decide +kernel)
    exact mt hgreen.mp (by decide)
  · exact (ofText_reads_spellings " #00 80 00".toList).2.1 green (by decide +kernel)
  · have hgreen := (ofText_reads_spellings "#0080FF".toList).2.2.1 "0080ff".toList
      (List.all_eq_true.mp (by decide +kernel)) (by decide +kernel) green (by decide)
    exact mt hgreen.mp (by decide +kernel)

/-- Purple has the waveform of blue, and an orange has the drive of red. -/
theorem purple_is_read_as_blue :
    let purple := "rgb(200, 0, 255)".toList
    let orange := "OrangeRed".toList
    ¬ (ofText purple = blue ↔ bare purple ∈ blue.documented) ∧
      Waveform.ofColor (ofText purple) ≠ Waveform.ofColor black ∧
      ¬ (ofText orange = red ↔ bare orange ∈ red.documented) ∧
      (Effects.ofAttributes
        { Attributes.plain (12 : Float) with color := ofText orange }).distortion ≠ none := by
  decide +kernel

end Color
end ProseScore
