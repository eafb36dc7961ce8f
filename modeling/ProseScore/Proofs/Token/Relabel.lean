import Mathlib.Data.List.Forall2
import Mathlib.Tactic.SplitIfs
import ProseScore.Token.Reading

/-!
# Tokens of relabelled letters

The reader looks at characters only.  The attributes and the ordinals of the
letters go through it untouched, so changing them before the reading and after
it comes to the same.  A stretch of cells and the bare text that it spells are
therefore read alike: as many tokens, each of the same kind and duration.
-/

namespace ProseScore

variable {R : Type}

/-- A change of the attributes and the ordinals of letters. -/
structure Relabelling (R : Type) where
  attributes : Attributes R → Attributes R
  index : Nat → Nat

namespace Relabelling

/-- The relabelling that takes everything from letters but their characters. -/
def bare (base : R) : Relabelling R :=
  ⟨fun _ => .plain base, fun _ => 0⟩

/-- The relabelling that gives letters other ordinals. -/
def ordinals (index : Nat → Nat) : Relabelling R :=
  ⟨id, index⟩

def letter (f : Relabelling R) (l : Letter R) : Letter R :=
  ⟨l.char, f.attributes l.attributes, f.index l.index⟩

def mark (f : Relabelling R) : Mark R → Mark R
  | .letter l => .letter (f.letter l)
  | .accent => .accent
  | .random => .random
  | .rest => .rest
  | .gap => .gap

def word (f : Relabelling R) (w : Word R) : Word R :=
  { w with letters := w.letters.map f.letter }

def kind (f : Relabelling R) : TokenKind R → TokenKind R
  | .letter l => .letter (f.letter l)
  | .chord ls a => .chord (ls.map f.letter) (f.attributes a)
  | .rest => .rest

def token (f : Relabelling R) (t : Token R) : Token R :=
  { t with kind := f.kind t.kind }

@[simp] theorem duration_token (f : Relabelling R) (t : Token R) :
    (f.token t).duration = t.duration := rfl

theorem letters_token (f : Relabelling R) (t : Token R) :
    (f.token t).letters = t.letters.map f.letter := by
  obtain ⟨kind, accent, random, duration⟩ := t
  cases kind <;> rfl

theorem token_ordinals_token (index index' : Nat → Nat) (t : Token R) :
    (ordinals index').token ((ordinals index).token t) = (ordinals (index' ∘ index)).token t := by
  obtain ⟨kind, accent, random, duration⟩ := t
  cases kind with
  | letter l => rfl
  | chord ls a =>
      simp only [token, kind, List.map_map]
      rfl
  | rest => rfl

theorem kind?_word (f : Relabelling R) (w : Word R) :
    (f.word w).kind? = w.kind?.map f.kind := by
  obtain ⟨letters, accent, random⟩ := w
  match letters with
  | [] => rfl
  | [l] => rfl
  | l :: l' :: ls => rfl

theorem token?_word (f : Relabelling R) (config : Config R) (w : Word R) :
    (f.word w).token? config = (w.token? config).map f.token := by
  have hflags : (f.word w).accent = w.accent ∧ (f.word w).random = w.random := ⟨rfl, rfl⟩
  rw [Word.token?, Word.token?, f.kind?_word, hflags.1, hflags.2, Option.map_map, Option.map_map]
  rfl

@[simp] theorem word_empty (f : Relabelling R) : f.word {} = {} := rfl

@[simp] theorem token_silent (f : Relabelling R) (config : Config R) :
    f.token (Token.silent config) = Token.silent config := rfl

/-- Relabelling passes through the reader, the open word at the front included. -/
theorem read_map_mark (f : Relabelling R) (config : Config R) (ms : List (Mark R)) :
    Token.read config (ms.map f.mark) =
      (f.word (Token.read config ms).1, (Token.read config ms).2.map f.token) := by
  induction ms with
  | nil => rfl
  | cons m ms ih =>
      have hclosed : ((f.word (Token.read config ms).1).token? config).toList =
          ((Token.read config ms).1.token? config).toList.map f.token := by
        rw [f.token?_word, Option.toList_map]
      rw [List.map_cons, Token.read, ih]
      cases m with
      | letter l => simp [mark, Token.read, word]
      | accent => simp [mark, Token.read, word]
      | random => simp [mark, Token.read, word]
      | gap => simp only [mark, Token.read, hclosed, List.map_append, word_empty]
      | rest =>
          simp only [mark, Token.read, hclosed, List.map_append, List.map_cons, word_empty,
            token_silent]

theorem ofMarks_map_mark (f : Relabelling R) (config : Config R) (ms : List (Mark R)) :
    Token.ofMarks config (ms.map f.mark) = (Token.ofMarks config ms).map f.token := by
  have h := congrArg Prod.snd (f.read_map_mark config (.gap :: ms))
  rwa [List.map_cons] at h

/-! ## Cells that spell the same text -/

/-- What a cell without attributes and ordinals means hangs on its character. -/
theorem map_bare_ofCell? (base : R) (symbols : Symbols) {c d : Cell R} (h : c.char = d.char) :
    (Mark.ofCell? symbols c).map (bare base).mark =
      (Mark.ofCell? symbols d).map (bare base).mark := by
  rw [Mark.ofCell?, Mark.ofCell?, h]
  split_ifs
  · rfl
  · rfl
  · simp [mark, letter, bare]
  · rfl
  · rfl
  · rfl

theorem map_bare_ofCells (base : R) (symbols : Symbols) (muted : Bool) {cs ds : List (Cell R)}
    (h : Cell.text cs = Cell.text ds) :
    (Mark.ofCells symbols muted (cs.map some)).map (bare base).mark =
      (Mark.ofCells symbols muted (ds.map some)).map (bare base).mark := by
  induction cs generalizing muted ds with
  | nil =>
      have hds : ds = [] := List.map_eq_nil_iff.mp h.symm
      rw [hds]
  | cons c cs ih =>
      obtain ⟨d, ds', rfl, hd, hds⟩ := List.map_eq_cons_iff.mp h.symm
      have htail : Cell.text cs = Cell.text ds' := hds.symm
      have ih' (muted : Bool) := ih muted htail
      simp only [List.map_cons, Mark.ofCells, hd]
      split_ifs
      · rw [List.map_cons, List.map_cons, ih']
      · exact ih' muted
      · have hcell := map_bare_ofCell? base symbols hd
        rw [List.map_append, List.map_append, ih', ← Option.toList_map, ← Option.toList_map, hcell]

/-! ## Cells that differ by a relabelling -/

/-- The second cell is the first one relabelled, wherever the two stand. -/
structure Relates (f : Relabelling R) (c c' : Cell R) : Prop where
  char_eq : c'.char = c.char
  attributes_eq : c'.attributes = f.attributes c.attributes
  index_eq : isLetter c.char = true → c'.letterIndex = f.index c.letterIndex

theorem Relates.ofCell?_eq {f : Relabelling R} {c c' : Cell R} (h : f.Relates c c')
    (symbols : Symbols) : Mark.ofCell? symbols c' = (Mark.ofCell? symbols c).map f.mark := by
  rw [Mark.ofCell?, Mark.ofCell?, h.char_eq]
  split_ifs with hrest hgap hletter
  · rfl
  · rfl
  · simp [mark, letter, h.attributes_eq, h.index_eq hletter]
  · rfl
  · rfl
  · rfl

theorem ofCells_of_forall₂ {f : Relabelling R} {cs cs' : List (Cell R)}
    (h : List.Forall₂ f.Relates cs cs') (symbols : Symbols) (muted : Bool) :
    Mark.ofCells symbols muted (cs'.map some) =
      (Mark.ofCells symbols muted (cs.map some)).map f.mark := by
  induction h generalizing muted with
  | nil => rfl
  | cons hc _ ih =>
      rw [List.map_cons, List.map_cons, Mark.ofCells, Mark.ofCells, hc.char_eq, hc.ofCell?_eq]
      split_ifs
      · rw [ih, List.map_cons]
        rfl
      · exact ih muted
      · rw [ih, List.map_append, Option.toList_map]

/-- The same glyphs behind another number of letters have other ordinals. -/
theorem forall₂_numberFrom {index : Nat → Nat} (position position' : Nat)
    {letters letters' : Nat} {gs : List (Glyph R)}
    (h : ∀ i < gs.countP fun g => isLetter g.char, index (letters + i) = letters' + i) :
    List.Forall₂ (ordinals index).Relates (Cell.numberFrom position letters gs)
      (Cell.numberFrom position' letters' gs) := by
  induction gs generalizing position position' letters letters' with
  | nil => exact List.Forall₂.nil
  | cons g gs ih =>
      rw [Cell.numberFrom, Cell.numberFrom]
      rw [List.countP_cons] at h
      by_cases hletter : isLetter g.char = true
      · simp only [hletter, if_true] at h ⊢
        refine List.Forall₂.cons ⟨rfl, rfl, fun _ => (h 0 (Nat.succ_pos _)).symm⟩ (ih _ _ ?_)
        intro i hi
        have hnext := h (i + 1) (Nat.succ_lt_succ hi)
        have hcount (l : Nat) : l + 1 + i = l + (i + 1) := by omega
        rw [hcount, hcount, hnext]
      · simp only [hletter, Bool.false_eq_true, if_false, Nat.add_zero] at h ⊢
        exact List.Forall₂.cons ⟨rfl, rfl, fun hl => absurd hl hletter⟩ (ih _ _ h)

end Relabelling

namespace Token

/-- Stretches of cells with the same text have the same tokens up to the
attributes and ordinals of their letters. -/
theorem map_bare_ofCells (config : Config R) {cs ds : List (Cell R)}
    (h : Cell.text cs = Cell.text ds) :
    (ofCells config [] cs).map (Relabelling.bare config.baseSize).token =
      (ofCells config [] ds).map (Relabelling.bare config.baseSize).token := by
  have hcut (cs : List (Cell R)) : Extent.cut [] 0 cs = cs.map some :=
    Extent.cut_nil fun c _ => Nat.zero_le c.position
  simp only [ofCells, hcut, ← Relabelling.ofMarks_map_mark]
  rw [Relabelling.map_bare_ofCells config.baseSize config.symbols false h]

theorem durations_ofCells (config : Config R) {cs ds : List (Cell R)}
    (h : Cell.text cs = Cell.text ds) :
    (ofCells config [] cs).map duration = (ofCells config [] ds).map duration := by
  have hbare := congrArg (List.map duration) (map_bare_ofCells config h)
  simpa only [List.map_map, Function.comp_def, Relabelling.duration_token] using hbare

theorem ofCells_eq_nil_iff (config : Config R) {cs ds : List (Cell R)}
    (h : Cell.text cs = Cell.text ds) : ofCells config [] cs = [] ↔ ofCells config [] ds = [] := by
  rw [← List.map_eq_nil_iff (f := duration), durations_ofCells config h, List.map_eq_nil_iff]

theorem total_eq_of_durations [Scalar R] {ts us : List (Token R)}
    (h : ts.map duration = us.map duration) : total ts = total us := by
  have hfold (ts : List (Token R)) : total ts = (ts.map duration).foldl (· + ·) 0 := by
    rw [total, List.foldl_map]
  rw [hfold, hfold, h]

theorem total_map_token [Scalar R] (f : Relabelling R) (ts : List (Token R)) :
    total (ts.map f.token) = total ts := by
  apply total_eq_of_durations
  rw [List.map_map]
  rfl

end Token

end ProseScore
