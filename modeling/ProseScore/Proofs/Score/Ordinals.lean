import Mathlib.Data.List.Flatten
import ProseScore.Proofs.Score.Sharing
import ProseScore.Proofs.Session.Demand

/-!
# The ordinals of what is played

A body and a loop are played in the order of the text, with gaps.  So the ordinals of
their letters increase, and each of them finds its character among the letters of the
text.
-/

namespace ProseScore

variable {R : Type}

namespace Region

theorem gaps_sublist_stretches (start stop : Nat) (rs : List Region) :
    (gaps start stop rs).Sublist (stretches start stop rs) := by
  induction rs generalizing start with
  | nil => exact List.Sublist.refl _
  | cons r rs ih => exact ((ih r.right).cons r.interior).cons_cons _

theorem interior_mem_stretches {r : Region} {rs : List Region} (h : r ∈ rs) (start stop : Nat) :
    r.interior ∈ stretches start stop rs := by
  induction rs generalizing start with
  | nil => exact absurd h List.not_mem_nil
  | cons r' rs ih =>
      rw [stretches, List.mem_cons, List.mem_cons]
      rcases List.mem_cons.mp h with rfl | h
      · exact Or.inr (Or.inl rfl)
      · exact Or.inr (Or.inr (ih h r'.right))

end Region

namespace Score

variable (config : Config R) (gs : List (Glyph R))

theorem body_sublist :
    (ofCells config (Cell.number gs)).body.Sublist (Token.ofCells config [] (Cell.number gs)) := by
  have hlayout := Region.Layout.ofCells config.symbols gs
  have hcut : Region.CutOut ((Region.ofCells config.symbols (Cell.number gs)).map Region.interior)
      0 (Region.ofCells config.symbols (Cell.number gs)) := by
    refine ⟨fun r hr => List.mem_map_of_mem hr, fun e he => ?_⟩
    obtain ⟨r, hr, rfl⟩ := List.mem_map.mp he
    exact Or.inr ⟨r, hr, rfl⟩
  have hbody := Token.ofCells_drop_eq_gaps hlayout hcut
  have hwhole := Token.ofCells_drop_eq_stretches hlayout
  rw [List.drop_zero, ← Cell.length_number gs] at hbody
  rw [List.drop_zero] at hwhole
  rw [ofCells, hbody, hwhole]
  exact (Region.gaps_sublist_stretches _ _ _).flatMap _

theorem loop_sublist (key : RegionKey) :
    ((ofCells config (Cell.number gs)).loop key).Sublist
      (Token.ofCells config [] (Cell.number gs)) := by
  rw [loop]
  cases hlookup : (ofCells config (Cell.number gs)).loops.lookup key with
  | none => exact List.nil_sublist _
  | some tokens =>
      have hmem := (lookup_eq_some_iff_mem (nodup_keys_ofCells config _)).mp hlookup
      obtain ⟨r, hr, heq⟩ := List.mem_map.mp hmem
      obtain ⟨-, rfl⟩ := Prod.mk.inj heq
      have hwhole := Token.ofCells_drop_eq_stretches (Region.Layout.ofCells config.symbols gs)
      rw [List.drop_zero] at hwhole
      have hinside := List.singleton_sublist.mpr
        (Region.interior_mem_stretches hr 0 (Cell.number gs).length)
      have hsublist := hinside.flatMap fun e =>
        Token.ofCells config [] (e.cells (Cell.number gs))
      rw [List.flatMap_singleton] at hsublist
      rw [hwhole]
      exact hsublist

end Score

/-- The ordinal of a letter that is read finds its character among the letters of the
text. -/
theorem Token.getElem?_index {config : Config R} {p : Paragraph R} {l : Letter R}
    (hl : l ∈ (Token.ofCells config [] (Cell.ofParagraph config.baseSize p)).flatMap
      Token.letters) : (p.text.filter isLetter)[l.index]? = some l.char := by
  obtain ⟨i, g, hg, -, hnote, rfl⟩ := Token.mem_letters_iff.mp hl
  have hchar : p.text[i]? = some g.char := by
    rw [← p.map_char_glyphs config.baseSize, List.getElem?_map, hg]
    rfl
  have hcount : ((p.glyphs config.baseSize).take i).countP (fun g => isLetter g.char) =
      (p.text.take i).countP isLetter := by
    rw [← p.map_char_glyphs config.baseSize, ← List.map_take, List.countP_map]
    rfl
  show (p.text.filter isLetter)[((p.glyphs config.baseSize).take i).countP _]? = some g.char
  rw [hcount]
  exact getElem?_filter_countP hchar hnote.isLetter

end ProseScore
