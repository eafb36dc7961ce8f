import ProseScore.Proofs.Region.Keys
import ProseScore.Proofs.Token.Relabel
import ProseScore.Proofs.Unique
import ProseScore.Session.LoopTable

/-!
# What a score demands of the table

A score demands a running loop for every region that has tokens, with the period
of these tokens.  Whether a region has tokens and which period they give hangs on
the text of the region alone, so a loop that was started many edits ago still
serves wherever its key turns up again.
-/

namespace ProseScore

variable {R : Type} [Scalar R]

/-- The keys and periods of the loops that a score wants to have running, in
textual order. -/
def Score.demands (config : Config R) (score : Score R) : List (RegionKey × R) :=
  (score.loops.filter fun (_, tokens) => !tokens.isEmpty).map fun (key, tokens) =>
    (key, config.period tokens)

/-- A loop that its own text asks for: the text has tokens, and the period is
theirs. -/
structure LoopTimer.Apt (config : Config R) (l : LoopTimer R) : Prop where
  sounds : Token.ofText config l.key.content ≠ []
  period_eq : l.period = config.period (Token.ofText config l.key.content)

namespace Paragraph

/-- The loop regions of a paragraph in textual order. -/
def regions (config : Config R) (p : Paragraph R) : List Region :=
  Region.ofCells config.symbols (Cell.ofParagraph config.baseSize p)

/-- The tokens that stand inside a region of a paragraph. -/
def tokensInside (config : Config R) (p : Paragraph R) (r : Region) : List (Token R) :=
  Token.ofCells config [] (r.interior.cells (Cell.ofParagraph config.baseSize p))

/-- The text that stands inside a region of a paragraph. -/
def textInside (config : Config R) (p : Paragraph R) (r : Region) : Text :=
  Cell.text (r.interior.cells (Cell.ofParagraph config.baseSize p))

omit [Scalar R] in
theorem map_content_regions (config : Config R) (p : Paragraph R) :
    (p.regions config).map (·.key.content) = (p.regions config).map (p.textInside config) :=
  List.map_congr_left fun _ hr => Region.content_eq hr

end Paragraph

namespace Score

omit [Scalar R] in
theorem loops_ofParagraph (config : Config R) (p : Paragraph R) :
    (ofParagraph config p).loops =
      (p.regions config).map fun r => (r.key, p.tokensInside config r) := rfl

/-! ## Scores of cells -/

omit [Scalar R] in
theorem keys_ofCells (config : Config R) (cs : List (Cell R)) :
    (ofCells config cs).keys = (Region.ofCells config.symbols cs).map Region.key := by
  simp [keys, ofCells, Function.comp_def]

omit [Scalar R] in
theorem nodup_keys_ofCells (config : Config R) (cs : List (Cell R)) :
    (ofCells config cs).keys.Nodup := by
  rw [keys_ofCells]
  exact Region.nodup_keys config.symbols cs

omit [Scalar R] in
/-- Inside a region stand the tokens of its content, up to the looks of their
letters. -/
theorem text_ofText_eq {config : Config R} {cs : List (Cell R)} {r : Region}
    (h : r ∈ Region.ofCells config.symbols cs) :
    Cell.text (r.interior.cells cs) =
      Cell.text (Cell.ofParagraph config.baseSize (.plain r.key.content)) := by
  rw [Cell.text_ofParagraph, Paragraph.text_plain, Region.content_eq h]

omit [Scalar R] in
theorem tokens_eq_nil_iff {config : Config R} {cs : List (Cell R)} {key : RegionKey}
    {tokens : List (Token R)} (h : (key, tokens) ∈ (ofCells config cs).loops) :
    tokens = [] ↔ Token.ofText config key.content = [] := by
  obtain ⟨r, hr, heq⟩ := List.mem_map.mp h
  obtain ⟨rfl, rfl⟩ := Prod.mk.inj heq
  exact Token.ofCells_eq_nil_iff config (text_ofText_eq hr)

theorem period_eq {config : Config R} {cs : List (Cell R)} {key : RegionKey}
    {tokens : List (Token R)} (h : (key, tokens) ∈ (ofCells config cs).loops) :
    config.period tokens = config.period (Token.ofText config key.content) := by
  obtain ⟨r, hr, heq⟩ := List.mem_map.mp h
  obtain ⟨rfl, rfl⟩ := Prod.mk.inj heq
  have htotal := Token.total_eq_of_durations
    (Token.durations_ofCells config (text_ofText_eq hr))
  rw [Config.period, Config.period, htotal]
  rfl

/-- The text of a key decides whether its loop is demanded and with which
period. -/
theorem mem_demands_iff {config : Config R} {cs : List (Cell R)} {key : RegionKey} {period : R} :
    (key, period) ∈ (ofCells config cs).demands config ↔
      key ∈ (ofCells config cs).keys ∧ Token.ofText config key.content ≠ [] ∧
        period = config.period (Token.ofText config key.content) := by
  constructor
  · intro h
    obtain ⟨⟨key', tokens⟩, hmem, heq⟩ := List.mem_map.mp h
    obtain ⟨rfl, rfl⟩ := Prod.mk.inj heq
    obtain ⟨hloop, hne⟩ := List.mem_filter.mp hmem
    refine ⟨List.mem_map_of_mem hloop, ?_, period_eq hloop⟩
    rw [Ne, ← tokens_eq_nil_iff hloop]
    simpa using hne
  · rintro ⟨hkey, hsounds, rfl⟩
    obtain ⟨⟨key', tokens⟩, hloop, rfl⟩ := List.mem_map.mp hkey
    have hne : tokens ≠ [] := mt (tokens_eq_nil_iff hloop).mp hsounds
    refine List.mem_map.mpr ⟨(key', tokens), List.mem_filter.mpr ⟨hloop, by simpa using hne⟩, ?_⟩
    exact Prod.ext rfl (period_eq hloop)

theorem nodup_keys_demands (config : Config R) (cs : List (Cell R)) :
    (((ofCells config cs).demands config).map Prod.fst).Nodup := by
  have hkeys : ((ofCells config cs).demands config).map Prod.fst =
      (((ofCells config cs).loops.filter fun (_, tokens) => !tokens.isEmpty).map Prod.fst) := by
    rw [demands, List.map_map]
    rfl
  rw [hkeys]
  exact (nodup_keys_ofCells config cs).sublist (List.filter_sublist.map Prod.fst)

/-! ## The loop of a key -/

omit [Scalar R] in
theorem loop_ofParagraph {config : Config R} {p : Paragraph R} {r : Region}
    (h : r ∈ p.regions config) :
    (ofParagraph config p).loop r.key = p.tokensInside config r := by
  have hmem : (r.key, p.tokensInside config r) ∈ (ofParagraph config p).loops :=
    List.mem_map.mpr ⟨r, h, rfl⟩
  have hlookup : (ofParagraph config p).loops.lookup r.key = some (p.tokensInside config r) :=
    (lookup_eq_some_iff_mem (nodup_keys_ofCells config _)).mpr hmem
  rw [loop, hlookup, Option.getD_some]

theorem mem_demands_iff_region {config : Config R} {p : Paragraph R} {key : RegionKey}
    {period : R} :
    (key, period) ∈ (ofParagraph config p).demands config ↔ ∃ r ∈ p.regions config,
      p.tokensInside config r ≠ [] ∧ key = r.key ∧
        period = config.period (p.tokensInside config r) := by
  rw [demands, loops_ofParagraph]
  constructor
  · intro h
    obtain ⟨x, hx, heq⟩ := List.mem_map.mp h
    obtain ⟨hloop, hne⟩ := List.mem_filter.mp hx
    obtain ⟨r, hr, rfl⟩ := List.mem_map.mp hloop
    obtain ⟨rfl, rfl⟩ := Prod.mk.inj heq
    exact ⟨r, hr, by simpa using hne, rfl, rfl⟩
  · rintro ⟨r, hr, hne, rfl, rfl⟩
    have hloop := List.mem_map_of_mem (f := fun r => (r.key, p.tokensInside config r)) hr
    exact List.mem_map.mpr ⟨_, List.mem_filter.mpr ⟨hloop, by simpa using hne⟩, rfl⟩

end Score

end ProseScore
