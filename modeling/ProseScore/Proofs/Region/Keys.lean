import ProseScore.Proofs.Region.Order
import ProseScore.Proofs.Unique

/-!
# Keys of regions

The keys of a scan tell its regions apart, and which keys there are hangs on
nothing but how often each content occurs: of a content that occurs `n` times,
the occurrences `0` to `n - 1` are there.
-/

namespace ProseScore.Region

variable {R : Type}

theorem map_content_keyed (seen : List Text) (ps : List (Nat × Nat × Text)) :
    (keyed seen ps).map (·.key.content) = ps.map fun p => p.2.2 := by
  induction ps generalizing seen with
  | nil => rfl
  | cons p ps ih =>
      obtain ⟨left, right, content⟩ := p
      rw [keyed, List.map_cons, ih, List.map_cons]

/-- The keys behind the contents `seen`: the occurrences of a content are
numbered on from those that have been seen. -/
theorem mem_keys_keyed_iff {seen : List Text} {ps : List (Nat × Nat × Text)} {key : RegionKey} :
    key ∈ (keyed seen ps).map Region.key ↔
      seen.count key.content ≤ key.occurrence ∧
        key.occurrence <
          seen.count key.content + (ps.map fun p => p.2.2).count key.content := by
  induction ps generalizing seen with
  | nil =>
      simp only [keyed, List.map_nil, List.not_mem_nil, List.count_nil, false_iff]
      omega
  | cons p ps ih =>
      obtain ⟨left, right, content⟩ := p
      obtain ⟨c, k⟩ := key
      simp only [keyed, List.map_cons, List.mem_cons, RegionKey.mk.injEq, ih, List.count_cons]
      by_cases hc : content = c
      · subst hc
        simp only [beq_self_eq_true, if_true, true_and]
        omega
      · have hne : (content == c) = false := beq_false_of_ne hc
        have hne' : ¬ c = content := fun h => hc h.symm
        simp only [hne, hne', Bool.false_eq_true, if_false, false_and, false_or]
        omega

theorem nodup_keys_keyed (seen : List Text) (ps : List (Nat × Nat × Text)) :
    ((keyed seen ps).map Region.key).Nodup := by
  induction ps generalizing seen with
  | nil => exact List.nodup_nil
  | cons p ps ih =>
      obtain ⟨left, right, content⟩ := p
      rw [keyed, List.map_cons, List.nodup_cons]
      refine ⟨fun h => ?_, ih (content :: seen)⟩
      -- The later occurrences of this content are numbered from one more on.
      have hlater := (mem_keys_keyed_iff.mp h).1
      rw [List.count_cons_self] at hlater
      exact absurd hlater (Nat.not_succ_le_self _)

theorem map_occurrence_keyed (seen : List Text) (ps : List (Nat × Nat × Text)) (content : Text) :
    ((keyed seen ps).filter (·.key.content = content)).map (·.key.occurrence) =
      List.range' (seen.count content) ((ps.map fun p => p.2.2).count content) := by
  induction ps generalizing seen with
  | nil => rfl
  | cons p ps ih =>
      obtain ⟨left, right, content'⟩ := p
      rw [keyed, List.filter_cons, List.map_cons, List.count_cons]
      by_cases hc : content' = content
      · subst hc
        simp [ih, List.range'_succ]
      · simp [ih, hc]

theorem mem_of_mem_keyed {seen : List Text} {ps : List (Nat × Nat × Text)} {r : Region}
    (h : r ∈ keyed seen ps) : (r.left, r.right, r.key.content) ∈ ps := by
  induction ps generalizing seen with
  | nil => exact absurd h List.not_mem_nil
  | cons p ps ih =>
      obtain ⟨left, right, content⟩ := p
      rcases List.mem_cons.mp h with rfl | h
      · exact List.mem_cons_self
      · exact List.mem_cons_of_mem _ (ih h)

/-- The region with its brackets elsewhere. -/
def move (place : Nat → Nat) (r : Region) : Region :=
  ⟨r.key, place r.left, place r.right⟩

theorem keyed_map_move (place : Nat → Nat) (seen : List Text) (ps : List (Nat × Nat × Text)) :
    keyed seen (ps.map fun p => (place p.1, place p.2.1, p.2.2)) =
      (keyed seen ps).map (move place) := by
  induction ps generalizing seen with
  | nil => rfl
  | cons p ps ih =>
      obtain ⟨left, right, content⟩ := p
      rw [List.map_cons, keyed, keyed, List.map_cons, ih]
      rfl

/-! ## The keys of a scan -/

theorem nodup_keys (symbols : Symbols) (cs : List (Cell R)) :
    ((ofCells symbols cs).map Region.key).Nodup :=
  nodup_keys_keyed [] _

theorem mem_keys_iff {symbols : Symbols} {cs : List (Cell R)} {key : RegionKey} :
    key ∈ (ofCells symbols cs).map Region.key ↔
      key.occurrence < ((ofCells symbols cs).map (·.key.content)).count key.content := by
  rw [ofCells, mem_keys_keyed_iff, map_content_keyed]
  simp

theorem map_occurrence_ofCells (symbols : Symbols) (cs : List (Cell R)) (content : Text) :
    ((ofCells symbols cs).filter (·.key.content = content)).map (·.key.occurrence) =
      List.range (((ofCells symbols cs).map (·.key.content)).count content) := by
  rw [ofCells, map_occurrence_keyed, map_content_keyed, List.count_nil, List.range_eq_range']

/-- A region counts the regions before it that have its content. -/
theorem occurrence_eq_countP {symbols : Symbols} {cs : List (Cell R)} {k : Nat} {r : Region}
    (h : (ofCells symbols cs)[k]? = some r) :
    r.key.occurrence =
      ((ofCells symbols cs).take k).countP (·.key.content = r.key.content) := by
  have hplace := getElem?_filter_countP (f := (·.key.content = r.key.content)) h (by simp)
  have hnumber := congrArg (Option.map (·.key.occurrence)) hplace
  rw [← List.getElem?_map, map_occurrence_ofCells, Option.map_some] at hnumber
  exact (List.getElem?_eq_some_iff.mp hnumber).2.symm.trans (List.getElem_range _)

theorem find?_eq_getElem?_filter (symbols : Symbols) (cs : List (Cell R)) (key : RegionKey) :
    find? (ofCells symbols cs) key =
      ((ofCells symbols cs).filter (·.key.content = key.content))[key.occurrence]? := by
  have hnumbers := map_occurrence_ofCells symbols cs key.content
  apply Option.ext
  intro r
  rw [find?, find?_key_eq_some_iff (nodup_keys symbols cs)]
  constructor
  · rintro ⟨hr, rfl⟩
    obtain ⟨k, hk⟩ := List.mem_iff_getElem?.mp hr
    rw [occurrence_eq_countP hk]
    exact getElem?_filter_countP (f := (·.key.content = r.key.content)) hk (by simp)
  · intro hr
    have hmem := List.mem_of_getElem? hr
    rw [List.mem_filter, decide_eq_true_eq] at hmem
    have hnumber := congrArg (Option.map (·.key.occurrence)) hr
    rw [← List.getElem?_map, hnumbers, Option.map_some] at hnumber
    obtain ⟨hlt, hoccurrence⟩ := List.getElem?_eq_some_iff.mp hnumber
    rw [List.getElem_range] at hoccurrence
    obtain ⟨content, occurrence⟩ := key
    obtain ⟨rfl, rfl⟩ : r.key.content = content ∧ r.key.occurrence = occurrence :=
      ⟨hmem.2, hoccurrence.symm⟩
    exact ⟨hmem.1, rfl⟩

/-- Scans with the same contents, in whatever order, have the same keys. -/
theorem mem_keys_congr {symbols symbols' : Symbols} {cs ds : List (Cell R)}
    (h : ((ofCells symbols cs).map (·.key.content)).Perm
      ((ofCells symbols' ds).map (·.key.content))) (key : RegionKey) :
    key ∈ (ofCells symbols cs).map Region.key ↔ key ∈ (ofCells symbols' ds).map Region.key := by
  rw [mem_keys_iff, mem_keys_iff, h.count_eq]

theorem content_eq {symbols : Symbols} {cs : List (Cell R)} {r : Region}
    (h : r ∈ ofCells symbols cs) : r.key.content = Cell.text (r.interior.cells cs) := by
  obtain ⟨p, -, hp⟩ := List.mem_map.mp (mem_of_mem_keyed h)
  obtain ⟨left, right⟩ := p
  obtain ⟨rfl, rfl, hcontent⟩ : left = r.left ∧ right = r.right ∧ _ := by simpa using hp
  exact hcontent.symm

/-- What the outermost pairs of brackets have inside, from left to right. -/
def contents (symbols : Symbols) (cs : List (Cell R)) : List Text :=
  (outermost (pairs symbols false [] cs)).map fun p => Cell.text (Extent.cells ⟨p.1 + 1, p.2⟩ cs)

theorem map_content_ofCells (symbols : Symbols) (cs : List (Cell R)) :
    (ofCells symbols cs).map (·.key.content) = contents symbols cs := by
  rw [ofCells, map_content_keyed, List.map_map]
  rfl

/-- **Keys hang on the contents alone.** A scan numbers the regions of each content from
the left, so its keys are pairwise different, and which keys there are says how often
each content occurs and nothing else. A key finds the region with its content and its
number. -/
theorem keys_number_contents (symbols : Symbols) (gs gs' : List (Glyph R)) :
    let cs := Cell.number gs
    let regions := ofCells symbols cs
    let regions' := ofCells symbols (Cell.number gs')
    regions.Pairwise (fun r r' => r.left < r.right ∧ r.right < r'.left) ∧
    (regions.map Region.key).Nodup ∧
    (∀ key, key ∈ regions.map Region.key ↔
      key.occurrence < (contents symbols cs).count key.content) ∧
    (∀ content, (regions.filter (·.key.content = content)).map (·.key.occurrence) =
      List.range ((contents symbols cs).count content)) ∧
    ((contents symbols cs).Perm (contents symbols (Cell.number gs')) ↔
      ∀ key, key ∈ regions.map Region.key ↔ key ∈ regions'.map Region.key) ∧
    ∀ key, ((find? regions key).isSome ↔ key ∈ regions.map Region.key) ∧
      find? regions key = (regions.filter (·.key.content = key.content))[key.occurrence]? := by
  intro cs regions regions'
  have hinc := Cell.increasing_positions_number gs
  have hkeys (cs : List (Cell R)) (key : RegionKey) : key ∈ (ofCells symbols cs).map Region.key ↔
      key.occurrence < (contents symbols cs).count key.content := by
    rw [mem_keys_iff, map_content_ofCells]
  refine ⟨?_, nodup_keys symbols cs, hkeys cs, fun content => ?_, ?_, fun key => ⟨?_, ?_⟩⟩
  · apply (pairwise_ofCells hinc).imp_of_mem
    exact fun hr _ hbehind => ⟨left_lt_right hinc hr, hbehind⟩
  · rw [map_occurrence_ofCells, map_content_ofCells]
  · rw [List.perm_iff_count]
    constructor
    · intro h key
      rw [hkeys, hkeys, h]
    · intro h content
      -- Below its count each number of the content is part of a key, in both scans.
      have hsame (k : Nat) : k < (contents symbols cs).count content ↔
          k < (contents symbols (Cell.number gs')).count content := by
        have hkey := h ⟨content, k⟩
        rwa [hkeys, hkeys] at hkey
      exact eq_of_forall_lt_iff hsame
  · rw [find?, List.find?_isSome, List.mem_map]
    simp only [decide_eq_true_eq]
  · exact find?_eq_getElem?_filter symbols cs key

/-- Two copies with a nested region between them, and a line that holds the same regions in
another order. -/
theorem keys_number_copies :
    let glyphs : List (Glyph Nat) := (Paragraph.plain "[a] [b[c]] x[a]]".toList).glyphs 12
    let moved : List (Glyph Nat) := (Paragraph.plain "[b[c]][a][a]".toList).glyphs 12
    let regions := ofCells .standard (Cell.number glyphs)
    regions.map Region.key = [⟨['a'], 0⟩, ⟨"b[c]".toList, 0⟩, ⟨['a'], 1⟩] ∧
      (regions.map Region.key).Nodup ∧
      (∀ key, key ∈ regions.map Region.key ↔
        key ∈ (ofCells .standard (Cell.number moved)).map Region.key) ∧
      find? regions ⟨['a'], 1⟩ = some ⟨⟨['a'], 1⟩, 12, 14⟩ := by
  intro glyphs moved regions
  have hperm : (contents .standard (Cell.number glyphs)).Perm
      (contents .standard (Cell.number moved)) := by decide +kernel
  obtain ⟨-, hnodup, -, -, hsame, hfind⟩ := keys_number_contents .standard glyphs moved
  refine ⟨by decide +kernel, hnodup, hsame.mp hperm, ?_⟩
  exact (hfind ⟨['a'], 1⟩).2.trans (by decide +kernel)

end ProseScore.Region
