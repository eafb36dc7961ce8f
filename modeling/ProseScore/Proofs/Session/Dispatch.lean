import ProseScore.Proofs.Session.Attainable
import ProseScore.Proofs.Sound.Timeline
import ProseScore.Scalar.Exact

/-!
# What a timer plays

A timer that fires carries nothing but its handle.  What it plays is looked up in
the document as it is then, and for a handle of a running loop it is always
there: the one region with the key of the loop.  Any other handle changes
nothing.
-/

namespace ProseScore.Session

variable {R : Type} [Scalar R]

/-- What a loop that runs is played from: its timer has an owner, and its paragraph has
one region with its key, with something to play inside. -/
theorem Coherent.exists_region_of_mem {s : Session R} (hs : s.Coherent) {i : Nat}
    {l : LoopTimer R} (hl : l ∈ s.table.loops i) :
    s.registry.owner? l.handle = some ⟨i, l.key⟩ ∧
      ∃ p, s.document[i]? = some p ∧ ∃ r ∈ p.regions s.config, r.key = l.key ∧
        p.tokensInside s.config r ≠ [] ∧
          (Score.ofParagraph s.config p).loop l.key = p.tokensInside s.config r := by
  obtain ⟨p, hp, -, hperm⟩ := hs.exists_perm_demands (LoopTable.isActive_of_mem_loops hl)
  have hdemand : (l.key, l.period) ∈ (Score.ofParagraph s.config p).demands s.config :=
    hperm.mem_iff.mp (List.mem_map_of_mem hl)
  obtain ⟨r, hr, hne, hkey, -⟩ := Score.mem_demands_iff_region.mp hdemand
  refine ⟨hs.drives.owner?_eq_some_iff.mpr ⟨l, hl, rfl, rfl⟩, p, hp, r, hr, hkey.symm, hne, ?_⟩
  rw [hkey, Score.loop_ofParagraph hr]

end ProseScore.Session
