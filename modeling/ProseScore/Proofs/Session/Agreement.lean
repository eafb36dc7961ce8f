import ProseScore.Proofs.Session.Attainable
import ProseScore.Scalar.Exact

/-!
# Table, owners and timers agree

Whatever has been asked of a session, the three places that know of a running
loop know of the same ones.  No timer runs without a loop, no loop is without its
timer, and no handle stands for two of them.
-/

namespace ProseScore.Session

variable {R : Type} [Scalar R]

/-- **Agreement.** A handle is registered exactly if it has an owner and exactly
if it stands in the table, where it stands once.  The owner names that place, the
timer has the period of the loop, and each paragraph holds its loops under
different keys in the order in which their timers were started. -/
theorem loops_owners_timers_agree {config : Config R} {s : Session R}
    (h : Reachable config s) :
    (∀ handle : Nat,
      ((s.registry.timers.find? handle).isSome = true ↔
        (s.registry.owner? handle).isSome = true) ∧
      ((s.registry.owner? handle).isSome = true ↔
        ∃! place : Nat × Nat, ∃ l, (s.table.loops place.1)[place.2]? = some l ∧
          l.handle = handle)) ∧
    (∀ i, ∀ l ∈ s.table.loops i,
      (s.table.state i).isActive = true ∧
      s.registry.owner? l.handle = some ⟨i, l.key⟩ ∧
      (s.registry.timers.find? l.handle).map Timer.period = some l.period) ∧
    (∀ i, ((s.table.loops i).map LoopTimer.key).Nodup ∧
      ((s.table.loops i).map LoopTimer.handle).Pairwise (· < ·)) ∧
    (s.registry.timers.running.map Timer.handle).Pairwise (· < ·) ∧
    (s.registry.owners.map Prod.fst).Nodup := by
  have hdrives := h.attainable.coherent.drives
  refine ⟨fun handle => ⟨?_, ?_⟩, ?_, ?_, hdrives.increasing, hdrives.nodup_owners⟩
  · rw [hdrives.isSome_find?_iff, hdrives.isSome_owner?_iff]
  · rw [hdrives.isSome_owner?_iff]
    constructor
    · rintro ⟨i, l, hl, rfl⟩
      exact hdrives.existsUnique_place hl
    · rintro ⟨⟨i, k⟩, ⟨l, hk, hhandle⟩, -⟩
      exact ⟨i, l, List.mem_of_getElem? hk, hhandle⟩
  · intro i l hl
    obtain ⟨t, ht, hhandle, hperiod⟩ := hdrives.exists_timer hl
    refine ⟨LoopTable.isActive_of_mem_loops hl, ?_, ?_⟩
    · exact hdrives.owner?_eq_some_iff.mpr ⟨l, hl, rfl, rfl⟩
    · rw [hdrives.find?_eq_some_iff.mpr ⟨ht, hhandle⟩, Option.map_some, hperiod]
  · exact fun i => ⟨hdrives.nodup_keys i, hdrives.increasing_loops i⟩

/-- One loop is kept, one is stopped and one is started. -/
theorem owners_agree_after_reordering :
    let s := ofEdits (Config.standard : Config Rat)
      [Document.ofText "[a] [b].".toList, Document.ofText "[c] x [b].".toList]
    Reachable Config.standard s ∧ (s.table.loops 0).map LoopTimer.handle = [1, 2] ∧
      ∀ l ∈ s.table.loops 0, s.registry.owner? l.handle = some ⟨0, l.key⟩ ∧
        (s.registry.timers.find? l.handle).map Timer.period = some l.period := by
  intro s
  have hs : Reachable Config.standard s := reachable_ofEdits (by decide +kernel) _
  exact ⟨hs, by decide, fun l hl => ((loops_owners_timers_agree hs).2.1 0 l hl).2⟩

end ProseScore.Session
