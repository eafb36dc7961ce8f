import ProseScore.Proofs.Config.Numbers
import ProseScore.Proofs.Session.Clock
import ProseScore.Proofs.Timer.Endless

/-!
# When time never ends

A session that plays has its times in binary64 numbers.  Its clock does not go
below zero and its timers have positive periods, so only a timer that stands still
can keep time from going on.
-/

namespace ProseScore

open Binary64

theorem Settings.fallbackPeriod_pos_binary64 {settings : Settings Float} {config : Config Float}
    (h : settings.config = .ok config) : 0 < config.fallbackPeriod :=
  (Config.timing_sound h .fallback).2.1

namespace Session

/-! ## Timers on their way up -/

theorem rising_new (config : Config Float) (drawn drawnLive : Generator) :
    (new config drawn drawnLive).registry.timers.Rising :=
  ⟨List.nodup_nil, zero_nonneg, fun _ ht => absurd ht List.not_mem_nil⟩

theorem rising_of_leadsTo {s s' : Session Float} (h : s.registry.timers.Rising)
    (hregistry : s.registry.LeadsTo s'.registry) (hs' : s'.Coherent)
    (hpos : 0 < s'.config.fallbackPeriod) : s'.registry.timers.Rising where
  nodup := hs'.drives.increasing.imp Nat.ne_of_lt
  now_nonneg := hregistry.now_eq ▸ h.now_nonneg
  rising := by
    intro t ht
    have hperiod := hs'.period_pos hpos ht
    rcases hregistry.running t ht with hold | ⟨-, hdue⟩
    · exact h.rising t hold
    · exact ⟨hdue ▸ add_nonneg h.now_nonneg hperiod, hperiod⟩

theorem Reachable.rising {config : Config Float} (hpos : 0 < config.fallbackPeriod)
    {s : Session Float} (h : Reachable config s) : s.registry.timers.Rising := by
  refine h.of_step (P := fun s => s.registry.timers.Rising) (rising_new config)
    fun s s' c outcome hs hrising hstep => ?_
  obtain ⟨rfl, hcoherent⟩ := hs.config_and_coherent
  obtain ⟨hconfig, hafter⟩ := hcoherent.step hstep
  rcases step?_clocks hstep with ⟨hregistry, -⟩ | ⟨horizon, firings, last, hdrains, htimers, -⟩
  · exact rising_of_leadsTo hrising hregistry hafter (hconfig ▸ hpos)
  · rw [htimers]
    exact (hrising.of_drains hdrains).advanceTo horizon

/-! ## Time without an end -/

theorem advance?_eq_none_iff {R : Type} [Scalar R] {s : Session R} {seconds : R} :
    s.advance? seconds = none ↔ s.registry.timers.drain? (s.now + seconds) = none := by
  rw [advance?, Option.map_eq_none_iff, advanceTo?, Option.map_eq_none_iff]

/-- **Time ends unless a timer stands still.** Under accepted settings a timer that
fires is due later than before, unless its period is lost in its due time.  Time that
goes on comes to its end, unless this happens to some timer by the horizon; then there
is no answer, and no number of firings brings all timers beyond the horizon. -/
theorem advance?_eq_none_iff_endless {settings : Settings Float} {config : Config Float}
    (hconfig : settings.config = .ok config) {s : Session Float} (hs : Reachable config s)
    (seconds : Float) :
    let horizon := s.now + seconds
    (∀ t ∈ s.registry.timers.running, t.nextDue < t.again.nextDue ↔ ¬ t.Stalls) ∧
    (s.advance? seconds = none ↔ ∃ t ∈ s.registry.timers.running, t.Endless horizon) ∧
    ((∃ firings last, Timers.Drains horizon s.registry.timers firings last) ↔
      ∀ t ∈ s.registry.timers.running, ¬ t.Endless horizon) := by
  intro horizon
  have hrising := hs.rising (Settings.fallbackPeriod_pos_binary64 hconfig)
  exact ⟨fun t ht => (hrising.rising t ht).nextDue_lt_again_iff,
    advance?_eq_none_iff.trans hrising.drain?_eq_none_iff, hrising.exists_drains_iff⟩

/-- The loops of the standard settings come to the end of the first second. -/
theorem standard_loops_not_endless :
    let settings : Settings Float := {}
    let s := ofEdits settings.fill [Document.ofText "[a] [b c].".toList]
    settings.config = .ok settings.fill ∧ Reachable settings.fill s ∧
      s.advance? 1 ≠ none ∧
      (∀ t ∈ s.registry.timers.running, ¬ t.Endless (s.now + 1)) ∧
      ∃ firings last, Timers.Drains (s.now + 1) s.registry.timers firings last := by
  intro settings s
  have hconfig : settings.config = .ok settings.fill := Settings.config_empty_binary64
  have hs : Reachable settings.fill s := reachable_ofEdits (by decide +kernel) _
  obtain ⟨-, hnone, hdrains⟩ := advance?_eq_none_iff_endless hconfig hs 1
  have hsome : s.advance? 1 ≠ none := by
    rw [← Option.isSome_iff_ne_none]
    decide +kernel
  have hends : ∀ t ∈ s.registry.timers.running, ¬ t.Endless (s.now + 1) := fun t ht hendless =>
    hsome (hnone.mpr ⟨t, ht, hendless⟩)
  exact ⟨hconfig, hs, hsome, hends, hdrains.mpr hends⟩

/-- A second after the start, a base duration of `1e-300` is lost in the due time of a
loop. -/
theorem due_again_at_once :
    let settings : Settings Float :=
      { timing := fun t => if t = .base then some 1e-300 else none }
    settings.config = .ok settings.fill ∧ ∃ s, Reachable settings.fill s ∧
      (∃ t ∈ s.registry.timers.running, t.nextDue ≤ s.now ∧ ¬ t.nextDue < t.again.nextDue) ∧
      s.advance? 0 = none ∧
      ¬ ∃ firings last, Timers.Drains (s.now + 0) s.registry.timers firings last := by
  intro settings
  let commands : List (Command Float) := [.advance 1, .edit (Document.ofText "[a].".toList)]
  have hrun : (((new settings.fill (.ofSeed 0) (.ofSeed 1)).run? commands).any fun (_, s) =>
      (s.advance? 0).isNone && s.registry.timers.running.any fun t =>
        t.nextDue ≤ s.now ∧ ¬ t.nextDue < t.again.nextDue) = true := by decide +kernel
  obtain ⟨⟨outcomes, s⟩, hcommands, hlost⟩ := Option.any_eq_true _ _ |>.mp hrun
  obtain ⟨hnone, hany⟩ := Bool.and_eq_true_iff.mp hlost
  obtain ⟨t, ht, hdue⟩ := List.any_eq_true.mp hany
  have hnone := Option.isNone_iff_eq_none.mp hnone
  have hconfig : settings.config = .ok settings.fill :=
    Settings.config_eq_ok_iff.mpr ⟨by decide +kernel, rfl⟩
  have hs : Reachable settings.fill s := ⟨_, _, commands, outcomes, hcommands⟩
  have hrising := hs.rising (Settings.fallbackPeriod_pos_binary64 hconfig)
  obtain ⟨u, hu, hendless⟩ := hrising.drain?_eq_none_iff.mp (advance?_eq_none_iff.mp hnone)
  exact ⟨hconfig, s, hs, ⟨t, ht, of_decide_eq_true hdue⟩, hnone,
    fun hdrains => hrising.exists_drains_iff.mp hdrains u hu hendless⟩

end Session

end ProseScore
