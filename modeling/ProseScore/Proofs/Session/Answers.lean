import ProseScore.Proofs.Session.Attainable
import ProseScore.Scalar.Exact

/-!
# What a tick leaves in the table

A tick looks at the loops that run and only starts and stops what has changed.
What it leaves in the table depends on the document alone all the same: which
paragraphs are active, and which loops with which periods run in them.
-/

namespace ProseScore

variable {R : Type} [Scalar R]

/-- The table runs what a document asks for: the paragraphs that end with the
terminator and do not begin live are active, and such a paragraph has one loop for
each region that has tokens, as long as these tokens are or, where that is nothing,
with the fallback period. -/
structure LoopTable.Answers (config : Config R) (document : Document R)
    (table : LoopTable R) : Prop where
  isActive_iff : ∀ i, (table.state i).isActive = true ↔ ∃ p, document[i]? = some p ∧
    (Text.trim p.text).getLast? = some (config.symbols .terminator) ∧
    (Text.trim p.text).head? ≠ some (config.symbols .liveOpen)
  loops_of_idle : ∀ i, (table.state i).isActive = false → table.loops i = []
  mem_loops_iff : ∀ i p, document[i]? = some p → (table.state i).isActive = true →
    ∀ key period, (key, period) ∈ (table.loops i).map (fun l => (l.key, l.period)) ↔
      ∃ r ∈ p.regions config, p.tokensInside config r ≠ [] ∧ key = r.key ∧
        period = if 0 < Token.total (p.tokensInside config r) then
          Token.total (p.tokensInside config r) else config.fallbackPeriod
  nodup_loops : ∀ i, ((table.loops i).map fun l => (l.key, l.period)).Nodup

theorem Symbols.wantsActivation_iff {symbols : Symbols} {s : Text} :
    symbols.wantsActivation s = true ↔
      (Text.trim s).getLast? = some (symbols .terminator) ∧
        (Text.trim s).head? ≠ some (symbols .liveOpen) := by
  rw [wantsActivation, isLive, Bool.and_eq_true, Bool.not_eq_true', decide_eq_false_iff_not,
    decide_eq_true_iff, and_comm]

omit [Scalar R] in
theorem Activity.loops_of_isActive_eq_false {a : Activity R} (h : a.isActive = false) :
    a.loops = [] := by
  cases a with
  | idle => rfl
  | active loops => exact absurd h (by simp [isActive])

/-- Tables that answer one document run the same loops, up to their order and
their handles. -/
theorem LoopTable.Answers.perm {config : Config R} {document : Document R}
    {table table' : LoopTable R} (h : table.Answers config document)
    (h' : table'.Answers config document) (i : Nat) :
    (table.state i).isActive = (table'.state i).isActive ∧
      ((table.loops i).map fun l => (l.key, l.period)).Perm
        ((table'.loops i).map fun l => (l.key, l.period)) := by
  have hactive : (table.state i).isActive = (table'.state i).isActive :=
    Bool.eq_iff_iff.mpr ((h.isActive_iff i).trans (h'.isActive_iff i).symm)
  refine ⟨hactive, (List.perm_ext_iff_of_nodup (h.nodup_loops i) (h'.nodup_loops i)).mpr ?_⟩
  rintro ⟨key, period⟩
  cases hstate : (table.state i).isActive with
  | false =>
      rw [h.loops_of_idle i hstate, h'.loops_of_idle i (hactive ▸ hstate)]
  | true =>
      obtain ⟨p, hp, -⟩ := (h.isActive_iff i).mp hstate
      rw [h.mem_loops_iff i p hp hstate, h'.mem_loops_iff i p hp (hactive ▸ hstate)]

namespace Session

theorem answers_tick {s : Session R} (hafter : s.tick.2.Coherent) :
    s.tick.2.table.Answers s.config s.document := by
  have hpairs : ∀ i, (s.tick.2.table.state i).isActive = true →
      ∃ p, s.document[i]? = some p ∧ s.config.symbols.wantsActivation p.text = true ∧
        ((s.tick.2.table.loops i).map fun l => (l.key, l.period)).Perm
          ((Score.ofParagraph s.config p).demands s.config) := by
    intro i hactive
    have hdemands := hafter.exists_perm_demands hactive
    rw [config_tick, document_tick] at hdemands
    exact hdemands
  constructor
  · intro i
    rw [isActive_tick_iff]
    constructor
    · rintro ⟨score, hscore⟩
      obtain ⟨p, hp, hwants, -⟩ := score?_eq_some_iff.mp hscore
      exact ⟨p, hp, Symbols.wantsActivation_iff.mp hwants⟩
    · rintro ⟨p, hp, hwants⟩
      exact ⟨_, score?_eq_some_iff.mpr ⟨p, hp, Symbols.wantsActivation_iff.mpr hwants, rfl⟩⟩
  · exact fun i hidle => Activity.loops_of_isActive_eq_false hidle
  · intro i p hp hactive key period
    obtain ⟨q, hq, -, hperm⟩ := hpairs i hactive
    obtain rfl : q = p := Option.some_inj.mp (hq.symm.trans hp)
    rw [hperm.mem_iff]
    exact Score.mem_demands_iff_region
  · intro i
    apply List.Nodup.of_map Prod.fst
    rw [List.map_map]
    exact hafter.drives.nodup_keys i

theorem Attainable.answers_edit {config : Config R} {s : Session R} (hs : s.Attainable config)
    (document : Document R) : (s.edit document).2.table.Answers config document := by
  obtain ⟨rfl, hcoherent⟩ := hs.config_and_coherent
  exact answers_tick (s := { s with document }) (hcoherent.edit document)

/-- **The table is a function of the document.** After an edit and after a tick
the table runs what the document asks for, and so it does not matter what ran
before. -/
theorem table_answers_document {config : Config R} {s : Session R} (hs : s.Attainable config) :
    (∀ document, (s.edit document).2.table.Answers config document) ∧
    s.tick.2.table.Answers config s.document ∧
    ∀ s' : Session R, s'.Attainable config → ∀ document i,
      ((s.edit document).2.table.state i).isActive =
          ((s'.edit document).2.table.state i).isActive ∧
        (((s.edit document).2.table.loops i).map fun l => (l.key, l.period)).Perm
          (((s'.edit document).2.table.loops i).map fun l => (l.key, l.period)) := by
  refine ⟨hs.answers_edit, hs.answers_edit s.document, ?_⟩
  intro s' hs' document i
  exact (hs.answers_edit document).perm (hs'.answers_edit document) i

/-- A loop is kept, one is started for a copy of it, and an empty region has none. -/
theorem table_answers_copied_region :
    let s := ofEdits (Config.standard : Config Rat) [Document.ofText "[a] [b].".toList]
    let document := Document.ofText "[b] [] x [b].".toList
    s.Attainable Config.standard ∧ (s.edit document).2.table.Answers Config.standard document ∧
      ((s.edit document).2.table.loops 0).map LoopTimer.key =
        [⟨"b".toList, 0⟩, ⟨"b".toList, 1⟩] := by
  intro s document
  have hs : s.Attainable Config.standard := attainable_ofEdits (by decide +kernel) _
  exact ⟨hs, (table_answers_document hs).1 document, by decide⟩

end Session

end ProseScore
