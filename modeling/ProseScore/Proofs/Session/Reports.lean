import Mathlib.Algebra.Order.Ring.Rat
import ProseScore.Proofs.Session.Clock
import ProseScore.Proofs.Session.Dispatch
import ProseScore.Proofs.Sound.Layout

/-!
# What reports tell

A report tells who plays some tokens, when they begin, how long they take and which
letters they have.  Nothing of that hangs on what has been played before or on what
is drawn.  So the reports of bodies and of firings are read off the document.
-/

namespace ProseScore

variable {R : Type} [Scalar R]

/-- The report of tokens that are played from a time on. -/
def Report.telling (paragraph : Nat) (source : Source) (start : R) (tokens : List (Token R)) :
    Report R where
  paragraph := paragraph
  source := source
  start := start
  duration := tokens.foldl (fun time t => time + t.duration) start - start
  letters := tokens.flatMap fun t => t.letters.map Letter.index

omit [Scalar R] in
theorem Score.isLetter_of_mem_loops {config : Config R} {p : Paragraph R} {key : RegionKey}
    {tokens : List (Token R)} (h : (key, tokens) ∈ (ofParagraph config p).loops) {t : Token R}
    (ht : t ∈ tokens) {l : Letter R} (hl : l ∈ t.letters) : isLetter l.char = true := by
  obtain ⟨r, -, heq⟩ := List.mem_map.mp h
  obtain ⟨rfl, rfl⟩ := Prod.mk.inj heq
  exact Token.isLetter_of_mem_ofCells ht hl

omit [Scalar R] in
theorem Score.isLetter_of_mem_loop {config : Config R} {p : Paragraph R} {key : RegionKey}
    {t : Token R} (ht : t ∈ (ofParagraph config p).loop key) {l : Letter R}
    (hl : l ∈ t.letters) : isLetter l.char = true := by
  rw [loop] at ht
  cases hlookup : (ofParagraph config p).loops.lookup key with
  | none =>
      rw [hlookup] at ht
      exact absurd ht List.not_mem_nil
  | some tokens =>
      rw [hlookup] at ht
      have hmem := (lookup_eq_some_iff_mem (nodup_keys_ofCells config _)).mp hlookup
      exact isLetter_of_mem_loops hmem ht hl

omit [Scalar R] in
theorem Recorder.now_advanceTo {τ : Type} [LinearOrder τ] (r : Recorder τ) (time : τ) :
    (r.advanceTo time).now = max r.now time :=
  (max_def_lt _ _).symm

namespace Session

theorem play_fst (s : Session R) (i : Nat) (source : Source) {tokens : List (Token R)}
    (h : ∀ t ∈ tokens, ∀ l ∈ t.letters, isLetter l.char = true) :
    (s.play i source tokens).1 = .telling i source s.recorder.now tokens := by
  rw [Report.telling, ← stop_perform s.config s.recorder.now s.generator,
    ← letters_perform s.config s.recorder.now s.generator h]
  rfl

theorem playBodies_fst {s : Session R} {bodies : List (Nat × List (Token R))}
    (h : ∀ body ∈ bodies, ∀ t ∈ body.2, ∀ l ∈ t.letters, isLetter l.char = true) :
    (s.playBodies bodies).1 =
      bodies.map fun body => .telling body.1 .oneShot s.recorder.now body.2 := by
  induction bodies generalizing s with
  | nil => rfl
  | cons body bodies ih =>
      obtain ⟨hbody, hbodies⟩ := List.forall_mem_cons.mp h
      rw [playBodies, List.map_cons, ← s.play_fst body.1 .oneShot hbody]
      exact congrArg (_ :: ·) (ih hbodies)

/-- What a loop of a paragraph reports at a time, if it has something to play. -/
def loopReport? (s : Session R) (i : Nat) (key : RegionKey) (time : R) : Option (Report R) :=
  s.document[i]?.bind fun p =>
    match (Score.ofParagraph s.config p).loop key with
    | [] => none
    | tokens => some (.telling i (.loop key) time tokens)

/-- What a firing reports. -/
def reportOf? (s : Session R) (f : Firing R) : Option (Report R) :=
  (s.registry.owner? f.handle).bind fun owner => s.loopReport? owner.paragraph owner.key f.due

omit [Scalar R] in
theorem Continues.refl (s : Session R) : s.Continues s :=
  ⟨rfl, rfl, rfl, rfl⟩

omit [Scalar R] in
theorem Continues.trans {s₁ s₂ s₃ : Session R} (h₁ : s₁.Continues s₂) (h₂ : s₂.Continues s₃) :
    s₁.Continues s₃ where
  config_eq := h₂.config_eq.trans h₁.config_eq
  document_eq := h₂.document_eq.trans h₁.document_eq
  table_eq := h₂.table_eq.trans h₁.table_eq
  owners_eq := h₂.owners_eq.trans h₁.owners_eq

theorem Continues.reportOf?_eq {s s' : Session R} (h : s.Continues s') (f : Firing R) :
    s'.reportOf? f = s.reportOf? f := by
  simp only [reportOf?, loopReport?, Registry.owner?, h.owners_eq, h.document_eq, h.config_eq]

/-- What fires now is reported like any firing. -/
theorem timerFired_fst (s : Session R) (handle : Nat) :
    (s.timerFired handle).1 = s.reportOf? ⟨handle, s.recorder.now⟩ := by
  rw [timerFired, reportOf?]
  cases s.registry.owner? handle with
  | none => rfl
  | some owner =>
      simp only [Option.bind_some, loopReport?]
      cases s.document[owner.paragraph]? with
      | none => rfl
      | some p =>
          simp only [Option.bind_some]
          have hletters : ∀ t ∈ (Score.ofParagraph s.config p).loop owner.key, ∀ l ∈ t.letters,
              isLetter l.char = true := fun t ht l hl => Score.isLetter_of_mem_loop ht hl
          cases hloop : (Score.ofParagraph s.config p).loop owner.key with
          | nil => rfl
          | cons t ts =>
              rw [hloop] at hletters
              exact congrArg some (s.play_fst owner.paragraph (.loop owner.key) hletters)

theorem Coherent.reportOf?_of_mem {s : Session R} (hs : s.Coherent) {i : Nat} {l : LoopTimer R}
    (hl : l ∈ s.table.loops i) : ∃ p, s.document[i]? = some p ∧ ∃ r ∈ p.regions s.config,
      r.key = l.key ∧ p.tokensInside s.config r ≠ [] ∧ ∀ time,
        s.reportOf? ⟨l.handle, time⟩ =
          some (.telling i (.loop l.key) time (p.tokensInside s.config r)) := by
  obtain ⟨howner, p, hp, r, hr, hkey, hne, hloop⟩ := hs.exists_region_of_mem hl
  refine ⟨p, hp, r, hr, hkey, hne, fun time => ?_⟩
  simp only [reportOf?, loopReport?, howner, Option.bind_some, hp, hloop]

theorem deliver_fst {s : Session Rat} {firings : List (Firing Rat)}
    (hsorted : firings.Pairwise fun f g => f.due ≤ g.due)
    (hnow : ∀ f ∈ firings, s.recorder.now ≤ f.due) :
    (s.deliver firings).1 = firings.map fun f => (f, s.reportOf? f) := by
  induction firings generalizing s with
  | nil => rfl
  | cons f firings ih =>
      obtain ⟨hfirst, hsorted⟩ := List.pairwise_cons.mp hsorted
      let moved : Session Rat := { s with recorder := s.recorder.advanceTo f.due }
      have hclock : moved.recorder.now = f.due :=
        (Recorder.now_advanceTo _ _).trans (max_eq_right (hnow f List.mem_cons_self))
      have hmoved : s.Continues moved := ⟨rfl, rfl, rfl, rfl⟩
      have hafter := hmoved.trans (moved.sameLoops_timerFired f.handle).continues
      have hreport : (moved.timerFired f.handle).1 = s.reportOf? f := by
        rw [timerFired_fst, hclock, hmoved.reportOf?_eq]
      have hrest := ih hsorted (s := (moved.timerFired f.handle).2) fun g hg => by
        rw [recorder_now_timerFired, hclock]
        exact hfirst g hg
      simp only [hafter.reportOf?_eq] at hrest
      rw [List.map_cons, ← hreport, ← hrest]
      rfl

theorem reports_deliver {s : Session Rat} {firings : List (Firing Rat)}
    (hsorted : firings.Pairwise fun f g => f.due ≤ g.due)
    (hnow : ∀ f ∈ firings, s.recorder.now ≤ f.due) :
    (s.deliver firings).1.filterMap Prod.snd = firings.filterMap s.reportOf? := by
  rw [deliver_fst hsorted hnow, List.filterMap_map]
  rfl

end Session
end ProseScore
