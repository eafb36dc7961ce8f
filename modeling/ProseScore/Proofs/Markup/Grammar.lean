import ProseScore.Markup.Tag

/-!
# The grammar of markup

Markup is a sequence of items: characters, entities, and elements that have such
a sequence between their tags.  A text derives in at most one way, and its items
make a paragraph in which the characters between two tags are one run.
-/

namespace ProseScore

inductive IsEntity : Text → Char → Prop
  | lt : IsEntity "lt".toList '<'
  | gt : IsEntity "gt".toList '>'
  | amp : IsEntity "amp".toList '&'
  | quot : IsEntity "quot".toList '"'

/-- A sequence of items: nothing, or its first item and the items after it.  An
element keeps what stands between the brackets of its tags. -/
inductive Items (R : Type) where
  | done
  | char (c : Char) (next : Items R)
  | entity (name : Text) (c : Char) (next : Items R)
  | element (body : Text) (tag : Tag R) (inner : Items R) (close : Text) (next : Items R)

/-- A text derives as a sequence of items. -/
inductive Derives {R : Type} [Scalar R] : Text → Items R → Prop
  | done : Derives [] .done
  | char {c : Char} {s : Text} {next : Items R} (hlt : c ≠ '<') (hamp : c ≠ '&') :
      Derives s next → Derives (c :: s) (.char c next)
  | entity {name : Text} {c : Char} {s : Text} {next : Items R} (hname : IsEntity name c) :
      Derives s next → Derives ('&' :: (name ++ ';' :: s)) (.entity name c next)
  | element {body close s t : Text} {tag : Tag R} {inner next : Items R} (hbody : '>' ∉ body)
      (hslash : body.head? ≠ some '/') (htag : Tag.ofText body = .ok tag) (hclose : '>' ∉ close)
      (hname : Text.lowercase (Text.trim close) = tag.element.name) :
      Derives s inner → Derives t next →
        Derives ('<' :: (body ++ '>' :: (s ++ '<' :: '/' :: (close ++ '>' :: t))))
          (.element body tag inner close next)

namespace Paragraph

variable {R : Type}

/-- The paragraph with a run in front, unless the run is empty. -/
def behindRun (run : Text) (p : Paragraph R) : Paragraph R :=
  if run = [] then p else .run run p

def beginsWithRun : Paragraph R → Bool
  | run _ _ => true
  | _ => false

/-- No run is empty, and none stands next to another one. -/
def Compact : Paragraph R → Prop
  | done => True
  | run s next => s ≠ [] ∧ next.beginsWithRun = false ∧ next.Compact
  | span _ inner next => inner.Compact ∧ next.Compact

theorem cons_behindRun (c : Char) (run : Text) {p : Paragraph R} (h : p.beginsWithRun = false) :
    (p.behindRun run).cons c = p.behindRun (c :: run) := by
  cases run with
  | nil =>
      cases p with
      | run s next => exact absurd h.symm Bool.false_ne_true
      | done => rfl
      | span style inner next => rfl
  | cons d run => rfl

theorem compact_behindRun {run : Text} {p : Paragraph R} (hp : p.Compact)
    (h : p.beginsWithRun = false) : (p.behindRun run).Compact := by
  unfold behindRun
  split
  · exact hp
  · exact ⟨‹_›, h, hp⟩

theorem text_behindRun (run : Text) (p : Paragraph R) :
    (p.behindRun run).text = run ++ p.text := by
  unfold behindRun
  split
  · simp [*]
  · rfl

end Paragraph

namespace Items

variable {R : Type}

/-- The characters of the items, without tags and with entities decoded. -/
def text : Items R → Text
  | done => []
  | char c next => c :: next.text
  | entity _ c next => c :: next.text
  | element _ _ inner _ next => inner.text ++ next.text

/-- The paragraph of the items behind a run that has not ended yet.  Characters
and entities go on with the run; an element ends it and makes a span. -/
def paragraphFrom : (run : Text) → Items R → Paragraph R
  | run, done => .behindRun run .done
  | run, char c next => next.paragraphFrom (run ++ [c])
  | run, entity _ c next => next.paragraphFrom (run ++ [c])
  | run, element _ tag inner _ next =>
    .behindRun run (.span tag.style (inner.paragraphFrom []) (next.paragraphFrom []))

def paragraph (items : Items R) : Paragraph R :=
  items.paragraphFrom []

theorem paragraphFrom_cons (c : Char) (run : Text) (items : Items R) :
    items.paragraphFrom (c :: run) = (items.paragraphFrom run).cons c := by
  induction items generalizing run with
  | done => exact (Paragraph.cons_behindRun c run rfl).symm
  | char d next ih => exact ih (run ++ [d])
  | entity name d next ih => exact ih (run ++ [d])
  | element body tag inner close next => exact (Paragraph.cons_behindRun c run rfl).symm

theorem compact_paragraphFrom (run : Text) (items : Items R) :
    (items.paragraphFrom run).Compact := by
  induction items generalizing run with
  | done => exact Paragraph.compact_behindRun trivial rfl
  | char c next ih => exact ih (run ++ [c])
  | entity name c next ih => exact ih (run ++ [c])
  | element body tag inner close next ih₁ ih₂ =>
      exact Paragraph.compact_behindRun ⟨ih₁ [], ih₂ []⟩ rfl

theorem text_paragraphFrom (run : Text) (items : Items R) :
    (items.paragraphFrom run).text = run ++ items.text := by
  induction items generalizing run with
  | done => exact Paragraph.text_behindRun run .done
  | char c next ih => rw [paragraphFrom, ih, text, List.append_assoc, List.singleton_append]
  | entity name c next ih => rw [paragraphFrom, ih, text, List.append_assoc, List.singleton_append]
  | element body tag inner close next ih₁ ih₂ =>
      rw [paragraphFrom, Paragraph.text_behindRun, Paragraph.text, ih₁, ih₂]
      rfl

end Items

/-! ## At most one derivation -/

/-- Behind a sequence of items stands nothing or a closing tag. -/
def EndsItems (rest : Text) : Prop :=
  rest = [] ∨ ∃ t, rest = '<' :: '/' :: t

theorem IsEntity.not_mem_name {name : Text} {c : Char} (h : IsEntity name c) : ';' ∉ name := by
  cases h <;> decide

theorem IsEntity.char_eq {name : Text} {c c' : Char} (h : IsEntity name c)
    (h' : IsEntity name c') : c = c' := by
  cases h <;> cases h' <;> rfl

namespace Derives

variable {R : Type} [Scalar R]

/-- Items do not begin with what ends items. -/
theorem eq_done_of_endsItems {s rest : Text} {items : Items R} (h : Derives s items)
    (hends : EndsItems (s ++ rest)) : items = .done := by
  rcases hends with hnil | ⟨t, hslashes⟩
  · obtain ⟨rfl, -⟩ := List.append_eq_nil_iff.mp hnil
    cases h
    rfl
  · cases h with
    | done => rfl
    | char hlt hamp hs => exact absurd (List.cons.inj hslashes).1 hlt
    | entity hname hs => exact absurd (List.cons.inj hslashes).1 (by decide)
    | @element body close s t tag inner next hbody hslash htag hclose hname hs ht =>
        have htail := (List.cons.inj hslashes).2
        cases body with
        | nil => exact absurd (List.cons.inj htail).1 (by decide)
        | cons c body => exact absurd (congrArg some (List.cons.inj htail).1) hslash

/-- A text that goes on with what ends items has one derivation in front of it. -/
theorem append_inj {s s' rest rest' : Text} {items items' : Items R} (h : Derives s items)
    (h' : Derives s' items') (hrest : EndsItems rest) (hrest' : EndsItems rest')
    (heq : s ++ rest = s' ++ rest') : items = items' ∧ rest = rest' := by
  have hends {u v w : Text} (huvw : u ++ v = [] ++ w) (hw : EndsItems w) : EndsItems (u ++ v) :=
    huvw ▸ hw
  induction h generalizing s' rest rest' items' with
  | done =>
      obtain rfl : rest = s' ++ rest' := heq
      obtain rfl := h'.eq_done_of_endsItems hrest
      cases h'
      exact ⟨rfl, rfl⟩
  | @char c s next hlt hamp hs ih =>
      cases h' with
      | done => exact nomatch (Derives.char hlt hamp hs).eq_done_of_endsItems (hends heq hrest')
      | char hlt' hamp' hs' =>
          obtain ⟨rfl, htail⟩ := List.cons.inj heq
          obtain ⟨rfl, rfl⟩ := ih hs' hrest hrest' htail
          exact ⟨rfl, rfl⟩
      | entity hname' hs' => exact absurd (List.cons.inj heq).1 hamp
      | element hbody' hslash' htag' hclose' hname' hs' ht' =>
          exact absurd (List.cons.inj heq).1 hlt
  | @entity name c s next hname hs ih =>
      cases h' with
      | done => exact nomatch (Derives.entity hname hs).eq_done_of_endsItems (hends heq hrest')
      | char hlt' hamp' hs' => exact absurd (List.cons.inj heq).1.symm hamp'
      | entity hname' hs' =>
          simp only [List.cons_append, List.append_assoc, List.cons.injEq, true_and] at heq
          obtain ⟨rfl, htail⟩ :=
            Text.append_cons_inj hname.not_mem_name hname'.not_mem_name heq
          obtain rfl := hname.char_eq hname'
          obtain ⟨rfl, rfl⟩ := ih hs' hrest hrest' htail
          exact ⟨rfl, rfl⟩
      | element hbody' hslash' htag' hclose' hname' hs' ht' =>
          exact absurd (List.cons.inj heq).1 (by decide)
  | @element body close s t tag inner next hbody hslash htag hclose hname hs ht ih₁ ih₂ =>
      cases h' with
      | done =>
          exact nomatch (Derives.element hbody hslash htag hclose hname hs ht).eq_done_of_endsItems
            (hends heq hrest')
      | char hlt' hamp' hs' => exact absurd (List.cons.inj heq).1.symm hlt'
      | entity hname' hs' => exact absurd (List.cons.inj heq).1 (by decide)
      | element hbody' hslash' htag' hclose' hname' hs' ht' =>
          simp only [List.cons_append, List.append_assoc, List.cons.injEq, true_and] at heq
          obtain ⟨rfl, hinner⟩ := Text.append_cons_inj hbody hbody' heq
          obtain rfl := Except.ok.inj (htag.symm.trans htag')
          obtain ⟨rfl, hclosing⟩ := ih₁ hs' (Or.inr ⟨_, rfl⟩) (Or.inr ⟨_, rfl⟩) hinner
          obtain ⟨rfl, hnext⟩ := Text.append_cons_inj hclose hclose'
            (List.cons.inj (List.cons.inj hclosing).2).2
          obtain ⟨rfl, rfl⟩ := ih₂ ht' hrest hrest' hnext
          exact ⟨rfl, rfl⟩

theorem unique {s : Text} {items items' : Items R} (h : Derives s items)
    (h' : Derives s items') : items = items' :=
  (h.append_inj h' (Or.inl rfl) (Or.inl rfl) rfl).1

end Derives

end ProseScore
