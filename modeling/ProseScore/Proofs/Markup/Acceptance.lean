import ProseScore.Markup.Reading
import ProseScore.Proofs.Markup.Grammar
import ProseScore.Scalar.Exact

/-!
# What the reader of markup accepts

The reader takes markup apart into pieces, looks for a first fault among them and
builds a paragraph from them.  A derived text has faultless pieces, which build
the paragraph of its items.  Conversely, pieces without a fault come of a text
that derives: while tags are open, what is still to be read derives item by item
up to the closing tag of each of them.
-/

namespace ProseScore

variable {R : Type} [Scalar R]

namespace Piece

theorem entity?_eq_some_iff {name : Text} {c : Char} :
    entity? name = some c ↔ IsEntity name c := by
  constructor
  · intro h
    obtain ⟨before, behind, heq, -⟩ := List.lookup_eq_some_iff.mp h
    have hmem : (name, c) ∈ [("lt".toList, '<'), ("gt".toList, '>'), ("amp".toList, '&'),
        ("quot".toList, '"')] := heq ▸ by simp
    simp only [List.mem_cons, Prod.mk.injEq, List.not_mem_nil, or_false] at hmem
    obtain ⟨rfl, rfl⟩ | ⟨rfl, rfl⟩ | ⟨rfl, rfl⟩ | ⟨rfl, rfl⟩ := hmem
    · exact .lt
    · exact .gt
    · exact .amp
    · exact .quot
  · rintro (_ | _ | _ | _) <;> rfl

/-! ## Tags and entities -/

/-- At such places the reader collects characters up to the `stop` and makes a piece
of them; if there is none, what began in the column `start` is broken. -/
structure Collects (stop : Char) (start : Nat) (place : Text → Place) (piece : Text → Piece R) :
    Prop where
  read_nil (behind : Text) (column : Nat) :
    read (place behind) column [] = [Piece.broken start (.unfinished stop) (R := R)]
  read_cons (behind : Text) (column : Nat) (c : Char) (rest : Text) :
    read (place behind) column (c :: rest) =
      if c = stop then piece behind.reverse :: read .text (column + 1) rest
      else read (place (c :: behind)) (column + 1) rest

theorem collects_tag (start : Nat) :
    Collects '>' start (.tag start) (ofTag start : Text → Piece R) :=
  ⟨fun _ _ => rfl, fun _ _ _ _ => by rw [read]⟩

theorem collects_entity (start : Nat) :
    Collects ';' start (.entity start) (ofEntity start : Text → Piece R) :=
  ⟨fun _ _ => rfl, fun _ _ _ _ => by rw [read]⟩

section Collects

variable {stop : Char} {start : Nat} {place : Text → Place} {piece : Text → Piece R}

theorem Collects.read_append (h : Collects stop start place piece) {body : Text}
    (hbody : stop ∉ body) (behind : Text) (column : Nat) (rest : Text) :
    read (place behind) column (body ++ stop :: rest) =
      piece (behind.reverse ++ body) :: read .text (column + body.length + 1) rest := by
  induction body generalizing behind column with
  | nil => rw [List.nil_append, h.read_cons, if_pos rfl, List.append_nil, List.length_nil]
  | cons c body ih =>
      obtain ⟨hc, hbody⟩ := not_or.mp (mt List.mem_cons.mpr hbody)
      rw [List.cons_append, h.read_cons, if_neg (Ne.symm hc), ih hbody]
      simp [Nat.add_assoc, Nat.add_comm 1]

theorem Collects.read_of_not_mem (h : Collects stop start place piece) {s : Text}
    (hs : stop ∉ s) (behind : Text) (column : Nat) :
    read (place behind) column s = [Piece.broken start (.unfinished stop) (R := R)] := by
  induction s generalizing behind column with
  | nil => exact h.read_nil behind column
  | cons c s ih =>
      obtain ⟨hc, hs⟩ := not_or.mp (mt List.mem_cons.mpr hs)
      rw [h.read_cons, if_neg (Ne.symm hc), ih hs]

end Collects

theorem ofTag_of_head? {body : Text} (h : body.head? ≠ some '/') (column : Nat) :
    (ofTag column body : Piece R) =
      match Tag.ofText body with
      | .ok tag => .opening column tag
      | .error fault => .broken column fault := by
  rw [ofTag.eq_def]
  split
  · exact absurd rfl h
  · rfl

theorem read_tag {body : Text} (hbody : '>' ∉ body) (column : Nat) (rest : Text) :
    (read .text column ('<' :: (body ++ '>' :: rest)) : List (Piece R)) =
      ofTag column body :: read .text (column + body.length + 2) rest := by
  rw [read, if_pos rfl, (collects_tag column).read_append hbody, List.reverse_nil, List.nil_append,
    Nat.add_right_comm column 1]

theorem read_unfinished_tag {rest : Text} (h : '>' ∉ rest) (column : Nat) :
    (read .text column ('<' :: rest) : List (Piece R)) = [.broken column (.unfinished '>')] := by
  rw [read, if_pos rfl, (collects_tag column).read_of_not_mem h]

theorem read_entity {name : Text} (hname : ';' ∉ name) (column : Nat) (rest : Text) :
    (read .text column ('&' :: (name ++ ';' :: rest)) : List (Piece R)) =
      ofEntity column name :: read .text (column + name.length + 2) rest := by
  rw [read, if_neg (by decide), if_pos rfl, (collects_entity column).read_append hname,
    List.reverse_nil, List.nil_append, Nat.add_right_comm column 1]

theorem read_unfinished_entity {rest : Text} (h : ';' ∉ rest) (column : Nat) :
    (read .text column ('&' :: rest) : List (Piece R)) = [.broken column (.unfinished ';')] := by
  rw [read, if_neg (by decide), if_pos rfl, (collects_entity column).read_of_not_mem h]

theorem read_ampersand {name : Text} {c : Char} (h : IsEntity name c) (column : Nat)
    (rest : Text) :
    (read .text column ('&' :: (name ++ ';' :: rest)) : List (Piece R)) =
      .char c :: read .text (column + name.length + 2) rest := by
  rw [read_entity h.not_mem_name, ofEntity, entity?_eq_some_iff.mpr h]

theorem read_opening {body : Text} (hbody : '>' ∉ body) (hslash : body.head? ≠ some '/')
    {tag : Tag R} (htag : Tag.ofText body = .ok tag) (column : Nat) (rest : Text) :
    (read .text column ('<' :: (body ++ '>' :: rest)) : List (Piece R)) =
      .opening column tag :: read .text (column + body.length + 2) rest := by
  rw [read_tag hbody, ofTag_of_head? hslash, htag]

theorem read_closing {close : Text} (hclose : '>' ∉ close) (column : Nat) (rest : Text) :
    (read .text column ('<' :: '/' :: (close ++ '>' :: rest)) : List (Piece R)) =
      .closing column (Text.lowercase (Text.trim close)) ::
        read .text (column + close.length + 3) rest := by
  have hbody : '>' ∉ '/' :: close := by simpa using hclose
  exact read_tag hbody column rest

/-- How a text begins: with nothing, with a character that stands for itself, or with a tag
or an entity, which may not come to its end. -/
inductive Begins : Text → Prop
  | nil : Begins []
  | char {c : Char} {rest : Text} (hlt : c ≠ '<') (hamp : c ≠ '&') : Begins (c :: rest)
  | tag {body rest : Text} (hbody : '>' ∉ body) : Begins ('<' :: (body ++ '>' :: rest))
  | unfinishedTag {rest : Text} (h : '>' ∉ rest) : Begins ('<' :: rest)
  | entity {name rest : Text} (hname : ';' ∉ name) : Begins ('&' :: (name ++ ';' :: rest))
  | unfinishedEntity {rest : Text} (h : ';' ∉ rest) : Begins ('&' :: rest)

theorem begins (s : Text) : Begins s := by
  cases s with
  | nil => exact .nil
  | cons c rest =>
      by_cases hlt : c = '<'
      · subst hlt
        by_cases hmem : '>' ∈ rest
        · obtain ⟨body, behind, rfl, hbody⟩ := List.eq_append_cons_of_mem hmem
          exact .tag hbody
        · exact .unfinishedTag hmem
      · by_cases hamp : c = '&'
        · subst hamp
          by_cases hmem : ';' ∈ rest
          · obtain ⟨name, behind, rfl, hname⟩ := List.eq_append_cons_of_mem hmem
            exact .entity hname
          · exact .unfinishedEntity hmem
        · exact .char hlt hamp

end Piece

/-! ## Derived text -/

namespace Derives

open Markup Piece

/-- Derived text shows no fault to the tags around it. -/
theorem fault?_read {s : Text} {items : Items R} (h : Derives s items)
    (openTags : List (Nat × Element)) (column : Nat) (rest : Text) :
    fault? openTags (read .text column (s ++ rest) : List (Piece R)) =
      fault? openTags (read .text (column + s.length) rest : List (Piece R)) := by
  induction h generalizing openTags column rest with
  | done => rfl
  | @char c s next hlt hamp hs ih =>
      rw [List.cons_append, read_char hlt hamp, fault?, ih]
      congr 2
      simp only [List.length_cons]
      omega
  | @entity name c s next hname hs ih =>
      rw [List.cons_append, List.append_assoc, List.cons_append, read_ampersand hname, fault?, ih]
      congr 2
      simp only [List.length_cons, List.length_append]
      omega
  | @element body close s t tag inner next hbody hslash htag hclose hname hs ht ih₁ ih₂ =>
      simp only [List.cons_append, List.append_assoc]
      rw [read_opening hbody hslash htag, fault?, ih₁, read_closing hclose, fault?,
        if_pos hname.symm, ih₂]
      congr 2
      simp only [List.length_cons, List.length_append]
      omega

/-- Derived text builds the paragraph of its items in front of what ends them. -/
theorem build_read {s : Text} {items : Items R} (h : Derives s items) (column : Nat) (rest : Text)
    (outer : List (Paragraph R))
    (hrest : build (read .text (column + s.length) rest : List (Piece R)) = (.done, outer)) :
    build (read .text column (s ++ rest) : List (Piece R)) = (items.paragraph, outer) := by
  induction h generalizing column rest outer with
  | done => exact hrest
  | @char c s next hlt hamp hs ih =>
      have hnext := ih (column + 1) rest outer (by
        rw [← hrest, List.length_cons, Nat.add_right_comm]
        rfl)
      rw [List.cons_append, read_char hlt hamp, build, hnext]
      exact congrArg (·, outer) (next.paragraphFrom_cons c []).symm
  | @entity name c s next hname hs ih =>
      have hnext := ih (column + name.length + 2) rest outer (by
        rw [← hrest]
        congr 2
        simp only [List.length_cons, List.length_append]
        omega)
      rw [List.cons_append, List.append_assoc, List.cons_append, read_ampersand hname, build, hnext]
      exact congrArg (·, outer) (next.paragraphFrom_cons c []).symm
  | @element body close s t tag inner next hbody hslash htag hclose hname hs ht ih₁ ih₂ =>
      have hnext := ih₂ (column + body.length + 2 + s.length + close.length + 3) rest outer (by
        rw [← hrest]
        congr 2
        simp only [List.length_cons, List.length_append]
        omega)
      -- The closing tag ends the inner items and hands on what stands behind it.
      have hinner := ih₁ (column + body.length + 2) ('<' :: '/' :: (close ++ '>' :: (t ++ rest)))
        (next.paragraph :: outer) (by rw [read_closing hclose, build, hnext])
      simp only [List.cons_append, List.append_assoc]
      rw [read_opening hbody hslash htag, build, hinner]
      rfl

end Derives

/-! ## Text without a fault -/

/-- A text closes elements that are open, the innermost first: up to the closing
tag of each, and behind the last one, it derives. -/
inductive Closes (R : Type) [Scalar R] : List Element → Text → Prop
  | done {s : Text} {items : Items R} : Derives s items → Closes R [] s
  | close {element : Element} {elements : List Element} {s close t : Text} {items : Items R}
      (hclose : '>' ∉ close) (hname : Text.lowercase (Text.trim close) = element.name) :
      Derives s items → Closes R elements t →
        Closes R (element :: elements) (s ++ '<' :: '/' :: (close ++ '>' :: t))

namespace Closes

/-- What can stand in front of derived text can stand in front of text that
closes elements. -/
theorem prepend {u : Text}
    (hu : ∀ {s : Text} {items : Items R}, Derives s items →
      ∃ items' : Items R, Derives (u ++ s) items')
    {elements : List Element} {s : Text} (h : Closes R elements s) :
    Closes R elements (u ++ s) := by
  cases h with
  | done hs =>
      obtain ⟨items, hitems⟩ := hu hs
      exact .done hitems
  | close hclose hname hs ht =>
      obtain ⟨items, hitems⟩ := hu hs
      rw [← List.append_assoc]
      exact .close hclose hname hitems ht

theorem open_tag {body rest : Text} (hbody : '>' ∉ body) (hslash : body.head? ≠ some '/')
    {tag : Tag R} (htag : Tag.ofText body = .ok tag) {elements : List Element}
    (h : Closes R (tag.element :: elements) rest) :
    Closes R elements ('<' :: (body ++ '>' :: rest)) := by
  cases h with
  | @close _ _ s close t inner hclose hname hs ht =>
      have hwhole := ht.prepend (u := '<' :: (body ++ '>' :: (s ++ '<' :: '/' :: (close ++ ['>']))))
        fun {t} next hnext => ⟨.element body tag inner close next, by
          simpa using Derives.element hbody hslash htag hclose hname hs hnext⟩
      simpa using hwhole

end Closes

namespace Markup

open Piece

omit [Scalar R] in
theorem fault?_broken (openTags : List (Nat × Element)) (column : Nat) (fault : MarkupFault)
    (ps : List (Piece R)) :
    fault? openTags (.broken column fault :: ps) = some (column, fault) := by
  cases openTags <;> rfl

/-- A tag without a fault closes the innermost element or opens a further one. -/
theorem closes_of_fault?_tag {body rest : Text} (hbody : '>' ∉ body)
    {openTags : List (Nat × Element)} {column : Nat} {ps : List (Piece R)}
    (h : fault? openTags (ofTag column body :: ps) = none)
    (hrest : ∀ {openTags}, fault? openTags ps = none → Closes R (openTags.map Prod.snd) rest) :
    Closes R (openTags.map Prod.snd) ('<' :: (body ++ '>' :: rest)) := by
  by_cases hslash : body.head? = some '/'
  · obtain ⟨close, rfl⟩ := List.head?_eq_some_iff.mp hslash
    have hclose : '>' ∉ close := fun hmem => hbody (List.mem_cons_of_mem _ hmem)
    rw [ofTag] at h
    cases openTags with
    | nil => exact absurd h (Option.some_ne_none _)
    | cons tag openTags =>
        rw [fault?] at h
        split at h
        · exact .close hclose (Eq.symm ‹_›) .done (hrest h)
        · exact absurd h (Option.some_ne_none _)
  · rw [ofTag_of_head? hslash] at h
    cases htag : (Tag.ofText body : Except MarkupFault (Tag R)) with
    | error fault =>
        rw [htag, fault?_broken] at h
        exact absurd h (Option.some_ne_none _)
    | ok tag =>
        rw [htag, fault?] at h
        exact (hrest h).open_tag hbody hslash htag

/-- An entity without a fault is one of those that stand for a character. -/
theorem closes_of_fault?_entity {name rest : Text} {openTags : List (Nat × Element)} {column : Nat}
    {ps : List (Piece R)} (h : fault? openTags (ofEntity column name :: ps) = none)
    (hrest : fault? openTags ps = none → Closes R (openTags.map Prod.snd) rest) :
    Closes R (openTags.map Prod.snd) ('&' :: (name ++ ';' :: rest)) := by
  rw [ofEntity] at h
  cases hentity : entity? name with
  | none =>
      rw [hentity, fault?_broken] at h
      exact absurd h (Option.some_ne_none _)
  | some c =>
      rw [hentity, fault?] at h
      have hwhole := (hrest h).prepend (u := '&' :: (name ++ [';'])) fun hs =>
        ⟨_, by simpa using Derives.entity (entity?_eq_some_iff.mp hentity) hs⟩
      simpa using hwhole

/-- By induction on how much is left to be read: the first character decides
which piece comes first, and a piece without a fault opens an element, closes the
innermost one or leaves them as they are. -/
theorem closes_of_fault?_eq_none {s : Text} {openTags : List (Nat × Element)} {column : Nat}
    (h : fault? openTags (read .text column s : List (Piece R)) = none) :
    Closes R (openTags.map Prod.snd) s := by
  induction hn : s.length using Nat.strongRecOn generalizing s openTags column with
  | _ n ih =>
  subst hn
  cases Piece.begins s with
  | nil =>
      cases openTags with
      | nil => exact .done .done
      | cons tag openTags => exact absurd h (Option.some_ne_none _)
  | char hlt hamp =>
      rw [read_char hlt hamp, fault?] at h
      exact (ih _ (Nat.lt_succ_self _) h rfl).prepend (u := [_]) fun hs =>
        ⟨_, .char hlt hamp hs⟩
  | tag hbody =>
      rw [read_tag hbody] at h
      refine closes_of_fault?_tag hbody h fun hrest => ih _ ?_ hrest rfl
      simp only [List.length_cons, List.length_append]
      omega
  | unfinishedTag hmem =>
      rw [read_unfinished_tag hmem, fault?_broken] at h
      exact absurd h (Option.some_ne_none _)
  | entity hname =>
      rw [read_entity hname] at h
      refine closes_of_fault?_entity h fun hrest => ih _ ?_ hrest rfl
      simp only [List.length_cons, List.length_append]
      omega
  | unfinishedEntity hmem =>
      rw [read_unfinished_entity hmem, fault?_broken] at h
      exact absurd h (Option.some_ne_none _)

end Markup

/-! ## The paragraph of a text -/

namespace Paragraph

open Markup

theorem ofMarkup_of_derives {s : Text} {items : Items R} (h : Derives s items) :
    ofMarkup s = .ok items.paragraph := by
  have hfault := h.fault?_read [] 1 []
  have hbuild := h.build_read 1 [] [] rfl
  rw [List.append_nil] at hfault hbuild
  rw [ofMarkup, Piece.ofText]
  simp only [hfault, hbuild]
  rfl

theorem exists_derives_of_ofMarkup {s : Text} {p : Paragraph R} (h : ofMarkup s = .ok p) :
    ∃ items : Items R, Derives s items := by
  have hfault : fault? [] (Piece.ofText s : List (Piece R)) = none := by
    rw [ofMarkup] at h
    split at h
    · cases h
    · assumption
  cases closes_of_fault?_eq_none hfault with
  | done hs => exact ⟨_, hs⟩

/-- **What is read is the grammar.** A text makes a paragraph exactly if it derives,
which it does in one way only.  The paragraph is that of its items: the characters
between two tags are one run, and its text leaves the tags out. -/
theorem ofMarkup_reads_grammar (s : Text) :
    ((∃ p : Paragraph R, ofMarkup s = .ok p) ↔ ∃ items : Items R, Derives s items) ∧
    ∀ items : Items R, Derives s items →
      (∀ items' : Items R, Derives s items' → items' = items) ∧
      ofMarkup s = .ok items.paragraph ∧
      items.paragraph.Compact ∧
      items.paragraph.text = items.text := by
  refine ⟨⟨fun ⟨_, hp⟩ => exists_derives_of_ofMarkup hp, fun ⟨_, h⟩ => ⟨_, ofMarkup_of_derives h⟩⟩,
    fun items h => ⟨fun items' h' => h'.unique h, ofMarkup_of_derives h, ?_, ?_⟩⟩
  · exact items.compact_paragraphFrom []
  · exact items.text_paragraphFrom []

/-- Letter case and blanks do not matter in a closing tag, an element may be empty,
and the bracket of an entity joins the run that it stands in. -/
theorem ofMarkup_reads_nested_elements :
    let s : Text := "a&lt;<B>b<span color=red></ SPAN ></b>>".toList
    let p : Paragraph Rat := .run ['a', '<'] (.span { bold := true }
      (.run ['b'] (.span { color := some .red } .done .done)) (.run ['>'] .done))
    ∃ items : Items Rat, Derives s items ∧ items.paragraph = p ∧ p.Compact ∧
      items.text = "a<b>".toList := by
  intro s p
  have hp : ofMarkup s = .ok p := rfl
  obtain ⟨items, hitems⟩ := (ofMarkup_reads_grammar s).1.mp ⟨p, hp⟩
  obtain ⟨-, hread, hcompact, htext⟩ := (ofMarkup_reads_grammar s).2 items hitems
  have heq : items.paragraph = p := Except.ok.inj (hread.symm.trans hp)
  rw [heq] at hcompact htext
  exact ⟨items, hitems, heq, hcompact, htext.symm⟩

end Paragraph

end ProseScore
