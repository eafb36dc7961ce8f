import Mathlib.Data.List.Forall2
import ProseScore.Proofs.Markup.Acceptance

/-!
# The first fault of markup

Where markup cannot be read, its beginning still can be: up to some column it leaves
elements open and needs no more than their closing tags.  In that column begins a tag or
an entity that does not go with this beginning, however the line goes on, or the
innermost tag that the line leaves open.
-/

namespace ProseScore

variable {R : Type} [Scalar R]

theorem Derives.append {s t : Text} {items items' : Items R} (h : Derives s items)
    (h' : Derives t items') : ∃ whole : Items R, Derives (s ++ t) whole := by
  induction h with
  | done => exact ⟨_, h'⟩
  | char hlt hamp hs ih =>
      obtain ⟨whole, hwhole⟩ := ih
      exact ⟨_, .char hlt hamp hwhole⟩
  | entity hname hs ih =>
      obtain ⟨whole, hwhole⟩ := ih
      exact ⟨_, by simpa using Derives.entity hname hwhole⟩
  | element hbody hslash htag hclose hname hs ht ih₁ ih₂ =>
      obtain ⟨whole, hwhole⟩ := ih₂
      exact ⟨_, by simpa using Derives.element hbody hslash htag hclose hname hs hwhole⟩

namespace Element

def closing (element : Element) : Text :=
  '<' :: '/' :: (element.name ++ ['>'])

theorem not_mem_name (element : Element) : '>' ∉ element.name := by
  cases element <;> decide

theorem lowercase_trim_name (element : Element) :
    Text.lowercase (Text.trim element.name) = element.name := by
  cases element <;> rfl

end Element

/-! ## Beginnings -/

/-- The beginning of a text leaves these tags open, the innermost first, each with its
column. -/
inductive Opens (R : Type) [Scalar R] : Text → List (Nat × Element) → Prop
  | items {s : Text} {items : Items R} : Derives s items → Opens R s []
  | tag {s body t : Text} {openTags : List (Nat × Element)} {tag : Tag R} {items : Items R}
      (hbody : '>' ∉ body) (hslash : body.head? ≠ some '/') (htag : Tag.ofText body = .ok tag) :
      Opens R s openTags → Derives t items →
        Opens R (s ++ '<' :: (body ++ '>' :: t)) ((s.length + 1, tag.element) :: openTags)

namespace Opens

open Markup Piece

variable {s t name : Text} {openTags : List (Nat × Element)}

theorem append {items : Items R} (h : Opens R s openTags) (ht : Derives t items) :
    Opens R (s ++ t) openTags := by
  cases h with
  | items hs =>
      obtain ⟨whole, hwhole⟩ := hs.append ht
      exact .items hwhole
  | tag hbody hslash htag hs hinner =>
      obtain ⟨whole, hwhole⟩ := hinner.append ht
      simpa using Opens.tag hbody hslash htag hs hwhole

theorem close {column : Nat} {element : Element}
    (h : Opens R s ((column, element) :: openTags)) (hclose : '>' ∉ name)
    (hname : Text.lowercase (Text.trim name) = element.name) :
    Opens R (s ++ '<' :: '/' :: (name ++ ['>'])) openTags := by
  cases h with
  | tag hbody hslash htag hs hinner =>
      simpa using hs.append (.element hbody hslash htag hclose hname hinner .done)

theorem exists_derives (h : Opens R s openTags) :
    ∃ items : Items R, Derives (s ++ openTags.flatMap fun tag => tag.2.closing) items := by
  induction openTags generalizing s with
  | nil =>
      cases h with
      | items hs => exact ⟨_, by simpa using hs⟩
  | cons tag openTags ih =>
      have hclosed := h.close tag.2.not_mem_name tag.2.lowercase_trim_name
      simpa [Element.closing] using ih hclosed

theorem fault?_read (h : Opens R s openTags) (rest : Text) :
    fault? [] (read .text 1 (s ++ rest) : List (Piece R)) =
      fault? openTags (read .text (s.length + 1) rest : List (Piece R)) := by
  induction h generalizing rest with
  | items hs => rw [hs.fault?_read, Nat.add_comm]
  | @tag s body t openTags tag items hbody hslash htag hs ht ih =>
      simp only [List.append_assoc, List.cons_append]
      rw [ih, read_opening hbody hslash htag, fault?, ht.fault?_read]
      congr 2
      simp only [List.length_cons, List.length_append]
      omega

end Opens

/-! ## Faults -/

/-- What stands behind a beginning that leaves these tags open has a fault right at its
start. -/
inductive Offends (R : Type) [Scalar R] : List (Nat × Element) → Text → MarkupFault → Prop
  | unfinishedTag {openTags : List (Nat × Element)} {rest : Text} (h : '>' ∉ rest) :
      Offends R openTags ('<' :: rest) (.unfinished '>')
  | unfinishedEntity {openTags : List (Nat × Element)} {rest : Text} (h : ';' ∉ rest) :
      Offends R openTags ('&' :: rest) (.unfinished ';')
  | entity {openTags : List (Nat × Element)} {name rest : Text} (hname : ';' ∉ name)
      (h : ∀ c, ¬ IsEntity name c) :
      Offends R openTags ('&' :: (name ++ ';' :: rest)) (.unknownEntity name)
  | tag {openTags : List (Nat × Element)} {body rest : Text} {fault : MarkupFault}
      (hbody : '>' ∉ body) (hslash : body.head? ≠ some '/')
      (h : (Tag.ofText body : Except MarkupFault (Tag R)) = .error fault) :
      Offends R openTags ('<' :: (body ++ '>' :: rest)) fault
  | notOpened {close rest : Text} (hclose : '>' ∉ close) :
      Offends R [] ('<' :: '/' :: (close ++ '>' :: rest))
        (.notOpened (Text.lowercase (Text.trim close)))
  | mismatch {close rest : Text} {start : Nat} {element : Element}
      {openTags : List (Nat × Element)} (hclose : '>' ∉ close)
      (h : Text.lowercase (Text.trim close) ≠ element.name) :
      Offends R ((start, element) :: openTags) ('<' :: '/' :: (close ++ '>' :: rest))
        (.mismatch (Text.lowercase (Text.trim close)) element start)
  /-- All that is opened behind the tag is closed again, and the tag itself is not. -/
  | neverClosed {openTags : List (Nat × Element)} {body rest : Text} {tag : Tag R}
      {items : Items R} (hbody : '>' ∉ body) (hslash : body.head? ≠ some '/')
      (htag : Tag.ofText body = .ok tag) (hrest : Derives rest items) :
      Offends R openTags ('<' :: (body ++ '>' :: rest)) (.neverClosed tag.element)

theorem Offends.head?_eq {openTags : List (Nat × Element)} {behind : Text} {fault : MarkupFault}
    (h : Offends R openTags behind fault) :
    behind.head? = some '<' ∨ behind.head? = some '&' := by
  cases h with
  | unfinishedEntity | entity => exact .inr rfl
  | _ => exact .inl rfl

namespace Markup

open Piece

theorem fault?_of_offends {openTags : List (Nat × Element)} {behind : Text} {fault : MarkupFault}
    (h : Offends R openTags behind fault) (column : Nat) :
    fault? openTags (read .text column behind : List (Piece R)) = some (column, fault) := by
  cases h with
  | unfinishedTag hmem => rw [read_unfinished_tag hmem, fault?_broken]
  | unfinishedEntity hmem => rw [read_unfinished_entity hmem, fault?_broken]
  | @entity _ name rest hname hnone =>
      have hentity : entity? name = none :=
        Option.eq_none_iff_forall_ne_some.mpr fun c hc => hnone c (entity?_eq_some_iff.mp hc)
      rw [read_entity hname, ofEntity, hentity, fault?_broken]
  | tag hbody hslash htag =>
      rw [read_tag hbody, ofTag_of_head? hslash, htag, fault?_broken]
  | notOpened hclose => rw [read_closing hclose, fault?]
  | mismatch hclose hname => rw [read_closing hclose, fault?, if_neg (Ne.symm hname)]
  | @neverClosed _ body rest tag items hbody hslash htag hrest =>
      have hread :=
        hrest.fault?_read ((column, tag.element) :: openTags) (column + body.length + 2) []
      rw [List.append_nil] at hread
      rw [read_opening hbody hslash htag, fault?, hread]
      rfl

/-- The text has a fault in this column: it leaves tags open up to there, and what stands
there does not go with them. -/
def FaultyAt (R : Type) [Scalar R] (s : Text) (column : Nat) (fault : MarkupFault) : Prop :=
  ∃ before openTags behind, s = before ++ behind ∧ column = before.length + 1 ∧
    Opens R before openTags ∧ Offends R openTags behind fault

/-- A tag is at fault itself, or it goes with what is open and closes or opens an element. -/
theorem faultyAt_of_tag {before body rest : Text} {openTags : List (Nat × Element)}
    {column : Nat} {fault : MarkupFault} {ps : List (Piece R)} (h : Opens R before openTags)
    (hbody : '>' ∉ body)
    (hfault : fault? openTags (ofTag (before.length + 1) body :: ps) = some (column, fault))
    (hrest : ∀ {openTags}, Opens R (before ++ '<' :: (body ++ ['>'])) openTags →
      fault? openTags ps = some (column, fault) →
        FaultyAt R (before ++ '<' :: (body ++ '>' :: rest)) column fault) :
    FaultyAt R (before ++ '<' :: (body ++ '>' :: rest)) column fault := by
  by_cases hslash : body.head? = some '/'
  · obtain ⟨close, rfl⟩ := List.head?_eq_some_iff.mp hslash
    have hclose : '>' ∉ close := fun hmem => hbody (List.mem_cons_of_mem _ hmem)
    rw [ofTag] at hfault
    cases openTags with
    | nil =>
        rw [fault?] at hfault
        obtain ⟨rfl, rfl⟩ := Prod.mk.inj (Option.some_inj.mp hfault)
        exact ⟨before, _, _, rfl, rfl, h, .notOpened hclose⟩
    | cons tag openTags =>
        rw [fault?] at hfault
        split at hfault
        · exact hrest (h.close hclose (Eq.symm ‹_›)) hfault
        · rename_i hname
          obtain ⟨rfl, rfl⟩ := Prod.mk.inj (Option.some_inj.mp hfault)
          exact ⟨before, _, _, rfl, rfl, h, .mismatch hclose (Ne.symm hname)⟩
  · rw [ofTag_of_head? hslash] at hfault
    cases htag : (Tag.ofText body : Except MarkupFault (Tag R)) with
    | error fault' =>
        rw [htag, fault?_broken] at hfault
        obtain ⟨rfl, rfl⟩ := Prod.mk.inj (Option.some_inj.mp hfault)
        exact ⟨before, _, _, rfl, rfl, h, .tag hbody hslash htag⟩
    | ok tag =>
        rw [htag, fault?] at hfault
        exact hrest (.tag hbody hslash htag h .done) hfault

theorem faultyAt_of_entity {before name rest : Text} {openTags : List (Nat × Element)}
    {column : Nat} {fault : MarkupFault} {ps : List (Piece R)} (h : Opens R before openTags)
    (hname : ';' ∉ name)
    (hfault : fault? openTags (ofEntity (before.length + 1) name :: ps) = some (column, fault))
    (hrest : Opens R (before ++ '&' :: (name ++ [';'])) openTags →
      fault? openTags ps = some (column, fault) →
        FaultyAt R (before ++ '&' :: (name ++ ';' :: rest)) column fault) :
    FaultyAt R (before ++ '&' :: (name ++ ';' :: rest)) column fault := by
  rw [ofEntity] at hfault
  cases hentity : entity? name with
  | none =>
      have hnone : ∀ c, ¬ IsEntity name c := fun c hc =>
        Option.some_ne_none c ((entity?_eq_some_iff.mpr hc).symm.trans hentity)
      rw [hentity, fault?_broken] at hfault
      obtain ⟨rfl, rfl⟩ := Prod.mk.inj (Option.some_inj.mp hfault)
      exact ⟨before, _, _, rfl, rfl, h, .entity hname hnone⟩
  | some c =>
      rw [hentity, fault?] at hfault
      exact hrest (h.append (.entity (entity?_eq_some_iff.mp hentity) .done)) hfault

/-- By induction on how much is left to be read: a piece without a fault makes the beginning
longer, and at the end of the text the innermost open tag is at fault. -/
theorem faultyAt_of_fault? {before rest : Text} {openTags : List (Nat × Element)} {column : Nat}
    {fault : MarkupFault} (h : Opens R before openTags)
    (hfault : fault? openTags (read .text (before.length + 1) rest : List (Piece R)) =
      some (column, fault)) :
    FaultyAt R (before ++ rest) column fault := by
  induction hn : rest.length using Nat.strongRecOn generalizing before rest openTags with
  | _ n ih =>
  subst hn
  have hnext {openTags' : List (Nat × Element)} {piece rest' : Text} {column' : Nat}
      (hrest : rest = piece ++ rest') (hpiece : 0 < piece.length)
      (hcolumn : column' = before.length + piece.length + 1)
      (h' : Opens R (before ++ piece) openTags')
      (hfault' : fault? openTags' (read .text column' rest' : List (Piece R)) =
        some (column, fault)) :
      FaultyAt R (before ++ rest) column fault := by
    subst hrest hcolumn
    rw [← List.append_assoc]
    refine ih _ ?_ h' ?_ rfl
    · rw [List.length_append]
      omega
    · rwa [List.length_append]
  cases begins rest with
  | nil =>
      cases h with
      | items hs => exact absurd hfault.symm (Option.some_ne_none _)
      | @tag s body t openTags tag items hbody hslash htag hs ht =>
          rw [Piece.read, fault?] at hfault
          obtain ⟨rfl, rfl⟩ := Prod.mk.inj (Option.some_inj.mp hfault)
          exact ⟨s, openTags, _, List.append_nil _, rfl, hs, .neverClosed hbody hslash htag ht⟩
  | @char c rest hlt hamp =>
      rw [read_char hlt hamp, fault?] at hfault
      have hopens : Opens R (before ++ [c]) openTags := h.append (.char hlt hamp .done)
      refine hnext ?_ ?_ ?_ hopens hfault
      · rfl
      · exact Nat.one_pos
      · rfl
  | tag hbody =>
      rw [read_tag hbody] at hfault
      apply faultyAt_of_tag h hbody hfault
      exact hnext (by simp) (by simp) (by simp; omega)
  | unfinishedTag hmem =>
      rw [read_unfinished_tag hmem, fault?_broken] at hfault
      obtain ⟨rfl, rfl⟩ := Prod.mk.inj (Option.some_inj.mp hfault)
      exact ⟨before, _, _, rfl, rfl, h, .unfinishedTag hmem⟩
  | entity hname =>
      rw [read_entity hname] at hfault
      apply faultyAt_of_entity h hname hfault
      exact hnext (by simp) (by simp) (by simp; omega)
  | unfinishedEntity hmem =>
      rw [read_unfinished_entity hmem, fault?_broken] at hfault
      obtain ⟨rfl, rfl⟩ := Prod.mk.inj (Option.some_inj.mp hfault)
      exact ⟨before, _, _, rfl, rfl, h, .unfinishedEntity hmem⟩

end Markup

theorem Paragraph.ofMarkup_eq_error_iff {s : Text} {column : Nat} {fault : MarkupFault} :
    (ofMarkup s : Except (Nat × MarkupFault) (Paragraph R)) = .error (column, fault) ↔
      Markup.FaultyAt R s column fault := by
  have hfault : (ofMarkup s : Except (Nat × MarkupFault) (Paragraph R)) = .error (column, fault) ↔
      Markup.fault? [] (Piece.ofText s : List (Piece R)) = some (column, fault) := by
    rw [ofMarkup]
    cases Markup.fault? [] (Piece.ofText s : List (Piece R)) <;> simp
  rw [hfault, Piece.ofText]
  have hempty : Opens R [] [] := .items .done
  constructor
  · exact Markup.faultyAt_of_fault? hempty
  · rintro ⟨before, openTags, behind, rfl, rfl, hopens, hoffends⟩
    rw [hopens.fault?_read, Markup.fault?_of_offends hoffends]

/-! ## Documents -/

namespace Document

theorem ofMarkupFrom_eq_ok_iff {line : Nat} {lines : List Text} {d : Document R} :
    ofMarkupFrom line lines = .ok d ↔
      List.Forall₂ (fun s p => Paragraph.ofMarkup s = .ok p) lines d := by
  induction lines generalizing line d with
  | nil => simp [ofMarkupFrom, eq_comm]
  | cons s lines ih =>
      rw [ofMarkupFrom]
      cases hs : (Paragraph.ofMarkup s : Except (Nat × MarkupFault) (Paragraph R)) with
      | error fault => simp [List.forall₂_cons_left_iff, hs]
      | ok p =>
          simp only [List.forall₂_cons_left_iff, hs, Except.ok.injEq, ← @ih (line + 1)]
          cases (ofMarkupFrom (line + 1) lines : Except MarkupError (Document R)) with
          | error e => simp [Except.map]
          | ok rest => simp [Except.map, eq_comm]

theorem ofMarkupFrom_cons_eq_error_iff {line : Nat} {s : Text} {lines : List Text}
    {e : MarkupError} :
    (ofMarkupFrom line (s :: lines) : Except MarkupError (Document R)) = .error e ↔
      (Paragraph.ofMarkup s : Except (Nat × MarkupFault) (Paragraph R)) =
          .error (e.column, e.fault) ∧ e.line = line ∨
        (∃ p : Paragraph R, Paragraph.ofMarkup s = .ok p) ∧
          (ofMarkupFrom (line + 1) lines : Except MarkupError (Document R)) = .error e := by
  obtain ⟨eline, column, fault⟩ := e
  rw [ofMarkupFrom]
  cases (Paragraph.ofMarkup s : Except (Nat × MarkupFault) (Paragraph R)) with
  | error found => simp [Prod.ext_iff, and_comm, eq_comm]
  | ok p =>
      cases (ofMarkupFrom (line + 1) lines : Except MarkupError (Document R)) <;>
        simp [Except.map]

theorem ofMarkupFrom_eq_error_iff {line : Nat} {lines : List Text} {e : MarkupError} :
    (ofMarkupFrom line lines : Except MarkupError (Document R)) = .error e ↔
      ∃ before s behind, lines = before ++ s :: behind ∧
        (∀ t ∈ before, ∃ p : Paragraph R, Paragraph.ofMarkup t = .ok p) ∧
        (Paragraph.ofMarkup s : Except (Nat × MarkupFault) (Paragraph R)) =
          .error (e.column, e.fault) ∧
        e.line = line + before.length := by
  induction lines generalizing line with
  | nil => simp [ofMarkupFrom]
  | cons s lines ih =>
      rw [ofMarkupFrom_cons_eq_error_iff, ih]
      constructor
      · rintro (⟨hs, hline⟩ | ⟨hs, before, t, behind, rfl, hbefore, ht, hline⟩)
        · exact ⟨[], s, lines, rfl, nofun, hs, hline⟩
        · refine ⟨s :: before, t, behind, rfl, List.forall_mem_cons.mpr ⟨hs, hbefore⟩, ht, ?_⟩
          rw [hline, List.length_cons, Nat.add_assoc, Nat.add_comm 1]
      · rintro ⟨before, t, behind, heq, hbefore, ht, hline⟩
        cases before with
        | nil =>
            obtain rfl := (List.cons.inj heq).1
            exact .inl ⟨ht, hline⟩
        | cons u before =>
            obtain ⟨rfl, rfl⟩ := List.cons.inj heq
            obtain ⟨hs, hbefore⟩ := List.forall_mem_cons.mp hbefore
            refine .inr ⟨hs, before, t, behind, rfl, hbefore, ht, ?_⟩
            rw [hline, List.length_cons, Nat.add_assoc, Nat.add_comm 1]

/-- **Errors point at the first fault.**  A document can be read exactly if each of its lines
can, and consists of their paragraphs; otherwise its error is that of the first line that
cannot be read.  A line has its fault in a column where a tag or an entity begins.  Up to
there it leaves elements open whose closing tags make it readable, and what stands there
does not go with them. -/
theorem errors_point_at_first_fault (source : Text) :
    (∀ d : Document R, ofMarkup source = .ok d ↔
      List.Forall₂ (fun line p => Paragraph.ofMarkup line = .ok p) (Text.lines source) d) ∧
    (∀ e, (ofMarkup source : Except MarkupError (Document R)) = .error e ↔
      ∃ before line behind, Text.lines source = before ++ line :: behind ∧
        (∀ s ∈ before, ∃ p : Paragraph R, Paragraph.ofMarkup s = .ok p) ∧
        (Paragraph.ofMarkup line : Except (Nat × MarkupFault) (Paragraph R)) =
          .error (e.column, e.fault) ∧
        e.line = before.length + 1) ∧
    ∀ line column fault,
      (Paragraph.ofMarkup line : Except (Nat × MarkupFault) (Paragraph R)) =
          .error (column, fault) ↔
        ∃ before openTags behind, line = before ++ behind ∧ column = before.length + 1 ∧
          (behind.head? = some '<' ∨ behind.head? = some '&') ∧
          Opens R before openTags ∧ Offends R openTags behind fault ∧
          ∃ p : Paragraph R, Paragraph.ofMarkup
            (before ++ openTags.flatMap fun tag => tag.2.closing) = .ok p := by
  refine ⟨fun d => ofMarkupFrom_eq_ok_iff, fun e => ?_, fun line column fault => ?_⟩
  · rw [ofMarkup, ofMarkupFrom_eq_error_iff]
    simp only [Nat.add_comm 1]
  · rw [Paragraph.ofMarkup_eq_error_iff]
    constructor
    · rintro ⟨before, openTags, behind, hline, hcolumn, hopens, hoffends⟩
      obtain ⟨items, hitems⟩ := hopens.exists_derives
      exact ⟨before, openTags, behind, hline, hcolumn, hoffends.head?_eq, hopens, hoffends,
        items.paragraph, Paragraph.ofMarkup_of_derives hitems⟩
    · rintro ⟨before, openTags, behind, hline, hcolumn, -, hopens, hoffends, -⟩
      exact ⟨before, openTags, behind, hline, hcolumn, hopens, hoffends⟩

/-- The first line and the entity in it can be read.  In the second one the closing tag does
not match what is open behind `<b>a<i>b`, and the third is not looked at. -/
theorem errors_point_past_readable_line :
    let source : Text := "a&amp;.\n<b>a<i>b</b>c\n<u".toList
    (ofMarkup source : Except MarkupError (Document Rat)) =
        .error ⟨2, 9, .mismatch ['b'] .i 5⟩ ∧
      ∃ openTags, Opens Rat "<b>a<i>b".toList openTags ∧
        ∃ p : Paragraph Rat, Paragraph.ofMarkup
          ("<b>a<i>b".toList ++ openTags.flatMap fun tag => tag.2.closing) = .ok p := by
  intro source
  obtain ⟨-, herror, hline⟩ := errors_point_at_first_fault (R := Rat) source
  obtain ⟨before, openTags, behind, heq, hcolumn, -, hopens, -, hclosed⟩ :=
    (hline "<b>a<i>b</b>c".toList 9 (.mismatch ['b'] .i 5)).mp rfl
  have heq : "<b>a<i>b".toList ++ "</b>c".toList = before ++ behind := heq
  obtain ⟨rfl, -⟩ := List.append_inj heq (Nat.succ.inj hcolumn)
  refine ⟨(herror _).mpr ⟨["a&amp;.".toList], _, ["<u".toList], rfl, ?_, rfl, rfl⟩, openTags,
    hopens, hclosed⟩
  exact List.forall_mem_singleton.mpr ⟨.plain "a&.".toList, rfl⟩

end Document

end ProseScore
