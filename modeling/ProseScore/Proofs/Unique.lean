import Mathlib.Data.List.Forall2
import Mathlib.Data.List.Nodup

/-!
# Lists by keys

In a list whose keys are pairwise different, looking up a key finds whatever
element has it.  Lists with the same keys are compared place by place.  An element
that is picked out of a list stands behind as many as are picked before it.
-/

namespace ProseScore

theorem forall₂_of_map_eq {α β γ : Type*} {f : α → γ} {f' : β → γ} {r : α → β → Prop}
    {l : List α} {l' : List β} (h : l.map f = l'.map f')
    (hr : ∀ a ∈ l, ∀ b ∈ l', f a = f' b → r a b) : List.Forall₂ r l l' := by
  induction l generalizing l' with
  | nil =>
      obtain rfl : l' = [] := List.map_eq_nil_iff.mp h.symm
      exact List.Forall₂.nil
  | cons a l ih =>
      cases l' with
      | nil => exact absurd h (List.cons_ne_nil _ _)
      | cons b l' =>
          obtain ⟨hab, hrest⟩ := List.cons_eq_cons.mp h
          apply List.Forall₂.cons (hr a List.mem_cons_self b List.mem_cons_self hab)
          exact ih hrest fun a ha b hb =>
            hr a (List.mem_cons_of_mem _ ha) b (List.mem_cons_of_mem _ hb)

theorem getElem?_filter_countP {α : Type*} {f : α → Bool} {l : List α} {i : Nat} {a : α}
    (h : l[i]? = some a) (ha : f a = true) : (l.filter f)[(l.take i).countP f]? = some a := by
  induction l generalizing i with
  | nil => exact absurd h (by simp)
  | cons b l ih =>
      cases i with
      | zero =>
          obtain rfl : b = a := Option.some_inj.mp h
          rw [List.filter_cons_of_pos ha]
          rfl
      | succ i =>
          have hrest := ih h
          by_cases hb : f b = true
          · rw [List.filter_cons_of_pos hb, List.take_succ_cons, List.countP_cons_of_pos hb]
            exact hrest
          · rw [List.filter_cons_of_neg hb, List.take_succ_cons, List.countP_cons_of_neg hb]
            exact hrest

variable {α β : Type*} [DecidableEq β]

theorem find?_key_eq_some_iff {f : α → β} {l : List α} (h : (l.map f).Nodup) {b : β} {a : α} :
    l.find? (fun x => f x = b) = some a ↔ a ∈ l ∧ f a = b := by
  constructor
  · intro hfind
    have hp := List.find?_some hfind
    exact ⟨List.mem_of_find?_eq_some hfind, of_decide_eq_true hp⟩
  · rintro ⟨ha, rfl⟩
    obtain ⟨a', ha'⟩ : ∃ a', l.find? (fun x => f x = f a) = some a' := by
      rw [← Option.isSome_iff_exists, List.find?_isSome]
      exact ⟨a, ha, decide_eq_true rfl⟩
    have hp := of_decide_eq_true (List.find?_some (p := fun x => decide (f x = f a)) ha')
    rw [ha', List.inj_on_of_nodup_map h (List.mem_of_find?_eq_some ha') ha hp]

theorem lookup_eq_some_iff_mem {l : List (β × α)} (h : (l.map Prod.fst).Nodup) {b : β} {a : α} :
    l.lookup b = some a ↔ (b, a) ∈ l := by
  have hfind : l.lookup b = (l.find? fun x => x.1 = b).map Prod.snd := by
    induction l with
    | nil => rfl
    | cons x l ih =>
        obtain ⟨b', a'⟩ := x
        rw [List.map_cons, List.nodup_cons] at h
        rw [List.lookup_cons, List.find?_cons, ih h.2]
        by_cases hb : b = b'
        · simp [hb]
        · have hbeq : (b == b') = false := beq_false_of_ne hb
          have hdec : decide (b' = b) = false := decide_eq_false fun e => hb e.symm
          simp only [hbeq, hdec]
  rw [hfind, Option.map_eq_some_iff]
  constructor
  · rintro ⟨x, hx, rfl⟩
    obtain ⟨hmem, rfl⟩ := (find?_key_eq_some_iff h).mp hx
    exact hmem
  · intro hmem
    exact ⟨(b, a), (find?_key_eq_some_iff h).mpr ⟨hmem, rfl⟩, rfl⟩

end ProseScore
