import Mathlib.Data.List.Count
import Mathlib.Data.List.Induction
import Mathlib.Data.List.Nodup
import Mathlib.Tactic.Basic

/-!
# Runs of a step relation

A run carries its history: every step taken, with the state it was taken in.
-/

namespace Sitometron

variable {σ α β : Type}

inductive Trace (step : σ → α → σ → Prop) (start : σ) : List (σ × α) → σ → Prop
  | nil : Trace step start [] start
  | snoc {history : List (σ × α)} {s t : σ} {a : α} : Trace step start history s → step s a t →
      Trace step start (history ++ [(s, a)]) t

namespace Trace

variable {step : σ → α → σ → Prop} {start s t : σ} {history later : List (σ × α)}

theorem trans (run : Trace step start history s) (continued : Trace step s later t) :
    Trace step start (history ++ later) t := by
  induction continued with
  | nil => simpa using run
  | snoc _ taken ih =>
      rw [← List.append_assoc]
      exact ih.snoc taken

theorem single {a : α} (taken : step s a t) : Trace step s [(s, a)] t := Trace.nil.snoc taken

theorem cons {a : α} {u : σ} (taken : step start a s) (continued : Trace step s later u) :
    Trace step start ((start, a) :: later) u := (single taken).trans continued

theorem eq_start (run : Trace step start [] s) : s = start := by
  generalize empty : ([] : List (σ × α)) = none at run
  cases run with
  | nil => rfl
  | snoc => simp at empty

theorem keeps (inv : σ → Prop) (run : Trace step start history s) (holds : inv start)
    (kept : ∀ s a t, inv s → step s a t → inv t) : inv s := by
  induction run with
  | nil => exact holds
  | snoc _ taken ih => exact kept _ _ _ ih taken

theorem marked (seen : σ × α → Prop) (mark : σ → Prop) (run : Trace step start history s)
    (sets : ∀ before s a t, Trace step start before s → step s a t → seen (s, a) → mark t)
    (stays : ∀ before s a t, Trace step start before s → step s a t → mark s → mark t) :
    (∃ x ∈ history, seen x) → mark s := by
  induction run with
  | nil => simp
  | snoc run taken ih =>
      rintro ⟨x, member, found⟩
      rcases List.mem_append.1 member with earlier | last
      · exact stays _ _ _ _ run taken (ih ⟨x, earlier, found⟩)
      · obtain rfl := List.mem_singleton.1 last
        exact sets _ _ _ _ run taken found

theorem count_le_one [DecidableEq β] {observe : σ × α → List β} {x : β} (mark : σ → Prop)
    (run : Trace step start history s)
    (simple : ∀ before s a t, Trace step start before s → step s a t → (observe (s, a)).Nodup)
    (sets : ∀ before s a t, Trace step start before s → step s a t → x ∈ observe (s, a) → ¬mark s ∧ mark t)
    (stays : ∀ before s a t, Trace step start before s → step s a t → mark s → mark t) :
    (history.flatMap observe).count x ≤ 1 := by
  induction run with
  | nil => simp
  | @snoc history s t a run taken ih =>
      rw [List.flatMap_append, List.flatMap_singleton, List.count_append]
      by_cases again : x ∈ observe (s, a)
      · have before : (history.flatMap observe).count x = 0 := by
          apply List.count_eq_zero.2
          intro member
          have seen : ∃ y ∈ history, x ∈ observe y := List.mem_flatMap.1 member
          have marks := run.marked (fun y => x ∈ observe y) mark (fun before s a t run taken found => (sets before s a t run taken found).2) stays
          exact (sets _ _ _ _ run taken again).1 (marks seen)
        have one := List.nodup_iff_count_le_one.1 (simple _ _ _ _ run taken) x
        omega
      · rw [List.count_eq_zero.2 again]
        exact ih

theorem at_step {before : List (σ × α)} {a : α} {u : σ} (run : Trace step start (before ++ (s, a) :: later) u) :
    Trace step start before s ∧ ∃ t, step s a t ∧ Trace step t later u := by
  induction later using List.reverseRecOn generalizing u with
  | nil =>
      generalize whole : before ++ [(s, a)] = history at run
      cases run with
      | nil => simp at whole
      | snoc run taken =>
          obtain ⟨rfl, same⟩ := List.append_inj' whole rfl
          cases same
          exact ⟨run, _, taken, .nil⟩
  | append_singleton later last ih =>
      generalize whole : before ++ (s, a) :: (later ++ [last]) = history at run
      cases run with
      | nil => simp at whole
      | snoc run taken =>
          rw [← List.cons_append, ← List.append_assoc] at whole
          obtain ⟨rfl, same⟩ := List.append_inj' whole rfl
          cases same
          obtain ⟨first, t, one, rest⟩ := ih run
          exact ⟨first, t, one, rest.snoc taken⟩

end Trace

end Sitometron
