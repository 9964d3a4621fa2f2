import Sitometron.Proof.Journal.Spans
import Sitometron.Proof.Journal.Startup

/-!
# Segment names as numbers

`SegmentName` is an order isomorphism onto the names that the two parsers accept. The tools that compare names as texts
therefore choose the segments that a sort by sequence would choose.
-/

namespace Sitometron.Journal

open Core Maintenance Replayer

variable {names archived : List Bytes} {segments kept : List Segment}

theorem segmentFirstSequence_eq (name : Bytes) : segmentFirstSequence name = segmentFirst name := rfl

theorem segmentFirst_segmentName {n : UInt64} (positive : 1 ≤ n) : segmentFirst (segmentName n) = some n := by
  apply segmentFirst_eq_some_iff.2
  constructor
  · rintro rfl
    exact absurd positive (by decide)
  · rfl

theorem segmentFirst_of_looks (listed : segmentsOf names = .ok segments) {name : Bytes} (member : name ∈ names)
    (looks : isSegmentName name = true) : ∃ first, segmentFirst name = some first := by
  induction names generalizing segments with
  | nil => cases member
  | cons other names ih =>
      rw [segmentsOf] at listed
      cases read : segmentFirst other with
      | some first =>
          rw [read] at listed
          cases rest : segmentsOf names with
          | error bad => simp [rest, Except.map] at listed
          | ok others =>
              rcases List.mem_cons.1 member with rfl | inside
              · exact ⟨first, read⟩
              · exact ih rest inside
      | none =>
          rw [read] at listed
          dsimp only at listed
          split at listed
          · cases listed
          next plain =>
          rcases List.mem_cons.1 member with rfl | inside
          · exact absurd looks plain
          · exact ih listed inside

theorem looks_of_segmentFirst {name : Bytes} {n : UInt64} (read : segmentFirst name = some n) : isSegmentName name = true := by
  obtain ⟨-, rfl⟩ := segmentFirst_eq_some_iff.1 read
  rw [isSegmentName, Bool.and_eq_true, List.isPrefixOf_iff_prefix, List.isSuffixOf_iff_suffix, segmentName]
  constructor
  · rw [List.append_assoc]
    exact List.prefix_append _ _
  · exact List.suffix_append _ _

theorem le_iff_first_le {a b : Bytes} {m n : UInt64} (left : segmentFirst a = some m) (right : segmentFirst b = some n) :
    a ≤ b ↔ m ≤ n := by
  obtain ⟨-, rfl⟩ := segmentFirst_eq_some_iff.1 left
  obtain ⟨-, rfl⟩ := segmentFirst_eq_some_iff.1 right
  rw [← List.not_lt, segmentName_lt_iff, UInt64.not_lt]

def greater (highest name : Bytes) : Bytes := if isSegmentName name && highest < name then name else highest

theorem greater_spec (names : List Bytes) (highest : Bytes) :
    highest ≤ names.foldl greater highest ∧
      (∀ name ∈ names, isSegmentName name = true → name ≤ names.foldl greater highest) ∧
      (names.foldl greater highest = highest ∨
        names.foldl greater highest ∈ names ∧ isSegmentName (names.foldl greater highest) = true) := by
  induction names generalizing highest with
  | nil => exact ⟨List.le_refl _, nofun, .inl rfl⟩
  | cons name names ih =>
      obtain ⟨above, bound, found⟩ := ih (greater highest name)
      have rises : highest ≤ greater highest name := by
        rw [greater]
        split
        · next taken =>
          simp only [Bool.and_eq_true, decide_eq_true_eq] at taken
          exact List.le_of_lt taken.2
        · exact List.le_refl _
      rw [List.foldl_cons]
      refine ⟨List.le_trans rises above, ?_, ?_⟩
      · intro other member looks
        rcases List.mem_cons.1 member with rfl | inside
        · apply List.le_trans _ above
          rw [greater]
          split
          · exact List.le_refl _
          · next kept =>
            simp only [looks, Bool.true_and, decide_eq_true_eq] at kept
            exact List.not_lt.1 kept
        · exact bound other inside looks
      · rcases found with same | ⟨inside, looks⟩
        · rw [same, greater]
          split
          · next taken =>
            simp only [Bool.and_eq_true] at taken
            exact .inr ⟨List.mem_cons_self, taken.1⟩
          · exact .inl rfl
        · exact .inr ⟨List.mem_cons_of_mem name inside, looks⟩

theorem highest_eq {greatest : Bytes} (member : greatest ∈ names) (looks : isSegmentName greatest = true)
    (most : ∀ name ∈ names, isSegmentName name = true → name ≤ greatest) : names.foldl greater [] = greatest := by
  obtain ⟨-, bound, found⟩ := greater_spec names []
  have above := bound greatest member looks
  rcases found with empty | ⟨inside, shaped⟩
  · rw [empty] at above
    exact absurd (List.le_antisymm above (List.nil_le _)) (Prune.ne_nil_of_looks looks)
  · exact List.le_antisymm (most _ inside shaped) above

theorem sortSegments_mem (listed : segmentsOf names = .ok segments) {segment : Segment}
    (member : segment ∈ sortSegments segments) :
    segment.name ∈ names ∧ isSegmentName segment.name = true ∧ segmentFirst segment.name = some segment.first := by
  obtain ⟨inside, read⟩ := segmentsOf_of_mem listed member
  exact ⟨inside, looks_of_segmentFirst read, read⟩

theorem sortSegments_ordered (segments : List Segment) :
    (sortSegments segments).Pairwise fun a b => a.first ≤ b.first := List.pairwise_insertionSort _ _

theorem looks_false_of_none (listed : segmentsOf names = .ok segments) (empty : sortSegments segments = []) {name : Bytes}
    (member : name ∈ names) : ¬isSegmentName name = true := by
  intro looks
  obtain ⟨first, read⟩ := segmentFirst_of_looks listed member looks
  have inside := segmentsOf_mem listed member read
  rw [empty] at inside
  cases inside

theorem highestSegment_eq (listed : segmentsOf names = .ok segments) :
    Quarantine.highestSegment names = ((sortSegments segments).getLast?.map (·.name)).getD [] := by
  show names.foldl greater [] = _
  rcases List.eq_nil_or_concat' (sortSegments segments) with empty | ⟨earlier, last, split⟩
  · obtain ⟨-, -, found⟩ := greater_spec names []
    rw [empty]
    rcases found with none | ⟨inside, shaped⟩
    · exact none
    · exact absurd shaped (looks_false_of_none listed empty inside)
  · have final : last ∈ sortSegments segments := by
      rw [split]
      exact List.mem_append_right earlier (List.mem_singleton_self last)
    obtain ⟨member, looks, read⟩ := sortSegments_mem listed final
    rw [split, List.getLast?_append_of_ne_nil _ (List.cons_ne_nil _ _)]
    apply highest_eq member looks
    intro name inside shaped
    obtain ⟨first, found⟩ := segmentFirst_of_looks listed inside shaped
    exact (le_iff_first_le found read).2 (sorted_last split (segmentsOf_mem listed inside found))

theorem lesser_eq (listed : segmentsOf names = .ok segments) :
    names.foldl Prune.lesser [] = ((sortSegments segments).head?.map (·.name)).getD [] := by
  cases sorted : sortSegments segments with
  | nil =>
      obtain ⟨-, -, found⟩ := Prune.lesser_spec names []
      rcases found with none | ⟨inside, shaped⟩
      · exact none
      · exact absurd shaped (looks_false_of_none listed sorted inside)
  | cons least rest =>
      have front : least ∈ sortSegments segments := by
        rw [sorted]
        exact List.mem_cons_self
      obtain ⟨member, looks, read⟩ := sortSegments_mem listed front
      apply Prune.first_eq member looks
      intro name inside shaped
      obtain ⟨first, found⟩ := segmentFirst_of_looks listed inside shaped
      have listedName := segmentsOf_mem listed inside found
      have ordered := sortSegments_ordered segments
      rw [sorted] at listedName ordered
      rcases List.mem_cons.1 listedName with same | later
      · rw [← same]
        exact List.le_refl _
      · exact (le_iff_first_le read found).2 ((List.pairwise_cons.1 ordered).1 _ later)

def precede (limit : Option UInt64) (segments : List Segment) : List Segment :=
  segments.filter fun segment => limit.any (segment.first < ·)

theorem lt_first_iff (listed : segmentsOf names = .ok segments) {name : Bytes} {n : UInt64}
    (read : segmentFirst name = some n) :
    name < ((sortSegments segments).head?.map (·.name)).getD [] ↔
      ((sortSegments segments).head?.map (·.first)).any (n < ·) = true := by
  cases sorted : sortSegments segments with
  | nil => simp
  | cons least rest =>
      have front : least ∈ sortSegments segments := by
        rw [sorted]
        exact List.mem_cons_self
      obtain ⟨-, -, found⟩ := sortSegments_mem listed front
      simp only [List.head?_cons, Option.map_some, Option.getD_some, Option.any_some, decide_eq_true_eq]
      rw [← List.not_le, le_iff_first_le found read, UInt64.not_le]

theorem filter_archived (listed : segmentsOf names = .ok segments) (stored : segmentsOf archived = .ok kept) :
    (precede ((sortSegments segments).head?.map (·.first)) kept).map (·.name) = archived.filter fun name =>
      isSegmentName name && name < ((sortSegments segments).head?.map (·.name)).getD [] := by
  obtain ⟨named, firsts⟩ := segmentsOf_eq_ok stored
  have chosen : precede ((sortSegments segments).head?.map (·.first)) kept = kept.filter
      ((fun name => decide (name < ((sortSegments segments).head?.map (·.name)).getD [])) ∘ (·.name)) := by
    apply List.filter_congr
    intro segment member
    rw [Function.comp_apply, Bool.eq_iff_iff, decide_eq_true_eq]
    exact (lt_first_iff listed (firsts segment member)).symm
  rw [chosen, ← List.filter_map, named, List.filter_filter]
  apply List.filter_congr
  intro name member
  rw [Bool.and_comm]
  congr 1
  cases looks : isSegmentName name with
  | true =>
      obtain ⟨first, read⟩ := segmentFirst_of_looks stored member looks
      rw [read]
      rfl
  | false =>
      cases read : segmentFirst name with
      | none => rfl
      | some first => simp [looks_of_segmentFirst read] at looks

/-- Those of `ReplayInterrupted` put the archived segments in the order of the sort, up to the first segment of the Journal. -/
theorem archivedBefore_sorted (listed : segmentsOf names = .ok segments) (stored : segmentsOf archived = .ok kept) :
    Prune.archivedBefore names archived =
      (precede ((sortSegments segments).head?.map (·.first)) (sortSegments kept)).map (·.name) := by
  have first := lesser_eq listed
  unfold Prune.lesser at first
  rw [Prune.archivedBefore, first]
  apply List.Perm.eq_of_pairwise
  · intro a b _ _ below above
    exact List.le_antisymm below above
  · exact List.pairwise_insertionSort _ _
  · rw [List.pairwise_map]
    apply List.Pairwise.imp_of_mem _ ((sortSegments_ordered kept).filter _)
    intro a b left right below
    obtain ⟨-, -, readLeft⟩ := sortSegments_mem stored (List.mem_filter.1 left).1
    obtain ⟨-, -, readRight⟩ := sortSegments_mem stored (List.mem_filter.1 right).1
    exact (le_iff_first_le readLeft readRight).2 below
  · apply (List.perm_insertionSort _ _).trans
    rw [← filter_archived listed stored]
    exact (((List.perm_insertionSort _ _).symm.filter _)).map _

/-- Names and sequences in both directions, and what the tools make of them. -/
theorem segmentName_order_isomorphism :
    (∀ n : UInt64, 1 ≤ n → segmentFirstSequence (segmentName n) = some n ∧ segmentFirst (segmentName n) = some n) ∧
    (∀ name : Bytes, segmentFirstSequence name = segmentFirst name) ∧
    (∀ (name : Bytes) (n : UInt64), segmentFirst name = some n → 1 ≤ n ∧ name = segmentName n) ∧
    (∀ n k : UInt64, 1 ≤ n → 1 ≤ k → (segmentName n < segmentName k ↔ n < k)) ∧
    ∀ (names : List Bytes) (segments : List Segment), segmentsOf names = .ok segments →
      Quarantine.highestSegment names = ((sortSegments segments).getLast?.map (·.name)).getD [] ∧
      names.foldl Prune.lesser [] = ((sortSegments segments).head?.map (·.name)).getD [] ∧
      ∀ (archived : List Bytes) (kept : List Segment), segmentsOf archived = .ok kept →
        Prune.archivedBefore names archived =
          (precede ((sortSegments segments).head?.map (·.first)) (sortSegments kept)).map (·.name) := by
  refine ⟨?_, segmentFirstSequence_eq, ?_, ?_, ?_⟩
  · intro n positive
    rw [segmentFirstSequence_eq]
    exact ⟨segmentFirst_segmentName positive, segmentFirst_segmentName positive⟩
  · intro name n read
    obtain ⟨nonzero, named⟩ := segmentFirst_eq_some_iff.1 read
    refine ⟨?_, named⟩
    rw [UInt64.le_iff_toNat_le]
    exact Nat.one_le_iff_ne_zero.2 fun zero => nonzero (UInt64.toNat_inj.1 zero)
  · intro n k _ _
    exact segmentName_lt_iff
  · intro names segments listed
    exact ⟨highestSegment_eq listed, lesser_eq listed, fun archived kept stored => archivedBefore_sorted listed stored⟩

/-- Two segments, and the lock beside them. -/
theorem segmentName_order_isomorphism_two :
    segmentFirst (segmentName 10) = some 10 ∧ segmentName 9 < segmentName 10 ∧
      Quarantine.highestSegment [segmentName 10, lockName, segmentName 9] = segmentName 10 := by
  obtain ⟨parsed, -, -, ordered, chosen⟩ := segmentName_order_isomorphism
  have listed : segmentsOf [segmentName 10, lockName, segmentName 9] = .ok [⟨10, segmentName 10⟩, ⟨9, segmentName 9⟩] := by
    decide +kernel
  refine ⟨(parsed 10 (by decide)).2, (ordered 9 10 (by decide) (by decide)).2 (by decide), ?_⟩
  rw [(chosen _ _ listed).1]
  decide +kernel

end Sitometron.Journal
