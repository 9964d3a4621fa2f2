import Mathlib.Data.UInt
import Mathlib.Order.Bounds.Basic
import Sitometron.Lib.Difference
import Sitometron.Proof.Journal.Suffix

/-!
# The prunable prefix

At the largest capacity no Job is retired, so every record has its Job in the ledger, and the span of a Job covers all its
records. The length the tool computes is the greatest one that cuts no Job in two and leaves no open Job behind.
-/

namespace Sitometron.Journal

open Core

def segmentOf (entry : Nat × List LogicalJobEvent) : ReplayedSegment :=
  ⟨nameOfSegment entry, UInt64.ofNat entry.1, UInt64.ofNat entry.2.length⟩

section Folds

variable {lib : Libraries} {maxJobs : Nat} {f g : Ledger} {e : LogicalJobEvent} {events : List LogicalJobEvent} {layout : Layout}
  {base : List ReplayedSegment} {s : ReplayedSegment}

theorem step_segments (opened : f.segments = base ++ [s]) (stepped : f.step lib maxJobs e = some g) :
    g.segments = base ++ [{ s with records := s.records + 1 }] := by
  have moved : g.segments = f.segments.modify (f.segments.length - 1) fun segment => { segment with records := segment.records + 1 } := by
    obtain ⟨-, ⟨r, t, -, -, rfl⟩ | ⟨t, residents, -, -, -, rfl⟩⟩ := Ledger.step_eq_some.1 stepped <;> rfl
  rw [moved, opened, List.length_append, List.length_singleton, Nat.add_sub_cancel]
  exact modify_append (i := 0)

theorem foldEvents_segments (opened : f.segments = base ++ [s]) (folded : Ledger.foldEvents lib maxJobs f events = some g) :
    g.segments = base ++ [{ s with records := s.records + UInt64.ofNat events.length }] := by
  induction events generalizing f s with
  | nil =>
      cases folded
      simpa using opened
  | cons e events ih =>
      rw [Ledger.foldEvents_cons] at folded
      obtain ⟨middle, stepped, rest⟩ := Option.bind_eq_some_iff.1 folded
      rw [ih (step_segments opened stepped) rest, List.length_cons]
      simp [UInt64.add_assoc, UInt64.add_comm]

theorem foldLayout_segments (folded : Ledger.foldLayout lib maxJobs f layout = some g) :
    g.segments = f.segments ++ layout.map segmentOf := by
  induction layout generalizing f with
  | nil =>
      cases folded
      simp
  | cons entry layout ih =>
      obtain ⟨-, -, middle, inner, rest⟩ := Ledger.foldLayout_cons.1 folded
      have opened := foldEvents_segments (f := f.openSegment (toSegment entry)) rfl inner
      rw [ih rest, opened, List.append_assoc]
      simp [segmentOf, toSegment]

theorem foldEvents_records (folded : Ledger.foldEvents lib maxJobs f events = some g) :
    g.records = f.records + UInt64.ofNat events.length := by
  induction events generalizing f with
  | nil =>
      cases folded
      simp
  | cons e events ih =>
      rw [Ledger.foldEvents_cons] at folded
      obtain ⟨middle, stepped, rest⟩ := Option.bind_eq_some_iff.1 folded
      have counted : middle.records = f.records + 1 := by
        obtain ⟨-, ⟨r, t, -, -, rfl⟩ | ⟨t, residents, -, -, -, rfl⟩⟩ := Ledger.step_eq_some.1 stepped <;> rfl
      rw [ih rest, counted, List.length_cons]
      simp [UInt64.add_assoc, UInt64.add_comm]

theorem foldLayout_records (folded : Ledger.foldLayout lib maxJobs f layout = some g) :
    g.records = f.records + ((layout.map segmentOf).map (·.records)).sum := by
  induction layout generalizing f with
  | nil =>
      cases folded
      simp
  | cons entry layout ih =>
      obtain ⟨-, -, middle, inner, rest⟩ := Ledger.foldLayout_cons.1 folded
      have here : middle.records = f.records + UInt64.ofNat entry.2.length :=
        foldEvents_records (f := f.openSegment (toSegment entry)) inner
      rw [ih rest, here, List.map_cons, List.map_cons, List.sum_cons, UInt64.add_assoc]
      rfl

theorem foldLayout_append {rest : Layout} (more : rest ≠ []) (folded : Ledger.foldLayout lib maxJobs f (layout ++ rest) = some g) :
    ∃ middle, Ledger.foldLayout lib maxJobs f layout = some middle ∧ Ledger.foldLayout lib maxJobs middle rest = some g ∧
      ∀ entry ∈ layout, entry.2 ≠ [] := by
  induction layout generalizing f with
  | nil => exact ⟨f, rfl, folded, by simp⟩
  | cons entry layout ih =>
      obtain ⟨named, checked, next, inner, folded⟩ := Ledger.foldLayout_cons.1 folded
      obtain ⟨middle, first, second, full⟩ := ih folded
      have nonempty : entry.2 ≠ [] := fun empty => checked ⟨empty, .inl (by simp [more])⟩
      exact ⟨middle, Ledger.foldLayout_cons.2 ⟨named, fun both => nonempty both.1, next, inner, first⟩, second,
        List.forall_mem_cons.2 ⟨nonempty, full⟩⟩

end Folds

theorem getElem?_concat {α : Type} {xs : List α} {x y : α} {j : Nat} :
    (xs ++ [x])[j]? = some y ↔ xs[j]? = some y ∨ j = xs.length ∧ x = y := by
  rcases Nat.lt_trichotomy j xs.length with before | rfl | beyond
  · rw [List.getElem?_append_left before]
    simp [Nat.ne_of_lt before]
  · simp
  · have outside : xs[j]? = none := List.getElem?_eq_none (Nat.le_of_lt beyond)
    rw [List.getElem?_append_right (Nat.le_of_lt beyond), outside]
    simp only [reduceCtorEq, Nat.ne_of_gt beyond, false_and, or_false, iff_false]
    rw [List.getElem?_eq_none (by simp; omega)]
    exact nofun

section Spans

variable {lib : Libraries} {maxJobs : Nat} {f g : Ledger} {e : LogicalJobEvent}

theorem step_spans (room : f.residents.length < maxJobs)
    (bounded : ∀ r ∈ f.residents, r.span.firstSegment ≤ r.span.lastSegment ∧ r.span.lastSegment ≤ f.current)
    (stepped : f.step lib maxJobs e = some g) :
    (∀ r ∈ f.residents, ∃ r' ∈ g.residents, r'.id = r.id ∧ r'.span.firstSegment = r.span.firstSegment ∧
        r.span.lastSegment ≤ r'.span.lastSegment) ∧
      (∃ r ∈ g.residents, r.id = e.jobId.value ∧ r.span.firstSegment ≤ f.current ∧ r.span.lastSegment = f.current) ∧
      ∀ r ∈ g.residents, r ∈ f.residents ∨
        r.id = e.jobId.value ∧ r.span.firstSegment ≤ f.current ∧ r.span.lastSegment = f.current := by
  obtain ⟨-, known | created⟩ := Ledger.step_eq_some.1 stepped
  · obtain ⟨r, s, found, replayed, rfl⟩ := known
    have named : s.jobId.value = e.jobId.value := congrArg Uuid.value (replayRecord_jobId replayed)
    have member := List.mem_of_find?_eq_some found
    have same := Ledger.id_of_find? found
    have ordered := bounded r member
    refine ⟨fun old inside => ?_, ?_, fun new inside => ?_⟩
    · refine ⟨_, List.mem_map_of_mem inside, Ledger.revise_id named f.current old, ?_⟩
      split
      · exact ⟨rfl, (bounded old inside).2⟩
      · exact ⟨rfl, Nat.le_refl _⟩
    · refine ⟨_, List.mem_map_of_mem member, ?_⟩
      rw [if_pos same]
      exact ⟨named, ordered.1.trans ordered.2, rfl⟩
    · obtain ⟨old, before, rfl⟩ := List.mem_map.1 inside
      by_cases mine : old.id = e.jobId.value
      · rw [if_pos mine]
        exact .inr ⟨named, (bounded old before).1.trans (bounded old before).2, rfl⟩
      · rw [if_neg mine]
        exact .inl before
  · obtain ⟨s, residents, found, replayed, placed, rfl⟩ := created
    have named : s.jobId.value = e.jobId.value := congrArg Uuid.value (replayRecord_jobId replayed)
    obtain ⟨-, rfl⟩ | ⟨full, -⟩ := place_eq_some.1 placed
    · refine ⟨fun old inside => ?_, ?_, fun new inside => ?_⟩
      · exact ⟨old, List.mem_append_left _ inside, rfl, rfl, Nat.le_refl _⟩
      · exact ⟨_, List.mem_append_right _ (List.mem_singleton_self _), named, Nat.le_refl _, rfl⟩
      · rcases List.mem_append.1 inside with before | last
        · exact .inl before
        · rw [List.mem_singleton.1 last]
          exact .inr ⟨named, Nat.le_refl _, rfl⟩
    · exact absurd room (Nat.not_lt.2 full)

end Spans

/-- Each record lies in the span of its Job, and a span ends in a segment with a record of its Job. -/
structure Tracks (done : Layout) (f : Ledger) : Prop where
  opened : f.segments.length = done.length
  covered : ∀ j entry, done[j]? = some entry → ∀ e ∈ entry.2, ∃ r ∈ f.residents,
    r.id = e.jobId.value ∧ r.span.firstSegment ≤ j ∧ j ≤ r.span.lastSegment
  within : ∀ r ∈ f.residents, r.span.firstSegment ≤ r.span.lastSegment ∧
    ∃ entry, done[r.span.lastSegment]? = some entry ∧ ∃ e ∈ entry.2, e.jobId.value = r.id

namespace Tracks

variable {lib : Libraries} {maxJobs start n : Nat} {f g : Ledger} {e : LogicalJobEvent} {events es : List LogicalJobEvent}
  {done layout : Layout}

theorem openSegment (tracks : Tracks done f) (segment : Segment) : Tracks (done ++ [(n, [])]) (f.openSegment segment) := by
  constructor
  · rw [Ledger.openSegment, List.length_append, List.length_append, tracks.opened]
    rfl
  · intro j entry at_ e member
    rcases getElem?_concat.1 at_ with before | ⟨-, rfl⟩
    · exact tracks.covered j entry before e member
    · cases member
  · intro r member
    obtain ⟨ordered, entry, at_, ends⟩ := tracks.within r member
    exact ⟨ordered, entry, getElem?_concat.2 (.inl at_), ends⟩

theorem current (tracks : Tracks (done ++ [(n, es)]) f) : f.current = done.length := by
  rw [Ledger.current, tracks.opened, List.length_append]
  rfl

theorem step (tracks : Tracks (done ++ [(n, es)]) f) (room : f.residents.length < maxJobs)
    (stepped : f.step lib maxJobs e = some g) : Tracks (done ++ [(n, es ++ [e])]) g := by
  have bounded : ∀ r ∈ f.residents, r.span.firstSegment ≤ r.span.lastSegment ∧ r.span.lastSegment ≤ f.current := by
    intro r member
    obtain ⟨ordered, entry, at_, -⟩ := tracks.within r member
    have inside := (List.getElem?_eq_some_iff.1 at_).1
    rw [List.length_append, List.length_singleton] at inside
    rw [tracks.current]
    exact ⟨ordered, Nat.le_of_lt_succ inside⟩
  obtain ⟨kept, mine, only⟩ := step_spans room bounded stepped
  -- the Job of an earlier record keeps that record in its span
  have still {j : Nat} {key : Bytes} : (∃ r ∈ f.residents, r.id = key ∧ r.span.firstSegment ≤ j ∧ j ≤ r.span.lastSegment) →
      ∃ r ∈ g.residents, r.id = key ∧ r.span.firstSegment ≤ j ∧ j ≤ r.span.lastSegment := by
    rintro ⟨r, member, rfl, first, last⟩
    obtain ⟨r', member', same, begins, ends⟩ := kept r member
    exact ⟨r', member', same, begins.trans_le first, last.trans ends⟩
  constructor
  · rw [step_segments_length stepped, tracks.opened, List.length_append, List.length_append]
    rfl
  · intro j entry at_ e' member
    rcases getElem?_concat.1 at_ with before | ⟨rfl, rfl⟩
    · exact still (tracks.covered j entry (getElem?_concat.2 (.inl before)) e' member)
    · rcases List.mem_append.1 member with old | last
      · exact still (tracks.covered _ _ (getElem?_concat.2 (.inr ⟨rfl, rfl⟩)) e' old)
      · obtain ⟨r, inside, same, begins, ends⟩ := mine
        rw [tracks.current] at begins ends
        rw [List.mem_singleton.1 last]
        exact ⟨r, inside, same, begins, ends.ge⟩
  · intro r member
    rcases only r member with old | ⟨same, begins, ends⟩
    · obtain ⟨ordered, entry, at_, e', recorded, owner⟩ := tracks.within r old
      rcases getElem?_concat.1 at_ with before | ⟨here, rfl⟩
      · exact ⟨ordered, entry, getElem?_concat.2 (.inl before), e', recorded, owner⟩
      · exact ⟨ordered, _, getElem?_concat.2 (.inr ⟨here, rfl⟩), e', List.mem_append_left _ recorded, owner⟩
    · refine ⟨begins.trans ends.ge, (n, es ++ [e]), getElem?_concat.2 (.inr ⟨?_, rfl⟩), e,
        List.mem_append_right _ (List.mem_singleton_self e), same.symm⟩
      rw [ends, tracks.current]

theorem foldEvents (tracks : Tracks (done ++ [(n, es)]) f) (counted : Counted start f) (positive : 1 ≤ start)
    (large : uint64Max ≤ maxJobs) (more : Ledger.Continues events) (folded : Ledger.foldEvents lib maxJobs f events = some g) :
    Tracks (done ++ [(n, es ++ events)]) g := by
  induction events generalizing f es with
  | nil =>
      cases folded
      simpa using tracks
  | cons e events ih =>
      rw [Ledger.foldEvents_cons] at folded
      obtain ⟨middle, stepped, rest⟩ := Option.bind_eq_some_iff.1 folded
      have next := tracks.step (counted.room positive large) stepped
      have counts := (counted.step (more e List.mem_cons_self) stepped).1
      have whole := ih next counts (fun e member => more e (List.mem_cons_of_mem _ member)) rest
      rwa [List.append_assoc] at whole

theorem starting (start : Nat) : Tracks [] (.starting start) := by
  constructor
  · rfl
  · intro j entry at_
    simp at at_
  · intro r member
    cases member

end Tracks

section Runs

variable {lib : Libraries} {maxJobs start : Nat} {f g : Ledger} {done layout : Layout}

theorem mem_events {entry : Nat × List LogicalJobEvent} {e : LogicalJobEvent} (inside : entry ∈ layout) (member : e ∈ entry.2) :
    e ∈ layout.events :=
  List.mem_flatMap.2 ⟨entry, inside, member⟩

theorem Ledger.Sound.foldLayout (sound : f.Sound) (more : Ledger.Continues layout.events)
    (folded : Ledger.foldLayout lib maxJobs f layout = some g) : g.Sound := by
  apply Ledger.foldLayout_keeps (motive := fun _ f => f.Sound) [] sound _ folded
  intro _ entry f g inside sound inner
  exact (sound.openSegment _).foldEvents (fun e member => more e (mem_events inside member)) inner

theorem Counted.foldLayout (counted : Counted start f) (more : Ledger.Continues layout.events)
    (folded : Ledger.foldLayout lib maxJobs f layout = some g) : Counted start g := by
  apply Ledger.foldLayout_keeps (motive := fun _ f => Counted start f) [] counted _ folded
  intro _ entry f g inside counted inner
  have opened : Counted start (f.openSegment (toSegment entry)) := ⟨counted.sequences, counted.jobs, counted.born⟩
  exact (opened.foldEvents (fun e member => more e (mem_events inside member)) inner).1

theorem Tracks.foldLayout (tracks : Tracks done f) (counted : Counted start f) (positive : 1 ≤ start) (large : uint64Max ≤ maxJobs)
    (more : Ledger.Continues layout.events) (folded : Ledger.foldLayout lib maxJobs f layout = some g) :
    Tracks (done ++ layout) g := by
  have both : Tracks (done ++ layout) g ∧ Counted start g := by
    apply Ledger.foldLayout_keeps (motive := fun done f => Tracks done f ∧ Counted start f) done ⟨tracks, counted⟩ _ folded
    rintro done ⟨n, events⟩ f g inside ⟨tracks, counted⟩ inner
    have opened : Counted start (f.openSegment (toSegment (n, events))) := ⟨counted.sequences, counted.jobs, counted.born⟩
    have continues : Ledger.Continues events := fun e member => more e (mem_events inside member)
    have tracked := (tracks.openSegment (n := n) (toSegment (n, events))).foldEvents opened positive large continues inner
    exact ⟨tracked, (opened.foldEvents continues inner).1⟩
  exact both.1

end Runs

namespace Prune

variable {highest n k : Nat} {blocked : List Int} {job : Snapshot × JobSegmentSpan} {jobs : List (Snapshot × JobSegmentSpan)}

def Blocks (job : Snapshot × JobSegmentSpan) (k : Nat) : Prop :=
  job.2.firstSegment < k ∧ (isClosed job.1 = true → k ≤ job.2.lastSegment)

instance : Decidable (Blocks job k) := inferInstanceAs (Decidable (_ ∧ _))

theorem length_block (highest : Nat) (blocked : List Int) (job : Snapshot × JobSegmentSpan) :
    (block highest blocked job).length = blocked.length := by
  unfold block
  generalize (if !isClosed job.1 then highest + 1 else job.2.lastSegment + 1) = stop
  dsimp only
  split
  · rw [List.length_modify, List.length_modify]
  · rfl

theorem total_block (length : blocked.length = highest + 2) (inside : job.2.lastSegment ≤ highest) (within : k ≤ highest) :
    total (block highest blocked job) (k + 1) = total blocked (k + 1) + if Blocks job k then 1 else 0 := by
  unfold block
  generalize stopped : (if !isClosed job.1 then highest + 1 else job.2.lastSegment + 1) = stop
  have counts : job.2.firstSegment + 1 ≤ k ∧ k < stop ↔ Blocks job k := by
    unfold Blocks
    rw [← stopped]
    cases closed : isClosed job.1 <;> simp [within]
  have bounded : stop < blocked.length := by
    rw [← stopped, length]
    split <;> omega
  dsimp only
  by_cases ordered : job.2.firstSegment + 1 < stop
  · rw [if_pos ordered, total_interval ordered bounded]
    simp only [counts]
  · have free : ¬Blocks job k := by
      rw [← counts]
      omega
    rw [if_neg ordered, if_neg free, add_zero]

theorem total_blocked (length : blocked.length = highest + 2) (inside : ∀ job ∈ jobs, job.2.lastSegment ≤ highest)
    (within : k ≤ highest) :
    total (jobs.foldl (block highest) blocked) (k + 1) = total blocked (k + 1) + (jobs.countP (Blocks · k) : Int) := by
  induction jobs generalizing blocked with
  | nil => simp
  | cons job jobs ih =>
      have rest := ih ((length_block highest blocked job).trans length) fun other member => inside other (List.mem_cons_of_mem _ member)
      rw [List.foldl_cons, rest, total_block length (inside job List.mem_cons_self) within, List.countP_cons]
      by_cases blocks : Blocks job k <;> simp [blocks, add_comm, add_left_comm, add_assoc]

theorem lengthen_isGreatest (free : total blocked 1 = 0) (n : Nat) :
    IsGreatest {k | k ≤ n ∧ total blocked (k + 1) = 0} ((List.range (n + 1)).foldl (lengthen blocked) (0, 0)).1 ∧
      ((List.range (n + 1)).foldl (lengthen blocked) (0, 0)).2 = total blocked (n + 1) := by
  induction n with
  | zero =>
      have first := total_succ blocked 0
      rw [total_zero] at first
      have read : (List.range (0 + 1)).foldl (lengthen blocked) (0, 0) = (0, total blocked 1) := by
        simp [lengthen, first]
      rw [read]
      refine ⟨⟨⟨Nat.le_refl _, free⟩, ?_⟩, rfl⟩
      intro k member
      exact member.1
  | succ n ih =>
      obtain ⟨greatest, running⟩ := ih
      rw [List.range_succ, List.foldl_append]
      generalize (List.range (n + 1)).foldl (lengthen blocked) (0, 0) = found at greatest running ⊢
      simp only [List.foldl_cons, List.foldl_nil, lengthen]
      rw [running, ← total_succ]
      refine ⟨?_, rfl⟩
      by_cases zero : total blocked (n + 1 + 1) = 0
      · rw [if_pos zero]
        constructor
        · exact ⟨Nat.le_refl _, zero⟩
        · intro k member
          exact member.1
      · rw [if_neg zero]
        constructor
        · exact ⟨Nat.le_succ_of_le greatest.1.1, greatest.1.2⟩
        · intro k member
          apply greatest.2
          have other : k ≠ n + 1 := by
            rintro rfl
            exact zero member.2
          have below := member.1
          exact ⟨by omega, member.2⟩

theorem isGreatest_of_within {replayed : ReplayResult} {back : Nat}
    (found : replayed.segments.reverse.findIdx? (·.records ≠ 0) = some back)
    (inside : ∀ job ∈ replayed.jobs.zip replayed.spans, job.2.lastSegment ≤ replayed.segments.length - back - 1) :
    IsGreatest {k | k ≤ replayed.segments.length - back - 1 ∧ ∀ job ∈ replayed.jobs.zip replayed.spans, ¬Blocks job k}
      (prunableLength replayed) := by
  rw [prunableLength, found]
  dsimp only
  generalize replayed.segments.length - back - 1 = highest at inside ⊢
  generalize replayed.jobs.zip replayed.spans = jobs at inside ⊢
  have counts {k : Nat} (within : k ≤ highest) := total_blocked (@List.length_replicate Int (highest + 2) 0) inside within
  have free : total (jobs.foldl (block highest) (List.replicate (highest + 2) 0)) (0 + 1) = 0 := by
    rw [counts (Nat.zero_le _), total_replicate, List.countP_eq_zero.2]
    · rfl
    · intro job _
      simp [Blocks]
  have same : {k | k ≤ highest ∧ ∀ job ∈ jobs, ¬Blocks job k} =
      {k | k ≤ highest ∧ total (jobs.foldl (block highest) (List.replicate (highest + 2) 0)) (k + 1) = 0} := by
    ext k
    rw [Set.mem_ofPred_eq, Set.mem_ofPred_eq]
    apply and_congr_right
    intro within
    rw [counts within, total_replicate, zero_add, Int.natCast_eq_zero, List.countP_eq_zero]
    simp only [decide_eq_true_eq]
  rw [same]
  exact (lengthen_isGreatest free highest).1

end Prune

theorem le_last_iff {α : Type} {p : α → Bool} {xs : List α} {back : Nat} (found : xs.reverse.findIdx? p = some back) (k : Nat) :
    k ≤ xs.length - back - 1 ↔ ∃ x ∈ xs.drop k, p x = true := by
  obtain ⟨short, here, earlier⟩ := List.findIdx?_eq_some_iff_getElem.1 found
  rw [List.length_reverse] at short
  rw [List.getElem_reverse] at here
  constructor
  · intro within
    refine ⟨_, ?_, here⟩
    rw [List.mem_drop_iff_getElem]
    exact ⟨xs.length - 1 - back - k, by omega, by congr 1; omega⟩
  · rintro ⟨x, member, good⟩
    obtain ⟨i, inside, rfl⟩ := List.mem_drop_iff_getElem.1 member
    by_contra beyond
    have other := earlier (xs.length - 1 - (k + i)) (by omega)
    have position : xs.length - 1 - (xs.length - 1 - (k + i)) = k + i := by omega
    simp only [List.getElem_reverse, position] at other
    exact other good

def Prunable (g : Ledger) (k : Nat) : Prop :=
  ∀ r ∈ g.residents, r.span.firstSegment < k → r.closed = true ∧ r.span.lastSegment < k

section Lengths

variable {lib : Libraries} {maxJobs start k : Nat} {f g : Ledger} {done layout : Layout}

theorem jobs_zip_spans (g : Ledger) :
    g.replayer.finish.jobs.zip g.replayer.finish.spans = g.residents.map fun r => (r.snapshot, r.span) := by
  simp [Replayer.finish, Ledger.replayer, List.zip_map']

theorem prunable_iff : Prunable g k ↔ ∀ job ∈ g.residents.map (fun r => (r.snapshot, r.span)), ¬Prune.Blocks job k := by
  rw [List.forall_mem_map]
  apply forall₂_congr
  intro r _
  unfold Prune.Blocks Resident.closed
  constructor
  · rintro only ⟨begins, ends⟩
    obtain ⟨closed, before⟩ := only begins
    exact absurd (ends closed) (Nat.not_le.2 before)
  · intro free begins
    by_contra blocked
    apply free
    exact ⟨begins, fun closed => Nat.not_lt.1 fun before => blocked ⟨closed, before⟩⟩

theorem recorded_iff (small : ∀ entry ∈ layout, entry.2.length < 2 ^ 64) (k : Nat) :
    (∃ s ∈ (layout.map segmentOf).drop k, decide (s.records ≠ 0) = true) ↔ Layout.events (layout.drop k) ≠ [] := by
  have counter : ∀ entry ∈ layout, (segmentOf entry).records ≠ 0 ↔ entry.2 ≠ [] := by
    intro entry member
    rw [not_iff_not, ← List.length_eq_zero_iff, ← UInt64.toNat_inj]
    show (UInt64.ofNat entry.2.length).toNat = 0 ↔ _
    rw [UInt64.toNat_ofNat_of_lt' (small entry member)]
  rw [← List.map_drop, Layout.events, ne_eq, List.flatMap_eq_nil_iff]
  push Not
  constructor
  · rintro ⟨s, member, counts⟩
    obtain ⟨entry, inside, rfl⟩ := List.mem_map.1 member
    exact ⟨entry, inside, (counter entry (List.mem_of_mem_drop inside)).1 (of_decide_eq_true counts)⟩
  · rintro ⟨entry, inside, nonempty⟩
    exact ⟨_, List.mem_map_of_mem inside, decide_eq_true ((counter entry (List.mem_of_mem_drop inside)).2 nonempty)⟩

theorem prunableLength_isGreatest (tracks : Tracks layout g) (segments : g.segments = layout.map segmentOf)
    (small : ∀ entry ∈ layout, entry.2.length < 2 ^ 64) (recorded : layout.events ≠ []) :
    IsGreatest {k | Layout.events (layout.drop k) ≠ [] ∧ Prunable g k} (Prune.prunableLength g.replayer.finish) := by
  have listed : g.replayer.finish.segments = layout.map segmentOf := segments
  cases found : (layout.map segmentOf).reverse.findIdx? (·.records ≠ 0) with
  | none =>
      obtain ⟨s, member, counts⟩ := (recorded_iff small 0).2 recorded
      have absent := List.findIdx?_eq_none_iff.1 found s (List.mem_reverse.2 member)
      rw [counts] at absent
      cases absent
  | some back =>
      have last (k : Nat) := (le_last_iff found k).trans (recorded_iff small k)
      have greatest := @Prune.isGreatest_of_within g.replayer.finish back (by rw [listed, found])
      rw [listed, jobs_zip_spans] at greatest
      simp only [last, ← prunable_iff] at greatest
      apply greatest
      rw [List.forall_mem_map]
      intro r member
      obtain ⟨-, entry, at_, e, recorded, -⟩ := tracks.within r member
      have there : entry ∈ layout.drop r.span.lastSegment :=
        List.mem_of_getElem? (i := 0) (by rw [List.getElem?_drop]; exact at_)
      exact List.ne_nil_of_mem (mem_events there recorded)

theorem prunableLength_of_empty (segments : g.segments = layout.map segmentOf) (small : ∀ entry ∈ layout, entry.2.length < 2 ^ 64)
    (none_ : layout.events = []) : Prune.prunableLength g.replayer.finish = 0 := by
  have listed : g.replayer.finish.segments = layout.map segmentOf := segments
  have absent : (layout.map segmentOf).reverse.findIdx? (·.records ≠ 0) = none := by
    rw [List.findIdx?_eq_none_iff]
    intro s member
    by_contra counts
    rw [Bool.not_eq_false] at counts
    exact (recorded_iff small 0).1 ⟨s, List.mem_reverse.1 member, counts⟩ none_
  rw [Prune.prunableLength, listed, absent]

end Lengths

section Suffixes

variable {lib : Libraries} {maxJobs start k : Nat} {f g g' : Ledger} {layout rest : Layout} {left : List Resident}
  {base : List ReplayedSegment} {count : UInt64} {e e' : LogicalJobEvent}

theorem mem_events_take (member : e ∈ Layout.events (layout.take k)) :
    ∃ j entry, j < k ∧ layout[j]? = some entry ∧ e ∈ entry.2 := by
  obtain ⟨entry, inside, member⟩ := List.mem_flatMap.1 member
  obtain ⟨j, at_⟩ := List.getElem?_of_mem inside
  rw [List.getElem?_take] at at_
  split at at_
  next before => exact ⟨j, entry, before, at_, member⟩
  next => cases at_

theorem mem_events_drop (member : e ∈ Layout.events (layout.drop k)) :
    ∃ j entry, k ≤ j ∧ layout[j]? = some entry ∧ e ∈ entry.2 := by
  obtain ⟨entry, inside, member⟩ := List.mem_flatMap.1 member
  obtain ⟨j, at_⟩ := List.getElem?_of_mem inside
  rw [List.getElem?_drop] at at_
  exact ⟨k + j, entry, Nat.le_add_right k j, at_, member⟩

theorem Ledger.Sound.unique (sound : g.Sound) {r r' : Resident} (member : r ∈ g.residents) (member' : r' ∈ g.residents)
    (same : r.id = r'.id) : r = r' :=
  List.inj_on_of_nodup_map sound.distinct member member' same

theorem Prunable.separate (prunable : Prunable g k) (tracks : Tracks layout g) (sound : g.Sound)
    (before : e ∈ Layout.events (layout.take k)) (after : e' ∈ Layout.events (layout.drop k)) :
    e.jobId.value ≠ e'.jobId.value := by
  intro same
  obtain ⟨j, entry, early, at_, member⟩ := mem_events_take before
  obtain ⟨j', entry', late, at', member'⟩ := mem_events_drop after
  obtain ⟨r, inside, owner, begins, -⟩ := tracks.covered j entry at_ e member
  obtain ⟨r', inside', owner', -, ends⟩ := tracks.covered j' entry' at' e' member'
  obtain rfl := sound.unique inside inside' (owner.trans (same.trans owner'.symm))
  have short := (prunable r inside (begins.trans_lt early)).2
  omega

theorem Tracks.recorded (tracks : Tracks layout g) {r : Resident} (member : r ∈ g.residents) :
    ∃ e ∈ layout.events, e.jobId.value = r.id := by
  obtain ⟨-, entry, at_, e, recorded, owner⟩ := tracks.within r member
  exact ⟨e, mem_events (List.mem_of_getElem? at_) recorded, owner⟩

theorem Tracks.bounded (tracks : Tracks layout g) {r : Resident} (member : r ∈ g.residents) : r.span.lastSegment < layout.length := by
  obtain ⟨-, entry, at_, -⟩ := tracks.within r member
  exact (List.getElem?_eq_some_iff.1 at_).1

theorem After.prunable_iff (after : After k left base count g g')
    (done : ∀ r ∈ left, r.closed = true ∧ r.span.lastSegment < k) (n : Nat) : Prunable g' n ↔ Prunable g (k + n) := by
  constructor
  · intro prunable r member begins
    rw [after.residents] at member
    rcases List.mem_append.1 member with old | later
    · exact ⟨(done r old).1, Nat.lt_add_right n (done r old).2⟩
    · obtain ⟨r', inside, rfl⟩ := List.mem_map.1 later
      have early : r'.span.firstSegment < n := by
        have shifted : r'.span.firstSegment + k < k + n := begins
        omega
      obtain ⟨closed, ends⟩ := prunable r' inside early
      refine ⟨closed, ?_⟩
      show r'.span.lastSegment + k < k + n
      omega
  · intro prunable r' inside begins
    have member : r'.shift k ∈ g.residents := by
      rw [after.residents]
      exact List.mem_append_right _ (List.mem_map_of_mem inside)
    have early : (r'.shift k).span.firstSegment < k + n := by
      show r'.span.firstSegment + k < k + n
      omega
    obtain ⟨closed, ends⟩ := prunable _ member early
    refine ⟨closed, ?_⟩
    have shifted : r'.span.lastSegment + k < k + n := ends
    omega

theorem After.of_prefix {entry : Nat × List LogicalJobEvent} (opened : f.segments.length = k)
    (folded : Ledger.foldLayout lib maxJobs f (entry :: rest) = some g) :
    After k f.residents f.segments f.records f (.starting entry.1) := by
  obtain ⟨named, -⟩ := Ledger.foldLayout_cons.1 folded
  constructor
  · exact (List.append_nil _).symm
  · exact (List.append_nil _).symm
  · exact opened
  · exact named.symm
  · exact (UInt64.add_zero _).symm

end Suffixes

end Sitometron.Journal
