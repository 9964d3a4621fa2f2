import Sitometron.Proof.Journal.Pass
import Sitometron.Proof.Journal.Pruned

/-!
# The spans of a replay

Whatever the directory lists and the files hold, every span of a replay ends in a segment with records. So the difference
array of `PrunableLength` is read and written only where it has entries, and the length is the longest legal one.
-/

namespace Sitometron.Journal

open Core

namespace Replayer

variable {lib : Libraries} {maxJobs : Nat} {r : Replayer}

structure Spanned (r : Replayer) : Prop where
  paired : r.result.jobs.length = r.result.spans.length
  recorded : ∀ span ∈ r.result.spans, ∃ s, r.result.segments[span.lastSegment]? = some s ∧ s.records ≠ 0

/-- The last segment is filled up to the sequence that is expected, so its counter has not wrapped around. -/
def Filling (r : Replayer) : Prop :=
  ∃ base s, r.result.segments = base ++ [s] ∧ s.first.toNat + s.records.toNat = r.expected.toNat

theorem spans_of_step {f g : Ledger} {e : LogicalJobEvent} (stepped : f.step lib maxJobs e = some g) {span : JobSegmentSpan}
    (member : span ∈ g.replayer.result.spans) :
    span.lastSegment = f.current ∨ ∃ old ∈ f.replayer.result.spans, span.lastSegment = old.lastSegment := by
  obtain ⟨r, inside, rfl⟩ := List.mem_map.1 member
  obtain ⟨-, ⟨_, after, -, -, rfl⟩ | ⟨after, residents, -, -, placed, rfl⟩⟩ := Ledger.step_eq_some.1 stepped
  · obtain ⟨old, there, rfl⟩ := List.mem_map.1 inside
    split
    · exact .inl rfl
    · exact .inr ⟨old.span, List.mem_map_of_mem there, rfl⟩
  · rcases mem_of_place placed inside with there | rfl
    · exact .inr ⟨r.span, List.mem_map_of_mem there, rfl⟩
    · exact .inl rfl

theorem Filling.step {f g : Ledger} {e : LogicalJobEvent} (spanned : f.replayer.Spanned) (filling : f.replayer.Filling)
    (stepped : f.step lib maxJobs e = some g) (more : e.sequence.toNat ≠ uint64Max) : g.replayer.Spanned ∧ g.replayer.Filling := by
  obtain ⟨base, s, opened, full⟩ := filling
  obtain ⟨sequence, -⟩ := Ledger.step_eq_some.1 stepped
  have bound := e.sequence.toNat_lt
  rw [show f.replayer.expected = e.sequence from sequence.symm] at full
  have counted : (s.records + 1).toNat = s.records.toNat + 1 := by
    rw [UInt64.toNat_add, UInt64.toNat_one, Nat.mod_eq_of_lt]
    unfold uint64Max at more
    omega
  have next : g.expected.toNat = e.sequence.toNat + 1 := by
    rw [Ledger.expected_of_step stepped more, UInt64.toNat_add, UInt64.toNat_one, Nat.mod_eq_of_lt]
    unfold uint64Max at more
    omega
  have segments : g.segments = base ++ [{ s with records := s.records + 1 }] := by
    rw [Ledger.segments_of_step stepped, Ledger.current, show f.segments = base ++ [s] from opened, List.length_append]
    exact modify_append (i := 0)
  have nonzero : s.records + 1 ≠ 0 := by
    intro zero
    rw [zero] at counted
    cases counted
  constructor
  · refine ⟨(List.length_map _).trans (List.length_map _).symm, fun span member => ?_⟩
    show ∃ s, g.segments[span.lastSegment]? = some s ∧ s.records ≠ 0
    rw [segments]
    by_cases here : span.lastSegment = base.length
    · exact ⟨_, by rw [here, List.getElem?_concat_length], nonzero⟩
    · rcases spans_of_step stepped member with now | ⟨old, there, same⟩
      · rw [Ledger.current, show f.segments = base ++ [s] from opened, List.length_append] at now
        exact absurd now here
      · obtain ⟨found, at_, recorded⟩ := spanned.recorded old there
        rw [← same, opened] at at_
        have inside := (List.getElem?_eq_some_iff.1 at_).1
        rw [List.length_append, List.length_singleton] at inside
        have before : span.lastSegment < base.length := by omega
        rw [List.getElem?_append_left before] at at_ ⊢
        exact ⟨found, at_, recorded⟩
  · refine ⟨base, _, segments, ?_⟩
    show s.first.toNat + (s.records + 1).toNat = g.expected.toNat
    rw [next, counted]
    omega

theorem Pass.spanned {seen : List (Nat × LogicalJobEvent)} {retired : List Bytes} (pass : Pass lib maxJobs r seen retired)
    (more : r.last.toNat ≠ uint64Max) : r.Spanned ∧ (r.result.segments ≠ [] → r.Filling) := by
  induction pass with
  | start expected => exact ⟨⟨rfl, fun _ inside => absurd inside List.not_mem_nil⟩, fun opened => absurd rfl opened⟩
  | segment segment _ named ih =>
      obtain ⟨spanned, -⟩ := ih more
      refine ⟨⟨spanned.paired, fun span member => ?_⟩, fun _ => ⟨_, _, rfl, by rw [named]; rfl⟩⟩
      obtain ⟨s, at_, recorded⟩ := spanned.recorded span member
      exact ⟨s, List.getElem?_append_left (List.getElem?_eq_some_iff.1 at_).1 ▸ at_, recorded⟩
  | line pass opened further decoded replayed ih =>
      obtain ⟨spanned, filling⟩ := ih further
      obtain ⟨f, rfl, -, -, -, sound⟩ := pass.ledger
      obtain ⟨g, stepped, rfl⟩ := (Ledger.replayLine_eq_ok (sound further) (encodeRecord_decoded decoded)).1 replayed
      rw [show g.replayer.last = g.last from rfl, Ledger.last_of_step stepped] at more
      have both := Filling.step spanned (filling opened) stepped more
      exact ⟨both.1, fun _ => both.2⟩

end Replayer

theorem replayJournal_cases (lib : Libraries) (what : Bytes) (maxJobs : Nat) (list : Option (List Bytes))
    (readAll : Bytes → Option Bytes) :
    (∃ after : Replayer, after.Spanned ∧ replayJournal lib what maxJobs list readAll = after.finish) ∨
      ∃ r : Replayer, ∃ status detail, replayJournal lib what maxJobs list readAll = r.refuse status detail := by
  cases list with
  | none => exact .inr ⟨_, _, _, rfl⟩
  | some names =>
      cases listed : segmentsOf names with
      | error bad => exact .inr ⟨{}, _, _, by rw [replayJournal, Replayer.run, listed]⟩
      | ok unsorted =>
          rw [replayJournal_listed listed]
          cases pass : Replayer.replaySegments lib maxJobs readAll (Replayer.sortSegments unsorted)
              (Replayer.starting (Replayer.sortSegments unsorted)) with
          | ok after =>
              left
              obtain ⟨more, seen, retired, passed⟩ := (Replayer.Pass.start _).segments
                (show (0 : UInt64).toNat ≠ uint64Max by decide) pass
              exact ⟨after, (passed.spanned more).1, rfl⟩
          | error stop =>
              right
              have ended := Replayer.replaySegments_ended pass
              cases ended with
              | refused r detail => exact ⟨r, _, detail, rfl⟩
              | thrown r => exact ⟨r, _, _, rfl⟩

namespace Prune

open Maintenance

/-! ## The difference array with its bounds checked

`none` is an index outside the array. -/

def writeAt (xs : List Int) (i : Nat) (f : Int → Int) : Option (List Int) :=
  if i < xs.length then some (xs.modify i f) else none

def blockAt (highest : Nat) (blocked : List Int) (job : Snapshot × JobSegmentSpan) : Option (List Int) :=
  let first := job.2.firstSegment
  let stop := if !isClosed job.1 then highest + 1 else job.2.lastSegment + 1
  if first + 1 < stop then do
    let begun ← writeAt blocked (first + 1) (· + 1)
    writeAt begun stop (· - 1)
  else some blocked

def lengthenAt (blocked : List Int) (longest : Nat × Int) (k : Nat) : Option (Nat × Int) := do
  let running := longest.2 + (← blocked[k]?)
  some (if running = 0 then k else longest.1, running)

def prunableLengthAt (replayed : ReplayResult) : Option Nat :=
  match replayed.segments.reverse.findIdx? (·.records ≠ 0) with
  | none => some 0
  | some back => do
      let highest := replayed.segments.length - back - 1
      let blocked ← (replayed.jobs.zip replayed.spans).foldlM (blockAt highest) (List.replicate (highest + 2) 0)
      let longest ← (List.range (highest + 1)).foldlM (lengthenAt blocked) (0, 0)
      some longest.1

variable {highest k : Nat} {blocked : List Int} {job : Snapshot × JobSegmentSpan} {jobs : List (Snapshot × JobSegmentSpan)}
  {replayed : ReplayResult}

theorem blockAt_eq (length : blocked.length = highest + 2) (inside : job.2.lastSegment ≤ highest) :
    blockAt highest blocked job = some (block highest blocked job) := by
  unfold blockAt block
  generalize stopped : (if !isClosed job.1 then highest + 1 else job.2.lastSegment + 1) = stop
  have bounded : stop < highest + 2 := by
    rw [← stopped]
    split <;> omega
  dsimp only
  by_cases ordered : job.2.firstSegment + 1 < stop
  · have begins : job.2.firstSegment + 1 < highest + 2 := ordered.trans bounded
    simp [writeAt, ordered, length, bounded, begins]
  · rw [if_neg ordered, if_neg ordered]

theorem foldlM_blockAt (length : blocked.length = highest + 2) (inside : ∀ job ∈ jobs, job.2.lastSegment ≤ highest) :
    jobs.foldlM (blockAt highest) blocked = some (jobs.foldl (block highest) blocked) ∧
      (jobs.foldl (block highest) blocked).length = highest + 2 := by
  induction jobs generalizing blocked with
  | nil => exact ⟨rfl, length⟩
  | cons job jobs ih =>
      rw [List.foldlM_cons, blockAt_eq length (inside job List.mem_cons_self)]
      exact ih ((length_block highest blocked job).trans length) fun other member => inside other (List.mem_cons_of_mem _ member)

theorem foldlM_lengthenAt {ks : List Nat} {longest : Nat × Int} (inside : ∀ k ∈ ks, k < blocked.length) :
    ks.foldlM (lengthenAt blocked) longest = some (ks.foldl (lengthen blocked) longest) := by
  induction ks generalizing longest with
  | nil => rfl
  | cons k ks ih =>
      have here := inside k List.mem_cons_self
      have one : lengthenAt blocked longest k = some (lengthen blocked longest k) := by
        simp [lengthenAt, lengthen, here]
      rw [List.foldlM_cons, one]
      exact ih fun other member => inside other (List.mem_cons_of_mem _ member)

theorem prunableLengthAt_eq {back : Nat} (found : replayed.segments.reverse.findIdx? (·.records ≠ 0) = some back)
    (inside : ∀ job ∈ replayed.jobs.zip replayed.spans, job.2.lastSegment ≤ replayed.segments.length - back - 1) :
    prunableLengthAt replayed = some (prunableLength replayed) := by
  rw [prunableLengthAt, prunableLength, found]
  dsimp only
  generalize replayed.segments.length - back - 1 = highest at inside ⊢
  obtain ⟨written, length⟩ := foldlM_blockAt (@List.length_replicate Int (highest + 2) 0) inside
  rw [written, Option.bind_eq_bind, Option.bind_some, foldlM_lengthenAt]
  · rfl
  · intro k member
    have := List.mem_range.1 member
    omega

def IsHighest (segments : List ReplayedSegment) (highest : Nat) : Prop :=
  (∃ s, segments[highest]? = some s ∧ s.records ≠ 0) ∧ ∀ i s, highest < i → segments[i]? = some s → s.records = 0

theorem IsHighest.found {segments : List ReplayedSegment} (last : IsHighest segments highest) :
    ∃ back, segments.reverse.findIdx? (·.records ≠ 0) = some back ∧ segments.length - back - 1 = highest := by
  obtain ⟨⟨s, at_, recorded⟩, later⟩ := last
  cases found : segments.reverse.findIdx? (·.records ≠ 0) with
  | none =>
      have absent := List.findIdx?_eq_none_iff.1 found s (List.mem_reverse.2 (List.mem_of_getElem? at_))
      simp [recorded] at absent
  | some back =>
      have reaches := le_last_iff found
      refine ⟨back, rfl, Nat.le_antisymm ?_ ?_⟩
      · by_contra beyond
        obtain ⟨x, member, good⟩ := (reaches (highest + 1)).1 (by omega)
        obtain ⟨i, there⟩ := List.getElem?_of_mem member
        rw [List.getElem?_drop] at there
        have none := later (highest + 1 + i) x (by omega) there
        simp [none] at good
      · apply (reaches highest).2
        exact ⟨s, List.mem_of_getElem? (i := 0) (by rw [List.getElem?_drop]; exact at_), by simpa using recorded⟩

theorem unblocked_iff (paired : replayed.jobs.length = replayed.spans.length) :
    (∀ job ∈ replayed.jobs.zip replayed.spans, ¬Blocks job k) ↔ ∀ (j : Nat) (job : Snapshot) (span : JobSegmentSpan),
      replayed.jobs[j]? = some job → replayed.spans[j]? = some span → span.firstSegment < k →
      isClosed job = true ∧ span.lastSegment < k := by
  constructor
  · intro free j job span at_ there begins
    have member : (job, span) ∈ replayed.jobs.zip replayed.spans :=
      List.mem_of_getElem? (i := j) (List.getElem?_zip_eq_some.2 ⟨at_, there⟩)
    by_contra blocked
    exact free _ member ⟨begins, fun closed => Nat.not_lt.1 fun before => blocked ⟨closed, before⟩⟩
  · rintro legal ⟨job, span⟩ member ⟨begins, ends⟩
    obtain ⟨j, at_⟩ := List.getElem?_of_mem member
    obtain ⟨at_, there⟩ := List.getElem?_zip_eq_some.1 at_
    obtain ⟨closed, before⟩ := legal j job span at_ there begins
    exact absurd (ends closed) (Nat.not_le.2 before)

/-- The longest legal prefix of whatever was replayed, computed within the bounds of its array. -/
theorem prunableLength_longest (lib : Libraries) (what : Bytes) (maxJobs : Nat) (list : Option (List Bytes))
    (readAll : Bytes → Option Bytes) (replayed : ReplayResult) (produced : replayJournal lib what maxJobs list readAll = replayed) :
    replayed.jobs.length = replayed.spans.length ∧ prunableLengthAt replayed = some (prunableLength replayed) ∧
      ((∀ s ∈ replayed.segments, s.records = 0) → prunableLength replayed = 0) ∧
      ∀ highest, IsHighest replayed.segments highest →
        IsGreatest {k | k ≤ highest ∧ ∀ (j : Nat) (job : Snapshot) (span : JobSegmentSpan), replayed.jobs[j]? = some job →
          replayed.spans[j]? = some span → span.firstSegment < k → isClosed job = true ∧ span.lastSegment < k}
          (prunableLength replayed) := by
  have spanned : replayed.jobs.length = replayed.spans.length ∧ ∀ span ∈ replayed.spans, ∃ s,
      replayed.segments[span.lastSegment]? = some s ∧ s.records ≠ 0 := by
    rw [← produced]
    rcases replayJournal_cases lib what maxJobs list readAll with ⟨after, spanned, passed⟩ | ⟨r, status, detail, refused⟩
    · rw [passed]
      exact ⟨spanned.paired, spanned.recorded⟩
    · rw [refused]
      exact ⟨rfl, by simp [Replayer.refuse]⟩
  obtain ⟨paired, recorded⟩ := spanned
  have inside {back : Nat} (found : replayed.segments.reverse.findIdx? (·.records ≠ 0) = some back) :
      ∀ job ∈ replayed.jobs.zip replayed.spans, job.2.lastSegment ≤ replayed.segments.length - back - 1 := by
    intro job member
    obtain ⟨s, at_, counts⟩ := recorded job.2 (List.of_mem_zip member).2
    apply (le_last_iff found _).2
    exact ⟨s, List.mem_of_getElem? (i := 0) (by rw [List.getElem?_drop]; exact at_), by simpa using counts⟩
  refine ⟨paired, ?_, fun empty => ?_, fun highest last => ?_⟩
  · cases found : replayed.segments.reverse.findIdx? (·.records ≠ 0) with
    | none => rw [prunableLengthAt, prunableLength, found]
    | some back => exact prunableLengthAt_eq found (inside found)
  · have absent : replayed.segments.reverse.findIdx? (·.records ≠ 0) = none := by
      rw [List.findIdx?_eq_none_iff]
      intro s member
      simp [empty s (List.mem_reverse.1 member)]
    rw [prunableLength, absent]
  · obtain ⟨back, found, rfl⟩ := last.found
    simp only [← unblocked_iff paired]
    exact isGreatest_of_within found (inside found)

/-- Two segments with a closed Job before the highest one. -/
theorem prunableLength_longest_closed : ∃ replayed,
    replayJournal sampleLibraries [] unlimited (some (closedVolume []).directory.names) (closedVolume []).directory.read = replayed ∧
      IsHighest replayed.segments 2 ∧ prunableLengthAt replayed = some 2 ∧
      ∀ (j : Nat) (job : Snapshot) (span : JobSegmentSpan), replayed.jobs[j]? = some job → replayed.spans[j]? = some span →
        span.firstSegment < 2 → isClosed job = true ∧ span.lastSegment < 2 := by
  obtain ⟨g, produced, whole, length⟩ := closedVolume_replays []
  have facts := prunableLength_longest sampleLibraries [] unlimited (some (closedVolume []).directory.names)
    (closedVolume []).directory.read g.replayer.finish produced
  obtain ⟨-, checked, -, longest⟩ := facts
  have last : IsHighest g.replayer.finish.segments 2 := by
    rw [show g.replayer.finish.segments = closedLayout.map segmentOf from whole.segments]
    refine ⟨⟨_, rfl, by decide⟩, fun i s beyond at_ => ?_⟩
    have inside := (List.getElem?_eq_some_iff.1 at_).1
    rw [List.length_map] at inside
    exact absurd inside (Nat.not_lt.2 beyond)
  have legal := (longest 2 last).1.2
  rw [length] at checked legal
  exact ⟨_, produced, last, checked, legal⟩

end Prune

end Sitometron.Journal
