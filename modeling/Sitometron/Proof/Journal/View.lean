import Sitometron.Proof.Journal.Tail

/-!
# What a replay sees

A replay lists names and reads those that look like segments. It sees a layout where these names are the layout's, in any order.
-/

namespace Sitometron.Journal

open Core Maintenance Replayer

theorem Chain.starting {start next : Nat} {layout : Layout} (chain : Chain start layout next) (fresh : layout = [] → start = 1) :
    Replayer.starting (layout.map toSegment) = (Ledger.starting start).replayer := by
  have expected : ((layout.map toSegment).head?.map (·.first)).getD 1 = UInt64.ofNat start := by
    cases layout with
    | nil =>
        rw [fresh rfl]
        rfl
    | cons entry layout =>
        obtain ⟨rfl, -⟩ := chain
        rfl
  rw [Replayer.starting, expected]
  refine Ledger.eq_replayer rfl rfl rfl (fun key => ?_) rfl
  simp [Ledger.starting]

structure Sequenced (start next : Nat) (layout : Layout) : Prop where
  chain : Chain start layout next
  positive : 1 ≤ start
  bound : next < 2 ^ 64
  fresh : layout = [] → start = 1
  encodable : Encodable layout.events

namespace Sequenced

variable {start next : Nat} {layout : Layout}

theorem small (sequenced : Sequenced start next layout) : start < 2 ^ 64 :=
  sequenced.chain.within.1.trans_lt sequenced.bound

theorem named (sequenced : Sequenced start next layout) : ∀ entry ∈ layout, 1 ≤ entry.1 ∧ entry.1 < 2 ^ 64 := by
  intro entry member
  have within := sequenced.chain.within.2 entry member
  have positive := sequenced.positive
  have bound := sequenced.bound
  omega

theorem lengths (sequenced : Sequenced start next layout) : ∀ entry ∈ layout, entry.2.length < 2 ^ 64 := by
  intro entry member
  have within := sequenced.chain.within.2 entry member
  have bound := sequenced.bound
  omega

theorem more (sequenced : Sequenced start next layout) : Ledger.Continues layout.events := by
  intro e member last
  have within := (sequenced.chain.sequences e member).2
  have bound := sequenced.bound
  unfold uint64Max at last
  omega

theorem first (sequenced : Sequenced start next layout) {entry : Nat × List LogicalJobEvent} (member : entry ∈ layout) :
    segmentFirst (nameOfSegment entry) = some (UInt64.ofNat entry.1) := by
  obtain ⟨positive, small⟩ := sequenced.named entry member
  exact segmentFirst_eq_some_iff.2 ⟨ofNat_ne_zero positive small, rfl⟩

theorem sorted (sequenced : Sequenced start next layout) : (layout.map nameOfSegment).Pairwise (· < ·) := by
  rw [← @render_names layout []]
  exact sequenced.chain.names_sorted fun entry member => (sequenced.named entry member).2

theorem starting (sequenced : Sequenced start next layout) :
    Replayer.starting (layout.map toSegment) = (Ledger.starting start).replayer :=
  sequenced.chain.starting sequenced.fresh

end Sequenced

structure Views (names : List Bytes) (read : Bytes → Option Bytes) (layout : Layout) : Prop where
  listed : (names.filter isSegmentName).Perm (layout.map nameOfSegment)
  reads : ∀ entry ∈ layout, read (nameOfSegment entry) = some (records entry.2)

theorem segmentsOf_valid {names : List Bytes} (valid : ∀ name ∈ names, (segmentFirst name).isSome = true) :
    ∃ segments, segmentsOf names = .ok segments := by
  induction names with
  | nil => exact ⟨[], rfl⟩
  | cons name names ih =>
      obtain ⟨segments, rest⟩ := ih fun other member => valid other (List.mem_cons_of_mem _ member)
      obtain ⟨first, here⟩ := Option.isSome_iff_exists.1 (valid name List.mem_cons_self)
      refine ⟨⟨first, name⟩ :: segments, ?_⟩
      rw [segmentsOf, here, rest]
      rfl

namespace Views

variable {lib : Libraries} {what : Bytes} {maxJobs start next : Nat} {names : List Bytes} {read : Bytes → Option Bytes}
  {layout : Layout} {g : Ledger}

theorem valid (views : Views names read layout) (sequenced : Sequenced start next layout) {name : Bytes} (member : name ∈ names)
    (looks : isSegmentName name = true) : (segmentFirst name).isSome = true := by
  have inside := views.listed.subset (List.mem_filter.2 ⟨member, looks⟩)
  obtain ⟨entry, listed, rfl⟩ := List.mem_map.1 inside
  rw [sequenced.first listed]
  rfl

theorem filter_eq (views : Views names read layout) (sequenced : Sequenced start next layout) :
    names.filter (fun name => (segmentFirst name).isSome) = names.filter isSegmentName := by
  apply List.filter_congr
  intro name member
  cases looks : isSegmentName name with
  | true => exact views.valid sequenced member looks
  | false =>
      rw [Option.isSome_eq_false_iff, Option.isNone_iff_eq_none]
      by_contra some_
      obtain ⟨first, found⟩ := Option.ne_none_iff_exists'.1 some_
      rw [isSegmentName_of_first found] at looks
      cases looks

theorem replay (views : Views names read layout) (sequenced : Sequenced start next layout) :
    replayJournal lib what maxJobs (some names) read =
      conclude what (replaySegments lib maxJobs read (layout.map toSegment) (Ledger.starting start).replayer) := by
  have all : ∀ name ∈ names.filter isSegmentName, (segmentFirst name).isSome = true := by
    intro name member
    obtain ⟨inside, looks⟩ := List.mem_filter.1 member
    exact views.valid sequenced inside looks
  obtain ⟨unsorted, listed⟩ := segmentsOf_valid all
  rw [segmentsOf_filter] at listed
  have found := views.listed
  rw [← views.filter_eq sequenced] at found
  have segments : sortSegments unsorted = layout.map toSegment :=
    sequenced.chain.segments sequenced.positive (fun entry member => (sequenced.named entry member).2) listed found
  rw [replayJournal_listed listed, segments, sequenced.starting]

theorem replay_of_fold (views : Views names read layout) (sequenced : Sequenced start next layout)
    (folded : Ledger.foldLayout lib maxJobs (.starting start) layout = some g) :
    replayJournal lib what maxJobs (some names) read = g.replayer.finish := by
  have pass := (@Ledger.replaySegments_eq_ok (.starting start) lib maxJobs read layout (Ledger.sound_starting start)
    sequenced.encodable sequenced.more views.reads g.replayer).2 ⟨g, folded, rfl⟩
  rw [views.replay sequenced, pass]
  rfl

theorem replay_of_refusal (views : Views names read layout) (sequenced : Sequenced start next layout) {refusal : ReplayResult}
    (stopped : replaySegments lib maxJobs read (layout.map toSegment) (Ledger.starting start).replayer = .error (.refused refusal)) :
    replayJournal lib what maxJobs (some names) read = refusal := by
  rw [views.replay sequenced, stopped]
  rfl

theorem journalRecords {directory : Directory} (views : Views directory.names directory.read layout)
    (sequenced : Sequenced start next layout) (distinct : directory.names.Nodup) (json : JsonLibrary) :
    Journal.journalRecords json directory = layout.events := by
  have sorted : (directory.names.filter isSegmentName).insertionSort (· ≤ ·) = layout.map nameOfSegment := by
    apply ((List.perm_insertionSort _ _).trans views.listed).eq_of_pairwise
    · intro a b _ _ le ge
      exact List.le_antisymm le ge
    · exact List.pairwise_insertionSort _ _
    · exact sequenced.sorted.imp fun less => List.le_of_lt less
  rw [journalRecords_eq json distinct, views.filter_eq sequenced, sorted, List.flatMap_map, Layout.events]
  apply List.flatMap_congr
  intro entry member
  rw [views.reads entry member]
  exact recordsIn_records json fun e inside => sequenced.encodable e (List.mem_flatMap.2 ⟨entry, member, inside⟩)

end Views

theorem replayed_views {lib : Libraries} {what : Bytes} {maxJobs : Nat} {directory : Directory} (distinct : directory.names.Nodup)
    (replayed : (replayJournal lib what maxJobs (some directory.names) directory.read).status = .replayed) :
    ∃ (layout : Layout) (start next : Nat) (g : Ledger), Sequenced start next layout ∧
      Views directory.names directory.read layout ∧ Ledger.foldLayout lib maxJobs (.starting start) layout = some g := by
  obtain ⟨layout, start, next, g, disk, bound, fresh, ⟨unsorted, listed⟩, folded⟩ := replayed_folds distinct replayed
  refine ⟨layout, start, next, g, ⟨disk.chain, disk.positive, bound, fresh, disk.encodable⟩, ⟨?_, ?_⟩, folded⟩
  · have looks : directory.names.filter isSegmentName = directory.names.filter fun name => (segmentFirst name).isSome := by
      apply List.filter_congr
      intro name member
      cases first : segmentFirst name with
      | some n => exact isSegmentName_of_first first
      | none =>
          rw [Option.isSome_none, Bool.eq_false_iff]
          intro shape
          have found := segmentsOf_looks listed member shape
          rw [first] at found
          cases found
    rw [looks, ← @render_names layout [], Directory.names, List.filter_map]
    exact disk.shows.files.map _
  · intro entry member
    exact disk.shows.read member

end Sitometron.Journal
