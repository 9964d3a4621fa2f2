import Sitometron.Proof.Journal.Prefix
import Sitometron.Proof.Journal.View

/-!
# Replay after a prune

Without a prunable prefix the daemon replays what it replayed with it, at any capacity. The Jobs it no longer holds are closed
Jobs of the prefix.
-/

namespace Sitometron.Journal

open Core

section Large

variable {lib : Libraries} {maxJobs larger start : Nat} {f g : Ledger} {e : LogicalJobEvent} {events : List LogicalJobEvent}
  {layout : Layout}

theorem step_of_room (room : f.residents.length < maxJobs) (roomToo : f.residents.length < larger) :
    f.step lib larger e = f.step lib maxJobs e := by
  simp only [Ledger.step, place, if_pos room, if_pos roomToo]

theorem foldEvents_of_large (counted : Counted start f) (positive : 1 ≤ start) (large : uint64Max ≤ maxJobs)
    (largeToo : uint64Max ≤ larger) (more : Ledger.Continues events)
    (folded : Ledger.foldEvents lib maxJobs f events = some g) : Ledger.foldEvents lib larger f events = some g := by
  induction events generalizing f with
  | nil => exact folded
  | cons e events ih =>
      rw [Ledger.foldEvents_cons] at folded ⊢
      rw [step_of_room (counted.room positive large) (counted.room positive largeToo)]
      obtain ⟨middle, stepped, rest⟩ := Option.bind_eq_some_iff.1 folded
      have counts := (counted.step (more e List.mem_cons_self) stepped).1
      rw [stepped]
      exact ih counts (fun e member => more e (List.mem_cons_of_mem _ member)) rest

theorem foldLayout_of_large (counted : Counted start f) (positive : 1 ≤ start) (large : uint64Max ≤ maxJobs)
    (largeToo : uint64Max ≤ larger) (more : Ledger.Continues layout.events)
    (folded : Ledger.foldLayout lib maxJobs f layout = some g) : Ledger.foldLayout lib larger f layout = some g := by
  induction layout generalizing f with
  | nil => exact folded
  | cons entry layout ih =>
      obtain ⟨named, checked, middle, inner, rest⟩ := Ledger.foldLayout_cons.1 folded
      have opened : Counted start (f.openSegment (toSegment entry)) := ⟨counted.sequences, counted.jobs, counted.born⟩
      have continues : Ledger.Continues entry.2 := fun e member => more e (mem_events List.mem_cons_self member)
      have also := foldEvents_of_large opened positive large largeToo continues inner
      have counts := (opened.foldEvents continues inner).1
      have onward := ih counts (fun e member => more e (List.mem_append_right _ member)) rest
      exact Ledger.foldLayout_cons.2 ⟨named, checked, middle, also, onward⟩

theorem foldLayout_length (within : f.residents.length ≤ maxJobs) (folded : Ledger.foldLayout lib maxJobs f layout = some g) :
    g.residents.length ≤ maxJobs := by
  apply Ledger.foldLayout_keeps (motive := fun _ f => f.residents.length ≤ maxJobs) [] within _ folded
  intro _ entry f g _ within inner
  exact foldEvents_length (f := f.openSegment (toSegment entry)) within inner

end Large

structure Folded (lib : Libraries) (maxJobs start next : Nat) (layout : Layout) (g : Ledger) : Prop
    extends Sequenced start next layout where
  folded : Ledger.foldLayout lib maxJobs (.starting start) layout = some g

namespace Folded

variable {lib : Libraries} {maxJobs start next k : Nat} {layout : Layout} {g : Ledger}

theorem counted (whole : Folded lib maxJobs start next layout g) : Counted start g :=
  (Counted.starting whole.small).foldLayout whole.more whole.folded

theorem sound (whole : Folded lib maxJobs start next layout g) : g.Sound :=
  (Ledger.sound_starting start).foldLayout whole.more whole.folded

theorem tracks (whole : Folded lib maxJobs start next layout g) (large : uint64Max ≤ maxJobs) : Tracks layout g :=
  (Tracks.starting start).foldLayout (Counted.starting whole.small) whole.positive large whole.more whole.folded

theorem segments (whole : Folded lib maxJobs start next layout g) : g.segments = layout.map segmentOf :=
  (foldLayout_segments whole.folded).trans (List.nil_append _)

theorem records (whole : Folded lib maxJobs start next layout g) : g.records = ((layout.map segmentOf).map (·.records)).sum :=
  (foldLayout_records whole.folded).trans (UInt64.zero_add _)

theorem isGreatest (whole : Folded lib maxJobs start next layout g) (large : uint64Max ≤ maxJobs) (recorded : layout.events ≠ []) :
    IsGreatest {k | Layout.events (layout.drop k) ≠ [] ∧ Prunable g k} (Prune.prunableLength g.replayer.finish) :=
  prunableLength_isGreatest (whole.tracks large) whole.segments whole.lengths recorded

theorem recorded_of_positive (whole : Folded lib maxJobs start next layout g) (some_ : 0 < Prune.prunableLength g.replayer.finish) :
    layout.events ≠ [] := by
  intro empty
  rw [prunableLength_of_empty whole.segments whole.lengths empty] at some_
  exact Nat.lt_irrefl 0 some_

end Folded

theorem Chain.drop {start next : Nat} {layout : Layout} (chain : Chain start layout next) (k : Nat)
    {entry : Nat × List LogicalJobEvent} {rest : Layout} (cut : layout.drop k = entry :: rest) :
    Chain entry.1 (layout.drop k) next := by
  induction k generalizing start layout with
  | zero =>
      rw [List.drop_zero] at cut ⊢
      subst cut
      obtain ⟨rfl, -⟩ := id chain
      exact chain
  | succ k ih =>
      cases layout with
      | nil => cases cut
      | cons first layout => exact ih chain.2.2.2 cut

section Events

variable {layout : Layout} {k : Nat}

theorem events_take_subset : ∀ e ∈ Layout.events (layout.take k), e ∈ layout.events := by
  intro e member
  obtain ⟨j, entry, -, at_, inside⟩ := mem_events_take member
  exact mem_events (List.mem_of_getElem? at_) inside

theorem events_drop_subset : ∀ e ∈ Layout.events (layout.drop k), e ∈ layout.events := by
  intro e member
  obtain ⟨j, entry, -, at_, inside⟩ := mem_events_drop member
  exact mem_events (List.mem_of_getElem? at_) inside

end Events

structure Halves (lib : Libraries) (maxJobs start next k : Nat) (layout : Layout) (f g : Ledger) : Prop
    extends Folded lib maxJobs start next layout g where
  recorded : Layout.events (layout.drop k) ≠ []
  first : Ledger.foldLayout lib maxJobs (.starting start) (layout.take k) = some f
  second : Ledger.foldLayout lib maxJobs f (layout.drop k) = some g

theorem Folded.halves {lib : Libraries} {maxJobs start next k : Nat} {layout : Layout} {g : Ledger}
    (whole : Folded lib maxJobs start next layout g) (recorded : Layout.events (layout.drop k) ≠ []) :
    ∃ f, Halves lib maxJobs start next k layout f g := by
  have further : layout.drop k ≠ [] := by
    intro empty
    rw [empty] at recorded
    exact recorded rfl
  have folded := whole.folded
  rw [← List.take_append_drop k layout] at folded
  obtain ⟨f, first, second, -⟩ := foldLayout_append further folded
  exact ⟨f, whole, recorded, first, second⟩

namespace Halves

variable {lib : Libraries} {maxJobs start next k : Nat} {layout : Layout} {f g g' : Ledger} {entry : Nat × List LogicalJobEvent}
  {rest : Layout}

theorem more_take (halves : Halves lib maxJobs start next k layout f g) : Ledger.Continues (Layout.events (layout.take k)) :=
  fun e member => halves.more e (events_take_subset e member)

theorem inside (halves : Halves lib maxJobs start next k layout f g) : k < layout.length := by
  by_contra beyond
  apply halves.recorded
  rw [List.drop_eq_nil_of_le (Nat.not_lt.1 beyond)]
  rfl

theorem exists_cut (halves : Halves lib maxJobs start next k layout f g) : ∃ entry rest, layout.drop k = entry :: rest :=
  ⟨_, _, List.drop_eq_getElem_cons halves.inside⟩

theorem length_take (halves : Halves lib maxJobs start next k layout f g) : (layout.take k).length = k := by
  rw [List.length_take]
  exact Nat.min_eq_left (Nat.le_of_lt halves.inside)

theorem opened (halves : Halves lib maxJobs start next k layout f g) : f.segments.length = k := by
  rw [foldLayout_segments halves.first, List.length_append, List.length_map, halves.length_take]
  exact Nat.zero_add k

theorem counted_first (halves : Halves lib maxJobs start next k layout f g) : Counted start f :=
  (Counted.starting halves.small).foldLayout halves.more_take halves.first

theorem sound_first (halves : Halves lib maxJobs start next k layout f g) : f.Sound :=
  (Ledger.sound_starting start).foldLayout halves.more_take halves.first

theorem tracks_first (halves : Halves lib maxJobs start next k layout f g) (large : uint64Max ≤ maxJobs) :
    Tracks (layout.take k) f :=
  (Tracks.starting start).foldLayout (Counted.starting halves.small) halves.positive large halves.more_take halves.first

theorem sequenced_second (halves : Halves lib maxJobs start next k layout f g) (cut : layout.drop k = entry :: rest) :
    Sequenced entry.1 next (layout.drop k) := by
  have member : entry ∈ layout := List.mem_of_mem_drop (cut ▸ List.mem_cons_self)
  constructor
  · exact halves.chain.drop k cut
  · exact (halves.named entry member).1
  · exact halves.bound
  · intro empty
    rw [empty] at cut
    cases cut
  · exact fun e member => halves.encodable e (events_drop_subset e member)

theorem cases (halves : Halves lib maxJobs start next k layout f g)
    (room : uint64Max ≤ maxJobs ∨ ∀ r ∈ f.residents, r.closed = true)
    (cut : layout.drop k = entry :: rest) :
    (∃ left g', Ledger.foldLayout lib maxJobs (.starting entry.1) (layout.drop k) = some g' ∧
        After k left f.segments f.records g g' ∧ left.Sublist f.residents ∧ (uint64Max ≤ maxJobs → left = f.residents)) ∨
      (∃ e ∈ Layout.events (layout.drop k), e.jobId.value ∈ f.residents.map Resident.id) ∧
        ∀ readAll : Bytes → Option Bytes,
          (∀ entry ∈ layout.drop k, readAll (toSegment entry).name = some (Journal.records entry.2)) →
          ∃ refusal, Replayer.replaySegments lib maxJobs readAll ((layout.drop k).map toSegment) (Ledger.starting entry.1).replayer =
            .error (.refused refusal) ∧ Prune.interrupted refusal = true := by
  have second := halves.second
  rw [cut] at second
  have after := After.of_prefix halves.opened second
  have counted' : Counted (UInt64.ofNat entry.1).toNat (.starting entry.1) :=
    ⟨rfl, Nat.le_refl _, fun r member => by cases member⟩
  have within : f.residents.length ≤ maxJobs := foldLayout_length (Nat.zero_le _) halves.first
  have space : 1 ≤ start ∧ uint64Max ≤ maxJobs ∨ (∀ r ∈ f.residents, r.closed = true) ∧ f.residents.length ≤ maxJobs :=
    room.imp (fun large => ⟨halves.positive, large⟩) fun closed => ⟨closed, within⟩
  -- an empty segment is the last one, and then there are no records
  have begun : (Ledger.starting entry.1).records = 0 → ∀ first ∈ (layout.drop k).head?, first.2 ≠ [] := by
    rintro - first member empty
    rw [cut] at member
    cases member
    obtain ⟨-, checked, -⟩ := Ledger.foldLayout_cons.1 second
    have last : rest = [] := by
      by_contra further
      exact checked ⟨empty, .inl further⟩
    apply halves.recorded
    rw [cut, last]
    simp [Layout.events, empty]
  have onward := after.foldLayout halves.sound_first (Ledger.sound_starting _) halves.counted_first counted' space
    (fun e member => halves.encodable e (events_drop_subset e member))
    (fun e member => halves.more e (events_drop_subset e member)) begun halves.second
  refine onward.imp_left ?_
  rintro ⟨left, g', folded, afterLast, sublist, whole⟩
  exact ⟨left, g', folded, afterLast, sublist, fun large => whole ⟨halves.positive, large⟩⟩

end Halves

section Left

variable {lib : Libraries} {maxJobs larger start next k : Nat} {layout rest : Layout} {f g f' g' : Ledger}
  {entry : Nat × List LogicalJobEvent}

theorem Halves.splits (halves : Halves lib maxJobs start next k layout f g) (large : uint64Max ≤ maxJobs)
    (prunable : Prunable g k) (cut : layout.drop k = entry :: rest) :
    ∃ g', Ledger.foldLayout lib maxJobs (.starting entry.1) (layout.drop k) = some g' ∧
      After k f.residents f.segments f.records g g' := by
  rcases halves.cases (.inl large) cut with ⟨left, g', folded, after, -, whole⟩ | ⟨⟨e, member, shared⟩, -⟩
  · rw [whole large] at after
    exact ⟨g', folded, after⟩
  · obtain ⟨r, inside, named⟩ := List.mem_map.1 shared
    obtain ⟨e', early, owner⟩ := (halves.tracks_first large).recorded inside
    exact absurd (owner.trans named) (prunable.separate (halves.tracks large) halves.sound early member)

theorem Halves.closed (halves : Halves lib maxJobs start next k layout f g) (large : uint64Max ≤ maxJobs) {n : Nat} (within : k ≤ n)
    (prunable : Prunable g n) {left : List Resident} {base : List ReplayedSegment} {count : UInt64}
    (after : After k left base count g g') (sublist : left.Sublist f.residents) :
    ∀ r ∈ left, r ∈ g.residents ∧ r.closed = true ∧ r.span.firstSegment < k ∧ r.span.lastSegment < k := by
  intro r member
  have tracks := halves.tracks_first large
  have inside := sublist.subset member
  have ends : r.span.lastSegment < k := (tracks.bounded inside).trans_eq halves.length_take
  have begins : r.span.firstSegment < k := (tracks.within r inside).1.trans_lt ends
  have kept : r ∈ g.residents := by
    rw [after.residents]
    exact List.mem_append_left _ member
  exact ⟨kept, (prunable r kept (begins.trans_le within)).1, begins, ends⟩

theorem Halves.retained (halves : Halves lib maxJobs start next k layout f g) (full : Halves lib larger start next k layout f' g')
    (large : uint64Max ≤ larger) (once : (createdIds layout.events).Nodup) (prunable : Prunable g' k)
    (cut : layout.drop k = entry :: rest) :
    ∃ left h, Ledger.foldLayout lib maxJobs (.starting entry.1) (layout.drop k) = some h ∧
      After k left f.segments f.records g h ∧
      ∀ r ∈ left, r ∈ g'.residents ∧ r.closed = true ∧ r.span.firstSegment < k := by
  obtain ⟨h', -, afterFull⟩ := full.splits large prunable cut
  have closed := full.closed large (Nat.le_refl k) prunable afterFull (List.Sublist.refl _)
  -- the smaller capacity holds some of the Jobs that the larger one holds
  have fewer : f.residents.Sublist f'.residents := by
    have unborn : Unborn (.starting start) (Layout.events (layout.take k)) := by
      constructor
      · have both := once
        rw [← List.take_append_drop k layout, Layout.events, List.flatMap_append, createdIds_append] at both
        exact (List.nodup_append.1 both).1
      · intro r member
        cases member
    obtain ⟨f'', folded, beside⟩ := (Beside.refl (.starting start)).foldLayout (Nat.le_max_left maxJobs larger)
      (Ledger.sound_starting start) halves.more_take unborn halves.first
    have same := foldLayout_of_large (Counted.starting full.small) full.positive large
      (large.trans (Nat.le_max_right maxJobs larger)) full.more_take full.first
    obtain rfl := Option.some_inj.1 (folded.symm.trans same)
    exact beside.covers.sublist
  rcases halves.cases (.inr fun r member => (closed r (fewer.subset member)).2.1) cut with
    ⟨left, h, folded, after, sublist, -⟩ | ⟨⟨e, member, shared⟩, -⟩
  · refine ⟨left, h, folded, after, fun r member => ?_⟩
    obtain ⟨kept, done, begins, -⟩ := closed r (fewer.subset (sublist.subset member))
    exact ⟨kept, done, begins⟩
  · obtain ⟨r, inside, named⟩ := List.mem_map.1 shared
    obtain ⟨e', early, owner⟩ := (full.tracks_first large).recorded (fewer.subset inside)
    exact absurd (owner.trans named) (prunable.separate (full.tracks large) full.sound early member)

theorem Halves.prunableLength (halves : Halves lib maxJobs start next k layout f g) (large : uint64Max ≤ maxJobs)
    (within : k ≤ Prune.prunableLength g.replayer.finish) (cut : layout.drop k = entry :: rest)
    (folded : Ledger.foldLayout lib maxJobs (.starting entry.1) (layout.drop k) = some g')
    (after : After k f.residents f.segments f.records g g') :
    Prune.prunableLength g'.replayer.finish = Prune.prunableLength g.replayer.finish - k := by
  have recorded : layout.events ≠ [] := by
    obtain ⟨e, member⟩ := List.exists_mem_of_ne_nil _ halves.recorded
    exact List.ne_nil_of_mem (events_drop_subset e member)
  have whole := halves.isGreatest large recorded
  have later := Folded.isGreatest ⟨halves.sequenced_second cut, folded⟩ large halves.recorded
  have done : ∀ r ∈ f.residents, r.closed = true ∧ r.span.lastSegment < k := by
    intro r member
    obtain ⟨-, closed, -, ends⟩ := halves.closed large within whole.1.2 after (List.Sublist.refl _) r member
    exact ⟨closed, ends⟩
  simp only [List.drop_drop, after.prunable_iff done] at later
  apply later.unique
  constructor
  · rw [Set.mem_ofPred_eq, Nat.add_sub_cancel' within]
    exact whole.1
  · intro n member
    have bound := whole.2 member
    omega

end Left

namespace After

variable {k : Nat} {left : List Resident} {base : List ReplayedSegment} {count : UInt64} {g g' : Ledger}

theorem unresolved (after : After k left base count g g') (closed : ∀ r ∈ left, r.closed = true) :
    g.replayer.finish.unresolved = g'.replayer.finish.unresolved := by
  have none_ : left.filter (fun r => isUnresolved r.snapshot) = [] := by
    rw [List.filter_eq_nil_iff]
    intro r member open_
    have done := closed r member
    rw [Resident.closed, isClosed, open_] at done
    cases done
  rw [Ledger.unresolved_eq, Ledger.unresolved_eq, after.residents, List.filter_append, none_, List.nil_append, List.filter_map,
    List.map_map]
  rfl

theorem jobs (after : After k left base count g g') {job : Snapshot × UInt64}
    (member : job ∈ g.replayer.finish.jobs.zip g.replayer.finish.createdSequences) :
    (∃ r ∈ left, job = (r.snapshot, r.created)) ∨
      job ∈ g'.replayer.finish.jobs.zip g'.replayer.finish.createdSequences := by
  rw [Ledger.jobs_zip] at member ⊢
  obtain ⟨r, inside, rfl⟩ := List.mem_map.1 member
  rw [after.residents] at inside
  rcases List.mem_append.1 inside with early | later
  · exact .inl ⟨r, early, rfl⟩
  · obtain ⟨r', kept, rfl⟩ := List.mem_map.1 later
    exact .inr (List.mem_map.2 ⟨r', kept, rfl⟩)

end After

end Sitometron.Journal
