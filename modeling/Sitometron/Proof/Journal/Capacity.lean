import Sitometron.Proof.Journal.Ledger

/-!
# Replay at two capacities

A larger capacity retires fewer Jobs. The Jobs it keeps beside those of the smaller one are closed, so no later record
is for them.
-/

namespace Sitometron.Journal

open Core

def splitLines : Bytes → List Bytes
  | [] => []
  | b :: rest =>
      if b = 0x0A then [b] :: splitLines rest
      else match splitLines rest with
        | [] => [[b]]
        | line :: more => (b :: line) :: more

def recordsIn (json : JsonLibrary) (content : Bytes) : List LogicalJobEvent :=
  (splitLines content).filterMap fun line => (decodeRecord json line).toOption

def journalRecords (json : JsonLibrary) (directory : Directory) : List LogicalJobEvent :=
  (sortedSegments directory).flatMap fun file => recordsIn json file.2

def createdIds (events : List LogicalJobEvent) : List Bytes :=
  (events.filter (·.eventType = .jobCreated)).map (·.jobId.value)

theorem splitLines_line {line rest : Bytes} (fresh : 0x0A ∉ line) :
    splitLines (line ++ [0x0A] ++ rest) = (line ++ [0x0A]) :: splitLines rest := by
  induction line with
  | nil => simp [splitLines]
  | cons b line ih =>
      rw [List.mem_cons, not_or] at fresh
      rw [List.cons_append, List.cons_append, splitLines, if_neg (Ne.symm fresh.1), ih fresh.2]

theorem recordsIn_append (json : JsonLibrary) {events : List LogicalJobEvent} (encodable : Encodable events) (rest : Bytes) :
    recordsIn json (records events ++ rest) = events ++ recordsIn json rest := by
  induction events with
  | nil => rfl
  | cons e events ih =>
      have encoded := encodable e List.mem_cons_self
      obtain ⟨line, written, fresh⟩ := emit_line encoded
      have split : splitLines (records (e :: events) ++ rest) = emit e :: splitLines (records events ++ rest) := by
        have lines := @splitLines_line line (records events ++ rest) fresh
        rw [← written] at lines
        exact (congrArg splitLines (List.append_assoc _ _ _)).trans lines
      have decoded : (decodeRecord json (emit e)).toOption = some e := by rw [decodeRecord_encoded json encoded]; rfl
      have others := ih fun e member => encodable e (List.mem_cons_of_mem _ member)
      rw [recordsIn] at others ⊢
      rw [split, List.filterMap_cons, decoded, others]
      rfl

theorem recordsIn_records (json : JsonLibrary) {events : List LogicalJobEvent} (encodable : Encodable events) :
    recordsIn json (records events) = events := by
  have whole := recordsIn_append json encodable []
  rw [List.append_nil, show recordsIn json [] = [] from rfl, List.append_nil] at whole
  exact whole

theorem OnDisk.journalRecords (json : JsonLibrary) {directory : Directory} {layout : Layout} {start next : Nat}
    (disk : OnDisk directory layout start next []) : Journal.journalRecords json directory = layout.events := by
  rw [Journal.journalRecords, disk.shows.sorted disk.chain disk.named, render_whole, List.flatMap_map, Layout.events]
  refine List.flatMap_congr fun segment member => ?_
  exact recordsIn_records json fun e inside => disk.encodable e (List.mem_flatMap.2 ⟨segment, member, inside⟩)

theorem createdIds_cons {e : LogicalJobEvent} {events : List LogicalJobEvent} :
    createdIds (e :: events) = (if e.eventType = .jobCreated then [e.jobId.value] else []) ++ createdIds events := by
  unfold createdIds
  rw [List.filter_cons]
  split <;> simp_all

theorem createdIds_append {events others : List LogicalJobEvent} :
    createdIds (events ++ others) = createdIds events ++ createdIds others := by
  simp [createdIds]

theorem Ledger.Sound.find?_of_mem {f : Ledger} (sound : f.Sound) {r : Resident} {key : Bytes} (member : r ∈ f.residents)
    (named : r.id = key) : f.residents.find? (·.id = key) = some r := by
  have distinct := sound.distinct
  generalize f.residents = residents at member distinct
  induction residents with
  | nil => cases member
  | cons other residents ih =>
      rcases List.mem_cons.1 member with rfl | inside
      · exact List.find?_cons_of_pos (decide_eq_true named)
      · have different := key_ne_of_mem distinct inside
        rw [List.find?_cons_of_neg (by simpa [named] using different)]
        exact ih inside (List.nodup_cons.1 distinct).2

structure Beside (maxJobs : Nat) (f g : Ledger) : Prop where
  covers : Covers Resident.closed f.residents g.residents
  filled : f.residents.length < maxJobs → f.residents = g.residents
  rest : g = { f with residents := g.residents }

namespace Beside

variable {lib : Libraries} {maxJobs larger : Nat} {f f' g : Ledger}

theorem refl (f : Ledger) : Beside maxJobs f f := ⟨.refl _, fun _ => rfl, rfl⟩

theorem openSegment (beside : Beside maxJobs f g) (segment : Segment) :
    Beside maxJobs (f.openSegment segment) (g.openSegment segment) := by
  refine ⟨beside.covers, beside.filled, ?_⟩
  rw [beside.rest]
  rfl

theorem expected (beside : Beside maxJobs f g) : g.expected = f.expected := by rw [beside.rest]

theorem current (beside : Beside maxJobs f g) : g.current = f.current := by
  rw [beside.rest]
  rfl

theorem step {e : LogicalJobEvent} (beside : Beside maxJobs f g) (bound : maxJobs ≤ larger) (sound : g.Sound)
    (fresh : e.eventType = .jobCreated → e.jobId.value ∉ g.residents.map Resident.id)
    (stepped : f.step lib maxJobs e = some f') :
    ∃ g', g.step lib larger e = some g' ∧ Beside maxJobs f' g' := by
  obtain ⟨sequence, known | created⟩ := Ledger.step_eq_some.1 stepped
  · obtain ⟨r, after, found, replayed, rfl⟩ := known
    have member := List.mem_of_find?_eq_some found
    have named := Ledger.id_of_find? found
    have also := sound.find?_of_mem (beside.covers.sublist.subset member) named
    refine ⟨_, Ledger.step_eq_some.2 ⟨sequence.trans beside.expected.symm, .inl ⟨r, after, also, replayed, rfl⟩⟩, ?_⟩
    have present : e.jobId.value ∈ f.residents.map Resident.id := named ▸ List.mem_map_of_mem member
    have covers : Covers Resident.closed (f.revise e.jobId.value after).residents (g.revise e.jobId.value after).residents := by
      rw [Ledger.revise, Ledger.revise, beside.current]
      exact beside.covers.map_key sound.distinct present
    refine ⟨covers, fun short => ?_, ?_⟩
    · have same := beside.filled (by simpa [Ledger.revise, Ledger.advance] using short)
      show (f.revise e.jobId.value after).residents = (g.revise e.jobId.value after).residents
      rw [Ledger.revise, Ledger.revise, beside.current, same]
    · rw [beside.rest]
      rfl
  · obtain ⟨after, residents, found, replayed, placed, rfl⟩ := created
    have new := fresh (replayRecord_created replayed)
    have unknown : g.residents.find? (·.id = e.jobId.value) = none := by
      refine List.find?_eq_none.2 fun r member same => new ?_
      rw [← of_decide_eq_true same]
      exact List.mem_map_of_mem member
    obtain ⟨others, fits, covers, filled⟩ := beside.covers.place beside.filled bound placed
    rw [← beside.current] at fits
    refine ⟨_, Ledger.step_eq_some.2 ⟨sequence.trans beside.expected.symm, .inr ⟨after, others, unknown, replayed, fits, rfl⟩⟩, ?_⟩
    refine ⟨covers, filled, ?_⟩
    rw [beside.rest]
    rfl

end Beside

structure Unborn (g : Ledger) (events : List LogicalJobEvent) : Prop where
  once : (createdIds events).Nodup
  absent : ∀ r ∈ g.residents, r.id ∉ createdIds events

namespace Unborn

variable {lib : Libraries} {maxJobs : Nat} {g g' : Ledger} {e : LogicalJobEvent} {events : List LogicalJobEvent}

theorem fresh (unborn : Unborn g (e :: events)) (created : e.eventType = .jobCreated) :
    e.jobId.value ∉ g.residents.map Resident.id := by
  intro inside
  obtain ⟨r, member, named⟩ := List.mem_map.1 inside
  refine unborn.absent r member ?_
  rw [createdIds_cons, if_pos created, named]
  exact List.mem_append_left _ (List.mem_singleton_self _)

theorem step (unborn : Unborn g (e :: events)) (stepped : g.step lib maxJobs e = some g') : Unborn g' events := by
  have once := unborn.once
  have absent := unborn.absent
  rw [createdIds_cons] at once absent
  refine ⟨(List.nodup_append.1 once).2.1, fun r member later => ?_⟩
  have old (r : Resident) (member : r ∈ g.residents) : r.id ∉ createdIds events :=
    fun later => absent r member (List.mem_append_right _ later)
  obtain ⟨-, ⟨known, after, found, replayed, rfl⟩ | ⟨after, residents, found, replayed, placed, rfl⟩⟩ :=
    Ledger.step_eq_some.1 stepped
  · have named := congrArg Uuid.value (replayRecord_jobId replayed)
    have inside : r.id ∈ (g.revise e.jobId.value after).residents.map Resident.id := List.mem_map_of_mem member
    rw [Ledger.revise_ids named] at inside
    obtain ⟨before, held, same⟩ := List.mem_map.1 inside
    exact old before held (same ▸ later)
  · rcases mem_of_place placed member with held | rfl
    · exact old r held later
    · have named : after.jobId.value = e.jobId.value := congrArg Uuid.value (replayRecord_jobId replayed)
      rw [if_pos (replayRecord_created replayed)] at once
      exact (List.nodup_append.1 once).2.2 _ (List.mem_singleton_self _) _ later named.symm

end Unborn

section Folds

variable {lib : Libraries} {maxJobs larger : Nat} {f f' g : Ledger} {events others : List LogicalJobEvent}

theorem Beside.foldEvents (beside : Beside maxJobs f g) (bound : maxJobs ≤ larger) (sound : g.Sound)
    (more : Ledger.Continues events) (unborn : Unborn g (events ++ others))
    (folded : Ledger.foldEvents lib maxJobs f events = some f') :
    ∃ g', Ledger.foldEvents lib larger g events = some g' ∧ Beside maxJobs f' g' ∧ g'.Sound ∧ Unborn g' others := by
  induction events generalizing f g with
  | nil =>
      cases folded
      exact ⟨g, rfl, beside, sound, unborn⟩
  | cons e events ih =>
      rw [Ledger.foldEvents_cons] at folded
      obtain ⟨middle, stepped, rest⟩ := Option.bind_eq_some_iff.1 folded
      obtain ⟨next, also, besideNext⟩ := beside.step bound sound unborn.fresh stepped
      obtain ⟨last, remaining, facts⟩ := ih besideNext (sound.step also (more e List.mem_cons_self))
        (fun e member => more e (List.mem_cons_of_mem _ member)) (unborn.step also) rest
      refine ⟨last, ?_, facts⟩
      rw [Ledger.foldEvents_cons, also]
      exact remaining

theorem Beside.foldLayout {layout : Layout} (beside : Beside maxJobs f g) (bound : maxJobs ≤ larger) (sound : g.Sound)
    (more : Ledger.Continues layout.events) (unborn : Unborn g layout.events)
    (folded : Ledger.foldLayout lib maxJobs f layout = some f') :
    ∃ g', Ledger.foldLayout lib larger g layout = some g' ∧ Beside maxJobs f' g' := by
  induction layout generalizing f g with
  | nil =>
      cases folded
      exact ⟨g, rfl, beside⟩
  | cons entry layout ih =>
      obtain ⟨named, checked, middle, inner, rest⟩ := Ledger.foldLayout_cons.1 folded
      have opened : Unborn (g.openSegment (toSegment entry)) (entry.2 ++ Layout.events layout) := ⟨unborn.once, unborn.absent⟩
      obtain ⟨next, also, besideNext, soundNext, unbornNext⟩ := (beside.openSegment (toSegment entry)).foldEvents bound
        (sound.openSegment _) (fun e member => more e (List.mem_append_left _ member)) opened inner
      obtain ⟨last, remaining, besideLast⟩ := ih besideNext soundNext (fun e member => more e (List.mem_append_right _ member))
        unbornNext rest
      have records : g.records = f.records := by rw [beside.rest]
      rw [← records] at checked
      exact ⟨last, Ledger.foldLayout_cons.2 ⟨named.trans beside.expected.symm, checked, next, also, remaining⟩, besideLast⟩

end Folds

theorem Ledger.jobs_zip (f : Ledger) :
    f.replayer.finish.jobs.zip f.replayer.finish.createdSequences = f.residents.map fun r => (r.snapshot, r.created) := by
  simp [Replayer.finish, Ledger.replayer, List.zip_map']

theorem Ledger.unresolved_eq (f : Ledger) :
    f.replayer.finish.unresolved = (f.residents.filter fun r => isUnresolved r.snapshot).map (·.snapshot.jobId) := by
  simp [Replayer.finish, Ledger.replayer, List.filter_map, Function.comp_def]

end Sitometron.Journal
