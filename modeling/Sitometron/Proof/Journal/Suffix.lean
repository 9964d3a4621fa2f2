import Sitometron.Proof.Journal.Tail

/-!
# Replay of the later segments

The later segments of a Journal replay as they do in the whole Journal, as long as they hold no record of an earlier Job. The
whole Journal has the earlier Jobs besides, and counts its segments from the first one.
-/

namespace Sitometron.Journal

open Core

namespace Resident

def shift (k : Nat) (r : Resident) : Resident := { r with span := ⟨r.span.firstSegment + k, r.span.lastSegment + k⟩ }

@[simp] theorem shift_id (k : Nat) (r : Resident) : (r.shift k).id = r.id := rfl

@[simp] theorem shift_snapshot (k : Nat) (r : Resident) : (r.shift k).snapshot = r.snapshot := rfl

@[simp] theorem shift_created (k : Nat) (r : Resident) : (r.shift k).created = r.created := rfl

@[simp] theorem shift_closed (k : Nat) (r : Resident) : (r.shift k).closed = r.closed := rfl

end Resident

theorem replayRecord_exists {lib : Libraries} {before : Option Snapshot} {e : LogicalJobEvent} {after : Snapshot}
    (replayed : replayRecord lib before e = .ok after) : after.entityExists = true := by
  obtain ⟨s, bytes, -, -, -, applied, rfl⟩ := replayRecord_eq_ok_iff.1 replayed
  obtain ⟨-, -, -, -, moves⟩ := Transition.of_apply applied
  exact moves.identity.1

structure After (k : Nat) (left : List Resident) (base : List ReplayedSegment) (count : UInt64) (f f' : Ledger) : Prop where
  residents : f.residents = left ++ f'.residents.map (Resident.shift k)
  segments : f.segments = base ++ f'.segments
  length : base.length = k
  expected : f.expected = f'.expected
  records : f.records = count + f'.records

namespace After

variable {lib : Libraries} {maxJobs k : Nat} {left : List Resident} {base : List ReplayedSegment} {count : UInt64}
  {f f' g : Ledger} {e : LogicalJobEvent} {key : Bytes}

theorem openSegment (after : After k left base count f f') (segment : Segment) :
    After k left base count (f.openSegment segment) (f'.openSegment segment) := by
  refine { after with segments := ?_ }
  rw [Ledger.openSegment, Ledger.openSegment, after.segments, List.append_assoc]

theorem current (after : After k left base count f f') (opened : f'.segments ≠ []) : f.current = f'.current + k := by
  have := List.length_pos_iff.2 opened
  rw [Ledger.current, Ledger.current, after.segments, List.length_append, after.length]
  omega

theorem find? (after : After k left base count f f') (other : key ∉ left.map Resident.id) :
    f.residents.find? (·.id = key) = (f'.residents.find? (·.id = key)).map (Resident.shift k) := by
  have absent : left.find? (·.id = key) = none := by
    refine List.find?_eq_none.2 fun r member same => other ?_
    rw [← of_decide_eq_true same]
    exact List.mem_map_of_mem member
  rw [after.residents, List.find?_append, absent, Option.none_or, List.find?_map]
  rfl

theorem advance (after : After k left base count f f') (opened : f'.segments ≠ []) (sequence : UInt64) :
    After k left base count (f.advance sequence) (f'.advance sequence) := by
  have := List.length_pos_iff.2 opened
  have last : (base ++ f'.segments).length - 1 = base.length + (f'.segments.length - 1) := by
    rw [List.length_append]
    omega
  refine ⟨after.residents, ?_, after.length, ?_, ?_⟩
  · show f.segments.modify (f.segments.length - 1) _ = base ++ f'.segments.modify (f'.segments.length - 1) _
    rw [after.segments, last]
    exact modify_append
  · show (if sequence.toNat ≠ uint64Max then sequence + 1 else f.expected) = _
    rw [after.expected]
    rfl
  · show f.records + 1 = count + (f'.records + 1)
    rw [after.records, UInt64.add_assoc]

theorem revise (after : After k left base count f f') (opened : f'.segments ≠ []) (other : key ∉ left.map Resident.id)
    (s : Snapshot) : After k left base count (f.revise key s) (f'.revise key s) := by
  refine { after with residents := ?_ }
  have untouched : (left.map fun r => if r.id = key then r.revise s f.current else r) = left := by
    refine (List.map_congr_left fun r member => if_neg fun same => other ?_).trans (List.map_id left)
    rw [← same]
    exact List.mem_map_of_mem member
  rw [Ledger.revise, Ledger.revise, after.residents, List.map_append, untouched, List.map_map, List.map_map, after.current opened]
  refine congrArg (left ++ ·) (List.map_congr_left fun r _ => ?_)
  show (if r.id = key then _ else _) = Resident.shift k (if r.id = key then _ else _)
  split <;> rfl

theorem step (after : After k left base count f f') (opened : f'.segments ≠ []) (other : e.jobId.value ∉ left.map Resident.id)
    (room : f.residents.length < maxJobs ∨ (∀ r ∈ left, r.closed = true) ∧ f.residents.length ≤ maxJobs)
    (stepped : f.step lib maxJobs e = some g) :
    ∃ left' g', f'.step lib maxJobs e = some g' ∧ After k left' base count g g' ∧ left'.Sublist left ∧
      (f.residents.length < maxJobs → left' = left) := by
  obtain ⟨sequence, known | created⟩ := Ledger.step_eq_some.1 stepped
  · obtain ⟨r, s, found, replayed, rfl⟩ := known
    rw [after.find? other] at found
    obtain ⟨r', inside, rfl⟩ := Option.map_eq_some_iff.1 found
    refine ⟨left, _, Ledger.step_eq_some.2 ⟨sequence.trans after.expected, .inl ⟨r', s, inside, replayed, rfl⟩⟩,
      (after.revise opened other s).advance opened _, .refl _, fun _ => rfl⟩
  · obtain ⟨s, residents, found, replayed, placed, rfl⟩ := created
    rw [after.find? other, Option.map_eq_none_iff] at found
    have within : (left ++ f'.residents.map (Resident.shift k)).length = f.residents.length := by rw [after.residents]
    have moved : (⟨s, e.sequence, ⟨f.current, f.current⟩⟩ : Resident) =
        Resident.shift k ⟨s, e.sequence, ⟨f'.current, f'.current⟩⟩ := by
      rw [after.current opened]
      rfl
    rw [after.residents, moved] at placed
    obtain ⟨left', ws, rfl, sublist, rest, same⟩ : ∃ left' ws, residents = left' ++ ws ∧ left'.Sublist left ∧
        place maxJobs Resident.closed (f'.residents.map (Resident.shift k))
          (Resident.shift k ⟨s, e.sequence, ⟨f'.current, f'.current⟩⟩) = some ws ∧
        (f.residents.length < maxJobs → left' = left) := by
      by_cases short : f.residents.length < maxJobs
      · rw [← within] at short
        rcases place_eq_some.1 placed with ⟨-, rfl⟩ | ⟨full, -⟩
        · exact ⟨left, _, List.append_assoc _ _ _, .refl _, place_of_room short, fun _ => rfl⟩
        · omega
      · obtain ⟨closed, bound⟩ := room.resolve_left short
        obtain ⟨left', ws, split, sublist, rest⟩ := place_append closed (within.trans_le bound) placed
        exact ⟨left', ws, split, sublist, rest, fun room => absurd room short⟩
    rw [place_map fun r => Resident.shift_closed k r] at rest
    obtain ⟨residents', placed', rfl⟩ := Option.map_eq_some_iff.1 rest
    refine ⟨left', _, Ledger.step_eq_some.2 ⟨sequence.trans after.expected, .inr ⟨s, residents', found, replayed, placed', rfl⟩⟩,
      ?_, sublist, same⟩
    have grown : After k left' base count { f with residents := left' ++ residents'.map (Resident.shift k) }
        { f' with residents := residents' } := { after with residents := rfl }
    exact grown.advance opened _

end After

structure Counted (start : Nat) (f : Ledger) : Prop where
  sequences : f.expected.toNat = start + f.records.toNat
  jobs : f.residents.length ≤ f.records.toNat
  born : ∀ r ∈ f.residents, r.snapshot.entityExists = true

namespace Counted

variable {lib : Libraries} {maxJobs start : Nat} {f g : Ledger} {e : LogicalJobEvent} {events : List LogicalJobEvent}

theorem starting {start : Nat} (small : start < 2 ^ 64) : Counted start (.starting start) :=
  ⟨by simp [Ledger.starting, UInt64.toNat_ofNat_of_lt' small], by simp [Ledger.starting], by simp [Ledger.starting]⟩

theorem advance {start : Nat} {f : Ledger} {sequence : UInt64} (here : sequence = f.expected) (more : sequence.toNat ≠ uint64Max)
    (counted : f.expected.toNat = start + f.records.toNat) :
    (f.advance sequence).expected.toNat = f.expected.toNat + 1 ∧ (f.advance sequence).records.toNat = f.records.toNat + 1 := by
  have bound := sequence.toNat_lt
  unfold uint64Max at more
  rw [Ledger.expected_advance f (by unfold uint64Max; exact more), show (f.advance sequence).records = f.records + 1 from rfl,
    UInt64.toNat_add, UInt64.toNat_add, ← here]
  rw [← here] at counted
  simp
  omega

theorem step (counted : Counted start f) (more : e.sequence.toNat ≠ uint64Max) (stepped : f.step lib maxJobs e = some g) :
    Counted start g ∧ g.records.toNat = f.records.toNat + 1 := by
  obtain ⟨sequence, known | created⟩ := Ledger.step_eq_some.1 stepped
  · obtain ⟨r, after, found, replayed, rfl⟩ := known
    have next := advance (f := f.revise e.jobId.value after) sequence more counted.sequences
    have before := counted.sequences
    refine ⟨⟨?_, ?_, fun resident member => ?_⟩, next.2⟩
    · rw [next.1, next.2, show (f.revise e.jobId.value after).expected = f.expected from rfl,
        show (f.revise e.jobId.value after).records = f.records from rfl]
      omega
    · rw [next.2, show ((f.revise e.jobId.value after).advance e.sequence).residents.length = f.residents.length from
        List.length_map _]
      exact Nat.le_succ_of_le counted.jobs
    · obtain ⟨old, inside, rfl⟩ := List.mem_map.1 member
      split
      · exact replayRecord_exists replayed
      · exact counted.born old inside
  · obtain ⟨after, residents, found, replayed, placed, rfl⟩ := created
    have next := advance (f := { f with residents }) sequence more counted.sequences
    have before := counted.sequences
    refine ⟨⟨?_, ?_, fun resident member => ?_⟩, next.2⟩
    · rw [next.1, next.2]
      show f.expected.toNat + 1 = start + (f.records.toNat + 1)
      omega
    · have grown := (Ledger.place_sublist placed).length_le
      have := counted.jobs
      rw [List.length_append, List.length_singleton] at grown
      rw [next.2]
      show residents.length ≤ f.records.toNat + 1
      omega
    · rcases mem_of_place placed member with old | rfl
      · exact counted.born resident old
      · exact replayRecord_exists replayed

theorem foldEvents (counted : Counted start f) (more : Ledger.Continues events)
    (folded : Ledger.foldEvents lib maxJobs f events = some g) :
    Counted start g ∧ g.records.toNat = f.records.toNat + events.length := by
  induction events generalizing f with
  | nil =>
      cases folded
      exact ⟨counted, rfl⟩
  | cons e events ih =>
      rw [Ledger.foldEvents_cons] at folded
      obtain ⟨middle, stepped, rest⟩ := Option.bind_eq_some_iff.1 folded
      obtain ⟨next, one⟩ := counted.step (more e List.mem_cons_self) stepped
      obtain ⟨last, total⟩ := ih next (fun e member => more e (List.mem_cons_of_mem _ member)) rest
      refine ⟨last, ?_⟩
      rw [total, one, List.length_cons]
      omega

theorem room (counted : Counted start f) (positive : 1 ≤ start) (large : uint64Max ≤ maxJobs) : f.residents.length < maxJobs := by
  have sequences := counted.sequences
  have jobs := counted.jobs
  have bound := f.expected.toNat_lt
  unfold uint64Max at large
  omega

end Counted

theorem interrupted_of_never {r : Replayer} {before : Bytes} {after : Bytes} :
    Prune.interrupted (r.refuse .corrupt
      (before ++ text "record for a Job that was never created" ++ after)) = true := by
  have found : Prune.contains (before ++ text "record for a Job that was never created" ++ after)
      (text "record for a Job that was never created") = true := by
    rw [Prune.contains, List.any_eq_true]
    refine ⟨text "record for a Job that was never created" ++ after, (List.mem_tails _ _).2 ⟨before, ?_⟩, ?_⟩
    · rw [List.append_assoc]
    · exact List.isPrefixOf_iff_prefix.2 (List.prefix_append _ _)
  rw [Prune.interrupted, Replayer.refuse, Bool.and_eq_true]
  exact ⟨by simp, found⟩

section Refusals

variable {lib : Libraries} {maxJobs k start fuel offset : Nat} {left : List Resident} {base : List ReplayedSegment} {count : UInt64}
  {f f' g : Ledger} {e : LogicalJobEvent} {events : List LogicalJobEvent} {segment : Segment} {highest : Bool} {content rest : Bytes}

theorem After.refused (after : After k left base count f f') (sound : f.Sound) (counted : Counted start f)
    (earlier : e.jobId.value ∈ left.map Resident.id) (stepped : f.step lib maxJobs e = some g) (encoded : encodeRecord e = .ok (emit e)) :
    ∃ refusal, f'.replayer.replayLine lib maxJobs segment offset (emit e) = .error (.refused refusal) ∧
      Prune.interrupted refusal = true := by
  have listed : e.jobId.value ∈ f.residents.map Resident.id := by
    rw [after.residents, List.map_append]
    exact List.mem_append_left _ earlier
  obtain ⟨sequence, known | created⟩ := Ledger.step_eq_some.1 stepped
  · obtain ⟨r, s, found, replayed, -⟩ := known
    have present := counted.born r (List.mem_of_find?_eq_some found)
    have later : e.eventType ≠ .jobCreated := by
      intro created
      obtain ⟨t, -, started, -⟩ := replayRecord_eq_ok_iff.1 replayed
      simp [replayStart, created, present] at started
    have absent : f'.residents.findIdx? (·.id = e.jobId.value) = none := by
      refine List.findIdx?_eq_none_iff.2 fun r' member => ?_
      have distinct := sound.distinct
      rw [after.residents, List.map_append, List.nodup_append] at distinct
      have moved : r'.id ∈ (f'.residents.map (Resident.shift k)).map Resident.id := by
        rw [List.map_map]
        exact List.mem_map_of_mem (f := fun r => r.id) member
      exact decide_eq_false fun same => distinct.2.2 _ earlier _ moved same.symm
    have never : replayRecord lib none e = .error (.refused "record for a Job that was never created") := by
      simp [replayRecord, replayStart, later]
    have stops : f'.replayer.replayLine lib maxJobs segment offset (emit e) = .error (.refused (f'.replayer.refuse .corrupt
        (text "journal_corrupt: " ++ text "record for a Job that was never created" ++
          Replayer.location segment.name e.sequence))) := by
      have next : e.sequence = f'.replayer.expected := sequence.trans after.expected
      rw [Replayer.replayLine, decodeRecord_encoded lib.json encoded]
      dsimp only
      rw [if_neg (not_not.2 next), show f'.replayer.indexOf e.jobId.value = none from absent,
        Option.bind_none, never]
    exact ⟨_, stops, interrupted_of_never⟩
  · obtain ⟨s, residents, found, -⟩ := created
    obtain ⟨r, member, same⟩ := List.mem_map.1 listed
    exact absurd (decide_eq_true same) (List.find?_eq_none.1 found r member)

theorem step_length (within : f.residents.length ≤ maxJobs) (stepped : f.step lib maxJobs e = some g) :
    g.residents.length ≤ maxJobs := by
  obtain ⟨-, ⟨r, s, -, -, rfl⟩ | ⟨s, residents, -, -, placed, rfl⟩⟩ := Ledger.step_eq_some.1 stepped
  · show (f.residents.map _).length ≤ maxJobs
    rwa [List.length_map]
  · exact (length_of_place placed within).1

theorem foldEvents_length (within : f.residents.length ≤ maxJobs) (folded : Ledger.foldEvents lib maxJobs f events = some g) :
    g.residents.length ≤ maxJobs := by
  induction events generalizing f with
  | nil =>
      cases folded
      exact within
  | cons e events ih =>
      rw [Ledger.foldEvents_cons] at folded
      obtain ⟨middle, stepped, rest⟩ := Option.bind_eq_some_iff.1 folded
      exact ih (step_length within stepped) rest

theorem step_segments_length (stepped : f.step lib maxJobs e = some g) : g.segments.length = f.segments.length := by
  obtain ⟨-, ⟨r, s, -, -, rfl⟩ | ⟨s, residents, -, -, -, rfl⟩⟩ := Ledger.step_eq_some.1 stepped
  · exact List.length_modify _ _ _
  · exact List.length_modify _ _ _

theorem step_opened (stepped : f.step lib maxJobs e = some g) (opened : f.segments ≠ []) : g.segments ≠ [] := by
  rw [← List.length_pos_iff] at opened ⊢
  rwa [step_segments_length stepped]

theorem After.foldEvents (after : After k left base count f f') (opened : f'.segments ≠ []) (sound : f.Sound) (sound' : f'.Sound)
    (counted : Counted start f) (room : 1 ≤ start ∧ uint64Max ≤ maxJobs ∨ (∀ r ∈ left, r.closed = true) ∧ f.residents.length ≤ maxJobs)
    (encodable : Encodable events) (more : Ledger.Continues events) (folded : Ledger.foldEvents lib maxJobs f events = some g) :
    (∃ left' g', Ledger.foldEvents lib maxJobs f' events = some g' ∧ After k left' base count g g' ∧ left'.Sublist left ∧
        (1 ≤ start ∧ uint64Max ≤ maxJobs → left' = left) ∧ g'.segments ≠ [] ∧ g'.Sound) ∨
      (∃ e ∈ events, e.jobId.value ∈ left.map Resident.id) ∧
        ∀ segment highest content fuel offset rest, content.drop offset = Journal.records events ++ rest → ∃ refusal,
          Replayer.replayLines lib maxJobs segment highest content (fuel + events.length) offset f'.replayer =
            .error (.refused refusal) ∧ Prune.interrupted refusal = true := by
  induction events generalizing f f' left with
  | nil =>
      cases folded
      exact .inl ⟨left, f', rfl, after, .refl _, fun _ => rfl, opened, sound'⟩
  | cons e events ih =>
      rw [Ledger.foldEvents_cons] at folded
      obtain ⟨middle, stepped, folded⟩ := Option.bind_eq_some_iff.1 folded
      have encoded := encodable e List.mem_cons_self
      have notLast := more e List.mem_cons_self
      by_cases earlier : e.jobId.value ∈ left.map Resident.id
      · refine .inr ⟨⟨e, List.mem_cons_self, earlier⟩, fun segment highest content fuel offset rest here => ?_⟩
        obtain ⟨refusal, stops, reason⟩ := @After.refused lib maxJobs k start offset left base count f f' middle e segment
          after sound counted earlier stepped encoded
        refine ⟨refusal, ?_, reason⟩
        rw [List.length_cons, ← Nat.add_assoc,
          Ledger.replayLines_record encoded (here.trans (List.append_assoc (emit e) (Journal.records events) rest)), stops]
        rfl
      · have space : f.residents.length < maxJobs ∨ (∀ r ∈ left, r.closed = true) ∧ f.residents.length ≤ maxJobs :=
          room.imp_left fun large => counted.room large.1 large.2
        obtain ⟨left', middle', also, afterNext, sublist, whole⟩ := after.step opened earlier space stepped
        have roomNext : 1 ≤ start ∧ uint64Max ≤ maxJobs ∨ (∀ r ∈ left', r.closed = true) ∧ middle.residents.length ≤ maxJobs :=
          room.imp_right fun bounded => ⟨fun r member => bounded.1 r (sublist.subset member), step_length bounded.2 stepped⟩
        have line (segment : Segment) (offset : Nat) :
            f'.replayer.replayLine lib maxJobs segment offset (emit e) = .ok middle'.replayer :=
          (Ledger.replayLine_eq_ok sound' encoded).2 ⟨middle', also, rfl⟩
        have going : ¬middle'.replayer.last.toNat = uint64Max := by
          rw [show middle'.replayer.last = e.sequence from Ledger.last_of_step also]
          exact notLast
        have onward := ih afterNext (step_opened also opened) (sound.step stepped notLast) (sound'.step also notLast)
          (counted.step notLast stepped).1 roomNext (fun e member => encodable e (List.mem_cons_of_mem _ member))
          (fun e member => more e (List.mem_cons_of_mem _ member)) folded
        refine onward.imp ?_ ?_
        · rintro ⟨last, g', rest, afterLast, fewer, same, facts⟩
          refine ⟨last, g', ?_, afterLast, fewer.trans sublist, fun large => ?_, facts⟩
          · rw [Ledger.foldEvents_cons, also]
            exact rest
          · rw [same large, whole (counted.room large.1 large.2)]
        · rintro ⟨⟨other, member, inside⟩, stops⟩
          refine ⟨⟨other, List.mem_cons_of_mem _ member, (sublist.map Resident.id).subset inside⟩, ?_⟩
          intro segment highest content fuel offset rest here
          have there := here.trans (List.append_assoc (emit e) (Journal.records events) rest)
          rw [List.length_cons, ← Nat.add_assoc, Ledger.replayLines_record encoded there, line, Except.bind, if_neg going]
          refine stops segment highest content fuel _ rest ?_
          rw [← List.drop_drop, there, List.drop_left]

theorem replaySegment_stops {readAll : Bytes → Option Bytes} (highest : Bool) (encodable : Encodable events) (nonempty : events ≠ [])
    (named : segment.first = f'.expected) (read : readAll segment.name = some (Journal.records events))
    (stops : ∀ other highest content fuel offset rest, content.drop offset = Journal.records events ++ rest → ∃ refusal,
      Replayer.replayLines lib maxJobs other highest content (fuel + events.length) offset (f'.openSegment segment).replayer =
        .error (.refused refusal) ∧ Prune.interrupted refusal = true) :
    ∃ refusal, f'.replayer.replaySegment lib maxJobs readAll segment highest = .error (.refused refusal) ∧
      Prune.interrupted refusal = true := by
  have some_ : ¬(Journal.records events).isEmpty = true := fun empty => nonempty ((records_isEmpty encodable).1 empty)
  have first : ¬segment.first ≠ f'.replayer.expected := not_not.2 named
  obtain ⟨fuel, enough⟩ := Nat.exists_eq_add_of_le' (Ledger.records_length encodable)
  have whole : (Journal.records events).drop 0 = Journal.records events ++ [] := by simp
  obtain ⟨refusal, stopped, interrupted⟩ := stops segment highest _ fuel 0 [] whole
  refine ⟨refusal, ?_, interrupted⟩
  rw [Replayer.replaySegment, read]
  dsimp only
  rw [if_neg first, if_neg (by simp [some_]), if_neg (by simp [some_]), Ledger.replayer_openSegment, enough]
  exact stopped

theorem After.foldLayout {layout : Layout} {start' : Nat} (after : After k left base count f f') (sound : f.Sound) (sound' : f'.Sound)
    (counted : Counted start f) (counted' : Counted start' f')
    (room : 1 ≤ start ∧ uint64Max ≤ maxJobs ∨ (∀ r ∈ left, r.closed = true) ∧ f.residents.length ≤ maxJobs)
    (encodable : Encodable layout.events) (more : Ledger.Continues layout.events)
    (begun : f'.records = 0 → ∀ entry ∈ layout.head?, entry.2 ≠ []) (folded : Ledger.foldLayout lib maxJobs f layout = some g) :
    (∃ left' g', Ledger.foldLayout lib maxJobs f' layout = some g' ∧ After k left' base count g g' ∧ left'.Sublist left ∧
        (1 ≤ start ∧ uint64Max ≤ maxJobs → left' = left)) ∨
      (∃ e ∈ layout.events, e.jobId.value ∈ left.map Resident.id) ∧
        ∀ readAll : Bytes → Option Bytes, (∀ entry ∈ layout, readAll (toSegment entry).name = some (Journal.records entry.2)) →
          ∃ refusal, Replayer.replaySegments lib maxJobs readAll (layout.map toSegment) f'.replayer = .error (.refused refusal) ∧
            Prune.interrupted refusal = true := by
  induction layout generalizing f f' left with
  | nil =>
      cases folded
      exact .inl ⟨left, f', rfl, after, .refl _, fun _ => rfl⟩
  | cons entry layout ih =>
      have mine : ∀ e ∈ entry.2, e ∈ Layout.events (entry :: layout) := fun e member => List.mem_append_left _ member
      have others : ∀ e ∈ Layout.events layout, e ∈ Layout.events (entry :: layout) :=
        fun e member => List.mem_append_right _ member
      have myEncodable : Encodable entry.2 := fun e member => encodable e (mine e member)
      have myMore : Ledger.Continues entry.2 := fun e member => more e (mine e member)
      obtain ⟨named, checked, middle, inner, folded⟩ := Ledger.foldLayout_cons.1 folded
      have named' : (toSegment entry).first = f'.expected := named.trans after.expected
      have checked' : ¬(entry.2 = [] ∧ (layout ≠ [] ∨ f'.records = 0 ∧ (toSegment entry).first ≠ 1)) := by
        rintro ⟨empty, last | ⟨none, -⟩⟩
        · exact checked ⟨empty, .inl last⟩
        · exact begun none entry rfl empty
      have countedOpen : Counted start (f.openSegment (toSegment entry)) := ⟨counted.sequences, counted.jobs, counted.born⟩
      have countedOpen' : Counted start' (f'.openSegment (toSegment entry)) := ⟨counted'.sequences, counted'.jobs, counted'.born⟩
      have openedSegment : (f'.openSegment (toSegment entry)).segments ≠ [] := List.append_ne_nil_of_right_ne_nil _ (List.cons_ne_nil _ _)
      rcases (after.openSegment (toSegment entry)).foldEvents openedSegment (sound.openSegment _) (sound'.openSegment _) countedOpen room
        myEncodable myMore inner with continued | stopped
      · obtain ⟨left', middle', also, afterNext, sublist, whole, -, soundNext'⟩ := continued
        obtain ⟨countedNext', added'⟩ := countedOpen'.foldEvents myMore also
        have roomNext : 1 ≤ start ∧ uint64Max ≤ maxJobs ∨ (∀ r ∈ left', r.closed = true) ∧ middle.residents.length ≤ maxJobs :=
          room.imp_right fun bounded => ⟨fun r member => bounded.1 r (sublist.subset member), foldEvents_length bounded.2 inner⟩
        -- the first segment has records, so only the start of the later segments has none
        have begunNext : middle'.records = 0 → ∀ entry ∈ layout.head?, entry.2 ≠ [] := by
          intro none
          have both : f'.records.toNat + entry.2.length = 0 := by
            rw [← UInt64.toNat_inj] at none
            exact added'.symm.trans none
          have fresh : f'.records = 0 := UInt64.toNat_inj.1 (Nat.eq_zero_of_add_eq_zero_right both)
          exact absurd (List.eq_nil_of_length_eq_zero (Nat.eq_zero_of_add_eq_zero_left both)) (begun fresh entry rfl)
        have onward := ih afterNext ((sound.openSegment _).foldEvents myMore inner) soundNext' (countedOpen.foldEvents myMore inner).1
          countedNext' roomNext (fun e member => encodable e (others e member)) (fun e member => more e (others e member))
          begunNext folded
        refine onward.imp ?_ ?_
        · rintro ⟨last, g', rest, afterLast, fewer, same⟩
          exact ⟨last, g', Ledger.foldLayout_cons.2 ⟨named', checked', middle', also, rest⟩, afterLast, fewer.trans sublist,
            fun large => (same large).trans (whole large)⟩
        · rintro ⟨⟨other, member, inside⟩, stops⟩
          refine ⟨⟨other, others other member, (sublist.map Resident.id).subset inside⟩, fun readAll read => ?_⟩
          obtain ⟨refusal, stopped, interrupted⟩ := stops readAll fun entry member => read entry (List.mem_cons_of_mem _ member)
          refine ⟨refusal, ?_, interrupted⟩
          have one : f'.replayer.replaySegment lib maxJobs readAll (toSegment entry) (layout.map toSegment).isEmpty =
              .ok middle'.replayer := by
            rw [Ledger.replaySegment_eq_ok sound' myEncodable myMore (read entry List.mem_cons_self)]
            refine ⟨named', ?_, middle', also, rfl⟩
            simpa using checked'
          rw [List.map_cons, Replayer.replaySegments, one]
          exact stopped
      · obtain ⟨⟨e, member, earlier⟩, stops⟩ := stopped
        refine .inr ⟨⟨e, mine e member, earlier⟩, fun readAll read => ?_⟩
        obtain ⟨refusal, stopped, interrupted⟩ := replaySegment_stops (layout.map toSegment).isEmpty myEncodable
          (List.ne_nil_of_mem member) named' (read entry List.mem_cons_self) stops
        refine ⟨refusal, ?_, interrupted⟩
        rw [List.map_cons, Replayer.replaySegments, stopped]
        rfl

end Refusals

end Sitometron.Journal
