import Sitometron.Proof.Core.Closure
import Sitometron.Proof.Journal.Resume

/-!
# What a prune keeps

The daemon replays the retained Journal as it replayed the whole one, and an interrupted prune is completed by the next one.
-/

namespace Sitometron.Journal

open Core Script Maintenance

namespace Prune

variable {lib : Libraries} {what directory : Bytes} {dryRun : Bool} {maxJobs : Nat} {v : Volume}

def prunableNames (replayed : ReplayResult) : List Bytes := (replayed.segments.take (prunableLength replayed)).map (·.name)

theorem Site.of_replay (wellFormed : v.WellFormed) {replayed : ReplayResult}
    (replays : replayJournal lib what unlimited (some v.directory.names) v.directory.read = replayed)
    (status : replayed.status = .replayed) (some_ : 0 < prunableLength replayed)
    (lockable : v.journal.kind lockName = .none ∨ v.journal.kind lockName = .regularFile)
    (archive : v.archiveKind = .directory ∨ v.archiveKind = .none)
    (regular : ∀ name ∈ prunableNames replayed, v.journal.kind name = .regularFile)
    (absent : ∀ name ∈ prunableNames replayed, v.archived.kind name = .none)
    (apart : ∀ name ∈ v.archived.names, isSegmentName name = true →
      (∀ other ∈ prunableNames replayed, name < other) ∨ ∀ other ∈ prunableNames replayed, other < name) :
    ∃ start next layout g, Site lib start next layout g v (prunableLength replayed) ∧
      prunableNames replayed = firstNames layout (prunableLength replayed) := by
  have distinct : v.directory.names.Nodup := by
    rw [v.directory_names]
    exact wellFormed.distinct
  have accepted : (replayJournal lib what unlimited (some v.directory.names) v.directory.read).status = .replayed := by
    rw [replays]
    exact status
  obtain ⟨layout, start, next, g, sequenced, views, folded⟩ := replayed_views distinct accepted
  have whole : Folded lib unlimited start next layout g := ⟨sequenced, folded⟩
  have finished : g.replayer.finish = replayed := by
    rw [← replays]
    exact (views.replay_of_fold sequenced folded).symm
  rw [v.directory_names, show v.directory.read = v.read v.journal from funext v.directory_read] at views
  have names : prunableNames replayed = firstNames layout (prunableLength replayed) := by
    rw [prunableNames, ← finished]
    exact names_of_segments whole _
  rw [names] at regular absent apart
  exact ⟨start, next, layout, g, ⟨whole, wellFormed, views, congrArg prunableLength finished, some_, lockable, archive, regular,
    absent, apart⟩, names⟩

def otherJob : Uuid := ⟨text "01890000-0000-7000-8000-000000000009"⟩

def closedLayout : Layout :=
  [(1, [recordOf sampleCreated 1 sampleStamp,
      recordOf (sampleProposal .cancelAccepted (.principal ⟨text "operator"⟩)) 2 sampleStamp]),
    (3, [recordOf (sampleProposal .finalizationFailed .empty) 3 sampleStamp,
      recordOf (sampleProposal .terminalOutcomeCommitted (.terminalOutcome ⟨.cancelled⟩)) 4 sampleStamp]),
    (5, [recordOf { jobId := otherJob, eventType := .jobCreated, payload := .jobCreated ⟨otherJob⟩ } 5 sampleStamp])]

def closedVolume (archived : List Bytes) : Volume where
  journal := { files := [⟨segmentName 1, 0, false⟩, ⟨segmentName 3, 1, false⟩, ⟨segmentName 5, 2, false⟩] }
  archive := some { files := archived.map fun name => ⟨name, 3, false⟩ }
  content := fun file => records ((closedLayout[file]?.map (·.2)).getD [])
  fresh := 4

theorem closedLayout_sequenced : Sequenced 1 6 closedLayout where
  chain := ⟨rfl, ⟨rfl, rfl, trivial⟩, nofun, rfl, ⟨rfl, rfl, trivial⟩, nofun, rfl, ⟨rfl, trivial⟩, nofun, rfl⟩
  positive := Nat.le_refl 1
  bound := by decide
  fresh := nofun
  encodable := by
    have accepted : ∀ e ∈ closedLayout.events, violation e = none ∧ e.recordedAt.length ≤ 64 := by decide +kernel
    exact fun e member => encodeRecord_of_violation (accepted e member).1 (accepted e member).2

theorem closedLayout_folds : ∃ g, Ledger.foldLayout sampleLibraries unlimited (.starting 1) closedLayout = some g ∧
    prunableLength g.replayer.finish = 2 := by
  have length : (Ledger.foldLayout sampleLibraries unlimited (.starting 1) closedLayout).map
      (fun g => prunableLength g.replayer.finish) = some 2 := by decide +kernel
  exact Option.map_eq_some_iff.1 length

theorem closedVolume_names (archived : List Bytes) : (closedVolume archived).journal.names = closedLayout.map nameOfSegment := rfl

theorem closedVolume_wellFormed (archived : List Bytes) : (closedVolume archived).WellFormed where
  distinct := nodup_of_sorted (closedVolume_names archived ▸ closedLayout_sequenced.sorted)
  old := by
    intro link member
    simp only [closedVolume, Volume.archived, Option.getD_some, List.mem_append, List.mem_cons, List.not_mem_nil, or_false,
      List.mem_map] at member
    rcases member with (rfl | rfl | rfl) | ⟨name, -, rfl⟩ <;> simp [closedVolume]
  alone := fun _ _ => rfl

theorem closedVolume_views (archived : List Bytes) :
    Views (closedVolume archived).journal.names ((closedVolume archived).read (closedVolume archived).journal) closedLayout where
  listed := by
    rw [closedVolume_names, List.filter_eq_self.2]
    intro name member
    obtain ⟨entry, inside, rfl⟩ := List.mem_map.1 member
    exact isSegmentName_of_first (closedLayout_sequenced.first inside)
  reads := by
    have found : ∀ file < 3, ∀ entry, closedLayout[file]? = some entry →
        (closedVolume archived).journal.find (nameOfSegment entry) = some ⟨nameOfSegment entry, file, false⟩ := by
      intro file small entry at_
      have member : (⟨nameOfSegment entry, file, false⟩ : Link) ∈ (closedVolume archived).journal.files := by
        match file, small, at_ with
        | 0, _, rfl => exact List.mem_cons_self
        | 1, _, rfl => exact List.mem_cons_of_mem _ List.mem_cons_self
        | 2, _, rfl => exact List.mem_cons_of_mem _ (List.mem_cons_of_mem _ List.mem_cons_self)
      exact Place.find_of_mem (closedVolume_wellFormed archived).distinct member
    intro entry member
    obtain ⟨file, at_⟩ := List.getElem?_of_mem member
    have small : file < 3 := (List.getElem?_eq_some_iff.1 at_).1
    rw [Volume.read, found file small entry at_, Option.map_some]
    show some (records ((closedLayout[file]?.map (·.2)).getD [])) = _
    rw [at_]
    rfl

theorem closedVolume_replays (archived : List Bytes) :
    ∃ g, replayJournal sampleLibraries [] unlimited (some (closedVolume archived).directory.names) (closedVolume archived).directory.read =
        g.replayer.finish ∧
      Folded sampleLibraries unlimited 1 6 closedLayout g ∧ prunableLength g.replayer.finish = 2 := by
  obtain ⟨g, folded, length⟩ := closedLayout_folds
  refine ⟨g, ?_, ⟨closedLayout_sequenced, folded⟩, length⟩
  rw [Volume.directory_names, show (closedVolume archived).directory.read = _ from funext (Volume.directory_read _)]
  exact (closedVolume_views archived).replay_of_fold closedLayout_sequenced folded

theorem closedLayout_prefix {g : Ledger} (whole : Folded sampleLibraries unlimited 1 6 closedLayout g)
    (length : prunableLength g.replayer.finish = 2) : prunableNames g.replayer.finish = [segmentName 1, segmentName 3] := by
  rw [prunableNames, length, names_of_segments whole]
  rfl

theorem closedVolume_regular (archived : List Bytes) :
    ∀ name ∈ [segmentName 1, segmentName 3], (closedVolume archived).journal.kind name = .regularFile := by
  intro name member
  have distinct := (closedVolume_wellFormed archived).distinct
  rcases List.mem_cons.1 member with rfl | last
  · exact Place.kind_regular (Place.find_of_mem distinct List.mem_cons_self) rfl
  · rw [List.mem_singleton.1 last]
    exact Place.kind_regular (Place.find_of_mem distinct (List.mem_cons_of_mem _ List.mem_cons_self)) rfl

theorem closedVolume_unlocked (archived : List Bytes) : (closedVolume archived).journal.kind lockName = .none := by
  have absent : (closedVolume archived).journal.find lockName = none := by
    rw [Place.find_eq_none, closedVolume_names]
    intro member
    obtain ⟨entry, inside, same⟩ := List.mem_map.1 member
    exact ne_lockName (isSegmentName_of_first (closedLayout_sequenced.first inside)) same
  rw [Place.kind, absent]
  rfl

/-- A success of the operation keeps what the daemon replays, at its own capacity. -/
theorem pruneClosedPrefix_preserves (wellFormed : v.WellFormed) (once : (createdIds (journalRecords lib.json v.directory)).Nodup)
    (replays : (replayJournal lib what maxJobs (some v.directory.names) v.directory.read).status = .replayed)
    {answers rest : List Fault} {r : PruneResult} {t : Volume × PruneResult}
    (returned : pruneClosedPrefix lib what directory dryRun (v, {}) answers = (.returned r, t, rest)) (done : r.status = .done) :
    let before := replayJournal lib what maxJobs (some v.directory.names) v.directory.read
    let after := replayJournal lib what maxJobs (some t.1.directory.names) t.1.directory.read
    after.status = .replayed ∧ after.nextSequence = before.nextSequence ∧ after.unresolved = before.unresolved ∧
      (∀ e ∈ journalRecords lib.json t.1.directory,
        (journalRecords lib.json t.1.directory).filter (·.jobId = e.jobId) =
          (journalRecords lib.json v.directory).filter (·.jobId = e.jobId)) ∧
      ∀ job ∈ before.jobs.zip before.createdSequences, job.1.jobId ∉ r.jobs →
        job ∈ after.jobs.zip after.createdSequences := by
  have names (u : Volume) : u.directory.names = u.journal.names := u.directory_names
  have read (u : Volume) : u.directory.read = u.read u.journal := funext u.directory_read
  have distinct : v.directory.names.Nodup := by
    rw [names]
    exact wellFormed.distinct
  obtain ⟨layout, start, next, g, sequenced, views, folded⟩ := replayed_views distinct replays
  have recordsBefore := views.journalRecords sequenced distinct lib.json
  rw [recordsBefore] at once
  obtain ⟨full, whole⟩ := folds_unlimited sequenced once folded
  have before : replayJournal lib what maxJobs (some v.directory.names) v.directory.read = g.replayer.finish :=
    views.replay_of_fold sequenced folded
  have tool : replayJournal lib what unlimited (some v.directory.names) v.directory.read = full.replayer.finish :=
    views.replay_of_fold sequenced whole.folded
  rw [names, read] at views tool
  -- what the tool moved
  have run : Keeps (fun _ => True) (pruneClosedPrefix lib what directory dryRun) (v, {}) _ :=
    keeps_run wellFormed (by rw [tool]; rfl)
  have ran := run answers
  rw [returned, tool] at ran
  obtain ⟨some_, moved, jobs⟩ := ran.2 r rfl done
  have greatest := whole.isGreatest unlimited_large (whole.recorded_of_positive (Nat.pos_of_ne_zero some_))
  rw [names_of_segments whole] at moved
  generalize prunableLength full.replayer.finish = k at greatest moved jobs
  -- the Journal cut after the prefix, at both capacities
  obtain ⟨f, halves⟩ := Folded.halves ⟨sequenced, folded⟩ greatest.1.1
  obtain ⟨f', fullHalves⟩ := whole.halves greatest.1.1
  obtain ⟨entry, others, cut⟩ := halves.exists_cut
  obtain ⟨left, h, retained, after, leftBehind⟩ := halves.retained fullHalves unlimited_large once greatest.1.2 cut
  have sequencedAfter := halves.sequenced_second cut
  have viewsAfter : Views t.1.directory.names t.1.directory.read (layout.drop k) := by
    rw [names, read, moved]
    exact views_moved wellFormed views sequenced k rfl rfl
  have replaysAfter : replayJournal lib what maxJobs (some t.1.directory.names) t.1.directory.read = h.replayer.finish :=
    viewsAfter.replay_of_fold sequencedAfter retained
  have distinctAfter : t.1.directory.names.Nodup := by
    rw [names, moved, Volume.names_moves]
    exact ((wellFormed.create lockName).distinct).filter _
  have recordsAfter := viewsAfter.journalRecords sequencedAfter distinctAfter lib.json
  rw [before, replaysAfter, recordsBefore, recordsAfter]
  refine ⟨rfl, after.expected.symm, (after.unresolved fun r member => (leftBehind r member).2.1).symm, ?_, ?_⟩
  · intro e member
    have split : layout.events = Layout.events (layout.take k) ++ Layout.events (layout.drop k) := by
      rw [Layout.events, Layout.events, Layout.events, ← List.flatMap_append, List.take_append_drop]
    have none_ : (Layout.events (layout.take k)).filter (·.jobId = e.jobId) = [] := by
      rw [List.filter_eq_nil_iff]
      intro other early same
      have apart := greatest.1.2.separate (whole.tracks unlimited_large) whole.sound early member
      exact apart (congrArg Uuid.value (of_decide_eq_true same))
    rw [split, List.filter_append, none_, List.nil_append]
  · intro job member kept
    rcases after.jobs member with ⟨r', inside, rfl⟩ | same
    · obtain ⟨resident, -, begins⟩ := leftBehind r' inside
      apply absurd _ kept
      rw [jobs, describe]
      apply List.mem_map.2
      refine ⟨(r'.snapshot, r'.span), ?_, rfl⟩
      rw [jobs_zip_spans]
      exact List.mem_filter.2 ⟨List.mem_map_of_mem (f := fun r => (r.snapshot, r.span)) resident, decide_eq_true begins⟩
    · exact same

theorem pruneClosedPrefix_preserves_closed : ∃ answers r t rest,
    pruneClosedPrefix sampleLibraries [] [] false (closedVolume [], {}) answers = (.returned r, t, rest) ∧ r.status = .done ∧
      (replayJournal sampleLibraries [] unlimited (some t.1.directory.names) t.1.directory.read).status = .replayed := by
  obtain ⟨g, replays, whole, length⟩ := closedVolume_replays []
  have names := closedLayout_prefix whole length
  obtain ⟨start, next, layout, g', site, -⟩ := Site.of_replay (closedVolume_wellFormed []) replays rfl (by rw [length]; decide)
    (.inl (closedVolume_unlocked [])) (.inl rfl) (by rw [names]; exact closedVolume_regular []) (fun name _ => rfl)
    (fun name member => by cases member)
  have ends : Ends Fault.Fine (pruneClosedPrefix sampleLibraries [] [] false) ((closedVolume []).moves (firstNames layout 0), {}) _ :=
    site.ends_prune (Nat.zero_le _)
  obtain ⟨r, t, ⟨n, ran⟩, status, -⟩ := ends
  rw [length, if_pos (by decide)] at status
  obtain ⟨used, rest, -, -, returned⟩ := ran (List.replicate n {}) (by rw [List.length_replicate]) (by
    intro fault member
    rw [List.eq_of_mem_replicate member]
    exact ⟨rfl, rfl, rfl, nofun⟩)
  have once : (createdIds (journalRecords sampleLibraries.json (closedVolume []).directory)).Nodup := by
    have views := closedVolume_views []
    rw [← Volume.directory_names, ← show (closedVolume []).directory.read = _ from funext (Volume.directory_read _)] at views
    rw [views.journalRecords closedLayout_sequenced (by rw [Volume.directory_names]; exact (closedVolume_wellFormed []).distinct)]
    decide +kernel
  have replayed : (replayJournal sampleLibraries [] unlimited (some (closedVolume []).directory.names)
      (closedVolume []).directory.read).status = .replayed := by
    rw [replays]
    rfl
  have kept := pruneClosedPrefix_preserves (closedVolume_wellFormed []) once replayed returned status
  exact ⟨_, r, t, rest, returned, status, kept.1⟩

/-- A prune that was interrupted after any of its moves is completed by the next one. -/
theorem pruneClosedPrefix_resumes (wellFormed : v.WellFormed) {replayed : ReplayResult}
    (replays : replayJournal lib what unlimited (some v.directory.names) v.directory.read = replayed)
    (status : replayed.status = .replayed) (some_ : 0 < prunableLength replayed)
    (lockable : v.journal.kind lockName = .none ∨ v.journal.kind lockName = .regularFile)
    (archive : v.archiveKind = .directory ∨ v.archiveKind = .none)
    (regular : ∀ name ∈ prunableNames replayed, v.journal.kind name = .regularFile)
    (absent : ∀ name ∈ prunableNames replayed, v.archived.kind name = .none)
    (apart : ∀ name ∈ v.archived.names, isSegmentName name = true →
      (∀ other ∈ prunableNames replayed, name < other) ∨ ∀ other ∈ prunableNames replayed, other < name) :
    ∃ final : Volume,
      Ends Fault.Fine (pruneClosedPrefix lib what directory false) (v, {}) (fun r t => r.status = .done ∧ t.1 = final) ∧
      ∀ i ≤ prunableLength replayed,
        Ends Fault.Fine (pruneClosedPrefix lib what directory false) (v.moves ((prunableNames replayed).take i), {}) fun r t =>
          r.status = (if i < prunableLength replayed then .done else .nothingToDo) ∧ t.1 = final := by
  obtain ⟨start, next, layout, g, site, names⟩ :=
    Site.of_replay wellFormed replays status some_ lockable archive regular absent apart
  refine ⟨stateAt v layout (prunableLength replayed), ?_, ?_⟩
  · have uninterrupted : Ends Fault.Fine (pruneClosedPrefix lib what directory false) (v.moves (firstNames layout 0), {}) _ :=
      site.ends_prune (Nat.zero_le _)
    rw [if_pos some_] at uninterrupted
    exact uninterrupted
  · intro i within
    have taken : (prunableNames replayed).take i = firstNames layout i := by
      rw [names, firstNames, firstNames, ← List.map_take, List.take_take, Nat.min_eq_left within]
    rw [taken]
    exact site.ends_prune within

theorem pruneClosedPrefix_resumes_closed : ∃ final : Volume,
    Ends Fault.Fine (pruneClosedPrefix sampleLibraries [] [] false) (closedVolume [], {})
      (fun r t => r.status = .done ∧ t.1 = final) ∧
    Ends Fault.Fine (pruneClosedPrefix sampleLibraries [] [] false) ((closedVolume []).moves [segmentName 1], {}) fun r t =>
      r.status = .done ∧ t.1 = final := by
  obtain ⟨g, replays, whole, length⟩ := closedVolume_replays []
  have names := closedLayout_prefix whole length
  obtain ⟨final, uninterrupted, resumed⟩ := @pruneClosedPrefix_resumes sampleLibraries [] [] (closedVolume []) (closedVolume_wellFormed []) _ replays rfl
    (by rw [length]; decide) (.inl (closedVolume_unlocked [])) (.inl rfl) (by rw [names]; exact closedVolume_regular [])
    (fun name _ => rfl) (fun name member => by cases member)
  have one := resumed 1 (by rw [length]; decide)
  rw [names, length] at one
  exact ⟨final, uninterrupted, one⟩

def strayName : Bytes := text "journal-00000000000000000001.old.ndjson"

def refusedRun (exit : Exit PruneResult) : Bool :=
  match exit with
  | .returned r => r.status = .refused
  | _ => false

/-- Another name between those of the prefix makes the search refuse. -/
theorem pruneClosedPrefix_stray :
    (closedVolume [strayName]).WellFormed ∧
      (∃ replayed, replayJournal sampleLibraries [] unlimited (some (closedVolume [strayName]).directory.names)
          (closedVolume [strayName]).directory.read = replayed ∧ replayed.status = .replayed ∧ prunableLength replayed = 2 ∧
        prunableNames replayed = [segmentName 1, segmentName 3]) ∧
      (∀ name ∈ [segmentName 1, segmentName 3], (closedVolume [strayName]).journal.kind name = .regularFile ∧
        (closedVolume [strayName]).archived.kind name = .none) ∧
      (closedVolume [strayName]).journal.kind lockName = .none ∧ (closedVolume [strayName]).archiveKind = .directory ∧
      refusedRun (pruneClosedPrefix sampleLibraries [] [] false ((closedVolume [strayName]).moves [segmentName 1], {})
        (List.replicate 9 {})).1 = true := by
  obtain ⟨g, replays, whole, length⟩ := closedVolume_replays [strayName]
  refine ⟨closedVolume_wellFormed _, ⟨_, replays, rfl, length, closedLayout_prefix whole length⟩, ?_,
    closedVolume_unlocked _, rfl, by decide +kernel⟩
  intro name member
  refine ⟨closedVolume_regular _ name member, ?_⟩
  rcases List.mem_cons.1 member with rfl | last
  · decide +kernel
  · rw [List.mem_singleton.1 last]
    decide +kernel

end Prune

end Sitometron.Journal
