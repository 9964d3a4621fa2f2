import Sitometron.Proof.Journal.Archive
import Sitometron.Proof.Journal.Retained

/-!
# Pruning a closed prefix

A prune that reports success has moved the longest prunable prefix, whatever the calls of the file system answered. A replay then
sees the retained segments.
-/

namespace Sitometron.Journal

open Core Script Maintenance

namespace Prune

def Passes (post : Volume × PruneResult → Prop) : Option PruneResult → Volume × PruneResult → Prop
  | none, t => post t
  | some r, _ => r.status ≠ .done

section Faults

variable {lib : Libraries} {what directory name : Bytes} {dryRun : Bool} {names : List Bytes} {replayed : ReplayResult}
  {w : Volume × PruneResult} {post : Volume × PruneResult → Prop}

theorem keeps_finish (status : MaintenanceStatus) (detail : Bytes) :
    Keeps (fun _ => True) (finish status detail) w fun r t =>
      t.1 = w.1 ∧ r.status = status ∧ (status = .done → r.jobs = w.2.jobs) := by
  apply keeps_bind
  apply keeps_setResult trivial
  apply keeps_result trivial
  refine ⟨rfl, ?_, ?_⟩
  · dsimp only
    split <;> rfl
  · rintro rfl
    rfl

theorem keeps_stop {status : MaintenanceStatus} (other : status ≠ .done) (detail : Bytes) :
    Keeps (fun _ => True) (do return some (← finish status detail)) w (Passes post) := by
  apply keeps_bind
  apply (keeps_finish status detail).mono
  rintro r t - ⟨-, ended, -⟩
  apply keeps_pure trivial
  show r.status ≠ .done
  rw [ended]
  exact other

theorem keeps_fail (step path : Bytes) : Keeps (fun _ => True) (fail step path) w (Passes post) := keeps_stop (by decide) _

theorem keeps_notOwnFile : Keeps (fun _ => True) (notOwnFile directory name false) w fun _ t => t = w := by
  apply keeps_bind
  apply keeps_reads trivial
  · exact keeps_pure trivial rfl
  · apply keeps_ite
    · exact fun _ => keeps_pure trivial rfl
    · exact fun _ => keeps_pure trivial rfl

theorem keeps_checkSources : Keeps (fun _ => True) (checkSources directory names) w (Passes (· = w)) := by
  induction names with
  | nil => exact keeps_pure trivial rfl
  | cons name names ih =>
      apply keeps_bind
      apply keeps_notOwnFile.mono
      rintro reason t - rfl
      cases reason with
      | none => exact keeps_fail _ _
      | some reason =>
          apply keeps_ite
          · exact fun _ => keeps_stop (by decide) _
          · exact fun _ => ih

theorem keeps_checkDestinations : Keeps (fun _ => True) (checkDestinations directory names) w (Passes (· = w)) := by
  induction names with
  | nil => exact keeps_pure trivial rfl
  | cons name names ih =>
      apply keeps_bind
      apply keeps_reads trivial
      · exact keeps_fail _ _
      · apply keeps_ite
        · exact fun _ => keeps_stop (by decide) _
        · exact fun _ => ih

theorem keeps_moveSegments :
    Keeps (fun _ => True) (moveSegments directory names) w
      (Passes fun t => t.1 = w.1.moves names ∧ t.2.jobs = w.2.jobs) := by
  induction names generalizing w with
  | nil => exact keeps_pure trivial ⟨rfl, rfl⟩
  | cons name names ih =>
      apply keeps_bind
      apply keeps_acts trivial
      · intro error failed
        apply keeps_ite
        · exact fun _ => keeps_fail _ _
        · exact fun none => absurd failed none
      · intro _
        refine ⟨trivial, fun error => ?_⟩
        apply keeps_ite
        · exact fun _ => keeps_fail _ _
        · intro _
          apply keeps_bind
          apply keeps_setResult trivial
          apply keeps_bind
          apply keeps_status trivial
          intro archiveSynced
          apply keeps_ite
          · exact fun _ => keeps_fail _ _
          · intro _
            apply keeps_bind
            apply keeps_status trivial
            intro journalSynced
            apply keeps_ite
            · exact fun _ => keeps_fail _ _
            · exact fun _ => ih

theorem keeps_archive :
    Keeps (fun _ => True) (archive directory names) w
      (Passes fun t => t.1 = w.1.ensureArchive.moves names ∧ t.2.jobs = w.2.jobs) := by
  apply keeps_bind
  apply keeps_reads trivial
  · exact keeps_fail _ _
  · apply keeps_ite
    · exact fun _ => keeps_stop (by decide) _
    · intro _
      apply keeps_bind
      apply keeps_acts trivial
      · intro error failed
        apply keeps_ite
        · exact fun _ => keeps_fail _ _
        · exact fun none => absurd failed none
      · intro _
        refine ⟨trivial, fun error => ?_⟩
        apply keeps_ite
        · exact fun _ => keeps_fail _ _
        · intro _
          apply keeps_bind
          apply keeps_status trivial
          intro synced
          apply keeps_ite
          · exact fun _ => keeps_fail _ _
          · intro _
            apply keeps_bind
            apply keeps_checkDestinations.mono
            intro refusal t _ passes
            cases refusal with
            | some refusal => exact keeps_pure trivial passes
            | none =>
                obtain rfl : t = _ := passes
                exact keeps_moveSegments

theorem keeps_syncEarlierMoves : Keeps (fun _ => True) (syncEarlierMoves directory) w (Passes fun _ => True) := by
  apply keeps_bind
  apply keeps_reads trivial
  · exact keeps_fail _ _
  · apply keeps_ite
    · exact fun _ => keeps_pure trivial trivial
    · intro _
      apply keeps_ite
      · exact fun _ => keeps_stop (by decide) _
      · intro _
        apply keeps_bind
        apply keeps_status trivial
        intro archiveSynced
        apply keeps_ite
        · exact fun _ => keeps_fail _ _
        · intro _
          apply keeps_bind
          apply keeps_status trivial
          intro journalSynced
          apply keeps_ite
          · exact fun _ => keeps_fail _ _
          · exact fun _ => keeps_pure trivial trivial

def Moved (replayed : ReplayResult) (w : Volume) (r : PruneResult) (t : Volume × PruneResult) : Prop :=
  r.status = .done → prunableLength replayed ≠ 0 ∧
    t.1 = w.ensureArchive.moves ((replayed.segments.take (prunableLength replayed)).map (·.name)) ∧
    r.jobs = (describe replayed (prunableLength replayed) 0 {}).jobs

theorem keeps_end {status : MaintenanceStatus} (other : status ≠ .done) (detail : Bytes) {v : Volume} :
    Keeps (fun _ => True) (finish status detail) w (Moved replayed v) := by
  apply (keeps_finish status detail).mono
  rintro r t - ⟨-, ended, -⟩ done
  exact absurd (ended.symm.trans done) other

theorem keeps_perform (direct : w.2.resumed = []) :
    Keeps (fun _ => True) (perform lib what directory dryRun replayed) w (Moved replayed w.1) := by
  apply keeps_bind
  apply keeps_setResult trivial
  apply keeps_bind
  apply keeps_result trivial
  rw [direct, List.length_nil]
  apply keeps_ite
  · intro both
    simp at both
  · intro _
    apply keeps_ite
    · intro _
      apply keeps_bind
      apply keeps_syncEarlierMoves.mono
      intro failure t _ passes
      cases failure with
      | some failure => exact keeps_pure trivial fun done => absurd done passes
      | none => exact keeps_end (by decide) _
    · intro some_
      apply keeps_bind
      apply keeps_setResult trivial
      apply keeps_bind
      apply keeps_result trivial
      apply keeps_bind
      apply keeps_checkSources.mono
      intro refusal t _ passes
      cases refusal with
      | some refusal => exact keeps_pure trivial fun done => absurd done passes
      | none =>
          obtain rfl : t = _ := passes
          apply keeps_ite
          · exact fun _ => keeps_end (by decide) _
          · intro _
            apply keeps_bind
            apply keeps_archive.mono
            intro failure t _ passes
            cases failure with
            | some failure => exact keeps_pure trivial fun done => absurd done passes
            | none =>
                obtain ⟨moved, jobs⟩ := passes
                apply keeps_bind
                apply keeps_replay_any trivial
                intro after
                apply keeps_ite
                · exact fun _ => keeps_end (by decide) _
                · intro _
                  apply (keeps_finish _ _).mono
                  rintro r u - ⟨same, -, kept⟩ -
                  exact ⟨some_, same.trans moved, (kept rfl).trans jobs⟩

theorem keeps_run {v : Volume} (wellFormed : v.WellFormed)
    (replays : (replayJournal lib what unlimited (some v.journal.names) (v.read v.journal)).status = .replayed) :
    Keeps (fun _ => True) (pruneClosedPrefix lib what directory dryRun) (v, {})
      (Moved (replayJournal lib what unlimited (some v.journal.names) (v.read v.journal)) (v.create lockName)) := by
  have seen : replayJournal lib what unlimited (some (v.create lockName).journal.names)
      ((v.create lockName).read (v.create lockName).journal) =
        replayJournal lib what unlimited (some v.journal.names) (v.read v.journal) := by
    apply replayJournal_congr (Volume.names_create_filter v lockName_not_segment)
    intro name looks
    exact wellFormed.read_create (ne_lockName looks)
  apply keeps_rescue
  · apply keeps_bind
    apply keeps_acts trivial
    · intro error failed
      apply keeps_ite
      · exact fun _ => keeps_end (by decide) _
      · exact fun none => absurd failed none
    · intro _
      refine ⟨trivial, fun error => ?_⟩
      apply keeps_ite
      · exact fun _ => keeps_end (by decide) _
      · intro _
        apply keeps_bind
        apply keeps_replay trivial
        · intro refused unreadable
          apply keeps_ite
          · intro replayed
            rw [unreadable] at replayed
            cases replayed
          · intro _
            have other : interrupted refused = false := by
              rw [interrupted, unreadable]
              rfl
            apply keeps_bind
            rw [replayInterrupted, other]
            exact keeps_pure trivial (keeps_end (by decide) _)
        · rw [seen]
          apply keeps_ite
          · exact fun _ => keeps_perform rfl
          · exact fun refused => absurd replays refused
  · intro t _
    exact keeps_end (by decide) _

end Faults

section Retained

variable {lib : Libraries} {what directory : Bytes} {dryRun : Bool} {maxJobs start next : Nat} {v : Volume} {layout : Layout} {g : Ledger}

theorem unlimited_large : uint64Max ≤ unlimited := by decide

theorem folds_unlimited (sequenced : Sequenced start next layout) (once : (createdIds layout.events).Nodup)
    (folded : Ledger.foldLayout lib maxJobs (.starting start) layout = some g) :
    ∃ full, Folded lib unlimited start next layout full := by
  by_cases bound : maxJobs ≤ unlimited
  · have unborn : Unborn (.starting start) layout.events := by
      constructor
      · exact once
      · intro r member
        cases member
    obtain ⟨full, also, -⟩ := (Beside.refl (.starting start)).foldLayout bound (Ledger.sound_starting start) sequenced.more unborn
      folded
    exact ⟨full, sequenced, also⟩
  · have large : uint64Max ≤ maxJobs := unlimited_large.trans (Nat.le_of_not_le bound)
    exact ⟨g, sequenced, foldLayout_of_large (Counted.starting sequenced.small) sequenced.positive large unlimited_large
      sequenced.more folded⟩

theorem names_of_segments (whole : Folded lib maxJobs start next layout g) (k : Nat) :
    (g.replayer.finish.segments.take k).map (·.name) = (layout.take k).map nameOfSegment := by
  have listed : g.replayer.finish.segments = layout.map segmentOf := whole.segments
  rw [listed, ← List.map_take, List.map_map]
  rfl

theorem views_moved (wellFormed : v.WellFormed) (views : Views v.journal.names (v.read v.journal) layout)
    (sequenced : Sequenced start next layout) (k : Nat) {u : Volume} (journal : u.journal = (v.create lockName).journal)
    (content : u.content = (v.create lockName).content) :
    let t := u.moves ((layout.take k).map nameOfSegment)
    Views t.journal.names (t.read t.journal) (layout.drop k) := by
  apply views.drop sequenced k
  · rw [Volume.names_moves, List.filter_comm, journal, Volume.names_create_filter v lockName_not_segment]
  · intro name looks stays
    have locked : u.read u.journal name = (v.create lockName).read (v.create lockName).journal name := by
      rw [Volume.read, Volume.read, journal, content]
    rw [Volume.read_moves stays, locked]
    exact wellFormed.read_create (ne_lockName looks)

end Retained

end Prune

end Sitometron.Journal
