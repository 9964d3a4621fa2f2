import Sitometron.Proof.Journal.View
import Sitometron.Proof.Journal.Volume

/-!
# Segments moved to the archive

A move takes a name out of the Journal directory and changes no content. A replay sees the segments that stay, and together with
moved ones that are read in `archive/` it sees these too.
-/

namespace Sitometron.Journal

open Core Maintenance

namespace Volume

variable {v : Volume} {name other : Bytes} {names : List Bytes} {link : Link}

def moves (v : Volume) (names : List Bytes) : Volume := names.foldl move v

def ensureArchive (v : Volume) : Volume := { v with archive := some v.archived }

@[simp] theorem moves_nil (v : Volume) : v.moves [] = v := rfl

@[simp] theorem moves_cons (v : Volume) (name : Bytes) (names : List Bytes) : v.moves (name :: names) = (v.move name).moves names := rfl

theorem moves_append (v : Volume) (names others : List Bytes) : v.moves (names ++ others) = (v.moves names).moves others :=
  List.foldl_append

theorem move_of_absent (absent : v.journal.find name = none) : v.move name = v := by
  rw [move, absent]

theorem move_of_found (found : v.journal.find name = some link) :
    v.move name = { v with
      journal := { v.journal with files := v.journal.files.filter (·.name ≠ name) }
      archive := some { v.archived with files := v.archived.files ++ [link] } } := by
  rw [move, found]

theorem files_move (v : Volume) (name : Bytes) : (v.move name).journal.files = v.journal.files.filter (·.name ≠ name) := by
  cases found : v.journal.find name with
  | some link => rw [move_of_found found]
  | none =>
      rw [move_of_absent found, List.filter_eq_self.2]
      intro link member
      have absent := List.find?_eq_none.1 found link member
      simpa using absent

theorem content_move (v : Volume) (name : Bytes) : (v.move name).content = v.content := by
  unfold move
  split <;> rfl

theorem others_move (v : Volume) (name : Bytes) : (v.move name).journal.others = v.journal.others := by
  unfold move
  split <;> rfl

theorem files_moves (v : Volume) (names : List Bytes) :
    (v.moves names).journal.files = v.journal.files.filter (·.name ∉ names) := by
  induction names generalizing v with
  | nil => simp
  | cons name names ih =>
      rw [moves_cons, ih, files_move, List.filter_filter]
      apply List.filter_congr
      intro link _
      simp [Bool.and_comm]

theorem content_moves (v : Volume) (names : List Bytes) : (v.moves names).content = v.content := by
  induction names generalizing v with
  | nil => rfl
  | cons name names ih => rw [moves_cons, ih, content_move]

theorem others_moves (v : Volume) (names : List Bytes) : (v.moves names).journal.others = v.journal.others := by
  induction names generalizing v with
  | nil => rfl
  | cons name names ih => rw [moves_cons, ih, others_move]

theorem names_moves (v : Volume) (names : List Bytes) : (v.moves names).journal.names = v.journal.names.filter (· ∉ names) := by
  rw [Place.names, files_moves, Place.names, List.filter_map]
  rfl

theorem find_moves (stays : name ∉ names) : (v.moves names).journal.find name = v.journal.find name := by
  rw [Place.find, files_moves, List.find?_filter]
  apply List.find?_congr
  intro link _
  by_cases same : link.name = name
  · simp [same, stays]
  · simp [same]

theorem kind_moves (stays : name ∉ names) : (v.moves names).journal.kind name = v.journal.kind name := by
  rw [Place.kind, Place.kind, find_moves stays, others_moves]

theorem read_moves (stays : name ∉ names) : (v.moves names).read (v.moves names).journal name = v.read v.journal name := by
  rw [read, read, find_moves stays, content_moves]

theorem archived_moves (distinct : names.Nodup) :
    (v.moves names).archived.files = v.archived.files ++ names.filterMap v.journal.find ∧
      (v.moves names).archived.others = v.archived.others := by
  induction names generalizing v with
  | nil => simp
  | cons name names ih =>
      obtain ⟨fresh, distinct⟩ := List.nodup_cons.1 distinct
      obtain ⟨files, others⟩ := @ih (v.move name) distinct
      have later : names.filterMap (v.move name).journal.find = names.filterMap v.journal.find := by
        apply List.filterMap_congr
        intro other member
        have stays : other ∉ [name] := by
          rw [List.mem_singleton]
          rintro rfl
          exact fresh member
        exact find_moves stays
      rw [moves_cons, files, others, later]
      cases found : v.journal.find name with
      | none =>
          rw [move_of_absent found, List.filterMap_cons_none found]
          exact ⟨rfl, rfl⟩
      | some link =>
          rw [move_of_found found, List.filterMap_cons_some found]
          exact ⟨List.append_assoc _ _ _, rfl⟩

theorem find_archived_moves (distinct : names.Nodup) (absent : v.archived.find name = none) :
    (v.moves names).archived.find name = if name ∈ names then v.journal.find name else none := by
  rw [Place.find, (archived_moves distinct).1, List.find?_append, show v.archived.files.find? _ = none from absent,
    Option.none_or]
  induction names with
  | nil => rfl
  | cons other names ih =>
      have rest := ih (List.nodup_cons.1 distinct).2
      cases found : v.journal.find other with
      | none =>
          rw [List.filterMap_cons_none found, rest]
          by_cases same : name = other
          · simp [same, found]
          · simp [same]
      | some link =>
          obtain ⟨-, named⟩ := Place.mem_of_find found
          rw [List.filterMap_cons_some found, List.find?_cons]
          by_cases same : name = other
          · simp [same, named, found]
          · have differs : ¬link.name = name := fun equal => same (equal.symm.trans named)
            simp [same, differs, rest]

theorem kind_archived_moves (distinct : names.Nodup) (absent : v.archived.kind name = .none) (stays : name ∉ names) :
    (v.moves names).archived.kind name = .none := by
  have unlisted : v.archived.find name = none := Place.find_eq_none.2 (Place.absent_of_kind absent)
  rw [Place.kind, unlisted] at absent
  rw [Place.kind, find_archived_moves distinct unlisted, if_neg stays, (archived_moves distinct).2]
  exact absent

@[simp] theorem archived_create (v : Volume) (name : Bytes) : (v.create name).archived = v.archived := by
  unfold create
  split <;> rfl

theorem create_move (different : other ≠ name) : (v.move other).create name = (v.create name).move other := by
  cases found : v.journal.find other with
  | none =>
      have foundToo : (v.create name).journal.find other = none := by rw [find_create_of_ne v different, found]
      rw [move_of_absent found, move_of_absent foundToo]
  | some link =>
      have foundToo : (v.create name).journal.find other = some link := by rw [find_create_of_ne v different, found]
      have stays : name ∉ [other] := by
        rw [List.mem_singleton]
        exact fun same => different same.symm
      have kind : (v.move other).journal.kind name = v.journal.kind name := kind_moves stays
      by_cases absent : v.journal.kind name = .none
      · rw [create_of_absent (kind.trans absent), move_of_found foundToo, archived_create, move_of_found found,
          create_of_absent absent]
        simp only [setContent, List.filter_append]
        rw [show [(⟨name, v.fresh, false⟩ : Link)].filter (·.name ≠ other) = [⟨name, v.fresh, false⟩] from
          by simp [Ne.symm different]]
      · rw [create_of_present absent, create_of_present (by rw [kind]; exact absent)]

theorem create_moves (stays : name ∉ names) : (v.moves names).create name = (v.create name).moves names := by
  induction names generalizing v with
  | nil => rfl
  | cons other names ih =>
      rw [List.mem_cons, not_or] at stays
      rw [moves_cons, moves_cons, ih stays.2, create_move (Ne.symm stays.1)]

theorem ensureArchive_moves (found : v.journal.find name = some link) :
    v.ensureArchive.moves (name :: names) = v.moves (name :: names) := by
  have foundToo : v.ensureArchive.journal.find name = some link := found
  rw [moves_cons, moves_cons, move_of_found found, move_of_found foundToo]
  rfl

theorem isSome_archive_moves (found : v.journal.find name = some link) : (v.moves (name :: names)).archive.isSome = true := by
  have kept : ∀ (names : List Bytes) (u : Volume), u.archive.isSome = true → (u.moves names).archive.isSome = true := by
    intro names
    induction names with
    | nil => exact fun _ held => held
    | cons other names ih =>
        intro u held
        apply ih
        unfold move
        split
        · exact held
        · rfl
  rw [moves_cons]
  apply kept
  rw [move_of_found found]
  rfl

end Volume

namespace Views

variable {names : List Bytes} {read : Bytes → Option Bytes} {layout : Layout} {start next : Nat} {v : Volume}

theorem drop (views : Views names read layout) (sequenced : Sequenced start next layout) (k : Nat) {others : List Bytes}
    {other : Bytes → Option Bytes}
    (listed : others.filter isSegmentName =
      (names.filter isSegmentName).filter (· ∉ (layout.take k).map nameOfSegment))
    (same : ∀ name, isSegmentName name = true → name ∉ (layout.take k).map nameOfSegment → other name = read name) :
    Views others other (layout.drop k) := by
  have split : layout.map nameOfSegment = (layout.take k).map nameOfSegment ++ (layout.drop k).map nameOfSegment := by
    rw [← List.map_append, List.take_append_drop]
  have distinct := nodup_of_sorted sequenced.sorted
  rw [split, List.nodup_append] at distinct
  obtain ⟨-, -, apart⟩ := distinct
  have stays : ∀ name ∈ (layout.drop k).map nameOfSegment, name ∉ (layout.take k).map nameOfSegment :=
    fun name later early => apart name early name later rfl
  constructor
  · rw [listed]
    have kept : (layout.map nameOfSegment).filter (· ∉ (layout.take k).map nameOfSegment) = (layout.drop k).map nameOfSegment := by
      rw [split, List.filter_append, List.filter_eq_nil_iff.2, List.nil_append, List.filter_eq_self]
      · intro name member
        exact decide_eq_true (stays name member)
      · intro name member
        simp only [decide_eq_true_eq, not_not]
        exact member
    rw [← kept]
    exact views.listed.filter _
  · intro entry member
    have looks : isSegmentName (nameOfSegment entry) = true :=
      isSegmentName_of_first (sequenced.first (List.mem_of_mem_drop member))
    rw [same _ looks (stays _ (List.mem_map_of_mem member))]
    exact views.reads entry (List.mem_of_mem_drop member)

theorem merge (views : Views names read layout) {before : Layout} {run : List Bytes} (named : run = before.map nameOfSegment)
    (looks : ∀ name ∈ run, isSegmentName name = true) {other : Bytes → Option Bytes}
    (moved : ∀ entry ∈ before, other (nameOfSegment entry) = some (records entry.2))
    (same : ∀ entry ∈ layout, other (nameOfSegment entry) = read (nameOfSegment entry)) :
    Views (names ++ run) other (before ++ layout) := by
  constructor
  · rw [List.filter_append, List.filter_eq_self.2 looks, List.map_append, named]
    exact (views.listed.append_right _).trans List.perm_append_comm
  · intro entry member
    rcases List.mem_append.1 member with early | later
    · exact moved entry early
    · rw [same entry later]
      exact views.reads entry later

end Views

end Sitometron.Journal
