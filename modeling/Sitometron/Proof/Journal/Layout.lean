import Sitometron.Journal.Segment
import Sitometron.Proof.Journal.Codec

/-!
# The files of a Journal

A directory that replay accepts holds consecutive records, cut into segments that are named for their
first sequence. The segment writer is proved against this description.
-/

namespace Sitometron.Journal

open Core

theorem padded_width (n : UInt64) : (padded sequenceDigits n.toNat).length = sequenceDigits :=
  padded_length (by decide) (lt_of_lt_of_le n.toNat_lt (by decide))

theorem readDigits_eq_some_iff {digits : Bytes} {start value : Nat} (small : start ≤ uint64Max) :
    digits.foldlM (fun (value : Nat) c =>
      if !isDigit c then none
      else if value > (uint64Max - digitValue c) / 10 then none
      else some (value * 10 + digitValue c)) start = some value ↔
      (∀ c ∈ digits, isDigit c = true) ∧ start * 10 ^ digits.length + ofDecimal digits = value ∧
        value ≤ uint64Max := by
  induction digits generalizing start with
  | nil =>
      simp only [List.foldlM_nil, ofDecimal]
      constructor
      · rintro ⟨⟩
        simpa using small
      · rintro ⟨-, same, -⟩
        simpa using same
  | cons c cs ih =>
      rw [List.foldlM_cons]
      by_cases digit : isDigit c = true
      · have most := digitValue_lt digit
        have whole : start * 10 ^ (c :: cs).length + ofDecimal (c :: cs) =
            (start * 10 + digitValue c) * 10 ^ cs.length + ofDecimal cs := by
          rw [ofDecimal_cons, List.length_cons, pow_succ]
          ring
        by_cases fits : start * 10 + digitValue c ≤ uint64Max
        · have inRange : ¬start > (uint64Max - digitValue c) / 10 := by
            unfold uint64Max at fits ⊢
            omega
          simp only [digit, inRange, Bool.not_true, Bool.false_eq_true, if_false, Option.bind_eq_bind,
            Option.bind_some, ih fits, whole, List.forall_mem_cons, true_and]
        · have outOfRange : start > (uint64Max - digitValue c) / 10 := by
            unfold uint64Max at fits ⊢
            omega
          simp only [digit, outOfRange, Bool.not_true, Bool.false_eq_true, if_false, if_true, Option.bind_eq_bind,
            Option.bind_none, reduceCtorEq, whole, false_iff, not_and]
          rintro - rfl
          have : start * 10 + digitValue c ≤ (start * 10 + digitValue c) * 10 ^ cs.length :=
            Nat.le_mul_of_pos_right _ (by positivity)
          omega
      · simp only [digit, Bool.not_false, if_true, Option.bind_eq_bind, Option.bind_none, reduceCtorEq, false_iff,
          List.forall_mem_cons, not_and]
        exact fun both => absurd both.1 (by simp)

theorem segmentFirst_eq_some_iff {name : Bytes} {n : UInt64} :
    segmentFirst name = some n ↔ n ≠ 0 ∧ name = segmentName n := by
  constructor
  · intro read
    unfold segmentFirst at read
    split at read
    next => cases read
    next shape =>
    simp only [Bool.or_eq_true, decide_eq_true_eq, Bool.not_eq_true', not_or, Bool.not_eq_false, ne_eq, not_not,
      List.isPrefixOf_iff_prefix, List.isSuffixOf_iff_suffix] at shape
    obtain ⟨⟨length, ⟨rest, rfl⟩⟩, suffix⟩ := shape
    have inside : segmentSuffix <:+ rest :=
      List.suffix_of_suffix_length_le suffix (List.suffix_append _ _) (by
        rw [List.length_append] at length
        omega)
    obtain ⟨digits, rfl⟩ := inside
    have width : digits.length = sequenceDigits := by
      simp only [List.length_append] at length
      omega
    rw [List.drop_left, List.take_left' width] at read
    obtain ⟨value, number, found⟩ := Option.bind_eq_some_iff.1 read
    obtain ⟨all, same, small⟩ := (readDigits_eq_some_iff (Nat.zero_le _)).1 number
    split at found
    next => cases found
    next positive =>
    cases found
    have back : (UInt64.ofNat value).toNat = value := UInt64.toNat_ofNat_of_lt' (Nat.lt_succ_of_le small)
    refine ⟨fun zero => positive (by rw [← back, zero]; rfl), ?_⟩
    rw [Nat.zero_mul, Nat.zero_add] at same
    rw [segmentName, back, ← same, padded_ofDecimal (by decide) width all, List.append_assoc]
  · rintro ⟨nonzero, rfl⟩
    have width := padded_width n
    have shape : ¬(decide ((segmentName n).length ≠ segmentPrefix.length + sequenceDigits + segmentSuffix.length) ||
        !segmentPrefix.isPrefixOf (segmentName n) || !segmentSuffix.isSuffixOf (segmentName n)) = true := by
      have suffix : segmentSuffix <:+ segmentPrefix ++ (padded sequenceDigits n.toNat ++ segmentSuffix) :=
        ⟨segmentPrefix ++ padded sequenceDigits n.toNat, by rw [List.append_assoc]⟩
      simp [segmentName, width, List.append_assoc, suffix, Nat.add_assoc]
    have number := (readDigits_eq_some_iff (Nat.zero_le uint64Max)).2
      ⟨@padded_isDigit sequenceDigits n.toNat, by rw [Nat.zero_mul, Nat.zero_add, ofDecimal_padded],
        show n.toNat ≤ uint64Max from by have := n.toNat_lt; unfold uint64Max; omega⟩
    have positive : n.toNat ≠ 0 := fun zero => nonzero (UInt64.toNat_inj.1 zero)
    rw [segmentFirst, if_neg shape, segmentName, List.append_assoc, List.drop_left, List.take_left' width, number]
    simp [positive]

theorem segmentName_lt_iff {a b : UInt64} : segmentName a < segmentName b ↔ a < b := by
  have digits := ofDecimal_lt_iff ((padded_width a).trans (padded_width b).symm) padded_isDigit padded_isDigit
  rw [ofDecimal_padded, ofDecimal_padded] at digits
  rw [UInt64.lt_iff_toNat_lt, digits, segmentName, segmentName, List.append_assoc, List.append_assoc,
    append_lt_append_left, append_lt_append_right ((padded_width a).trans (padded_width b).symm)]

theorem segmentName_injective {a b : UInt64} (same : segmentName a = segmentName b) : a = b := by
  have notLess : ¬a < b := fun less => List.lt_irrefl _ (same ▸ segmentName_lt_iff.2 less)
  have notMore : ¬b < a := fun more => List.lt_irrefl _ (same ▸ segmentName_lt_iff.2 more)
  exact UInt64.le_antisymm (UInt64.not_lt.1 notMore) (UInt64.not_lt.1 notLess)

abbrev Layout := List (Nat × List LogicalJobEvent)

def records (events : List LogicalJobEvent) : Bytes := events.flatMap emit

def Layout.events (layout : Layout) : List LogicalJobEvent := layout.flatMap (·.2)

def nameOfSegment (segment : Nat × List LogicalJobEvent) : Bytes := segmentName (UInt64.ofNat segment.1)

def fileOf (segment : Nat × List LogicalJobEvent) : Bytes × Bytes := (nameOfSegment segment, records segment.2)

def render : Layout → Bytes → Directory
  | [], _ => []
  | [last], tail => [(nameOfSegment last, records last.2 ++ tail)]
  | segment :: next :: rest, tail => fileOf segment :: render (next :: rest) tail

def Numbered : Nat → List LogicalJobEvent → Prop
  | _, [] => True
  | first, e :: events => e.sequence.toNat = first ∧ Numbered (first + 1) events

def Chain : Nat → Layout → Nat → Prop
  | start, [], next => start = next
  | start, (first, events) :: rest, next =>
      first = start ∧ Numbered first events ∧ (events = [] → rest = []) ∧ Chain (start + events.length) rest next

section Layouts

variable {layout : Layout} {start next : Nat} {tail : Bytes}

theorem render_concat {last : Nat × List LogicalJobEvent} :
    render (layout ++ [last]) tail = layout.map fileOf ++ [(nameOfSegment last, records last.2 ++ tail)] := by
  induction layout with
  | nil => rfl
  | cons segment layout ih =>
      cases layout with
      | nil => rfl
      | cons second layout => exact congrArg (fileOf segment :: ·) ih

theorem render_whole : render layout [] = layout.map fileOf := by
  cases layout using List.reverseRecOn with
  | nil => rfl
  | append_singleton layout last => rw [render_concat]; simp [fileOf]

theorem render_names : (render layout tail).map (·.1) = layout.map nameOfSegment := by
  cases layout using List.reverseRecOn with
  | nil => rfl
  | append_singleton layout last => rw [render_concat]; simp [fileOf, Function.comp_def]

theorem render_bytes (tailed : layout = [] → tail = []) :
    ((render layout tail).map (·.2)).flatten = records layout.events ++ tail := by
  cases layout using List.reverseRecOn with
  | nil => simp [render, records, Layout.events, tailed rfl]
  | append_singleton layout last =>
      have whole : (layout.map fun segment => records segment.2).flatten = records (Layout.events layout) := by
        rw [← List.flatMap_def]
        exact List.flatMap_assoc.symm
      rw [render_concat]
      simp only [List.map_append, List.map_map, Function.comp_def, fileOf, List.flatten_append, whole]
      simp [records, Layout.events]

theorem numbered_concat {first : Nat} {events : List LogicalJobEvent} {e : LogicalJobEvent} :
    Numbered first (events ++ [e]) ↔ Numbered first events ∧ e.sequence.toNat = first + events.length := by
  induction events generalizing first with
  | nil => simp [Numbered]
  | cons head events ih =>
      simp only [List.cons_append, Numbered, ih, List.length_cons, and_assoc]
      rw [Nat.add_assoc, Nat.add_comm 1]

theorem chain_concat {first : Nat} {events : List LogicalJobEvent} :
    Chain start (layout ++ [(first, events)]) next ↔
      Chain start layout first ∧ (∀ segment ∈ layout, segment.2 ≠ []) ∧ Numbered first events ∧
        first + events.length = next := by
  induction layout generalizing start with
  | nil =>
      simp only [List.nil_append, Chain, implies_true, true_and, List.not_mem_nil, false_implies]
      constructor
      · rintro ⟨rfl, numbered, last⟩
        exact ⟨rfl, numbered, last⟩
      · rintro ⟨rfl, numbered, last⟩
        exact ⟨rfl, numbered, last⟩
  | cons segment layout ih =>
      obtain ⟨head, es⟩ := segment
      simp only [List.cons_append, Chain, List.append_eq_nil_iff, List.cons_ne_nil, and_false, ih,
        List.forall_mem_cons]
      constructor
      · rintro ⟨rfl, numbered, full, chain, others, rest⟩
        exact ⟨⟨rfl, numbered, fun empty => (full empty).elim, chain⟩, ⟨full, others⟩, rest⟩
      · rintro ⟨⟨rfl, numbered, -, chain⟩, ⟨full, others⟩, rest⟩
        exact ⟨rfl, numbered, full, chain, others, rest⟩

theorem Chain.within (chain : Chain start layout next) :
    start ≤ next ∧ ∀ segment ∈ layout, start ≤ segment.1 ∧ segment.1 + segment.2.length ≤ next := by
  induction layout generalizing start with
  | nil => exact ⟨le_of_eq chain, by simp⟩
  | cons segment layout ih =>
      obtain ⟨first, events⟩ := segment
      obtain ⟨rfl, -, -, rest⟩ := chain
      obtain ⟨most, others⟩ := ih rest
      refine ⟨by omega, fun segment member => ?_⟩
      rcases List.mem_cons.1 member with rfl | member
      · exact ⟨le_refl _, most⟩
      · have := others segment member
        exact ⟨by omega, this.2⟩

theorem Numbered.within {first : Nat} {events : List LogicalJobEvent} (numbered : Numbered first events) :
    ∀ e ∈ events, first ≤ e.sequence.toNat ∧ e.sequence.toNat < first + events.length := by
  induction events generalizing first with
  | nil => simp
  | cons e events ih =>
      obtain ⟨here, rest⟩ := numbered
      intro other member
      rw [List.length_cons]
      rcases List.mem_cons.1 member with rfl | inside
      · omega
      · have later := ih rest other inside
        omega

theorem Chain.sequences (chain : Chain start layout next) :
    ∀ e ∈ layout.events, start ≤ e.sequence.toNat ∧ e.sequence.toNat < next := by
  induction layout generalizing start with
  | nil => simp [Layout.events]
  | cons segment layout ih =>
      obtain ⟨first, events⟩ := segment
      obtain ⟨rfl, numbered, -, rest⟩ := chain
      have later := Chain.within rest
      intro e member
      rcases List.mem_append.1 member with inside | after
      · have here := numbered.within e inside
        omega
      · have there := ih rest e after
        omega

theorem Chain.sorted (chain : Chain start layout next) : layout.Pairwise fun a b => a.1 < b.1 := by
  induction layout generalizing start with
  | nil => exact .nil
  | cons segment layout ih =>
      obtain ⟨first, events⟩ := segment
      obtain ⟨rfl, -, full, rest⟩ := chain
      refine List.pairwise_cons.2 ⟨fun other member => ?_, ih rest⟩
      have after := (rest.within.2 other member).1
      have nonempty : events ≠ [] := fun empty => by simp [full empty] at member
      have := List.length_pos_iff.2 nonempty
      show first < other.1
      omega

end Layouts

def segmentFiles (directory : Directory) : Directory := directory.filter fun file => (segmentFirst file.1).isSome

def sortedSegments (directory : Directory) : Directory :=
  (segmentFiles directory).insertionSort fun a b => a.1 ≤ b.1

structure Shows (directory : Directory) (layout : Layout) (tail : Bytes) : Prop where
  distinct : directory.names.Nodup
  files : (segmentFiles directory).Perm (render layout tail)

section Directories

variable {directory : Directory} {layout : Layout} {start next : Nat} {tail : Bytes}

instance : Std.Total fun a b : Bytes × Bytes => a.1 ≤ b.1 := ⟨fun a b => List.le_total a.1 b.1⟩

instance : IsTrans (Bytes × Bytes) fun a b => a.1 ≤ b.1 := ⟨fun _ _ _ first second => List.le_trans first second⟩

theorem ofNat_lt_iff {a b : Nat} (smallA : a < 2 ^ 64) (smallB : b < 2 ^ 64) :
    UInt64.ofNat a < UInt64.ofNat b ↔ a < b := by
  rw [UInt64.lt_iff_toNat_lt, UInt64.toNat_ofNat_of_lt' smallA, UInt64.toNat_ofNat_of_lt' smallB]

theorem ofNat_ne_zero {n : Nat} (positive : 1 ≤ n) (small : n < 2 ^ 64) : UInt64.ofNat n ≠ 0 := by
  intro zero
  have := congrArg UInt64.toNat zero
  rw [UInt64.toNat_ofNat_of_lt' small] at this
  simp_all

theorem Chain.names_sorted (chain : Chain start layout next) (small : ∀ segment ∈ layout, segment.1 < 2 ^ 64) :
    ((render layout tail).map (·.1)).Pairwise (· < ·) := by
  rw [render_names]
  refine List.pairwise_map.2 (chain.sorted.imp_of_mem fun left right less => ?_)
  exact segmentName_lt_iff.2 ((ofNat_lt_iff (small _ left) (small _ right)).2 less)

theorem nodup_of_sorted {names : List Bytes} (sorted : names.Pairwise (· < ·)) : names.Nodup := by
  refine List.Pairwise.imp (fun {a b} less => ?_) sorted
  rintro rfl
  exact List.lt_irrefl a less

theorem Shows.sorted (shows : Shows directory layout tail) (chain : Chain start layout next)
    (small : ∀ segment ∈ layout, segment.1 < 2 ^ 64) : sortedSegments directory = render layout tail := by
  have names := @Chain.names_sorted layout start next tail chain small
  have ordered := List.pairwise_map.1 names
  have distinct := nodup_of_sorted names
  have permuted := (List.perm_insertionSort (fun a b => a.1 ≤ b.1) _).trans shows.files
  refine permuted.eq_of_pairwise (fun a b left right le ge => ?_) (List.pairwise_insertionSort _ _)
    (ordered.imp fun less => List.le_of_lt less)
  exact List.inj_on_of_nodup_map distinct (permuted.subset left) right (List.le_antisymm le ge)

theorem segmentFiles_names (shows : Shows directory layout tail) {segment : UInt64} (positive : segment ≠ 0)
    (present : segmentName segment ∈ directory.names) : segmentName segment ∈ layout.map nameOfSegment := by
  obtain ⟨file, member, named⟩ := List.mem_map.1 present
  have kept : file ∈ segmentFiles directory := by
    refine List.mem_filter.2 ⟨member, ?_⟩
    rw [named, segmentFirst_eq_some_iff.2 ⟨positive, rfl⟩]
    rfl
  rw [← @render_names layout tail, ← named]
  exact List.mem_map_of_mem (shows.files.subset kept)

theorem Shows.create (shows : Shows directory layout []) (chain : Chain start layout next) (positive : 1 ≤ start)
    (small : next < 2 ^ 64) (full : ∀ segment ∈ layout, segment.2 ≠ []) :
    segmentName (UInt64.ofNat next) ∉ directory.names ∧
      Shows (directory.create (segmentName (UInt64.ofNat next))) (layout ++ [(next, [])]) [] := by
  have nonzero := ofNat_ne_zero (positive.trans chain.within.1) small
  have fresh : segmentName (UInt64.ofNat next) ∉ directory.names := by
    intro present
    obtain ⟨segment, member, named⟩ := List.mem_map.1 (segmentFiles_names shows nonzero present)
    have bounds := chain.within.2 segment member
    have := List.length_pos_iff.2 (full segment member)
    have same := congrArg UInt64.toNat (segmentName_injective named)
    rw [UInt64.toNat_ofNat_of_lt' (show segment.1 < 2 ^ 64 by omega), UInt64.toNat_ofNat_of_lt' small] at same
    omega
  refine ⟨fresh, ?_, ?_⟩
  · rw [Directory.create, if_neg fresh, Directory.names, List.map_append]
    refine List.nodup_append.2 ⟨shows.distinct, List.nodup_singleton _, fun a inside b last same => fresh ?_⟩
    have named : b = segmentName (UInt64.ofNat next) := List.mem_singleton.1 last
    rw [← named, ← same]
    exact inside
  · have read := segmentFirst_eq_some_iff.2 ⟨nonzero, rfl⟩
    rw [Directory.create, if_neg fresh, segmentFiles, List.filter_append, render_concat]
    have shown := shows.files
    rw [render_whole] at shown
    refine shown.append ?_
    simp [read, nameOfSegment, records]

theorem Shows.append {last : Nat × List LogicalJobEvent} (shows : Shows directory (layout ++ [last]) tail)
    (chain : Chain start (layout ++ [last]) next) (small : ∀ segment ∈ layout ++ [last], segment.1 < 2 ^ 64)
    (bytes : Bytes) : Shows (directory.append (nameOfSegment last) bytes) (layout ++ [last]) (tail ++ bytes) := by
  let extend (file : Bytes × Bytes) := if file.1 = nameOfSegment last then (file.1, file.2 ++ bytes) else file
  have named (file : Bytes × Bytes) : (extend file).1 = file.1 := by
    unfold extend
    split <;> rfl
  have others : (layout.map fileOf).map extend = layout.map fileOf := by
    have sorted := @Chain.names_sorted _ start next tail chain small
    rw [render_names, List.map_append] at sorted
    have before := (List.pairwise_append.1 sorted).2.2
    refine (List.map_congr_left fun file member => ?_).trans (List.map_id _)
    obtain ⟨segment, inside, rfl⟩ := List.mem_map.1 member
    refine if_neg fun same => ?_
    have less := before _ (List.mem_map_of_mem inside) _ (List.mem_singleton_self _)
    rw [show nameOfSegment segment = nameOfSegment last from same] at less
    exact List.lt_irrefl _ less
  constructor
  · rw [Directory.append, Directory.names, List.map_map]
    have : (fun file => file.1) ∘ extend = fun file => file.1 := funext named
    exact (congrArg (fun f => (directory.map f).Nodup) this).mpr shows.distinct
  · have kept : segmentFiles (directory.append (nameOfSegment last) bytes) = (segmentFiles directory).map extend := by
      rw [segmentFiles, Directory.append, List.filter_map]
      refine congrArg (List.map extend) (List.filter_congr fun file _ => ?_)
      rw [Function.comp_apply, named]
    have shown := shows.files.map extend
    rw [render_concat, List.map_append, others] at shown
    rw [kept, render_concat]
    simpa [extend, List.append_assoc] using shown

theorem Directory.read_of_mem (distinct : directory.names.Nodup) {file : Bytes × Bytes} (member : file ∈ directory) :
    directory.read file.1 = some file.2 := by
  obtain ⟨found, read⟩ : ∃ found, directory.find? (fun other => other.1 = file.1) = some found :=
    Option.isSome_iff_exists.1 (List.find?_isSome.2 ⟨file, member, by simp⟩)
  have same : found.1 = file.1 := by simpa using List.find?_some read
  have : found = file := List.inj_on_of_nodup_map distinct (List.mem_of_find?_eq_some read) member same
  rw [Directory.read, read, this]
  rfl

theorem Shows.read (shows : Shows directory layout []) {segment : Nat × List LogicalJobEvent} (member : segment ∈ layout) :
    directory.read (nameOfSegment segment) = some (records segment.2) := by
  have shown : fileOf segment ∈ segmentFiles directory := by
    refine shows.files.symm.subset ?_
    rw [render_whole]
    exact List.mem_map_of_mem member
  exact Directory.read_of_mem shows.distinct (List.mem_filter.1 shown).1

theorem segmentsOf_eq_ok {names : List Bytes} {segments : List Segment} (listed : segmentsOf names = .ok segments) :
    segments.map (·.name) = names.filter (fun name => (segmentFirst name).isSome) ∧
      ∀ segment ∈ segments, segmentFirst segment.name = some segment.first := by
  induction names generalizing segments with
  | nil =>
      cases listed
      simp
  | cons name names ih =>
      rw [segmentsOf] at listed
      cases first : segmentFirst name with
      | none =>
          simp only [first] at listed
          split at listed
          next => cases listed
          next => simpa [first] using ih listed
      | some n =>
          simp only [first] at listed
          cases rest : segmentsOf names with
          | error bad => simp [rest, Except.map] at listed
          | ok others =>
              rw [rest] at listed
              cases listed
              obtain ⟨names, firsts⟩ := ih rest
              exact ⟨by simp [first, names], by simpa [first] using firsts⟩

def toSegment (entry : Nat × List LogicalJobEvent) : Segment := ⟨UInt64.ofNat entry.1, nameOfSegment entry⟩

instance : Std.Total fun a b : Segment => a.first ≤ b.first := ⟨fun a b => UInt64.le_total a.first b.first⟩

instance : IsTrans Segment fun a b => a.first ≤ b.first := ⟨fun _ _ _ first second => UInt64.le_trans first second⟩

theorem Chain.segments {names : List Bytes} (chain : Chain start layout next) (positive : 1 ≤ start)
    (small : ∀ segment ∈ layout, segment.1 < 2 ^ 64) {unsorted : List Segment} (listed : segmentsOf names = .ok unsorted)
    (found : (names.filter fun name => (segmentFirst name).isSome).Perm (layout.map nameOfSegment)) :
    unsorted.insertionSort (fun a b => a.first ≤ b.first) = layout.map toSegment := by
  obtain ⟨named, firsts⟩ := segmentsOf_eq_ok listed
  have first (entry) (member : entry ∈ layout) : segmentFirst (nameOfSegment entry) = some (UInt64.ofNat entry.1) :=
    segmentFirst_eq_some_iff.2
      ⟨ofNat_ne_zero (positive.trans (chain.within.2 entry member).1) (small entry member), rfl⟩
  let segment (name : Bytes) : Segment := ⟨(segmentFirst name).getD 0, name⟩
  have left : unsorted = (unsorted.map (·.name)).map segment := by
    rw [List.map_map]
    refine (List.map_id _).symm.trans (List.map_congr_left fun s member => ?_)
    simp [segment, firsts s member]
  have right : layout.map toSegment = (layout.map nameOfSegment).map segment := by
    rw [List.map_map]
    refine List.map_congr_left fun entry member => ?_
    simp [segment, toSegment, first entry member]
  have same : (unsorted.map (·.name)).Perm (layout.map nameOfSegment) := by
    rw [named]
    exact found
  have permuted : unsorted.Perm (layout.map toSegment) := by
    rw [left, right]
    exact same.map segment
  have sorted : (layout.map toSegment).Pairwise fun a b => a.first < b.first :=
    List.pairwise_map.2 (chain.sorted.imp_of_mem fun left right less => (ofNat_lt_iff (small _ left) (small _ right)).2 less)
  refine ((List.perm_insertionSort _ _).trans permuted).eq_of_pairwise (fun a b inside other le ge => ?_)
    (List.pairwise_insertionSort _ _) (sorted.imp fun less => UInt64.le_of_lt less)
  have canonical (s : Segment) (member : s ∈ layout.map toSegment) : s.name = segmentName s.first := by
    obtain ⟨entry, -, rfl⟩ := List.mem_map.1 member
    rfl
  have inside := ((List.perm_insertionSort _ _).trans permuted).subset inside
  obtain ⟨firstA, nameA⟩ := a
  obtain ⟨firstB, nameB⟩ := b
  obtain rfl : firstA = firstB := UInt64.le_antisymm le ge
  rw [show nameA = _ from canonical _ inside, show nameB = _ from canonical _ other]

theorem Shows.segments (shows : Shows directory layout tail) (chain : Chain start layout next) (positive : 1 ≤ start)
    (small : ∀ segment ∈ layout, segment.1 < 2 ^ 64) {unsorted : List Segment}
    (listed : segmentsOf directory.names = .ok unsorted) :
    unsorted.insertionSort (fun a b => a.first ≤ b.first) = layout.map toSegment := by
  apply chain.segments positive small listed
  rw [← @render_names layout tail, Directory.names, List.filter_map]
  exact shows.files.map _

end Directories

def Encodable (events : List LogicalJobEvent) : Prop := ∀ e ∈ events, encodeRecord e = .ok (emit e)

theorem emit_line {e : LogicalJobEvent} (encoded : encodeRecord e = .ok (emit e)) :
    ∃ line, emit e = line ++ [0x0A] ∧ 0x0A ∉ line := by
  have accepted := (encodeRecord_eq_ok_iff.1 encoded).1
  refine ⟨_, emit_eq (payloadMatches_of_violation (payloadViolation_of_violation accepted)), fun inside => ?_⟩
  exact absurd ((recordTree e).printable (recordTree_valid accepted) _ inside) (by decide)

@[simp] theorem records_nil : records [] = [] := rfl

@[simp] theorem records_append (es fs : List LogicalJobEvent) : records (es ++ fs) = records es ++ records fs :=
  List.flatMap_append

@[simp] theorem records_singleton (e : LogicalJobEvent) : records [e] = emit e := by simp [records]

theorem records_ne_nil {events : List LogicalJobEvent} (encodable : Encodable events) (nonempty : events ≠ []) :
    records events ≠ [] := by
  cases events with
  | nil => exact absurd rfl nonempty
  | cons e events =>
      obtain ⟨line, written, -⟩ := emit_line (encodable e List.mem_cons_self)
      simp [records, written]

theorem records_isEmpty {events : List LogicalJobEvent} (encodable : Encodable events) :
    (records events).isEmpty = true ↔ events = [] := by
  rw [List.isEmpty_iff]
  constructor
  · intro none
    by_contra some
    exact records_ne_nil encodable some none
  · rintro rfl
    rfl

structure OnDisk (directory : Directory) (layout : Layout) (start next : Nat) (tail : Bytes) : Prop where
  positive : 1 ≤ start
  chain : Chain start layout next
  named : ∀ segment ∈ layout, segment.1 < 2 ^ 64
  encodable : Encodable layout.events
  shows : Shows directory layout tail

namespace Replayer

variable {lib : Libraries} {maxJobs : Nat} {r after : Replayer} {segment : Segment} {offset : Nat}

theorem replayLine_eq_ok {line : Bytes} (replayed : r.replayLine lib maxJobs segment offset line = .ok after) :
    ∃ e, encodeRecord e = .ok line ∧ e.sequence = r.expected ∧ after.last = e.sequence ∧
      (e.sequence.toNat ≠ uint64Max → after.expected = e.sequence + 1) := by
  unfold replayLine at replayed
  split at replayed
  next => cases replayed
  next e decoded =>
  split at replayed
  next => cases replayed
  next same =>
  refine ⟨e, encodeRecord_decoded decoded, not_not.1 same, ?_⟩
  dsimp only at replayed
  split at replayed
  next => cases replayed
  next => cases replayed
  next =>
  split at replayed
  next =>
    cases replayed
    exact ⟨rfl, fun more => if_pos more⟩
  next =>
    split at replayed
    next => cases replayed
    next =>
      cases replayed
      exact ⟨rfl, fun more => if_pos more⟩

theorem replayLines_eq_ok {highest : Bool} {content : Bytes} {fuel : Nat} (enough : content.length ≤ offset + fuel)
    (replayed : replayLines lib maxJobs segment highest content fuel offset r = .ok after) :
    ∃ events, content.drop offset = records events ∧ Encodable events ∧ Numbered r.expected.toNat events ∧
      after.expected.toNat = r.expected.toNat + events.length := by
  induction fuel generalizing offset r with
  | zero =>
      cases replayed
      exact ⟨[], by simpa [records] using List.drop_eq_nil_of_le (by omega), by simp [Encodable], trivial, rfl⟩
  | succ fuel ih =>
      rw [replayLines] at replayed
      split at replayed
      next finished =>
        cases replayed
        exact ⟨[], by simpa [records] using List.drop_eq_nil_of_le finished, by simp [Encodable], trivial, rfl⟩
      next =>
      split at replayed
      next => cases replayed
      next length found =>
      cases line : r.replayLine lib maxJobs segment offset ((content.drop offset).take (length + 1)) with
      | error stop => simp [line, bind, Except.bind] at replayed
      | ok middle =>
          rw [line, ok_bind] at replayed
          dsimp only at replayed
          split at replayed
          next => cases replayed
          next more =>
          obtain ⟨e, encoded, sequence, last, expected⟩ := replayLine_eq_ok line
          obtain ⟨events, rest, encodable, numbered, total⟩ := ih (by omega) replayed
          have notLast : e.sequence.toNat ≠ uint64Max := last ▸ more
          have next : middle.expected.toNat = r.expected.toNat + 1 := by
            rw [expected notLast, ← sequence, UInt64.toNat_add]
            have := e.sequence.toNat_lt
            unfold uint64Max at notLast
            simp
            omega
          have emitted := (encodeRecord_eq_ok_iff.1 encoded).2.1
          rw [next] at numbered total
          refine ⟨e :: events, ?_, ?_, ⟨congrArg UInt64.toNat sequence, numbered⟩, ?_⟩
          · rw [records, List.flatMap_cons, emitted, ← records, ← rest, Nat.add_assoc, ← List.drop_drop,
              List.take_append_drop]
          · rintro other (_ | ⟨_, member⟩)
            · rw [encoded, emitted]
            · exact encodable other member
          · rw [total, List.length_cons]
            omega

theorem replaySegment_eq_ok {highest : Bool} {readAll : Bytes → Option Bytes}
    (replayed : r.replaySegment lib maxJobs readAll segment highest = .ok after) :
    ∃ events, readAll segment.name = some (records events) ∧ segment.first = r.expected ∧
      (events = [] → highest = true) ∧ Encodable events ∧ Numbered r.expected.toNat events ∧
      after.expected.toNat = r.expected.toNat + events.length := by
  unfold replaySegment at replayed
  split at replayed
  next => cases replayed
  next content read =>
  split at replayed
  next => cases replayed
  next same =>
  split at replayed
  next => cases replayed
  next nonempty =>
  split at replayed
  next => cases replayed
  next =>
  obtain ⟨events, whole, encodable, numbered, total⟩ := replayLines_eq_ok (by simp) replayed
  refine ⟨events, by rw [read, ← whole, List.drop_zero], not_not.1 same, fun empty => ?_, encodable, numbered, total⟩
  rw [List.drop_zero, empty] at whole
  simpa [whole, records] using nonempty

theorem replaySegments_eq_ok {readAll : Bytes → Option Bytes} {segments : List Segment}
    (named : ∀ s ∈ segments, s.name = segmentName s.first)
    (replayed : replaySegments lib maxJobs readAll segments r = .ok after) :
    ∃ layout : Layout, layout.map toSegment = segments ∧ Chain r.expected.toNat layout after.expected.toNat ∧
      ∀ entry ∈ layout, Encodable entry.2 ∧ readAll (nameOfSegment entry) = some (records entry.2) := by
  induction segments generalizing r with
  | nil =>
      cases replayed
      exact ⟨[], rfl, rfl, by simp⟩
  | cons segment rest ih =>
      rw [replaySegments] at replayed
      cases one : r.replaySegment lib maxJobs readAll segment rest.isEmpty with
      | error stop => simp [one, bind, Except.bind] at replayed
      | ok middle =>
          rw [one, ok_bind] at replayed
          obtain ⟨events, read, first, nonempty, encodable, numbered, total⟩ := replaySegment_eq_ok one
          obtain ⟨layout, same, chain, entries⟩ :=
            ih (fun s member => named s (List.mem_cons_of_mem _ member)) replayed
          have own : nameOfSegment (segment.first.toNat, events) = segment.name := by
            rw [nameOfSegment, UInt64.ofNat_toNat, named segment List.mem_cons_self]
          refine ⟨(segment.first.toNat, events) :: layout, ?_, ⟨by rw [first], ?_, fun empty => ?_, ?_⟩, ?_⟩
          · rw [List.map_cons, same, toSegment, own, UInt64.ofNat_toNat]
          · rw [first]
            exact numbered
          · have last := List.isEmpty_iff.1 (nonempty empty)
            rw [last] at same
            exact List.map_eq_nil_iff.1 same
          · rw [← total]
            exact chain
          · rintro entry (_ | ⟨_, member⟩)
            · exact ⟨encodable, own ▸ read⟩
            · exact entries entry member

def Refuses : Stop → Prop
  | .refused result => result.status ≠ .replayed
  | .thrown _ => True

inductive Ended : Stop → Prop
  | refused (r : Replayer) {status : ReplayStatus} (detail : Bytes) : status ≠ .replayed →
      Ended (.refused (r.refuse status detail))
  | thrown (r : Replayer) : Ended (.thrown r)

variable {stop : Stop}

theorem Ended.refuses (ended : Ended stop) : Refuses stop := by
  cases ended with
  | refused r detail other => exact other
  | thrown => trivial

theorem replayLine_ended {line : Bytes} (stopped : r.replayLine lib maxJobs segment offset line = .error stop) :
    Ended stop := by
  unfold replayLine at stopped
  split at stopped
  next =>
    cases stopped
    exact .refused _ _ nofun
  next =>
  split at stopped
  next =>
    cases stopped
    exact .refused _ _ nofun
  next =>
  dsimp only at stopped
  split at stopped
  next =>
    cases stopped
    exact .thrown _
  next =>
    cases stopped
    exact .refused _ _ nofun
  next =>
  split at stopped
  next => cases stopped
  next =>
    split at stopped
    next =>
      cases stopped
      exact .refused _ _ nofun
    next => cases stopped

theorem afterExhaustion_ended {highest : Bool} {content : Bytes} :
    Ended (.refused (r.afterExhaustion segment highest content offset)) := by
  unfold afterExhaustion
  split
  · exact .refused _ _ nofun
  · split
    · exact .refused _ _ nofun
    · exact .refused _ _ nofun

theorem replayLines_ended {highest : Bool} {content : Bytes} {fuel : Nat}
    (stopped : replayLines lib maxJobs segment highest content fuel offset r = .error stop) : Ended stop := by
  induction fuel generalizing offset r with
  | zero => cases stopped
  | succ fuel ih =>
      rw [replayLines] at stopped
      split at stopped
      next => cases stopped
      next =>
      split at stopped
      next =>
        cases stopped
        split
        · exact .refused _ _ nofun
        · exact .refused _ _ nofun
      next length found =>
      cases line : r.replayLine lib maxJobs segment offset ((content.drop offset).take (length + 1)) with
      | error why =>
          rw [line] at stopped
          cases stopped
          exact replayLine_ended line
      | ok middle =>
          rw [line, ok_bind] at stopped
          dsimp only at stopped
          split at stopped
          next =>
            cases stopped
            exact afterExhaustion_ended
          next => exact ih stopped

theorem replaySegment_ended {highest : Bool} {readAll : Bytes → Option Bytes}
    (stopped : r.replaySegment lib maxJobs readAll segment highest = .error stop) : Ended stop := by
  unfold replaySegment at stopped
  repeat' split at stopped
  case h_2.isFalse.isFalse.isFalse => exact replayLines_ended stopped
  all_goals
    cases stopped
    exact .refused _ _ nofun

theorem replaySegments_ended {readAll : Bytes → Option Bytes} {segments : List Segment}
    (stopped : replaySegments lib maxJobs readAll segments r = .error stop) : Ended stop := by
  induction segments generalizing r with
  | nil => cases stopped
  | cons segment rest ih =>
      rw [replaySegments] at stopped
      cases one : r.replaySegment lib maxJobs readAll segment rest.isEmpty with
      | error why =>
          rw [one] at stopped
          cases stopped
          exact replaySegment_ended one
      | ok middle =>
          rw [one, ok_bind] at stopped
          exact ih stopped

end Replayer

section Accepted

variable {lib : Libraries} {what : Bytes} {maxJobs : Nat} {directory : Directory}

theorem replayJournal_replayed {names : List Bytes} {readAll : Bytes → Option Bytes}
    (replayed : (replayJournal lib what maxJobs (some names) readAll).status = .replayed) :
    ∃ unsorted segments, segmentsOf names = .ok unsorted ∧
      segments = unsorted.insertionSort (fun a b => a.first ≤ b.first) ∧ ∃ after,
        Replayer.replaySegments lib maxJobs readAll segments { expected := (segments.head?.map (·.first)).getD 1 } =
          .ok after := by
  cases listed : segmentsOf names with
  | error bad => simp [replayJournal, Replayer.run, listed, Replayer.refuse] at replayed
  | ok unsorted =>
      refine ⟨unsorted, _, rfl, rfl, ?_⟩
      rw [replayJournal, Replayer.run] at replayed
      simp only [listed] at replayed
      generalize unsorted.insertionSort (fun a b => a.first ≤ b.first) = segments at replayed ⊢
      cases pass : Replayer.replaySegments lib maxJobs readAll segments
          { expected := (segments.head?.map (·.first)).getD 1 } with
      | ok after => exact ⟨after, rfl⟩
      | error stop =>
          have refuses := (Replayer.replaySegments_ended pass).refuses
          rw [pass] at replayed
          cases stop with
          | refused result => exact absurd replayed refuses
          | thrown state => simp [bind, Except.bind, Replayer.refuse] at replayed

theorem replayed_shows (distinct : directory.names.Nodup)
    (replayed : (replayJournal lib what maxJobs (some directory.names) directory.read).status = .replayed) :
    ∃ (layout : Layout) (start next : Nat), OnDisk directory layout start next [] ∧ next < 2 ^ 64 ∧
      (layout = [] → next = 1) := by
  obtain ⟨unsorted, segments, listed, sorted, after, pass⟩ := replayJournal_replayed replayed
  obtain ⟨names, firsts⟩ := segmentsOf_eq_ok listed
  have permuted : segments.Perm unsorted := sorted ▸ List.perm_insertionSort _ _
  have read (s) (member : s ∈ segments) := segmentFirst_eq_some_iff.1 (firsts s (permuted.subset member))
  obtain ⟨layout, same, chain, entries⟩ := Replayer.replaySegments_eq_ok (fun s member => (read s member).2) pass
  have positive : (segments.head?.map (·.first)).getD 1 ≠ 0 := by
    cases segments with
    | nil => decide
    | cons s rest => exact (read s List.mem_cons_self).1
  refine ⟨layout, _, _, ⟨?_, chain, ?_, ?_, distinct, ?_⟩, after.expected.toNat_lt, ?_⟩
  · exact Nat.one_le_iff_ne_zero.2 fun zero => positive (UInt64.toNat_inj.1 zero)
  · intro segment member
    have within := (chain.within.2 segment member).2
    have bound := after.expected.toNat_lt
    omega
  · intro e member
    obtain ⟨entry, inside, held⟩ := List.mem_flatMap.1 member
    exact (entries entry inside).1 e held
  · -- Both sides are their names, each with what is read under it.
    let file (name : Bytes) : Bytes × Bytes := (name, (directory.read name).getD [])
    have left : segmentFiles directory = ((segmentFiles directory).map (·.1)).map file := by
      rw [List.map_map]
      refine (List.map_id _).symm.trans (List.map_congr_left fun f member => ?_)
      simp [file, Directory.read_of_mem distinct (List.mem_filter.1 member).1]
    have right : render layout [] = (layout.map nameOfSegment).map file := by
      rw [render_whole, List.map_map]
      refine List.map_congr_left fun entry member => ?_
      simp [file, fileOf, (entries entry member).2]
    have namesSame : ((segmentFiles directory).map (·.1)).Perm (layout.map nameOfSegment) := by
      have listedNames : (segmentFiles directory).map (·.1) = unsorted.map (·.name) := by
        rw [names, segmentFiles, Directory.names, List.filter_map]
        rfl
      have layoutNames : layout.map nameOfSegment = segments.map (·.name) := by
        rw [← same, List.map_map]
        rfl
      rw [listedNames, layoutNames]
      exact (permuted.map _).symm
    rw [left, right]
    exact namesSame.map file
  · rintro rfl
    rw [← show [] = segments from same] at chain
    exact chain.symm

end Accepted

end Sitometron.Journal
