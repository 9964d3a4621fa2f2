import Mathlib.Data.List.Perm.Basic
import Sitometron.Lib.Tally

/-!
# A desk that answers every ticket once

Tickets are issued with consecutive numbers and a box each, wait in a queue, are called one after the other and answered into
their box, from where the answer is collected. Boxes are used again; a generation tells one use from the next.
-/

namespace Sitometron

structure Ticket (n : Nat) where
  number : Nat
  place : Fin n
  generation : Nat
deriving DecidableEq

structure Box (V : Type) where
  reserved : Bool
  answered : Bool
  generation : Nat
  number : Nat
  value : V

inductive Mark (V : Type) (n : Nat) where
  | issued (ticket : Ticket n)
  | called (ticket : Ticket n)
  | answered (place : Fin n) (number : Nat) (value : V)
  | collected (number : Nat) (value : V)

structure Desk (V : Type) (n : Nat) where
  boxes : Fin n → Box V
  used : Nat
  outstanding : Nat
  queue : List (Ticket n)
  current : Option (Ticket n)
  /-- The number of the next ticket; 0 once there is none. -/
  next : Nat
  log : List (Mark V n)

namespace Mark

variable {V : Type} {n : Nat}

def issue? : Mark V n → Option (Ticket n)
  | .issued ticket => some ticket
  | _ => none

def call? : Mark V n → Option (Ticket n)
  | .called ticket => some ticket
  | _ => none

def answer? : Mark V n → Option (Nat × Fin n)
  | .answered place number _ => some (number, place)
  | _ => none

end Mark

namespace Desk

variable {V : Type} {n limit first : Nat} {d e : Desk V n}

def waiting (d : Desk V n) : List (Ticket n) := d.current.toList ++ d.queue

def issued (d : Desk V n) : List (Ticket n) := d.log.filterMap Mark.issue?

def called (d : Desk V n) : List (Ticket n) := d.log.filterMap Mark.call?

def answers (d : Desk V n) : List (Nat × Fin n) := d.log.filterMap Mark.answer?

def issue (limit : Nat) (d : Desk V n) (k : Fin n) : Desk V n :=
  { d with
    boxes := Function.update d.boxes k
      { d.boxes k with reserved := true, answered := false, number := d.next, generation := (d.boxes k).generation + 1 }
    used := d.used + 1
    outstanding := d.outstanding + 1
    queue := d.queue ++ [⟨d.next, k, (d.boxes k).generation + 1⟩]
    next := if d.next = limit then 0 else d.next + 1
    log := d.log ++ [.issued ⟨d.next, k, (d.boxes k).generation + 1⟩] }

def call (d : Desk V n) (ticket : Ticket n) (rest : List (Ticket n)) : Desk V n :=
  { d with queue := rest, current := some ticket, log := d.log ++ [.called ticket] }

def answer (d : Desk V n) (ticket : Ticket n) (value : V) : Desk V n :=
  { d with
    boxes := Function.update d.boxes ticket.place { d.boxes ticket.place with answered := true, value }
    outstanding := d.outstanding - 1
    current := none
    log := d.log ++ [.answered ticket.place ticket.number value] }

def collect (blank : V) (d : Desk V n) (k : Fin n) : Desk V n :=
  { d with
    boxes := Function.update d.boxes k { d.boxes k with reserved := false, answered := false, number := 0, value := blank }
    used := d.used - 1
    log := d.log ++ [.collected (d.boxes k).number (d.boxes k).value] }

inductive Step (limit : Nat) (blank : V) (d : Desk V n) : Desk V n → Prop
  | issue (k : Fin n) : d.next ≠ 0 → (d.boxes k).reserved = false → Step limit blank d (d.issue limit k)
  | call {ticket : Ticket n} {rest : List (Ticket n)} : d.current = none → d.queue = ticket :: rest →
      Step limit blank d (d.call ticket rest)
  | answer {ticket : Ticket n} (value : V) : d.current = some ticket → Step limit blank d (d.answer ticket value)
  | collect (k : Fin n) : (d.boxes k).reserved = true → (d.boxes k).answered = true →
      Step limit blank d (d.collect blank k)

structure Holds (d : Desk V n) (ticket : Ticket n) : Prop where
  reserved : (d.boxes ticket.place).reserved = true
  empty : (d.boxes ticket.place).answered = false
  generation : (d.boxes ticket.place).generation = ticket.generation
  number : (d.boxes ticket.place).number = ticket.number

structure Counted (limit first : Nat) (issued : List (Ticket n)) (next : Nat) : Prop where
  numbers : issued.map (·.number) = List.range' first issued.length
  next : next = if first + issued.length ≤ limit then first + issued.length else 0
  within : first + issued.length ≤ limit + 1

structure Sound (limit first : Nat) (d : Desk V n) : Prop where
  used : d.used = ∑ k, (d.boxes k).reserved.toNat
  outstanding : d.outstanding = d.waiting.length
  counted : Counted limit first d.issued d.next
  order : d.called ++ d.queue = d.issued
  once : (d.issued.map fun t => (t.number, t.place)).Perm (d.answers ++ d.waiting.map fun t => (t.number, t.place))
  holds : ∀ ticket ∈ d.waiting, d.Holds ticket
  reserved : ∀ k, (d.boxes k).reserved = true → ∃ ticket ∈ d.issued, ticket.number = (d.boxes k).number
  distinct : ∀ k l, (d.boxes k).reserved = true → (d.boxes l).reserved = true →
    (d.boxes k).number = (d.boxes l).number → k = l
  filed : ∀ k, (d.boxes k).reserved = true → (d.boxes k).answered = true →
    .answered k (d.boxes k).number (d.boxes k).value ∈ d.log
  collected : ∀ number value, .collected number value ∈ d.log → ∃ place, .answered place number value ∈ d.log

theorem Counted.next_eq {issued : List (Ticket n)} {next : Nat} (counted : Counted limit first issued next)
    (some : next ≠ 0) : next = first + issued.length ∧ first + issued.length ≤ limit := by
  have next := counted.next
  split at next
  · exact ⟨next, by assumption⟩
  · exact absurd next some

theorem Counted.snoc {issued : List (Ticket n)} {next generation : Nat} {k : Fin n}
    (counted : Counted limit first issued next) (some : next ≠ 0) :
    Counted limit first (issued ++ [⟨next, k, generation⟩]) (if next = limit then 0 else next + 1) := by
  obtain ⟨rfl, room⟩ := counted.next_eq some
  constructor
  · rw [List.map_append, counted.numbers, List.length_append, List.length_singleton, List.range'_concat]
    simp
  · rw [List.length_append, List.length_singleton]
    split <;> split <;> omega
  · rw [List.length_append, List.length_singleton]
    omega

namespace Sound

theorem number_lt (sound : d.Sound limit first) {ticket : Ticket n} (member : ticket ∈ d.issued) :
    ticket.number < first + d.issued.length := by
  have among : ticket.number ∈ d.issued.map (·.number) := List.mem_map_of_mem member
  rw [sound.counted.numbers, List.mem_range'_1] at among
  exact among.2

theorem number_inj (sound : d.Sound limit first) : (d.issued.map (·.number)).Nodup := by
  rw [sound.counted.numbers]
  exact List.nodup_range'

theorem waiting_issued (sound : d.Sound limit first) {ticket : Ticket n} (member : ticket ∈ d.waiting) :
    ∃ other ∈ d.issued, other.number = ticket.number ∧ other.place = ticket.place := by
  have among : (ticket.number, ticket.place) ∈ d.answers ++ d.waiting.map fun t => (t.number, t.place) :=
    List.mem_append_right _ (List.mem_map_of_mem member)
  obtain ⟨other, issued, same⟩ := List.mem_map.1 (sound.once.mem_iff.2 among)
  exact ⟨other, issued, congrArg Prod.fst same, congrArg Prod.snd same⟩

theorem issue (sound : d.Sound limit first) {k : Fin n} (some : d.next ≠ 0) (free : (d.boxes k).reserved = false) :
    (d.issue limit k).Sound limit first := by
  obtain ⟨next, -⟩ := sound.counted.next_eq some
  have issued : (d.issue limit k).issued = d.issued ++ [⟨d.next, k, (d.boxes k).generation + 1⟩] := by
    simp [Desk.issued, Desk.issue, Mark.issue?]
  have waiting : (d.issue limit k).waiting = d.waiting ++ [⟨d.next, k, (d.boxes k).generation + 1⟩] := by
    simp [Desk.waiting, Desk.issue]
  have answers : (d.issue limit k).answers = d.answers := by simp [Desk.answers, Desk.issue, Mark.answer?]
  have called : (d.issue limit k).called = d.called := by simp [Desk.called, Desk.issue, Mark.call?]
  have other : ∀ l, (d.boxes l).reserved = true → l ≠ k := by
    rintro l held rfl
    simp [free] at held
  have box : ∀ l, l ≠ k → (d.issue limit k).boxes l = d.boxes l := fun l ne => Function.update_of_ne ne _ _
  have own : (d.issue limit k).boxes k =
      { d.boxes k with
        reserved := true, answered := false, number := d.next, generation := (d.boxes k).generation + 1 } :=
    Function.update_self _ _ _
  have fresh : ∀ l, (d.boxes l).reserved = true → (d.boxes l).number ≠ d.next := by
    intro l held same
    obtain ⟨ticket, member, number⟩ := sound.reserved l held
    have less := sound.number_lt member
    omega
  exact {
    used := by
      have tally : ∑ l, ((d.issue limit k).boxes l).reserved.toNat + (d.boxes k).reserved.toNat =
          ∑ l, (d.boxes l).reserved.toNat + 1 := sum_update (fun b : Box V => b.reserved.toNat) d.boxes k _
      rw [free, Bool.toNat_false, ← sound.used] at tally
      exact tally.symm
    outstanding := by
      rw [waiting, List.length_append, ← sound.outstanding]
      rfl
    counted := by
      rw [issued]
      exact sound.counted.snoc some
    order := by
      rw [called, issued, ← sound.order, List.append_assoc]
      rfl
    once := by
      rw [issued, waiting, answers, List.map_append, List.map_append, ← List.append_assoc]
      exact sound.once.append_right _
    holds := by
      intro ticket member
      rw [waiting, List.mem_append, List.mem_singleton] at member
      rcases member with old | rfl
      · have held := sound.holds ticket old
        have same := box _ (other _ held.reserved)
        exact ⟨by rw [same, held.reserved], by rw [same, held.empty], by rw [same, held.generation],
          by rw [same, held.number]⟩
      · exact ⟨by rw [own], by rw [own], by rw [own], by rw [own]⟩
    reserved := by
      intro l held
      rw [issued]
      by_cases same : l = k
      · subst same
        exact ⟨_, List.mem_append_right _ (List.mem_singleton_self _), by rw [own]⟩
      · rw [box l same] at held ⊢
        obtain ⟨ticket, member, number⟩ := sound.reserved l held
        exact ⟨ticket, List.mem_append_left _ member, number⟩
    distinct := by
      intro l m left right same
      by_cases first : l = k <;> by_cases second : m = k
      · rw [first, second]
      · subst first
        rw [own, box m second] at same
        rw [box m second] at right
        exact absurd same.symm (fresh m right)
      · subst second
        rw [own, box l first] at same
        rw [box l first] at left
        exact absurd same (fresh l left)
      · rw [box l first] at left same
        rw [box m second] at right same
        exact sound.distinct l m left right same
    filed := by
      intro l held done
      have ne : l ≠ k := by
        rintro rfl
        rw [own] at done
        simp at done
      rw [box l ne] at held done ⊢
      exact List.mem_append_left _ (sound.filed l held done)
    collected := by
      intro number value member
      have before : .collected number value ∈ d.log := by simpa [Desk.issue] using member
      obtain ⟨place, answered⟩ := sound.collected number value before
      exact ⟨place, List.mem_append_left _ answered⟩ }

theorem call (sound : d.Sound limit first) {ticket : Ticket n} {rest : List (Ticket n)} (idle : d.current = none)
    (queue : d.queue = ticket :: rest) : (d.call ticket rest).Sound limit first := by
  have issued : (d.call ticket rest).issued = d.issued := by simp [Desk.issued, Desk.call, Mark.issue?]
  have waiting : (d.call ticket rest).waiting = d.waiting := by simp [Desk.waiting, Desk.call, idle, queue]
  have answers : (d.call ticket rest).answers = d.answers := by simp [Desk.answers, Desk.call, Mark.answer?]
  have called : (d.call ticket rest).called = d.called ++ [ticket] := by simp [Desk.called, Desk.call, Mark.call?]
  exact {
    used := sound.used
    outstanding := by
      rw [waiting]
      exact sound.outstanding
    counted := by
      rw [issued]
      exact sound.counted
    order := by
      rw [called, issued, ← sound.order, queue, List.append_assoc]
      rfl
    once := by
      rw [issued, waiting, answers]
      exact sound.once
    holds := by
      rw [waiting]
      intro other member
      have held := sound.holds other member
      exact ⟨held.reserved, held.empty, held.generation, held.number⟩
    reserved := by
      rw [issued]
      exact sound.reserved
    distinct := sound.distinct
    filed := fun k held done => List.mem_append_left _ (sound.filed k held done)
    collected := by
      intro number value member
      have before : .collected number value ∈ d.log := by simpa [Desk.call] using member
      obtain ⟨place, answered⟩ := sound.collected number value before
      exact ⟨place, List.mem_append_left _ answered⟩ }

theorem place_ne (sound : d.Sound limit first) {ticket other : Ticket n} {rest : List (Ticket n)}
    (waiting : d.waiting = ticket :: rest) (member : other ∈ rest) : other.place ≠ ticket.place := by
  intro same
  have numbers : (d.waiting.map (·.number)).Nodup := by
    have pairs : (d.issued.map fun t => (t.number, t.place)).Nodup := by
      apply List.Nodup.of_map Prod.fst
      rw [List.map_map]
      exact sound.number_inj
    have split := sound.once.nodup_iff.1 pairs
    have part := (List.nodup_append.1 split).2.1
    rw [List.nodup_map_iff_inj_on (List.Nodup.of_map _ part)]
    intro t left u right equal
    have boxes : t.place = u.place := by
      have held := sound.holds t left
      have kept := sound.holds u right
      apply sound.distinct _ _ held.reserved kept.reserved
      rw [held.number, kept.number, equal]
    exact List.inj_on_of_nodup_map part left right (by rw [equal, boxes])
  have held := (sound.holds ticket (waiting ▸ List.mem_cons_self)).number
  have kept := (sound.holds other (waiting ▸ List.mem_cons_of_mem _ member)).number
  rw [waiting, List.map_cons, List.nodup_cons] at numbers
  apply numbers.1
  rw [← held, ← same, kept]
  exact List.mem_map_of_mem member

theorem answer (sound : d.Sound limit first) {ticket : Ticket n} (value : V) (busy : d.current = some ticket) :
    (d.answer ticket value).Sound limit first := by
  have issued : (d.answer ticket value).issued = d.issued := by simp [Desk.issued, Desk.answer, Mark.issue?]
  have before : d.waiting = ticket :: d.queue := by simp [Desk.waiting, busy]
  have waiting : (d.answer ticket value).waiting = d.queue := by simp [Desk.waiting, Desk.answer]
  have answers : (d.answer ticket value).answers = d.answers ++ [(ticket.number, ticket.place)] := by
    simp [Desk.answers, Desk.answer, Mark.answer?]
  have called : (d.answer ticket value).called = d.called := by simp [Desk.called, Desk.answer, Mark.call?]
  have held := sound.holds ticket (before ▸ List.mem_cons_self)
  have box : ∀ l, l ≠ ticket.place → (d.answer ticket value).boxes l = d.boxes l :=
    fun l ne => Function.update_of_ne ne _ _
  have own : (d.answer ticket value).boxes ticket.place = { d.boxes ticket.place with answered := true, value } :=
    Function.update_self _ _ _
  have reserved : ∀ l, ((d.answer ticket value).boxes l).reserved = (d.boxes l).reserved := by
    intro l
    by_cases same : l = ticket.place
    · rw [same, own]
    · rw [box l same]
  have number : ∀ l, ((d.answer ticket value).boxes l).number = (d.boxes l).number := by
    intro l
    by_cases same : l = ticket.place
    · rw [same, own]
    · rw [box l same]
  exact {
    used := by
      simp only [reserved]
      exact sound.used
    outstanding := by
      have count := sound.outstanding
      rw [before, List.length_cons] at count
      rw [waiting]
      show d.outstanding - 1 = _
      omega
    counted := by
      rw [issued]
      exact sound.counted
    order := by
      rw [called, issued]
      exact sound.order
    once := by
      have once := sound.once
      rw [before, List.map_cons] at once
      rw [issued, waiting, answers, List.append_assoc]
      exact once
    holds := by
      intro other member
      rw [waiting] at member
      have kept := sound.holds other (before ▸ List.mem_cons_of_mem _ member)
      have same := box _ (sound.place_ne before member)
      exact ⟨by rw [same, kept.reserved], by rw [same, kept.empty], by rw [same, kept.generation],
        by rw [same, kept.number]⟩
    reserved := by
      intro l
      rw [issued, reserved, number]
      exact sound.reserved l
    distinct := by
      intro l m
      rw [reserved, reserved, number, number]
      exact sound.distinct l m
    filed := by
      intro l kept done
      by_cases same : l = ticket.place
      · subst same
        rw [own]
        apply List.mem_append_right
        rw [held.number]
        exact List.mem_singleton_self _
      · rw [box l same] at kept done ⊢
        exact List.mem_append_left _ (sound.filed l kept done)
    collected := by
      intro number value member
      have before : .collected number value ∈ d.log := by simpa [Desk.answer] using member
      obtain ⟨place, answered⟩ := sound.collected number value before
      exact ⟨place, List.mem_append_left _ answered⟩ }

theorem collect (sound : d.Sound limit first) (blank : V) {k : Fin n} (held : (d.boxes k).reserved = true)
    (done : (d.boxes k).answered = true) : (d.collect blank k).Sound limit first := by
  have issued : (d.collect blank k).issued = d.issued := by simp [Desk.issued, Desk.collect, Mark.issue?]
  have answers : (d.collect blank k).answers = d.answers := by simp [Desk.answers, Desk.collect, Mark.answer?]
  have called : (d.collect blank k).called = d.called := by simp [Desk.called, Desk.collect, Mark.call?]
  have box : ∀ l, l ≠ k → (d.collect blank k).boxes l = d.boxes l := fun l ne => Function.update_of_ne ne _ _
  have other : ∀ l, ((d.collect blank k).boxes l).reserved = true → l ≠ k := by
    rintro l kept rfl
    have own : ((d.collect blank l).boxes l).reserved = false := by simp [Desk.collect]
    rw [own] at kept
    exact absurd kept (by simp)
  exact {
    used := by
      have tally : ∑ l, ((d.collect blank k).boxes l).reserved.toNat + (d.boxes k).reserved.toNat =
          ∑ l, (d.boxes l).reserved.toNat + 0 := sum_update (fun b : Box V => b.reserved.toNat) d.boxes k _
      rw [held, Bool.toNat_true, ← sound.used] at tally
      show d.used - 1 = _
      omega
    outstanding := sound.outstanding
    counted := by
      rw [issued]
      exact sound.counted
    order := by
      rw [called, issued]
      exact sound.order
    once := by
      rw [issued, answers]
      exact sound.once
    holds := by
      intro ticket member
      have kept := sound.holds ticket member
      have ne : ticket.place ≠ k := by
        intro same
        have empty := kept.empty
        rw [same, done] at empty
        exact absurd empty (by simp)
      exact ⟨by rw [box _ ne, kept.reserved], by rw [box _ ne, kept.empty], by rw [box _ ne, kept.generation],
        by rw [box _ ne, kept.number]⟩
    reserved := by
      intro l kept
      have ne := other l kept
      rw [box l ne] at kept ⊢
      rw [issued]
      exact sound.reserved l kept
    distinct := by
      intro l m left right same
      have first := other l left
      have second := other m right
      rw [box l first] at left same
      rw [box m second] at right same
      exact sound.distinct l m left right same
    filed := by
      intro l kept full
      have ne := other l kept
      rw [box l ne] at kept full ⊢
      exact List.mem_append_left _ (sound.filed l kept full)
    collected := by
      intro number value member
      rcases List.mem_append.1 member with before | now
      · obtain ⟨place, answered⟩ := sound.collected number value before
        exact ⟨place, List.mem_append_left _ answered⟩
      · obtain ⟨rfl, rfl⟩ := Mark.collected.inj (List.mem_singleton.1 now)
        exact ⟨k, List.mem_append_left _ (sound.filed k held done)⟩ }

theorem step {blank : V} (sound : d.Sound limit first) (step : d.Step limit blank e) : e.Sound limit first := by
  cases step with
  | issue k some free => exact sound.issue some free
  | call idle queue => exact sound.call idle queue
  | answer value busy => exact sound.answer value busy
  | collect k held done => exact sound.collect blank held done

theorem exists_free (sound : d.Sound limit first) (room : d.used ≠ n) : ∃ k, (d.boxes k).reserved = false := by
  apply exists_of_tally_ne
  rw [← sound.used, Fintype.card_fin]
  exact room

end Sound

end Desk

end Sitometron
