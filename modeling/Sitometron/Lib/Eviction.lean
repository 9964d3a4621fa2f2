import Mathlib.Data.List.Basic
import Mathlib.Tactic.Basic

/-!
# Lists of bounded length

A full list makes room by dropping its first spent element. Two such lists with different bounds are
compared by which elements the longer one still holds.
-/

namespace Sitometron

variable {α κ : Type} {spent : α → Bool} {capacity : Nat} {xs ys zs : List α} {x : α}

/-- Appends an element; a full list drops its first spent element before, and has no room without one. -/
def place (capacity : Nat) (spent : α → Bool) (xs : List α) (x : α) : Option (List α) :=
  if xs.length < capacity then some (xs ++ [x])
  else if xs.any spent then some (xs.eraseP spent ++ [x])
  else none

theorem place_eq_some : place capacity spent xs x = some zs ↔
    xs.length < capacity ∧ zs = xs ++ [x] ∨
      capacity ≤ xs.length ∧ xs.any spent = true ∧ zs = xs.eraseP spent ++ [x] := by
  unfold place
  by_cases room : xs.length < capacity
  · rw [if_pos room, Option.some_inj, eq_comm]
    exact ⟨fun same => .inl ⟨room, same⟩, fun cases => cases.elim (·.2) fun full => absurd room (Nat.not_lt.2 full.1)⟩
  · rw [if_neg room]
    by_cases found : xs.any spent = true
    · rw [if_pos found, Option.some_inj, eq_comm]
      exact ⟨fun same => .inr ⟨Nat.not_lt.1 room, found, same⟩, fun cases => cases.elim (absurd ·.1 room) (·.2.2)⟩
    · rw [if_neg found]
      exact ⟨nofun, fun cases => cases.elim (absurd ·.1 room) (absurd ·.2.1 found)⟩

theorem length_eraseP_of_any (found : xs.any spent = true) : (xs.eraseP spent).length + 1 = xs.length := by
  obtain ⟨y, member, holds⟩ := List.any_eq_true.1 found
  have positive := List.length_pos_of_mem member
  rw [List.length_eraseP_of_mem member holds]
  omega

theorem length_of_place (placed : place capacity spent xs x = some zs) (within : xs.length ≤ capacity) :
    zs.length ≤ capacity ∧ xs.length ≤ zs.length := by
  rcases place_eq_some.1 placed with ⟨room, rfl⟩ | ⟨full, found, rfl⟩
  · rw [List.length_append, List.length_singleton]
    omega
  · have shorter := length_eraseP_of_any found
    rw [List.length_append, List.length_singleton]
    omega

theorem mem_of_place (placed : place capacity spent xs x = some zs) {y : α} (member : y ∈ zs) : y ∈ xs ∨ y = x := by
  rcases place_eq_some.1 placed with ⟨-, rfl⟩ | ⟨-, -, rfl⟩
  · simpa using member
  · rcases List.mem_append.1 member with kept | last
    · exact .inl (List.mem_of_mem_eraseP kept)
    · exact .inr (List.mem_singleton.1 last)

theorem place_map {β : Type} {used : β → Bool} {f : β → α} {ws : List β} {y : β} (same : ∀ w, spent (f w) = used w) :
    place capacity spent (ws.map f) (f y) = (place capacity used ws y).map (List.map f) := by
  have composed : spent ∘ f = used := funext same
  unfold place
  rw [List.length_map, List.any_map, composed]
  by_cases room : ws.length < capacity
  · rw [if_pos room, if_pos room]
    simp
  · rw [if_neg room, if_neg room]
    by_cases found : ws.any used = true
    · rw [if_pos found, if_pos found, List.eraseP_map, composed]
      simp
    · rw [if_neg found, if_neg found]
      rfl

section Keys

variable {key : α → κ} {k : κ} {position : Nat}

theorem key_ne_of_mem (distinct : ((x :: xs).map key).Nodup) {y : α} (member : y ∈ xs) : key x ≠ key y := by
  rw [List.map_cons, List.nodup_cons] at distinct
  intro same
  rw [same] at distinct
  exact distinct.1 (List.mem_map_of_mem member)

theorem map_modify {β : Type} {f : α → α} {g : α → β} {h : β → β} (commutes : ∀ x, g (f x) = h (g x)) :
    (xs.modify position f).map g = (xs.map g).modify position h := by
  induction xs generalizing position with
  | nil => simp
  | cons x xs ih =>
      cases position with
      | zero => simp [commutes]
      | succ position => simp [ih]

theorem modify_append {i : Nat} {f : α → α} : (xs ++ ys).modify (xs.length + i) f = xs ++ ys.modify i f := by
  induction xs with
  | nil => simp
  | cons x xs ih => simpa [Nat.succ_add] using ih

variable [DecidableEq κ]

theorem modify_findIdx? {f : α → α} (distinct : (xs.map key).Nodup)
    (found : xs.findIdx? (fun x => key x = k) = some position) :
    xs.modify position f = xs.map fun x => if key x = k then f x else x := by
  induction xs generalizing position with
  | nil => simp
  | cons x xs ih =>
      rw [List.findIdx?_cons] at found
      by_cases same : key x = k
      · obtain rfl : 0 = position := by simpa [same] using found
        have others : (xs.map fun y => if key y = k then f y else y) = xs := by
          refine (List.map_congr_left fun y member => ?_).trans (List.map_id xs)
          exact if_neg fun also => key_ne_of_mem distinct member (same.trans also.symm)
        rw [List.modify_zero_cons, List.map_cons, if_pos same, others]
      · obtain ⟨later, inside, rfl⟩ : ∃ later, xs.findIdx? (fun x => key x = k) = some later ∧ later + 1 = position := by
          simpa [same] using found
        rw [List.modify_succ_cons, List.map_cons, if_neg same, ih (List.nodup_cons.1 distinct).2 inside]

theorem findIdx?_eraseP (distinct : (xs.map key).Nodup) (found : xs.findIdx? spent = some position) (k : κ) :
    (xs.eraseP spent).findIdx? (fun x => key x = k) =
      if some k = (xs[position]?).map key then none
      else (xs.findIdx? fun x => key x = k).map fun i => if i > position then i - 1 else i := by
  induction xs generalizing position with
  | nil => simp at found
  | cons x xs ih =>
      rw [List.findIdx?_cons] at found ⊢
      by_cases used : spent x = true
      · obtain rfl : 0 = position := by simpa [used] using found
        rw [List.eraseP_cons_of_pos used]
        by_cases same : key x = k
        · have absent : xs.findIdx? (fun y => key y = k) = none := by
            refine List.findIdx?_eq_none_iff.2 fun y member => ?_
            have other := key_ne_of_mem distinct member
            simpa [same] using other.symm
          simp [same, absent]
        · have other : k ≠ key x := Ne.symm same
          simp only [List.getElem?_cons_zero, Option.map_some, Option.some_inj, if_neg other, same, decide_false,
            Bool.false_eq_true, if_false, Option.map_map]
          cases xs.findIdx? fun y => decide (key y = k) with
          | none => rfl
          | some i => simp
      · obtain ⟨later, inside, rfl⟩ : ∃ later, xs.findIdx? spent = some later ∧ later + 1 = position := by
          simpa [used] using found
        rw [List.eraseP_cons_of_neg used, List.findIdx?_cons, List.getElem?_cons_succ,
          ih (List.nodup_cons.1 distinct).2 inside]
        by_cases same : key x = k
        · have other : some k ≠ (xs[later]?).map key := by
            intro also
            obtain ⟨y, at_, named⟩ := Option.map_eq_some_iff.1 also.symm
            exact key_ne_of_mem distinct (List.mem_of_getElem? at_) (same.trans named.symm)
          simp [same, other]
        · simp only [same, decide_false, Bool.false_eq_true, if_false]
          split
          next => rfl
          next =>
            rw [Option.map_map, Option.map_map]
            refine congrArg (Option.map · _) (funext fun i => ?_)
            show (if i > later then i - 1 else i) + 1 = if i + 1 > later + 1 then i + 1 - 1 else i + 1
            split <;> split <;> omega

end Keys

inductive Covers (spent : α → Bool) : List α → List α → Prop
  | nil : Covers spent [] []
  | both {xs ys : List α} (x : α) : Covers spent xs ys → Covers spent (x :: xs) (x :: ys)
  | extra {xs ys : List α} {y : α} : spent y = true → Covers spent xs ys → Covers spent xs (y :: ys)

namespace Covers

theorem refl (xs : List α) : Covers spent xs xs := by
  induction xs with
  | nil => exact .nil
  | cons x xs ih => exact .both x ih

theorem sublist (covers : Covers spent xs ys) : xs.Sublist ys := by
  induction covers with
  | nil => exact .slnil
  | both x _ ih => exact ih.cons_cons x
  | extra _ _ ih => exact ih.cons _

theorem append (covers : Covers spent xs ys) (zs : List α) : Covers spent (xs ++ zs) (ys ++ zs) := by
  induction covers with
  | nil => exact refl zs
  | both x _ ih => exact .both x ih
  | extra used _ ih => exact .extra used ih

theorem map {β : Type} {used : β → Bool} {f : α → β} (covers : Covers spent xs ys)
    (same : ∀ x, spent x = true → used (f x) = true) : Covers used (xs.map f) (ys.map f) := by
  induction covers with
  | nil => exact .nil
  | both x _ ih => exact .both (f x) ih
  | extra already _ ih => exact .extra (same _ already) ih

theorem eraseP_left (covers : Covers spent xs ys) : Covers spent (xs.eraseP spent) ys := by
  induction covers with
  | nil => exact .nil
  | extra used _ ih => exact .extra used ih
  | both x covers ih =>
      by_cases used : spent x = true
      · rw [List.eraseP_cons_of_pos used]
        exact .extra used covers
      · rw [List.eraseP_cons_of_neg used]
        exact .both x ih

theorem eraseP (covers : Covers spent xs ys) : Covers spent (xs.eraseP spent) (ys.eraseP spent) := by
  induction covers with
  | nil => exact .nil
  | extra used covers ih =>
      rw [List.eraseP_cons_of_pos used]
      exact covers.eraseP_left
  | both x covers ih =>
      by_cases used : spent x = true
      · rw [List.eraseP_cons_of_pos used, List.eraseP_cons_of_pos used]
        exact covers
      · rw [List.eraseP_cons_of_neg used, List.eraseP_cons_of_neg used]
        exact .both x ih

theorem filter_eq {p : α → Bool} (covers : Covers spent xs ys) (fresh : ∀ y, spent y = true → p y = false) :
    xs.filter p = ys.filter p := by
  induction covers with
  | nil => rfl
  | both x _ ih => rw [List.filter_cons, List.filter_cons, ih]
  | extra used _ ih => rw [ih, List.filter_cons_of_neg (by simp [fresh _ used])]

theorem map_key [DecidableEq κ] {key : α → κ} {k : κ} {f : α → α} (covers : Covers spent xs ys)
    (distinct : (ys.map key).Nodup) (present : k ∈ xs.map key) :
    Covers spent (xs.map fun x => if key x = k then f x else x) (ys.map fun y => if key y = k then f y else y) := by
  have untouched (zs : List α) (absent : k ∉ zs.map key) : (zs.map fun z => if key z = k then f z else z) = zs := by
    refine (List.map_congr_left fun z member => ?_).trans (List.map_id zs)
    refine if_neg fun same => absent ?_
    rw [← same]
    exact List.mem_map_of_mem member
  induction covers with
  | nil => exact absurd present (by simp)
  | @extra xs ys y used covers ih =>
      rw [List.map_cons, List.nodup_cons] at distinct
      have other : key y ≠ k := by
        rintro rfl
        exact distinct.1 ((covers.sublist.map key).subset present)
      rw [List.map_cons, if_neg other]
      exact .extra used (ih distinct.2 present)
  | @both xs ys x covers ih =>
      rw [List.map_cons, List.nodup_cons] at distinct
      rw [List.map_cons, List.map_cons]
      by_cases same : key x = k
      · have later : k ∉ ys.map key := same ▸ distinct.1
        have earlier : k ∉ xs.map key := fun member => later ((covers.sublist.map key).subset member)
        rw [untouched xs earlier, untouched ys later]
        exact .both _ covers
      · rw [if_neg same]
        refine .both x (ih distinct.2 ?_)
        rw [List.map_cons, List.mem_cons] at present
        exact present.resolve_left (Ne.symm same)

/-- The list with the larger bound has room where the other one has it, and still holds what the other holds: it has
further elements only once the other is full. -/
theorem place {larger : Nat} (covers : Covers spent xs ys) (filled : xs.length < capacity → xs = ys)
    (bound : capacity ≤ larger) (placed : place capacity spent xs x = some zs) :
    ∃ ws, Sitometron.place larger spent ys x = some ws ∧ Covers spent zs ws ∧ (zs.length < capacity → zs = ws) := by
  rcases place_eq_some.1 placed with ⟨room, rfl⟩ | ⟨full, found, rfl⟩
  · obtain rfl := filled room
    exact ⟨_, place_eq_some.2 (.inl ⟨Nat.lt_of_lt_of_le room bound, rfl⟩), refl _, fun _ => rfl⟩
  · have length : (xs.eraseP spent ++ [x]).length = xs.length := by
      rw [List.length_append, List.length_singleton, length_eraseP_of_any found]
    have vacuous : ∀ ws, (xs.eraseP spent ++ [x]).length < capacity → xs.eraseP spent ++ [x] = ws := by
      intro ws short
      omega
    by_cases room : ys.length < larger
    · exact ⟨_, place_eq_some.2 (.inl ⟨room, rfl⟩), covers.eraseP_left.append _, vacuous _⟩
    · have also : ys.any spent = true := by
        obtain ⟨y, member, used⟩ := List.any_eq_true.1 found
        exact List.any_eq_true.2 ⟨y, covers.sublist.subset member, used⟩
      exact ⟨_, place_eq_some.2 (.inr ⟨Nat.not_lt.1 room, also, rfl⟩), covers.eraseP.append _, vacuous _⟩

end Covers

theorem place_of_room {first : List α} (room : (first ++ xs).length < capacity) : place capacity spent xs x = some (xs ++ [x]) := by
  rw [List.length_append] at room
  exact place_eq_some.2 (.inl ⟨by omega, rfl⟩)

theorem place_append {first : List α} (all : ∀ y ∈ first, spent y = true) (within : (first ++ xs).length ≤ capacity)
    (placed : place capacity spent (first ++ xs) x = some zs) :
    ∃ left ws, zs = left ++ ws ∧ left.Sublist first ∧ place capacity spent xs x = some ws := by
  rw [List.length_append] at within
  rcases place_eq_some.1 placed with ⟨room, rfl⟩ | ⟨full, found, rfl⟩
  · exact ⟨first, xs ++ [x], List.append_assoc _ _ _, List.Sublist.refl _, place_of_room room⟩
  · cases first with
    | nil => exact ⟨[], _, rfl, List.Sublist.refl _, placed⟩
    | cons y first =>
        rw [List.length_cons] at within
        refine ⟨first, xs ++ [x], ?_, List.sublist_cons_self y first, place_eq_some.2 (.inl ⟨by omega, rfl⟩)⟩
        rw [List.cons_append, List.eraseP_cons_of_pos (all y List.mem_cons_self), List.append_assoc]

end Sitometron
