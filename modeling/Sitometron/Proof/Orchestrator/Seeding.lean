import Sitometron.Proof.Orchestrator.Standing

/-!
# The seeded pool

What the constructor makes of the Jobs of a replay: the first slots have them, in their order, and every other slot is free.
-/

namespace Sitometron.Core.Orchestrator

variable {c : Setup} {p : Pool c} {jobs earlier rest : List Snapshot} {job : Snapshot}

def seedSequence (c : Setup) (n : Nat) : UInt64 :=
  if c.replayedCreatedSequences.isEmpty then UInt64.ofNat (n + 1) else c.replayedCreatedSequences.getD n 0

def Resident.seeded (c : Setup) (n : Nat) (job : Snapshot) : Resident where
  id := job.jobId
  banks := fun _ => ⟨job, [], none⟩
  existing := true
  reserved := true
  createdSequence := seedSequence c n
  gates := Function.update (fun _ => {}) .terminate { registered := true, permit := true }

def Pool.seeded (c : Setup) (jobs : List Snapshot) : Pool c where
  residents j := match jobs[j.val]? with
    | none => {}
    | some job => Resident.seeded c j.val job
  spare := Fin.last c.maxJobs
  criticalCount := jobs.length

structure Seedable (jobs : List Snapshot) : Prop where
  present : ∀ job ∈ jobs, job.entityExists = true
  distinct : (jobs.map (·.jobId)).Nodup

theorem Pool.seedJob_some {q : Pool c} (seedable : Seedable earlier) (seeded : (Pool.seeded c earlier).seedJob earlier job = some q) :
    q = Pool.seeded c (earlier ++ [job]) ∧ Seedable (earlier ++ [job]) := by
  rw [Pool.seedJob] at seeded
  split at seeded
  · next inside =>
    split at seeded
    · cases seeded
    · next fine =>
      simp only [Bool.or_eq_true, Bool.not_eq_true', List.any_eq_true, decide_eq_true_eq, not_or, Bool.not_eq_false, not_exists,
        not_and] at fine
      obtain ⟨present, new⟩ := fine
      constructor
      · have room : (Pool.seeded c earlier).criticalCount < c.criticalReserve := by
          rw [c.criticalReserve_eq]
          show earlier.length < _
          omega
        have none : earlier[earlier.length]? = none := List.getElem?_eq_none (Nat.le_refl _)
        rw [← Option.some.inj seeded, Pool.registerGate_eq]
        · simp only [Pool.setGate, Pool.modify_modify]
          simp only [Pool.seeded, Pool.modify, Pool.gate, List.length_append, List.length_singleton]
          congr 1
          funext j
          by_cases here : j = ⟨earlier.length, inside⟩
          · subst here
            simp [Resident.seeded, seedSequence]
          · have other : j.val ≠ earlier.length := fun same => here (Fin.ext same)
            rw [Function.update_of_ne here]
            rcases Nat.lt_or_gt_of_ne other with before | after
            · rw [List.getElem?_append_left before]
            · rw [List.getElem?_eq_none (by omega), List.getElem?_eq_none (by simp; omega)]
        · simp [Pool.seeded, Pool.modify, Pool.gate]
        · exact room
      · refine ⟨fun other member => ?_, ?_⟩
        · rcases List.mem_append.1 member with old | last
          · exact seedable.present other old
          · rw [List.mem_singleton.1 last]
            exact present
        · rw [List.map_append, List.nodup_append]
          refine ⟨seedable.distinct, by simp, fun id member other last => ?_⟩
          obtain ⟨before, old, rfl⟩ := List.mem_map.1 member
          have same : other = job.jobId := by simpa using last
          rw [same]
          exact new before old
  · cases seeded

theorem Pool.seedJobs_some {q : Pool c} (seedable : Seedable earlier)
    (seeded : (Pool.seeded c earlier).seedJobs earlier rest = some q) :
    q = Pool.seeded c (earlier ++ rest) ∧ Seedable (earlier ++ rest) := by
  induction rest generalizing earlier with
  | nil =>
      rw [List.append_nil]
      exact ⟨(Option.some.inj seeded).symm, seedable⟩
  | cons job rest ih =>
      obtain ⟨next, first, later⟩ := Option.bind_eq_some_iff.1 seeded
      obtain ⟨rfl, more⟩ := Pool.seedJob_some seedable first
      have result := ih more later
      rwa [List.append_assoc, List.singleton_append] at result

theorem Pool.seed_some (started : Pool.seed c = some p) :
    p = Pool.seeded c c.replayedJobs ∧ Seedable c.replayedJobs ∧ c.replayedJobs.length ≤ c.maxJobs := by
  rw [Pool.seed] at started
  split at started
  · cases started
  · next fits =>
    simp only [Bool.or_eq_true, decide_eq_true_eq, not_or, Nat.not_lt] at fits
    have empty : Pool.empty c = Pool.seeded c [] := rfl
    have none : Seedable [] := ⟨by simp, List.nodup_nil⟩
    rw [empty] at started
    have seeded := Pool.seedJobs_some none (Option.filter_eq_some_iff.1 started).1
    exact ⟨seeded.1, seeded.2, fits.1⟩

theorem Resident.Sound.seeded (c : Setup) (n : Nat) (job : Snapshot) : (Resident.seeded c n job).Sound := by
  have gates : ∀ kind, (Resident.seeded c n job).gates kind =
      if kind = .terminate then { registered := true, permit := true } else {} := by
    intro kind
    simp only [Resident.seeded, Function.update_apply]
  exact {
    blank := nofun
    gates := by
      intro kind
      rw [gates]
      split <;> exact ⟨rfl, by simp, by simp, by simp, by simp⟩
    unleased := rfl
    unretained := rfl
    closed := nofun
    ticket := nofun
    claimed := nofun }

theorem Resident.seeded_permits (c : Setup) (n : Nat) (job : Snapshot) : (Resident.seeded c n job).permits = 1 := rfl

theorem Pool.seeded_cases (c : Setup) (jobs : List Snapshot) (j : Slot c) :
    (∃ job, jobs[j.val]? = some job ∧ (Pool.seeded c jobs).residents j = Resident.seeded c j.val job) ∨
      jobs[j.val]? = none ∧ (Pool.seeded c jobs).residents j = {} := by
  rw [Pool.seeded]
  dsimp only
  cases jobs[j.val]? with
  | none => exact .inr ⟨rfl, rfl⟩
  | some job => exact .inl ⟨job, rfl, rfl⟩

theorem Pool.seeded_permits (inside : jobs.length ≤ c.maxJobs) : (Pool.seeded c jobs).permits = jobs.length := by
  have each : ∀ j : Slot c, ((Pool.seeded c jobs).residents j).permits = if j.val < jobs.length then 1 else 0 := by
    intro j
    rcases Pool.seeded_cases c jobs j with ⟨job, there, value⟩ | ⟨none, value⟩
    · rw [value, Resident.seeded_permits, if_pos (List.getElem?_eq_some_iff.1 there).1]
    · rw [value, if_neg (Nat.not_lt.2 (List.getElem?_eq_none_iff.1 none))]
      exact Resident.isBlank.permits rfl
  rw [Pool.permits, Finset.sum_congr rfl fun j _ => each j,
    Fin.sum_univ_eq_sum_range (fun n => if n < jobs.length then 1 else 0), ← Finset.card_filter]
  have within : (Finset.range (c.maxJobs + 1)).filter (· < jobs.length) = Finset.range jobs.length := by
    ext n
    simp only [Finset.mem_filter, Finset.mem_range]
    omega
  rw [within, Finset.card_range]

theorem Pool.seeded_kept (inside : jobs.length ≤ c.maxJobs) : (Pool.seeded c jobs).Kept where
  residents j := by
    rcases Pool.seeded_cases c jobs j with ⟨job, -, value⟩ | ⟨-, value⟩
    · rw [value]
      exact .seeded c j.val job
    · rw [value]
      exact .blank_sound rfl
  balanced := (Pool.seeded_permits inside).symm
  spare := by
    have none : jobs[(Fin.last c.maxJobs).val]? = none := List.getElem?_eq_none inside
    rcases Pool.seeded_cases c jobs (Fin.last c.maxJobs) with ⟨job, there, -⟩ | ⟨-, value⟩
    · rw [none] at there
      cases there
    · exact congrArg Resident.existing value
  clean := nofun

theorem Pool.seeded_slotted (seedable : Seedable jobs) (inside : jobs.length ≤ c.maxJobs) : Slotted (Pool.seeded c jobs) none where
  distinct i j first second same := by
    rcases Pool.seeded_cases c jobs i with ⟨one, here, mine⟩ | ⟨-, value⟩
    · rcases Pool.seeded_cases c jobs j with ⟨two, there, yours⟩ | ⟨-, value⟩
      · rw [mine, yours] at same
        have ids : one.jobId = two.jobId := same
        have before := (List.getElem?_eq_some_iff.1 here).1
        exact Fin.ext ((List.getElem?_inj (by simpa using before) seedable.distinct).1 (by simp [here, there, ids]))
      · rw [value] at second
        cases second
    · rw [value] at first
      cases first
  ticket j := by
    rcases Pool.seeded_cases c jobs j with ⟨job, there, value⟩ | ⟨-, value⟩
    · have before := (List.getElem?_eq_some_iff.1 there).1
      have other : j ≠ Fin.last c.maxJobs := by
        rintro rfl
        exact absurd before (Nat.not_lt.2 inside)
      rw [value]
      exact iff_of_false nofun fun both => other both.1
    · rw [value]
      exact iff_of_false nofun nofun
  claimed j := by
    rcases Pool.seeded_cases c jobs j with ⟨job, -, value⟩ | ⟨-, value⟩ <;> rw [value] <;> exact iff_of_false nofun nofun
  full := nofun

theorem Pool.seeded_settled (seedable : Seedable jobs) (inside : jobs.length ≤ c.maxJobs) :
    Settled (Pool.seeded c jobs) [] none := by
  refine ⟨Pool.seeded_kept inside, ⟨by simp, by simp, fun j kind => ?_, fun j => ?_⟩, Pool.seeded_slotted seedable inside,
    fun j => ?_⟩
  · rcases Pool.seeded_cases c jobs j with ⟨job, -, value⟩ | ⟨-, value⟩ <;> rw [Pool.gate, value]
    · cases kind <;> rfl
    · rfl
  · rcases Pool.seeded_cases c jobs j with ⟨job, -, value⟩ | ⟨-, value⟩ <;> rw [value] <;> rfl
  · rcases Pool.seeded_cases c jobs j with ⟨job, -, value⟩ | ⟨-, value⟩ <;> rw [value]
    · exact fun _ absent => by cases absent
    · exact fun free => by cases free

theorem Pool.seeded_faithful (seedable : Seedable jobs) (j : Slot c) : ((Pool.seeded c jobs).residents j).Faithful := by
  rcases Pool.seeded_cases c jobs j with ⟨job, there, value⟩ | ⟨-, value⟩
  · rw [value]
    exact ⟨fun _ => ⟨rfl, seedable.present job (List.mem_of_getElem? there)⟩, nofun⟩
  · rw [value]
    exact .of_fresh (Resident.isBlank.fresh rfl)

end Sitometron.Core.Orchestrator
