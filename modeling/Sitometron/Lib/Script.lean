import Mathlib.Tactic.Basic

/-!
# Programs that ask an environment

A program runs over a state and asks its environment; the answers come from a list. Where the list
ends the program is still running, so the states along a run are the final states for the prefixes of
its answers.
-/

namespace Sitometron

inductive Exit (α : Type) where
  | returned (a : α)
  | thrown
  | waiting
deriving DecidableEq, Repr

def Script (σ ρ α : Type) : Type := σ → List ρ → Exit α × σ × List ρ

namespace Script

variable {σ ρ α β : Type}

instance : Monad (Script σ ρ) where
  pure a := fun s answers => (.returned a, s, answers)
  bind p f := fun s answers =>
    match p s answers with
    | (.returned a, t, rest) => f a t rest
    | (.thrown, t, rest) => (.thrown, t, rest)
    | (.waiting, t, rest) => (.waiting, t, rest)

def get : Script σ ρ σ := fun s answers => (.returned s, s, answers)

def modify (f : σ → σ) : Script σ ρ Unit := fun s answers => (.returned (), f s, answers)

def throw : Script σ ρ α := fun s answers => (.thrown, s, answers)

def ask : Script σ ρ ρ := fun s answers =>
  match answers with
  | [] => (.waiting, s, [])
  | answer :: rest => (.returned answer, s, rest)

def rescue (p handler : Script σ ρ α) : Script σ ρ α := fun s answers =>
  match p s answers with
  | (.thrown, t, rest) => handler t rest
  | finished => finished

def iterateWithin (body : β → Script σ ρ (β ⊕ α)) : Nat → β → Script σ ρ α
  | 0, _ => fun s answers => (.waiting, s, answers)
  | fuel + 1, b => body b >>= fun
      | .inl next => iterateWithin body fuel next
      | .inr a => pure a

/-- Repeats the body until it gives a result. A body that asks in every turn but its last never runs out
of turns before the answers end. -/
def iterate (body : β → Script σ ρ (β ⊕ α)) (b : β) : Script σ ρ α := fun s answers =>
  iterateWithin body (answers.length + 1) b s answers

def Meets (p : Script σ ρ α) (s : σ) (post : Exit α → σ → Prop) : Prop :=
  ∀ answers, post (p s answers).1 (p s answers).2.1

variable {p : Script σ ρ α} {s : σ} {post post' : Exit α → σ → Prop}

theorem Meets.mono (meets : Meets p s post) (weaker : ∀ exit t, post exit t → post' exit t) : Meets p s post' :=
  fun answers => weaker _ _ (meets answers)

theorem meets_pure {a : α} (holds : post (.returned a) s) : Meets (pure a : Script σ ρ α) s post := fun _ => holds

theorem meets_throw (holds : post .thrown s) : Meets (throw : Script σ ρ α) s post := fun _ => holds

theorem meets_get {post : Exit σ → σ → Prop} (holds : post (.returned s) s) : Meets (get : Script σ ρ σ) s post :=
  fun _ => holds

theorem meets_modify {f : σ → σ} {post : Exit Unit → σ → Prop} (holds : post (.returned ()) (f s)) :
    Meets (modify f : Script σ ρ Unit) s post := fun _ => holds

theorem meets_ask {post : Exit ρ → σ → Prop} (unanswered : post .waiting s)
    (answered : ∀ answer, post (.returned answer) s) : Meets (ask : Script σ ρ ρ) s post := by
  intro answers
  cases answers with
  | nil => exact unanswered
  | cons answer rest => exact answered answer

def andThen (f : α → Script σ ρ β) (post : Exit β → σ → Prop) : Exit α → σ → Prop
  | .returned a, t => Meets (f a) t post
  | .thrown, t => post .thrown t
  | .waiting, t => post .waiting t

theorem meets_bind {f : α → Script σ ρ β} {post : Exit β → σ → Prop} (first : Meets p s (andThen f post)) :
    Meets (p >>= f) s post := by
  intro answers
  have reached := first answers
  simp only [bind]
  cases run : p s answers with
  | mk exit rest =>
      rw [run] at reached
      cases exit with
      | returned a => exact reached rest.2
      | thrown => exact reached
      | waiting => exact reached

section Sequences

variable {k : β → Script σ ρ α}

theorem meets_bind_pure {b : β} (rest : Meets (k b) s post) : Meets (pure b >>= k) s post := meets_bind (meets_pure rest)

theorem meets_bind_get {k : σ → Script σ ρ α} (rest : Meets (k s) s post) : Meets (get >>= k) s post :=
  meets_bind (meets_get rest)

theorem meets_bind_modify {f : σ → σ} {k : Unit → Script σ ρ α} (rest : Meets (k ()) (f s) post) :
    Meets (modify f >>= k) s post := meets_bind (meets_modify rest)

theorem meets_ite {c : Prop} [Decidable c] {q : Script σ ρ α} (yes : c → Meets p s post) (no : ¬c → Meets q s post) :
    Meets (if c then p else q) s post := by
  split
  next holds => exact yes holds
  next fails => exact no fails

end Sequences

def orElse (handler : Script σ ρ α) (post : Exit α → σ → Prop) : Exit α → σ → Prop
  | .thrown, t => Meets handler t post
  | exit, t => post exit t

theorem meets_rescue {handler : Script σ ρ α} (first : Meets p s (orElse handler post)) :
    Meets (rescue p handler) s post := by
  intro answers
  have reached := first answers
  simp only [rescue]
  cases run : p s answers with
  | mk exit rest =>
      rw [run] at reached
      cases exit with
      | returned a => exact reached
      | thrown => exact reached rest.2
      | waiting => exact reached

theorem meets_iterate {body : β → Script σ ρ (β ⊕ α)} {b : β} (inv : β → σ → Prop) (start : inv b s)
    (pending : ∀ b t, inv b t → post .waiting t)
    (turn : ∀ b t, inv b t → Meets (body b) t fun exit u =>
      match exit with
      | .returned (.inl next) => inv next u
      | .returned (.inr a) => post (.returned a) u
      | .thrown => post .thrown u
      | .waiting => post .waiting u) :
    Meets (iterate body b) s post := by
  have within : ∀ fuel b t, inv b t → Meets (iterateWithin body fuel b) t post := by
    intro fuel
    induction fuel with
    | zero => exact fun b t holds answers => pending b t holds
    | succ fuel ih =>
        intro b t holds
        refine meets_bind ((turn b t holds).mono fun exit u reached => ?_)
        cases exit with
        | returned result =>
            cases result with
            | inl next => exact ih next u reached
            | inr a => exact meets_pure reached
        | thrown => exact reached
        | waiting => exact reached
  exact fun answers => within _ b s start answers

def Keeps (inv : σ → Prop) (p : Script σ ρ α) (s : σ) (post : α → σ → Prop) : Prop :=
  Meets p s fun exit t => inv t ∧ ∀ a, exit = .returned a → post a t

section Keeps

variable {inv : σ → Prop} {post post' : α → σ → Prop}

theorem Keeps.mono (keeps : Keeps inv p s post) (weaker : ∀ a t, inv t → post a t → post' a t) : Keeps inv p s post' :=
  Meets.mono keeps fun _ t held => ⟨held.1, fun a returned => weaker a t held.1 (held.2 a returned)⟩

theorem keeps_pure {a : α} (held : inv s) (holds : post a s) : Keeps inv (pure a : Script σ ρ α) s post := by
  refine meets_pure ⟨held, ?_⟩
  rintro _ ⟨⟩
  exact holds

theorem keeps_bind {q : Script σ ρ β} {f : β → Script σ ρ α} (first : Keeps inv q s fun b t => Keeps inv (f b) t post) :
    Keeps inv (q >>= f) s post := by
  refine meets_bind (Meets.mono first fun exit t held => ?_)
  cases exit with
  | returned b => exact held.2 b rfl
  | thrown => exact ⟨held.1, nofun⟩
  | waiting => exact ⟨held.1, nofun⟩

theorem keeps_modify {f : σ → σ} {post : Unit → σ → Prop} (held : inv (f s)) (holds : post () (f s)) :
    Keeps inv (modify f : Script σ ρ Unit) s post := meets_modify ⟨held, fun _ _ => holds⟩

theorem keeps_get {post : σ → σ → Prop} (held : inv s) (holds : post s s) : Keeps inv (get : Script σ ρ σ) s post := by
  refine meets_get ⟨held, ?_⟩
  rintro _ ⟨⟩
  exact holds

theorem keeps_ask {post : ρ → σ → Prop} (held : inv s) (holds : ∀ x, post x s) : Keeps inv (ask : Script σ ρ ρ) s post := by
  refine meets_ask ⟨held, nofun⟩ fun x => ⟨held, ?_⟩
  rintro _ ⟨⟩
  exact holds x

theorem keeps_throw (held : inv s) : Keeps inv (throw : Script σ ρ α) s post := meets_throw ⟨held, nofun⟩

theorem keeps_ite {c : Prop} [Decidable c] {q : Script σ ρ α} (yes : c → Keeps inv p s post) (no : ¬c → Keeps inv q s post) :
    Keeps inv (if c then p else q) s post := meets_ite yes no

theorem keeps_rescue {handler : Script σ ρ α} (first : Keeps inv p s post) (then_ : ∀ t, inv t → Keeps inv handler t post) :
    Keeps inv (rescue p handler) s post := by
  refine meets_rescue (Meets.mono first fun exit t held => ?_)
  cases exit with
  | returned a => exact held
  | thrown => exact then_ t held.1
  | waiting => exact held

theorem keeps_iterate {body : β → Script σ ρ (β ⊕ α)} {b : β} (each : β → σ → Prop) (start : each b s)
    (implied : ∀ b t, each b t → inv t)
    (turn : ∀ b t, each b t → Keeps inv (body b) t fun result u =>
      match result with
      | .inl next => each next u
      | .inr a => post a u) :
    Keeps inv (iterate body b) s post := by
  refine meets_iterate each start (fun b t held => ⟨implied b t held, nofun⟩) fun b t held => ?_
  refine Meets.mono (turn b t held) fun exit u reached => ?_
  match exit, reached with
  | .returned (.inl next), reached => exact reached.2 _ rfl
  | .returned (.inr a), reached =>
      refine ⟨reached.1, ?_⟩
      rintro _ ⟨⟩
      exact reached.2 _ rfl
  | .thrown, reached => exact ⟨reached.1, nofun⟩
  | .waiting, reached => exact ⟨reached.1, nofun⟩

end Keeps

def Within (good : ρ → Prop) (n : Nat) (p : Script σ ρ α) (s : σ) (a : α) (t : σ) : Prop :=
  ∀ answers, n ≤ answers.length → (∀ x ∈ answers, good x) →
    ∃ used rest, answers = used ++ rest ∧ used.length ≤ n ∧ p s answers = (.returned a, t, rest)

def Ends (good : ρ → Prop) (p : Script σ ρ α) (s : σ) (post : α → σ → Prop) : Prop :=
  ∃ a t, (∃ n, Within good n p s a t) ∧ post a t

section Ends

variable {good : ρ → Prop} {s t u : σ} {a : α} {b : β} {n m : Nat} {p : Script σ ρ α} {post post' : α → σ → Prop}

theorem Ends.mono (ends : Ends good p s post) (weaker : ∀ a t, post a t → post' a t) : Ends good p s post' := by
  obtain ⟨a, t, within, holds⟩ := ends
  exact ⟨a, t, within, weaker a t holds⟩

theorem ends_pure (holds : post a s) : Ends good (pure a : Script σ ρ α) s post :=
  ⟨a, s, ⟨0, fun answers _ _ => ⟨[], answers, rfl, Nat.le_refl _, rfl⟩⟩, holds⟩

theorem Within.bind {q : Script σ ρ β} {f : β → Script σ ρ α} (first : Within good n q s b u) (second : Within good m (f b) u a t) :
    Within good (n + m) (q >>= f) s a t := by
  intro answers enough fine
  obtain ⟨used, rest, rfl, few, ran⟩ := first answers (by omega) fine
  have left : m ≤ rest.length := by
    rw [List.length_append] at enough
    omega
  obtain ⟨more, others, rfl, fewMore, ranMore⟩ := second rest left fun x member => fine x (List.mem_append_right _ member)
  refine ⟨used ++ more, others, (List.append_assoc _ _ _).symm, ?_, ?_⟩
  · rw [List.length_append]
    omega
  · simp only [Bind.bind, ran, ranMore]

theorem ends_bind {q : Script σ ρ β} {f : β → Script σ ρ α} (first : Ends good q s fun b u => Ends good (f b) u post) :
    Ends good (q >>= f) s post := by
  obtain ⟨b, u, ⟨n, ran⟩, a, t, ⟨m, ranMore⟩, holds⟩ := first
  exact ⟨a, t, ⟨n + m, ran.bind ranMore⟩, holds⟩

theorem ends_of_answer (one : ∀ x rest, good x → p s (x :: rest) = (.returned a, t, rest)) (holds : post a t) :
    Ends good p s post := by
  refine ⟨a, t, ⟨1, fun answers enough fine => ?_⟩, holds⟩
  cases answers with
  | nil => cases enough
  | cons x rest => exact ⟨[x], rest, rfl, Nat.le_refl _, one x rest (fine x List.mem_cons_self)⟩

theorem ends_rescue {handler : Script σ ρ α} (ends : Ends good p s post) : Ends good (rescue p handler) s post := by
  obtain ⟨a, t, ⟨n, ran⟩, holds⟩ := ends
  refine ⟨a, t, ⟨n, fun answers enough fine => ?_⟩, holds⟩
  obtain ⟨used, rest, split, few, returned⟩ := ran answers enough fine
  exact ⟨used, rest, split, few, by simp only [rescue, returned]⟩

theorem ends_iterate {body : β → Script σ ρ (β ⊕ α)} (inv : β → σ → Prop) (rank : β → Nat) (start : inv b s)
    (stop : ∀ b u, inv b u → rank b = 0 → ∀ answers, body b u answers = (.returned (.inr a), t, answers))
    (turn : ∀ b u, inv b u → rank b ≠ 0 → ∀ x rest, good x → ∃ next v,
      body b u (x :: rest) = (.returned (.inl next), v, rest) ∧ inv next v ∧ rank next < rank b)
    (holds : post a t) : Ends good (iterate body b) s post := by
  have within : ∀ k b u fuel, inv b u → rank b ≤ k → k < fuel → Within good k (iterateWithin body fuel b) u a t := by
    intro k
    induction k with
    | zero =>
        intro b u fuel held least room answers _ _
        obtain ⟨fuel, rfl⟩ := Nat.exists_eq_add_of_lt room
        have done := stop b u held (Nat.le_zero.1 least) answers
        exact ⟨[], answers, rfl, Nat.le_refl _, by simp only [Nat.zero_add, iterateWithin, Bind.bind, done]; rfl⟩
    | succ k ih =>
        intro b u fuel held bound room answers enough fine
        obtain ⟨fuel, rfl⟩ : ∃ f, fuel = f + 1 := ⟨fuel - 1, by omega⟩
        by_cases finished : rank b = 0
        · have done := stop b u held finished answers
          exact ⟨[], answers, rfl, Nat.zero_le _, by simp only [iterateWithin, Bind.bind, done]; rfl⟩
        · cases answers with
          | nil => cases enough
          | cons x rest =>
              obtain ⟨next, v, ran, kept, closer⟩ := turn b u held finished x rest (fine x List.mem_cons_self)
              obtain ⟨used, left, rfl, few, returned⟩ := ih next v fuel kept (by omega) (by omega) rest
                (Nat.le_of_succ_le_succ enough) fun y member => fine y (List.mem_cons_of_mem _ member)
              exact ⟨x :: used, left, rfl, Nat.succ_le_succ few, by simp only [iterateWithin, Bind.bind, ran, returned]⟩
  refine ⟨a, t, ⟨rank b, fun answers enough fine => ?_⟩, holds⟩
  exact within (rank b) b s (answers.length + 1) start (Nat.le_refl _) (by omega) answers enough fine

theorem ends_get {post : σ → σ → Prop} (holds : post s s) : Ends good (get : Script σ ρ σ) s post :=
  ⟨s, s, ⟨0, fun answers _ _ => ⟨[], answers, rfl, Nat.le_refl _, rfl⟩⟩, holds⟩

theorem ends_modify {f : σ → σ} {post : Unit → σ → Prop} (holds : post () (f s)) : Ends good (modify f : Script σ ρ Unit) s post :=
  ⟨(), f s, ⟨0, fun answers _ _ => ⟨[], answers, rfl, Nat.le_refl _, rfl⟩⟩, holds⟩

end Ends

end Script

end Sitometron
