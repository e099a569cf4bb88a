import Mathlib.Data.List.Basic
import ReadModel.Supervision

/-!
Supervision by the rules of a policy.

After a run the supervisor stops or waits for the backoff and starts the next one (`RestartPolicy.Stops`
says when it stops). `Supervised.Keeps` tells of a whole supervision what that comes to: how many runs
there were, how each of them ended, when they were started, and why there was no further one.
-/

namespace ReadModel

/-- How long a supervisor waits before it starts the task again. -/
def RestartPolicy.backoff : RestartPolicy → Nat
  | .never => 0
  | .onFailure _ backoff => backoff

/-- There is no run after one that has ended at a time with an exit and has come after so many restarts. -/
def RestartPolicy.Stops (policy : RestartPolicy) (cancelledAt : Option Nat) (restarts : Nat)
    (exit : TaskExit) (ended : Nat) : Prop :=
  exit = .completed ∨ policy = .never ∨ policy.limit ≤ restarts ∨
    ∃ c ∈ cancelledAt, c ≤ ended ∨ c < ended + policy.backoff

/-- A supervision that keeps to its policy, from the run with the number `first` on. A cancellation that
comes just when a backoff ends may count as before it or as after it. -/
structure Supervised.Keeps (s : Supervised) (policy : RestartPolicy) (runs : Nat → TaskRun)
    (cancelledAt : Option Nat) (first : Nat) : Prop where
  counted : first + s.starts.length = s.report.restarts + 1
  lastExit : s.report.lastExit = (runs s.report.restarts).exit
  limited : s.report.restarts ≤ policy.limit
  failed : ∀ n, first ≤ n → n < s.report.restarts → (runs n).exit.isFailure = true
  followed : ∀ i start, s.starts[i]? = some start →
    ∃ ended, (runs (first + i)).endsAt start cancelledAt = some ended ∧
      (∀ next, s.starts[i + 1]? = some next → next = ended + policy.backoff) ∧
      ((∀ c ∈ cancelledAt, ended < c → c ≠ ended + policy.backoff) →
        (first + i = s.report.restarts ↔
          policy.Stops cancelledAt (first + i) (runs (first + i)).exit ended))

namespace RestartPolicy

variable {policy : RestartPolicy} {restarts : Nat} {cancelled : Bool} {exit : TaskExit}

theorem next_cases (policy : RestartPolicy) (restarts : Nat) (cancelled : Bool) (exit : TaskExit) :
    policy.next restarts cancelled exit = .stop ∧
        (exit = .completed ∨ cancelled = true ∨ policy = .never ∨ policy.limit ≤ restarts) ∨
      policy.next restarts cancelled exit = .restartAfter policy.backoff ∧
        exit.isFailure = true ∧ cancelled = false ∧ policy ≠ .never ∧ restarts < policy.limit := by
  unfold next
  split
  next ends =>
    refine .inl ⟨rfl, ?_⟩
    rcases Bool.or_eq_true_iff.mp ends with fine | called
    · cases exit with
      | completed => exact .inl rfl
      | failed | panicked => cases fine
    · exact .inr (.inl called)
  next goesOn =>
    rw [Bool.or_eq_true_iff, not_or, Bool.not_eq_true', Bool.not_eq_false, Bool.not_eq_true] at goesOn
    cases policy with
    | never => exact .inl ⟨rfl, .inr (.inr (.inl rfl))⟩
    | onFailure maxRestarts backoff =>
      dsimp only
      split
      next used => exact .inl ⟨rfl, .inr (.inr (.inr used))⟩
      next left => exact .inr ⟨rfl, goesOn.1, goesOn.2, nofun, Nat.lt_of_not_le left⟩

end RestartPolicy

section Supervision

variable {policy : RestartPolicy} {runs : Nat → TaskRun} {cancelledAt : Option Nat}
  {left restarts start ended : Nat}

theorem cancelledBy_iff {time : Nat} :
    cancelledBy cancelledAt time = true ↔ ∃ c ∈ cancelledAt, c ≤ time := by
  simp only [cancelledBy, Option.any_eq_true, decide_eq_true_eq, Option.mem_def]

/-- A run is the last one, for a reason or because it is cancelled just when the backoff ends; or it has
failed, and supervision goes on when the backoff is over. -/
theorem superviseFrom_cases (within : left + restarts = policy.limit)
    (ends : (runs restarts).endsAt start cancelledAt = some ended) :
    (∃ time, superviseFrom policy runs cancelledAt left restarts start =
        some ⟨⟨restarts, (runs restarts).exit⟩, time, [start]⟩ ∧
      (policy.Stops cancelledAt restarts (runs restarts).exit ended ∨
        ∃ c ∈ cancelledAt, ended < c ∧ c = ended + policy.backoff)) ∨
    ∃ rest, left = rest + 1 ∧ (runs restarts).exit.isFailure = true ∧
      ¬ policy.Stops cancelledAt restarts (runs restarts).exit ended ∧
      superviseFrom policy runs cancelledAt left restarts start =
        (superviseFrom policy runs cancelledAt rest (restarts + 1) (ended + policy.backoff)).map
          fun s => { s with starts := start :: s.starts } := by
  rw [superviseFrom.eq_def policy runs cancelledAt left restarts start]
  simp only [ends]
  rcases policy.next_cases restarts (cancelledBy cancelledAt ended) (runs restarts).exit with
    ⟨stop, why⟩ | ⟨again, failed, alive, restarting, few⟩
  · rw [stop]
    refine .inl ⟨ended, rfl, .inl ?_⟩
    rcases why with completed | called | never | used
    · exact .inl completed
    · obtain ⟨c, here, early⟩ := cancelledBy_iff.mp called
      exact .inr (.inr (.inr ⟨c, here, .inl early⟩))
    · exact .inr (.inl never)
    · exact .inr (.inr (.inl used))
  · rw [again]
    obtain ⟨rest, rfl⟩ : ∃ rest, left = rest + 1 := Nat.exists_eq_add_one.mpr (by omega)
    have goesOn (later : ∀ c ∈ cancelledAt, ended + policy.backoff < c) :
        ¬ policy.Stops cancelledAt restarts (runs restarts).exit ended := by
      rintro (completed | never | used | ⟨c, here, early⟩)
      · rw [completed] at failed
        cases failed
      · exact restarting never
      · omega
      · have := later c here
        omega
    cases cancelledAt with
    | none => exact .inr ⟨rest, rfl, failed, goesOn nofun, rfl⟩
    | some c =>
      have after : ended < c := by
        rw [← Nat.not_le]
        intro early
        rw [cancelledBy_iff.mpr ⟨c, rfl, early⟩] at alive
        cases alive
      dsimp only
      split
      next early =>
        refine .inl ⟨c, rfl, ?_⟩
        rcases Nat.lt_or_eq_of_le early with before | same
        · exact .inl (.inr (.inr (.inr ⟨c, rfl, .inr before⟩)))
        · exact .inr ⟨c, rfl, after, same⟩
      next late =>
        refine .inr ⟨rest, rfl, failed, goesOn fun d here => ?_, rfl⟩
        obtain rfl := Option.some.inj here
        exact Nat.lt_of_not_le late

namespace Supervised.Keeps

/-- A supervision of one run. -/
theorem single {time : Nat} (within : restarts ≤ policy.limit)
    (ends : (runs restarts).endsAt start cancelledAt = some ended)
    (why : policy.Stops cancelledAt restarts (runs restarts).exit ended ∨
      ∃ c ∈ cancelledAt, ended < c ∧ c = ended + policy.backoff) :
    Keeps ⟨⟨restarts, (runs restarts).exit⟩, time, [start]⟩ policy runs cancelledAt restarts where
  counted := rfl
  lastExit := rfl
  limited := within
  failed n from_ below := absurd below (Nat.not_lt.mpr from_)
  followed i t at_ := by
    obtain ⟨rfl, rfl⟩ : i = 0 ∧ start = t := by
      cases i with
      | zero => exact ⟨rfl, Option.some.inj at_⟩
      | succ i => cases at_
    refine ⟨ended, ends, nofun, fun apart => ⟨fun _ => ?_, fun _ => rfl⟩⟩
    refine why.resolve_right ?_
    rintro ⟨c, here, late, same⟩
    exact apart c here late same

/-- A further run in front of a supervision. -/
theorem cons {s : Supervised} (rest : s.Keeps policy runs cancelledAt (restarts + 1))
    (starts : s.starts.head? = some (ended + policy.backoff))
    (ends : (runs restarts).endsAt start cancelledAt = some ended)
    (failed : (runs restarts).exit.isFailure = true)
    (goesOn : ¬ policy.Stops cancelledAt restarts (runs restarts).exit ended) :
    Keeps { s with starts := start :: s.starts } policy runs cancelledAt restarts where
  counted := by
    have counted := rest.counted
    dsimp only
    rw [List.length_cons]
    omega
  lastExit := rest.lastExit
  limited := rest.limited
  failed n from_ below := by
    rcases Nat.eq_or_lt_of_le from_ with rfl | later
    · exact failed
    · exact rest.failed n later below
  followed i t at_ := by
    cases i with
    | zero =>
      obtain rfl := Option.some.inj at_
      refine ⟨ended, ends, fun next here => ?_, fun _ => ⟨fun last => ?_, fun stops => ?_⟩⟩
      · rw [List.getElem?_cons_succ, ← List.head?_eq_getElem?, starts] at here
        exact (Option.some.inj here).symm
      · -- there is at least one run after this one
        have counted := rest.counted
        have some_ : 0 < s.starts.length := List.length_pos_iff.mpr fun none => by
          rw [none] at starts
          cases starts
        dsimp only at last
        omega
      · exact absurd stops goesOn
    | succ i =>
      rw [List.getElem?_cons_succ] at at_
      have followed := rest.followed i t at_
      rw [Nat.add_assoc, Nat.add_comm 1 i] at followed
      exact followed

end Supervised.Keeps

/-- Where every run ends, supervision ends too, and has kept to its policy. -/
theorem superviseFrom_keeps
    (ends : ∀ n start, ∃ ended, (runs n).endsAt start cancelledAt = some ended) :
    ∀ {left restarts start : Nat}, left + restarts = policy.limit →
      ∃ s, superviseFrom policy runs cancelledAt left restarts start = some s ∧
        s.starts.head? = some start ∧ s.Keeps policy runs cancelledAt restarts := by
  intro left
  induction left with
  | zero =>
    intro restarts start within
    obtain ⟨ended, ends⟩ := ends restarts start
    rcases superviseFrom_cases within ends with ⟨time, same, why⟩ | ⟨rest, left, _⟩
    · exact ⟨_, same, rfl, .single (by omega) ends why⟩
    · cases left
  | succ left ih =>
    intro restarts start within
    obtain ⟨ended, ends⟩ := ends restarts start
    rcases superviseFrom_cases within ends with ⟨time, same, why⟩ | ⟨_, rest, failed, goesOn, same⟩
    · exact ⟨_, same, rfl, .single (by omega) ends why⟩
    · obtain rfl := Nat.succ.inj rest
      obtain ⟨s, result, starts, keeps⟩ :=
        @ih (restarts + 1) (ended + policy.backoff) (by omega)
      rw [same, result]
      exact ⟨_, rfl, rfl, keeps.cons starts ends failed goesOn⟩

/-- A supervisor follows its policy exactly, for all tasks of which every run ends: one that waits to be
cancelled is cancelled at some time. -/
theorem supervise_keeps_to_policy (policy : RestartPolicy) (runs : Nat → TaskRun)
    (cancelledAt : Option Nat)
    (ends : ∀ n, (runs n).untilCancelled = true → cancelledAt.isSome = true) :
    ∃ s, supervise policy runs cancelledAt = some s ∧ s.starts.head? = some 0 ∧
      s.Keeps policy runs cancelledAt 0 := by
  refine superviseFrom_keeps (fun n start => ?_) (Nat.add_zero policy.limit)
  unfold TaskRun.endsAt
  split
  next waits =>
    obtain ⟨c, rfl⟩ := Option.isSome_iff_exists.mp (ends n waits)
    exact ⟨_, rfl⟩
  next => exact ⟨_, rfl⟩

end Supervision

/-- A task that panics at once, and then waits for the shutdown and fails. -/
def TaskRun.stubborn (n : Nat) : TaskRun :=
  if n = 0 then ⟨5, false, .panicked "boom"⟩ else ⟨10, true, .failed "late"⟩

/-- It is started again after the backoff, and no more after the shutdown. -/
theorem supervise_keeps_to_policy_of_stubborn :
    let policy := RestartPolicy.onFailure 3 100
    (∀ n, (TaskRun.stubborn n).untilCancelled = true → (some 150).isSome = true) ∧
      ∃ s, supervise policy TaskRun.stubborn (some 150) = some s ∧ s.starts.head? = some 0 ∧
        s.Keeps policy TaskRun.stubborn (some 150) 0 ∧
        s = ⟨⟨1, .failed "late"⟩, 150, [0, 105]⟩ := by
  intro policy
  obtain ⟨s, result, first, keeps⟩ :=
    supervise_keeps_to_policy policy TaskRun.stubborn (some 150) fun _ _ => rfl
  have report : supervise policy TaskRun.stubborn (some 150) =
      some ⟨⟨1, .failed "late"⟩, 150, [0, 105]⟩ := by decide +kernel
  exact ⟨fun _ _ => rfl, s, result, first, keeps, Option.some.inj (result.symm.trans report)⟩

end ReadModel
