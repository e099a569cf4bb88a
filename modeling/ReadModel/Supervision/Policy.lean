/-!
Restart policies.
-/

namespace ReadModel

/-- What is done when a task ends abnormally: nothing, or at most so many restarts, each after a
wait of so many milliseconds. -/
inductive RestartPolicy where
  | never
  | onFailure (maxRestarts : Nat) (backoff : Nat)
  deriving DecidableEq

/-- Ten restarts, a second apart. -/
instance : Inhabited RestartPolicy := ⟨.onFailure 10 1000⟩

end ReadModel
