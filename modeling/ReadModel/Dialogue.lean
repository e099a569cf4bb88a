/-!
Programs that ask.

A `Dialogue` is a program that asks others to do things and goes on with their answers. What others
do is left open: `run` gives every call an answer out of a state, and `expand` replaces every call
by a program that asks for other things.
-/

namespace ReadModel

/-- What can be asked, and what the answers are. -/
structure Interface where
  Call : Type
  Answer : Call → Type

/-- A program that ends with a value, or asks and goes on with the answer. -/
inductive Dialogue (I : Interface) (α : Type) : Type where
  | done (a : α)
  | ask (call : I.Call) (next : I.Answer call → Dialogue I α)

namespace Dialogue

variable {I J : Interface} {α β σ : Type}

/-- Goes on with the value that a program ends with. -/
protected def bind : Dialogue I α → (α → Dialogue I β) → Dialogue I β
  | done a, f => f a
  | ask call next, f => ask call fun answer => (next answer).bind f

instance : Monad (Dialogue I) where
  pure := done
  bind := Dialogue.bind

/-- Asks once. -/
def call (c : I.Call) : Dialogue I (I.Answer c) := ask c done

/-- Runs a program: every call is answered out of a state, which it may change. -/
def run (answer : (c : I.Call) → σ → I.Answer c × σ) : Dialogue I α → σ → α × σ
  | done a, s => (a, s)
  | ask c next, s => run answer (next (answer c s).1) (answer c s).2

/-- Replaces every call by a program. -/
def expand (program : (c : I.Call) → Dialogue J (I.Answer c)) : Dialogue I α → Dialogue J α
  | done a => done a
  | ask c next => (program c).bind fun answer => expand program (next answer)

@[simp]
theorem run_done (answer : (c : I.Call) → σ → I.Answer c × σ) (a : α) (s : σ) :
    run answer (done a : Dialogue I α) s = (a, s) := rfl

@[simp]
theorem run_ask (answer : (c : I.Call) → σ → I.Answer c × σ) (c : I.Call)
    (next : I.Answer c → Dialogue I α) (s : σ) :
    run answer (ask c next) s = run answer (next (answer c s).1) (answer c s).2 := rfl

theorem run_bind (answer : (c : I.Call) → σ → I.Answer c × σ) (d : Dialogue I α)
    (f : α → Dialogue I β) (s : σ) :
    run answer (d.bind f) s = run answer (f (run answer d s).1) (run answer d s).2 := by
  induction d generalizing s with
  | done a => rfl
  | ask c next ih => exact ih (answer c s).1 (answer c s).2

theorem bind_done (d : Dialogue I α) : d.bind done = d := by
  induction d with
  | done a => rfl
  | ask c next ih => exact congrArg (ask c) (funext ih)

theorem bind_bind {γ : Type} (d : Dialogue I α) (f : α → Dialogue I β) (g : β → Dialogue I γ) :
    (d.bind f).bind g = d.bind fun a => (f a).bind g := by
  induction d with
  | done a => rfl
  | ask c next ih => exact congrArg (ask c) (funext ih)

theorem expand_bind (program : (c : I.Call) → Dialogue J (I.Answer c)) (d : Dialogue I α)
    (f : α → Dialogue I β) :
    (d.bind f).expand program = (d.expand program).bind fun a => (f a).expand program := by
  induction d with
  | done a => rfl
  | ask c next ih =>
    exact (congrArg (Dialogue.bind _) (funext ih)).trans (bind_bind ..).symm

instance : LawfulMonad (Dialogue I) :=
  LawfulMonad.mk' (Dialogue I) bind_done (fun _ _ => rfl) bind_bind

end Dialogue

end ReadModel
