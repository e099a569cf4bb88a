import ReadModel.Dialogue

/-!
What a program has asked.

The transcript of a program lists its calls with the answers that they were given. `Dialogue.Obeys`
says that every transcript of a program, whatever the answers, follows a protocol from one state to
another.
-/

namespace ReadModel

/-- A call and its answer. -/
structure Exchange (I : Interface) where
  call : I.Call
  answer : I.Answer call

namespace Dialogue

variable {I : Interface} {α β σ τ : Type}

/-- The calls that a program makes, and how they are answered. -/
def transcript (answer : (c : I.Call) → τ → I.Answer c × τ) : Dialogue I α → τ → List (Exchange I)
  | done _, _ => []
  | ask c next, s => ⟨c, (answer c s).1⟩ :: transcript answer (next (answer c s).1) (answer c s).2

theorem transcript_bind (answer : (c : I.Call) → τ → I.Answer c × τ) (d : Dialogue I α)
    (f : α → Dialogue I β) (s : τ) :
    (d.bind f).transcript answer s = d.transcript answer s ++
      (f (d.run answer s).1).transcript answer (d.run answer s).2 := by
  induction d generalizing s with
  | done a => rfl
  | ask c next ih => exact congrArg (List.cons _) (ih (answer c s).1 (answer c s).2)

/-- Whatever a program is answered, its calls follow a protocol, and it ends as `post` says. -/
def Obeys (after : σ → Exchange I → Option σ) (post : α → σ → Prop) : Dialogue I α → σ → Prop
  | done a, s => post a s
  | ask c next, s => ∀ answer, ∃ t, after s ⟨c, answer⟩ = some t ∧ Obeys after post (next answer) t

variable {after : σ → Exchange I → Option σ} {post : α → σ → Prop}

theorem Obeys.mono {post' : α → σ → Prop} {d : Dialogue I α} {s : σ} (h : d.Obeys after post s)
    (weaker : ∀ a t, post a t → post' a t) : d.Obeys after post' s := by
  induction d generalizing s with
  | done a => exact weaker a s h
  | ask c next ih =>
    intro answer
    obtain ⟨t, step, rest⟩ := h answer
    exact ⟨t, step, ih answer rest⟩

theorem Obeys.bind {post : β → σ → Prop} {d : Dialogue I α} {f : α → Dialogue I β} {s : σ}
    (h : d.Obeys after (fun a t => (f a).Obeys after post t) s) : (d.bind f).Obeys after post s := by
  induction d generalizing s with
  | done a => exact h
  | ask c next ih =>
    intro answer
    obtain ⟨t, step, rest⟩ := h answer
    exact ⟨t, step, ih answer rest⟩

theorem Obeys.transcript {d : Dialogue I α} {s : σ} (h : d.Obeys after post s)
    (answer : (c : I.Call) → τ → I.Answer c × τ) (u : τ) :
    ∃ t, (d.transcript answer u).foldlM after s = some t ∧ post (d.run answer u).1 t := by
  induction d generalizing s u with
  | done a => exact ⟨s, rfl, h⟩
  | ask c next ih =>
    obtain ⟨t, step, rest⟩ := h (answer c u).1
    obtain ⟨end_, follows, ended⟩ := ih _ rest (answer c u).2
    refine ⟨end_, ?_, ended⟩
    rw [Dialogue.transcript, List.foldlM_cons, step]
    exact follows

/-- Whatever a program is answered, it only makes calls of a kind. -/
def Only (kind : I.Call → Prop) : Dialogue I α → Prop
  | done _ => True
  | ask c next => kind c ∧ ∀ answer, Only kind (next answer)

theorem Only.bind {kind : I.Call → Prop} {d : Dialogue I α} {f : α → Dialogue I β}
    (first : d.Only kind) (rest : ∀ a, (f a).Only kind) : (d.bind f).Only kind := by
  induction d with
  | done a => exact rest a
  | ask c next ih => exact ⟨first.1, fun answer => ih answer (first.2 answer)⟩

theorem Only.mono {kind wider : I.Call → Prop} {d : Dialogue I α} (only : d.Only kind)
    (weaker : ∀ c, kind c → wider c) : d.Only wider := by
  induction d with
  | done a => trivial
  | ask c next ih => exact ⟨weaker c only.1, fun answer => ih answer (only.2 answer)⟩

theorem Only.transcript {kind : I.Call → Prop} {d : Dialogue I α} (only : d.Only kind)
    (answer : (c : I.Call) → τ → I.Answer c × τ) (s : τ) : ∀ x ∈ d.transcript answer s, kind x.call := by
  induction d generalizing s with
  | done a => exact fun x none => nomatch none
  | ask c next ih => exact List.forall_mem_cons.mpr ⟨only.1, ih _ (only.2 _) _⟩

/-- A program stays in a state that none of its calls leaves. -/
theorem Only.obeys {kind : I.Call → Prop} {d : Dialogue I α} {s : σ} (only : d.Only kind)
    (stays : ∀ x : Exchange I, kind x.call → after s x = some s) :
    d.Obeys after (fun _ t => t = s) s := by
  induction d with
  | done a => rfl
  | ask c next ih =>
    exact fun answer => ⟨s, stays ⟨c, answer⟩ only.1, ih answer (only.2 answer)⟩

theorem Obeys.only {kind : I.Call → Prop} {d : Dialogue I α} {s : σ} (h : d.Obeys after post s)
    (kinds : ∀ {s x t}, after s x = some t → kind x.call) (answers : ∀ c, Nonempty (I.Answer c)) :
    d.Only kind := by
  induction d generalizing s with
  | done a => trivial
  | ask c next ih =>
    refine ⟨?_, fun answer => ?_⟩
    · obtain ⟨answer⟩ := answers c
      obtain ⟨t, step, _⟩ := h answer
      exact kinds step
    · obtain ⟨t, _, rest⟩ := h answer
      exact ih answer rest

end Dialogue

end ReadModel
