import ReadModel.Handler.Call

/-!
Programs among others.

The calls of a program are answered out of a state that others change between them. A `Setting` tells
what the others may do and what the program may; `Setting.Upholds` says that a program does no more
than it may and how it ends, whatever the others do.
-/

namespace ReadModel

/-- A state that a program shares with others: how a call is answered and when, what the others may
do between two calls, and what the answer to a call may do. -/
structure Setting (I : Interface) (σ : Type) where
  answer : (c : I.Call) → σ → I.Answer c × σ
  ready : I.Call → σ → Prop
  others : σ → σ → Prop
  self : σ → σ → Prop

namespace Setting

variable {I : Interface} {α β σ : Type} (S : Setting I σ)

/-- Every call of a program is within what it may do, and it ends as `post` says. -/
def Upholds (post : α → σ → Prop) : Dialogue I α → σ → Prop
  | .done a, s => post a s
  | .ask c next, s => ∀ t, S.others s t → S.ready c t →
      S.self t (S.answer c t).2 ∧ Upholds post (next (S.answer c t).1) (S.answer c t).2

variable {S} {post : α → σ → Prop}

theorem Upholds.mono {post' : α → σ → Prop} {d : Dialogue I α} {s : σ} (h : S.Upholds post d s)
    (weaker : ∀ a t, post a t → post' a t) : S.Upholds post' d s := by
  induction d generalizing s with
  | done a => exact weaker a s h
  | ask c next ih =>
    intro t other ready
    obtain ⟨own, rest⟩ := h t other ready
    exact ⟨own, ih _ rest⟩

theorem Upholds.bind {post : β → σ → Prop} {d : Dialogue I α} {f : α → Dialogue I β} {s : σ}
    (h : S.Upholds (fun a t => S.Upholds post (f a) t) d s) : S.Upholds post (d.bind f) s := by
  induction d generalizing s with
  | done a => exact h
  | ask c next ih =>
    intro t other ready
    obtain ⟨own, rest⟩ := h t other ready
    exact ⟨own, ih _ rest⟩

/-- What every step leaves true is true from the beginning of a run to its end. -/
theorem Upholds.along {R : σ → σ → Prop} {d : Dialogue I α} {s : σ} (h : S.Upholds post d s)
    (refl : ∀ {s}, R s s) (trans : ∀ {s t u}, R s t → R t u → R s u)
    (others : ∀ {s t}, S.others s t → R s t) (self : ∀ {s t}, S.self s t → R s t) :
    S.Upholds (fun a t => post a t ∧ R s t) d s := by
  have further : ∀ {d : Dialogue I α} {start s : σ}, R start s → S.Upholds post d s →
      S.Upholds (fun a t => post a t ∧ R start t) d s := by
    intro d
    induction d with
    | done a => exact fun there ended => ⟨ended, there⟩
    | ask c next ih =>
      intro start s there h t other ready
      obtain ⟨own, rest⟩ := h t other ready
      exact ⟨own, ih _ (trans (trans there (others other)) (self own)) rest⟩
  exact further refl h

/-- What others do while a program stands still takes nothing away from it. -/
theorem Upholds.others {d : Dialogue I α} {s t : σ} (h : S.Upholds post d s) (moved : S.others s t)
    (trans : ∀ {a b c}, S.others a b → S.others b c → S.others a c)
    (stable : ∀ {a s t}, post a s → S.others s t → post a t) : S.Upholds post d t := by
  cases d with
  | done a => exact stable h moved
  | ask c next => exact fun u other ready => h u (trans moved other) ready

/-- Nobody else is there. -/
def alone (answer : (c : I.Call) → σ → I.Answer c × σ) : Setting I σ where
  answer
  ready _ _ := True
  others := Eq
  self _ _ := True

theorem Upholds.run {answer : (c : I.Call) → σ → I.Answer c × σ} {d : Dialogue I α} {s : σ}
    (h : (alone answer).Upholds post d s) : post (d.run answer s).1 (d.run answer s).2 := by
  induction d generalizing s with
  | done a => exact h
  | ask c next ih => exact ih _ (h s rfl trivial).2

theorem Upholds.of_run {answer : (c : I.Call) → σ → I.Answer c × σ} {d : Dialogue I α} {s : σ}
    (ended : post (d.run answer s).1 (d.run answer s).2) : (alone answer).Upholds post d s := by
  induction d generalizing s with
  | done a => exact ended
  | ask c next ih =>
    rintro t rfl _
    exact ⟨trivial, ih _ ended⟩

end Setting

section Action

variable {σ α β : Type} {S : Setting handlerInterface σ} {s : σ} {x : Action α}

theorem upholds_seq {f : α → Action β} {post : Except HandlerError β → σ → Prop}
    (first : S.Upholds (fun result t => match result with
      | .ok value => S.Upholds post (f value).run t
      | .error e => post (.error e) t) x.run s) :
    S.Upholds post (x >>= f).run s := by
  refine Setting.Upholds.bind (d := x.run) (first.mono fun result t => ?_)
  cases result <;> exact id

theorem upholds_tryCatch {handle : HandlerError → Action α}
    {post : Except HandlerError α → σ → Prop}
    (first : S.Upholds (fun result t => match result with
      | .ok value => post (.ok value) t
      | .error e => S.Upholds post (handle e).run t) x.run s) :
    S.Upholds post (tryCatch x handle).run s := by
  refine Setting.Upholds.bind (d := x.run) (first.mono fun result t => ?_)
  cases result <;> exact id

end Action

/-- A state that a program shares with others, seen in one that the program has for itself: how calls
are answered in the latter, and when both look alike to the program. -/
structure Mirror (I : Interface) (σ τ : Type) where
  setting : Setting I σ
  answer : (c : I.Call) → τ → I.Answer c × τ
  alike : σ → τ → Prop
  stable : ∀ {s t r}, alike s r → setting.others s t → alike t r

namespace Mirror

variable {I : Interface} {α β σ τ : Type} (M : Mirror I σ τ)

/-- A program makes its calls where another one makes calls of its own that are answered alike; the
run of that one ends as `post` says. -/
inductive Follows (post : α → τ → Prop) : Dialogue I α → Dialogue I α → τ → Prop
  | done {a r} : post a r → Follows post (.done a) (.done a) r
  | ask {c c' next next' r} (v : I.Answer c)
      (each : ∀ s, M.alike s r → M.setting.ready c s →
        M.setting.self s (M.setting.answer c s).2 ∧ (M.setting.answer c s).1 = v ∧
          M.alike (M.setting.answer c s).2 (M.answer c' r).2)
      (rest : Follows post (next v) (next' (M.answer c' r).1) (M.answer c' r).2) :
      Follows post (.ask c next) (.ask c' next') r

variable {M} {post : α → τ → Prop} {d d' : Dialogue I α} {r : τ}

namespace Follows

theorem bind {f f' : α → Dialogue I β} {post : β → τ → Prop}
    (h : M.Follows (fun a r => M.Follows post (f a) (f' a) r) d d' r) :
    M.Follows post (d.bind f) (d'.bind f') r := by
  induction h with
  | done ended => exact ended
  | ask v each _ ih => exact .ask v each ih

theorem mono {post' : α → τ → Prop} (h : M.Follows post d d' r)
    (weaker : ∀ a r, post a r → post' a r) : M.Follows post' d d' r := by
  induction h with
  | done ended => exact .done (weaker _ _ ended)
  | ask v each _ ih => exact .ask v each ih

theorem ends (h : M.Follows post d d' r) : post (d'.run M.answer r).1 (d'.run M.answer r).2 := by
  induction h with
  | done ended => exact ended
  | ask v each _ ih => exact ih

/-- Among others a program ends as the one that it follows ends by itself. -/
theorem upholds {s : σ} (h : M.Follows post d d' r) (alike : M.alike s r) :
    M.setting.Upholds (fun a t => a = (d'.run M.answer r).1 ∧ M.alike t (d'.run M.answer r).2) d s := by
  induction h generalizing s with
  | done => exact ⟨rfl, alike⟩
  | ask v each _ ih =>
    intro t other ready
    obtain ⟨own, rfl, after⟩ := each t (M.stable alike other) ready
    exact ⟨own, ih after⟩

end Follows

theorem follows_seq {M : Mirror handlerInterface σ τ} {x x' : Action α} {f f' : α → Action β}
    {post : Except HandlerError β → τ → Prop}
    (h : M.Follows (fun result r => match result with
      | .ok value => M.Follows post (f value).run (f' value).run r
      | .error e => post (.error e) r) x.run x'.run r) :
    M.Follows post (x >>= f).run (x' >>= f').run r := by
  refine Follows.bind (h.mono fun result r => ?_)
  cases result with
  | ok value => exact id
  | error e => exact fun ended => Follows.done (a := Except.error e) ended

theorem follows_tryCatch {M : Mirror handlerInterface σ τ} {x x' : Action α}
    {handle handle' : HandlerError → Action α} {post : Except HandlerError α → τ → Prop}
    (h : M.Follows (fun result r => match result with
      | .ok value => post (.ok value) r
      | .error e => M.Follows post (handle e).run (handle' e).run r) x.run x'.run r) :
    M.Follows post (tryCatch x handle).run (tryCatch x' handle').run r := by
  refine Follows.bind (h.mono fun result r => ?_)
  cases result with
  | ok value => exact fun ended => Follows.done (a := Except.ok value) ended
  | error e => exact id

end Mirror

end ReadModel
