import EscrowMix.Program

/-!
What is left of a program after some of its requests were answered, and what becomes of it when the
answers are fixed beforehand.
-/

namespace EscrowMix

/-- A request and the answer that it got. -/
abbrev Interface.Exchange (I : Interface) := (q : I.Request) × I.Answer q

namespace Program

variable {I : Interface} {α β ε : Type}

/-- The request that comes next. -/
def question? : Program I α → Option I.Request
  | done _ => none
  | ask q _ => some q

theorem question?_eq_some {p : Program I α} {q : I.Request} (h : p.question? = some q) :
    ∃ next, p = .ask q next := by
  cases p with
  | done a => cases h
  | ask q' next =>
    cases h
    exact ⟨next, rfl⟩

/-- A program, the exchanges so far, and what is left of it. -/
inductive After : Program I α → List I.Exchange → Program I α → Prop
  | refl {p : Program I α} : After p [] p
  | ask {q : I.Request} {next : I.Answer q → Program I α} {a : I.Answer q} {log : List I.Exchange}
      {p : Program I α} (h : After (next a) log p) : After (.ask q next) (⟨q, a⟩ :: log) p

/-- One more request is answered. -/
theorem After.snoc {p : Program I α} {log : List I.Exchange} {q : I.Request}
    {next : I.Answer q → Program I α} (h : After p log (.ask q next)) (a : I.Answer q) :
    After p (log ++ [⟨q, a⟩]) (next a) := by
  generalize hp : Program.ask q next = p' at h
  induction h with
  | refl =>
    subst hp
    exact .ask .refl
  | ask _ ih => exact .ask (ih hp)

theorem After.of_done {a : α} {log : List I.Exchange} {p : Program I α} (h : After (.done a) log p) :
    log = [] ∧ p = .done a := by
  cases h
  exact ⟨rfl, rfl⟩

/-- Two programs in a row come to an end one after the other. -/
theorem After.bind_done {p : Program I α} {f : α → Program I β} {b : β} {log : List I.Exchange}
    (h : After (p.bind f) log (.done b)) :
    ∃ a log₁ log₂, After p log₁ (.done a) ∧ After (f a) log₂ (.done b) ∧ log = log₁ ++ log₂ := by
  induction p generalizing log with
  | done a => exact ⟨a, [], log, .refl, h, rfl⟩
  | ask q next ih =>
    cases h with
    | @ask _ _ answer _ _ h =>
      obtain ⟨a, log₁, log₂, h₁, h₂, rfl⟩ := ih answer h
      exact ⟨a, _, log₂, .ask h₁, h₂, rfl⟩

/-- If the second of two programs that may fail ends well, so did the first. -/
theorem After.bind_ok {x : ExceptT ε (Program I) α} {f : α → ExceptT ε (Program I) β} {b : β}
    {log : List I.Exchange} (h : After (x >>= f).run log (.done (.ok b))) :
    ∃ a log₁ log₂, After x.run log₁ (.done (.ok a)) ∧ After (f a).run log₂ (.done (.ok b)) ∧
      log = log₁ ++ log₂ := by
  obtain ⟨answer, log₁, log₂, h₁, h₂, rfl⟩ := h.bind_done
  cases answer with
  | error e =>
    obtain ⟨-, he⟩ := After.of_done h₂
    cases he
  | ok a => exact ⟨a, log₁, log₂, h₁, h₂, rfl⟩

/-! ### Answers fixed beforehand -/

theorem result_bind (answer : (q : I.Request) → I.Answer q) (p : Program I α)
    (f : α → Program I β) : (p.bind f).result answer = (f (p.result answer)).result answer := by
  induction p with
  | done a => rfl
  | ask q next ih => exact ih (answer q)

theorem requests_bind (answer : (q : I.Request) → I.Answer q) (p : Program I α)
    (f : α → Program I β) :
    (p.bind f).requests answer = p.requests answer ++ (f (p.result answer)).requests answer := by
  induction p with
  | done a => rfl
  | ask q next ih => exact congrArg (q :: ·) (ih (answer q))

/-- Against these answers a program asks these requests, and ends with this value. -/
def Gives (answer : (q : I.Request) → I.Answer q) (p : Program I α) (asked : List I.Request)
    (a : α) : Prop :=
  p.requests answer = asked ∧ p.result answer = a

namespace Gives

variable {answer : (q : I.Request) → I.Answer q} {x : ExceptT ε (Program I) α}
  {f : α → ExceptT ε (Program I) β} {asked asked' : List I.Request} {a : α} {e : ε} {r : Except ε β}

theorem bind_ok (hx : Gives answer x.run asked (.ok a)) (hf : Gives answer (f a).run asked' r) :
    Gives answer (x >>= f).run (asked ++ asked') r := by
  obtain ⟨hq, hr⟩ := hx
  obtain ⟨hq', hr'⟩ := hf
  refine ⟨(requests_bind answer x.run _).trans ?_, (result_bind answer x.run _).trans ?_⟩
  · rw [hr, hq]
    exact congrArg (asked ++ ·) hq'
  · rw [hr]
    exact hr'

/-- The second program asks nothing. -/
theorem bind_last (hx : Gives answer x.run asked (.ok a)) (hf : Gives answer (f a).run [] r) :
    Gives answer (x >>= f).run asked r := by
  have h := hx.bind_ok hf
  rwa [List.append_nil] at h

theorem bind_error (hx : Gives answer x.run asked (.error e)) :
    Gives answer (x >>= f).run asked (.error e) := by
  obtain ⟨hq, hr⟩ := hx
  refine ⟨(requests_bind answer x.run _).trans ?_, (result_bind answer x.run _).trans ?_⟩
  · rw [hr, hq]
    exact List.append_nil asked
  · rw [hr]
    rfl

end Gives

end Program

end EscrowMix
