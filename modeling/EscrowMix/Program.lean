/-!
Programs that wait for answers. A program over an interface either is done, or asks a request and
goes on with the answer. What answers, and what else happens before the answer comes, is decided by
whoever runs the program: the same definition serves a run against collaborators in memory, a run
against answers fixed beforehand, and the study of everything that may happen in between.
-/

namespace EscrowMix

/-- The requests that may be asked, and the type of the answer to each. -/
structure Interface where
  Request : Type
  Answer : Request → Type

/-- A program that ends with a value of type `α`. -/
inductive Program (I : Interface) (α : Type) where
  /-- Nothing is left to ask. -/
  | done (a : α)
  /-- Asks, and goes on with the answer. -/
  | ask (q : I.Request) (next : I.Answer q → Program I α)

namespace Program

variable {I J : Interface} {α β σ : Type}

/-- Goes on with another program at the end. -/
def bind : Program I α → (α → Program I β) → Program I β
  | done a, f => f a
  | ask q next, f => ask q fun answer => (next answer).bind f

instance : Monad (Program I) where
  pure := done
  bind := bind

/-- Asks once and gives the answer. -/
def request (q : I.Request) : Program I (I.Answer q) := ask q done

/-- Asks the requests of one interface through those of another. -/
def embed (ask' : (q : I.Request) → Program J (I.Answer q)) : Program I α → Program J α
  | done a => done a
  | ask q next => (ask' q).bind fun answer => (next answer).embed ask'

/-- Runs a program against a world that answers and changes. -/
def run (answer : (q : I.Request) → σ → I.Answer q × σ) : Program I α → σ → α × σ
  | done a, w => (a, w)
  | ask q next, w =>
    let (reply, w') := answer q w
    (next reply).run answer w'

/-- The result against answers fixed beforehand. -/
def result (answer : (q : I.Request) → I.Answer q) : Program I α → α
  | done a => a
  | ask q next => (next (answer q)).result answer

/-- The requests asked, in order, against answers fixed beforehand. -/
def requests (answer : (q : I.Request) → I.Answer q) : Program I α → List I.Request
  | done _ => []
  | ask q next => q :: (next (answer q)).requests answer

@[simp] theorem pure_bind (a : α) (f : α → Program I β) : (done a).bind f = f a := rfl

@[simp] theorem bind_done (p : Program I α) : p.bind done = p := by
  induction p with
  | done a => rfl
  | ask q next ih => simp only [bind, ih]

theorem bind_assoc {γ : Type} (p : Program I α) (f : α → Program I β) (g : β → Program I γ) :
    (p.bind f).bind g = p.bind fun a => (f a).bind g := by
  induction p with
  | done a => rfl
  | ask q next ih => simp only [bind, ih]

instance : LawfulMonad (Program I) :=
  LawfulMonad.mk' (Program I) (fun p => bind_done p) (fun _ _ => rfl) bind_assoc

end Program

end EscrowMix
