import EscrowMix.Proofs.Node.Commands

/-!
A node over time. Commands come in any order and with any arguments, and each collaborator that was
asked answers whenever and whatever it likes; only a restart is left out, since a restored session
comes from outside of the node's own history.
-/

namespace EscrowMix

open Node (Command Request Reply Goes Starts Claims Proceeds Wait)

/-- The command ended because the own wallet returned a wrong number of signatures. -/
def Node.endsFatal : Program Node.interface (Except Error Reply) → Bool
  | .done (.error (.fatal _)) => true
  | _ => false

/-- A command that was given, and what is left of it. -/
structure Job where
  command : Command
  rest : Program Node.interface (Except Error Reply)

/-- A node with the commands that it was ever told, in order. -/
structure Process where
  node : Node
  jobs : List Job

/-- What may happen to a node next. -/
inductive Move where
  /-- A command is started. -/
  | start (c : Command)
  /-- The question that a job waits for is answered. -/
  | resume (job : Nat) (q : Request) (a : q.Answer)

/-- Something that happened to a node: the identifiers that were drawn, and the node before and
after. -/
structure Moment where
  before : Process
  move : Move
  drawn : List SessionId
  after : Process

namespace Process

/-- A node that has just started. -/
def start (config : Config) : Process := ⟨⟨config, .empty config.feePolicy⟩, []⟩

/-- The session in a slot. -/
def session (w : Process) (slot : Slot) : Session := w.node.directory.session slot

/-- The active session's identifier and slot. -/
def active (w : Process) : Option (SessionId × Slot) := w.node.directory.active

end Process

namespace Moment

/-- The job that runs. -/
def job (m : Moment) : Nat :=
  match m.move with
  | .start _ => m.before.jobs.length
  | .resume job _ _ => job

theorem job_of_start {m : Moment} {c : Command} (h : m.move = .start c) :
    m.job = m.before.jobs.length := by
  rw [job, h]

/-- What is left of the job. -/
def rest? (m : Moment) : Option (Program Node.interface (Except Error Reply)) :=
  m.after.jobs[m.job]?.map (·.rest)

/-- The job ended because the own wallet returned a wrong number of signatures. -/
def isFatal (m : Moment) : Bool := m.rest?.any Node.endsFatal

/-- A segment of one job runs. -/
inductive Happens : Moment → Prop
  | start {n n' : Node} {js : List Job} {c : Command} {ids : List SessionId}
      {p : Program Node.interface (Except Error Reply)} (hc : c ≠ .restore)
      (h : Goes n (c.program n.config) ids n' p) :
      Happens ⟨⟨n, js⟩, .start c, ids, ⟨n', js ++ [⟨c, p⟩]⟩⟩
  | resume {n n' : Node} {js : List Job} {i : Nat} {c : Command} {q : Request}
      {next : q.Answer → Program Node.interface (Except Error Reply)} {a : q.Answer}
      {ids : List SessionId} {p : Program Node.interface (Except Error Reply)}
      (hj : js[i]? = some ⟨c, .ask q next⟩) (h : Goes n (next a) ids n' p) :
      Happens ⟨⟨n, js⟩, .resume i q a, ids, ⟨n', js.set i ⟨c, p⟩⟩⟩

end Moment

/-- The way from one state of a node to a later one. -/
inductive Path : Process → List Moment → Process → Prop
  | refl {w : Process} : Path w [] w
  | snoc {w : Process} {ms : List Moment} {m : Moment} (h : Path w ms m.before) (hm : m.Happens) :
      Path w (ms ++ [m]) m.after

/-- A history that is cut at a moment ends with that moment, or with a later one. -/
theorem cut_eq_snoc {ms ms₁ ms₂ : List Moment} {m last : Moment}
    (h : ms₁ ++ m :: ms₂ = ms ++ [last]) :
    (ms₁ = ms ∧ m = last ∧ ms₂ = []) ∨ ∃ front, ms₂ = front ++ [last] ∧ ms = ms₁ ++ m :: front := by
  rcases List.append_eq_append_iff.1 h with ⟨as, rfl, hs⟩ | ⟨bs, rfl, hs⟩
  · rcases as with _ | ⟨m', as⟩
    · cases hs
      exact .inl ⟨(List.append_nil _).symm, rfl, rfl⟩
    · obtain ⟨rfl, rfl⟩ := List.cons.inj hs
      exact .inr ⟨as, rfl, rfl⟩
  · rcases bs with _ | ⟨m', bs⟩
    · cases hs
      exact .inl ⟨List.append_nil _, rfl, rfl⟩
    · exact absurd (List.cons.inj hs).2 (by simp)

namespace Path

variable {w w' w'' : Process} {ms ms' : List Moment} {m : Moment}

theorem append (h : Path w ms w') (h' : Path w' ms' w'') : Path w (ms ++ ms') w'' := by
  induction h' with
  | refl =>
    rw [List.append_nil]
    exact h
  | snoc _ hm ih =>
    rw [← List.append_assoc]
    exact ih.snoc hm

/-- A way can be cut at any moment. -/
theorem split (h : Path w (ms ++ m :: ms') w') :
    Path w ms m.before ∧ m.Happens ∧ Path m.after ms' w' := by
  generalize hms : ms ++ m :: ms' = all at h
  induction h generalizing ms' with
  | refl =>
    exact absurd hms (by simp)
  | snoc h hm ih =>
    rcases cut_eq_snoc hms with ⟨rfl, rfl, rfl⟩ | ⟨front, rfl, rfl⟩
    · exact ⟨h, hm, .refl⟩
    · obtain ⟨h₁, h₂, h₃⟩ := ih rfl
      exact ⟨h₁, h₂, h₃.snoc hm⟩

end Path

/-! ### Every command can be given, and every question answered -/

/-- What a node meets with: the surroundings of its steps, the identifier that it draws, and the
answers of its collaborators. -/
structure Circumstances where
  surroundings : Node.Surroundings
  drawn : SessionId
  wallet : (q : Wallet.Request) → Except Wallet.Error q.Value
  ledger : (q : Ledger.Query) → Except Ledger.Error q.Value

/-- The answer to a question that a job waits with. -/
def Circumstances.answer? (x : Circumstances) : (q : Request) → Option q.Answer
  | .wallet q => some (x.wallet q)
  | .ledger q => some (x.ledger q)
  | _ => none

/-- What is done to a node next. -/
inductive Turn where
  /-- It is told a command. -/
  | tell (c : Command)
  /-- A job's question is answered. -/
  | answer (job : Nat)

namespace Process

/-- A command is given. -/
def tell (x : Circumstances) (w : Process) (c : Command) : Moment :=
  let (ids, n, p) := Node.advance x.surroundings x.drawn w.node (c.program w.node.config)
  ⟨w, .start c, ids, ⟨n, w.jobs ++ [⟨c, p⟩]⟩⟩

theorem tell_happens (x : Circumstances) (w : Process) {c : Command} (hc : c ≠ .restore) :
    (w.tell x c).Happens :=
  .start hc (Node.goes_advance x.surroundings x.drawn w.node _)

/-- A job goes on with an answer. -/
def resume (x : Circumstances) (w : Process) (i : Nat) (c : Command) (q : Request) (a : q.Answer)
    (next : q.Answer → Program Node.interface (Except Error Reply)) : Moment :=
  let (ids, n, p) := Node.advance x.surroundings x.drawn w.node (next a)
  ⟨w, .resume i q a, ids, ⟨n, w.jobs.set i ⟨c, p⟩⟩⟩

/-- A turn, if the job has one and the command is not the one left out. -/
def turn? (x : Circumstances) (w : Process) : Turn → Option Moment
  | .tell c => if c = .restore then none else some (w.tell x c)
  | .answer i =>
    match w.jobs[i]? with
    | some ⟨c, .ask q next⟩ => (x.answer? q).map fun a => w.resume x i c q a next
    | _ => none

/-- Whatever can be done happens. -/
theorem turn?_happens {x : Circumstances} {w : Process} {t : Turn} {m : Moment}
    (h : w.turn? x t = some m) : m.before = w ∧ m.Happens := by
  cases t with
  | tell c =>
    obtain ⟨hc, h⟩ := Option.ite_none_left_eq_some.1 h
    cases h
    exact ⟨rfl, tell_happens x w hc⟩
  | answer i =>
    unfold turn? at h
    dsimp only at h
    split at h
    · next c q next hj =>
      obtain ⟨a, -, rfl⟩ := Option.map_eq_some_iff.1 h
      exact ⟨rfl, .resume hj (Node.goes_advance x.surroundings x.drawn w.node _)⟩
    · cases h

/-- The moments of one turn after another. -/
def play (x : Circumstances) : Process → List Turn → List Moment
  | _, [] => []
  | w, t :: ts =>
    match w.turn? x t with
    | some m => m :: play x m.after ts
    | none => play x w ts

/-- The node after these moments. -/
def afterAll (w : Process) (ms : List Moment) : Process := ms.foldl (fun _ m => m.after) w

theorem play_path (x : Circumstances) (w : Process) (ts : List Turn) :
    Path w (w.play x ts) (w.afterAll (w.play x ts)) := by
  induction ts generalizing w with
  | nil => exact .refl
  | cons t ts ih =>
    unfold play
    cases ht : w.turn? x t with
    | none => exact ih w
    | some m =>
      obtain ⟨rfl, hm⟩ := turn?_happens ht
      exact (Path.refl.snoc hm).append (ih m.after)

end Process

/-! ### Jobs -/

/-- What a job asked and was answered. -/
def conversation (i : Nat) (ms : List Moment) : List Node.interface.Exchange :=
  ms.filterMap fun m =>
    match m.move with
    | .start _ => none
    | .resume job q a => if job = i then some ⟨q, a⟩ else none

/-- A job is underway: it claimed a transition at some moment, and the answers that it got since then
led it to where it waits. -/
inductive Underway (ms : List Moment) (i : Nat) (c : Command) : Wait → Prop
  | intro {ms₁ ms₂ : List Moment} {claim : Moment} {n : Node} {w₀ w : Wait}
      (hms : ms = ms₁ ++ claim :: ms₂) (hmove : claim.move = .start c)
      (hi : claim.before.jobs.length = i) (hc : Claims claim.before.node c n w₀)
      (hw : w₀.After (conversation i ms₂) w) : Underway ms i c w

/-- A job has ended, or waits for a collaborator. -/
def Job.Sound (ms : List Moment) (i : Nat) (j : Job) : Prop :=
  (∃ r, j.rest = .done r) ∨
    ∃ w : Wait, w.IsOpen ∧ j.rest = w.program ∧ Underway ms i j.command w

/-- Every job has ended or waits. -/
def Process.JobsSound (ms : List Moment) (w : Process) : Prop :=
  ∀ (i : Nat) (j : Job), w.jobs[i]? = some j → j.Sound ms i

/-- What a segment does, without its program. -/
inductive Moment.Acts (ms : List Moment) : Moment → Prop
  | start {n n' : Node} {js : List Job} {c : Command} {ids : List SessionId}
      {p : Program Node.interface (Except Error Reply)} (h : Starts n c ids n' p) :
      Acts ms ⟨⟨n, js⟩, .start c, ids, ⟨n', js ++ [⟨c, p⟩]⟩⟩
  | resume {n n' : Node} {js : List Job} {i : Nat} {c : Command} {q : Request} {a : q.Answer}
      {w w' : Wait} {p : Program Node.interface (Except Error Reply)} (hu : Underway ms i c w)
      (hj : js[i]? = some ⟨c, w.program⟩) (ha : w.Answered q a w') (h : Proceeds n w' n' p) :
      Acts ms ⟨⟨n, js⟩, .resume i q a, [], ⟨n', js.set i ⟨c, p⟩⟩⟩

theorem conversation_append (i : Nat) (ms ms' : List Moment) :
    conversation i (ms ++ ms') = conversation i ms ++ conversation i ms' :=
  List.filterMap_append

@[simp] theorem conversation_resume {i : Nat} {w w' : Process} {q : Request} {a : q.Answer}
    {ids : List SessionId} : conversation i [⟨w, .resume i q a, ids, w'⟩] = [⟨q, a⟩] := by
  simp [conversation]

theorem conversation_other {i : Nat} {m : Moment} (h : m.job ≠ i) : conversation i [m] = [] := by
  unfold conversation
  rw [List.filterMap_cons]
  cases hm : m.move with
  | start => rfl
  | resume job q a =>
    rw [Moment.job, hm] at h
    simp [h]

@[simp] theorem conversation_start {i : Nat} {w w' : Process} {c : Command} {ids : List SessionId} :
    conversation i [⟨w, .start c, ids, w'⟩] = [] := rfl

namespace Underway

variable {ms : List Moment} {i : Nat} {c : Command} {w w' : Wait} {m : Moment}

theorem begun {n : Node} (hmove : m.move = .start c) (hc : Claims m.before.node c n w) :
    Underway (ms ++ [m]) m.before.jobs.length c w :=
  .intro rfl hmove rfl hc (.refl w)

theorem later (h : Underway ms i c w) (hm : conversation i [m] = []) :
    Underway (ms ++ [m]) i c w := by
  obtain @⟨ms₁, ms₂, claim, n, w₀, w, rfl, hmove, hi, hc, hw⟩ := h
  have hms : ms₁ ++ claim :: ms₂ ++ [m] = ms₁ ++ claim :: (ms₂ ++ [m]) := List.append_assoc ..
  refine .intro hms hmove hi hc ?_
  rw [conversation_append, hm, List.append_nil]
  exact hw

theorem answered (h : Underway ms i c w) {q : Request} {a : q.Answer}
    (hm : conversation i [m] = [⟨q, a⟩]) (ha : w.Answered q a w') :
    Underway (ms ++ [m]) i c w' := by
  obtain @⟨ms₁, ms₂, claim, n, w₀, w, rfl, hmove, hi, hc, hw⟩ := h
  have hms : ms₁ ++ claim :: ms₂ ++ [m] = ms₁ ++ claim :: (ms₂ ++ [m]) := List.append_assoc ..
  refine .intro hms hmove hi hc ?_
  rw [conversation_append, hm]
  exact hw.snoc ha

end Underway

section

variable {ms : List Moment} {i : Nat} {c : Command} {w : Wait} {m : Moment} {n n' : Node}
  {p : Program Node.interface (Except Error Reply)}

theorem Moment.Happens.acts (h : m.Happens) (hs : m.before.JobsSound ms) : m.Acts ms := by
  cases h with
  | start hc h => exact .start (Node.goes_start hc h)
  | @resume n n' js i c q next a ids p hj h =>
    rcases hs i _ hj with ⟨r, hr⟩ | ⟨w, hw, hr, hu⟩
    · cases hr
    · obtain ⟨w', ha, hn⟩ := Wait.answered_of_program hw hr.symm a
      rw [hn] at h
      obtain ⟨rfl, hp⟩ := Node.goes_wait h
      have hj : js[i]? = some ⟨c, w.program⟩ := by rw [hj]; exact congrArg some (congrArg _ hr)
      exact .resume hu hj ha hp

theorem Proceeds.sound (h : Proceeds n w n' p) (hu : Underway ms i c w) :
    (Job.mk c p).Sound ms i := by
  rcases h with ⟨hw, -, rfl⟩ | ⟨r, -, rfl⟩
  · exact .inr ⟨w, hw, rfl, hu⟩
  · exact .inl ⟨r, rfl⟩

theorem Job.Sound.later {j : Job} (h : j.Sound ms i) (hm : conversation i [m] = []) :
    j.Sound (ms ++ [m]) i := by
  rcases h with h | ⟨w, hw, hp, hu⟩
  · exact .inl h
  · exact .inr ⟨w, hw, hp, hu.later hm⟩

theorem Starts.sound {ids : List SessionId} (h : Starts m.before.node c ids n' p)
    (hm : m.move = .start c) : (Job.mk c p).Sound (ms ++ [m]) m.before.jobs.length := by
  cases h with
  | claimed hc hp => exact Proceeds.sound hp (.begun hm hc)
  | refused | looked | called | announced | sent | joined | unused | left | swept =>
    exact .inl ⟨_, rfl⟩

theorem Moment.Acts.jobsSound (h : m.Acts ms) (hs : m.before.JobsSound ms) :
    m.after.JobsSound (ms ++ [m]) := by
  intro i j hj
  cases h with
  | @start n n' js c ids p h =>
    have hj : (js ++ [⟨c, p⟩])[i]? = some j := hj
    rcases Nat.lt_trichotomy i js.length with hi | rfl | hi
    · rw [List.getElem?_append_left hi] at hj
      exact (hs i j hj).later rfl
    · rw [List.getElem?_concat_length] at hj
      cases hj
      exact Starts.sound (m := ⟨⟨n, js⟩, .start c, ids, ⟨n', js ++ [⟨c, p⟩]⟩⟩) h rfl
    · rw [List.getElem?_eq_none (by rw [List.length_append]; exact hi)] at hj
      cases hj
  | @resume n n' js i' c q a w w' p hu hj' ha h =>
    have hj : (js.set i' ⟨c, p⟩)[i]? = some j := hj
    by_cases hi : i' = i
    · subst hi
      rw [List.getElem?_set_self (List.getElem?_eq_some_iff.1 hj').1] at hj
      cases hj
      exact Proceeds.sound h (hu.answered conversation_resume ha)
    · rw [List.getElem?_set_ne hi] at hj
      exact (hs i j hj).later (conversation_other hi)

theorem Process.start_jobsSound (config : Config) : (start config).JobsSound [] := nofun

theorem Path.jobsSound {config : Config} {w : Process} (h : Path (.start config) ms w) :
    w.JobsSound ms := by
  induction h with
  | refl => exact Process.start_jobsSound config
  | snoc _ hm ih => exact (hm.acts ih).jobsSound ih

end

end EscrowMix
