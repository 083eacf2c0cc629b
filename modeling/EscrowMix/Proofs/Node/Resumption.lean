import EscrowMix.Proofs.Node.Restart
import EscrowMix.Proofs.Store

/-!
A new node on a store with any number of snapshots. They are read in the order of the store. The
first session in progress becomes the active one, those that are not in progress are forgotten, and
the snapshots of all others stay as they are.

    session               before one is active        afterwards
    in progress           becomes the active one      its snapshot stays
    not in progress       is forgotten                is forgotten
-/

namespace EscrowMix

open Node (Command Reply Running)

/-! ### Sessions in a store -/

namespace Store.Memory

variable {m : Memory} {id : SessionId} {b : Bytes} {kept rest : List (SessionId × Bytes)}

/-- Every snapshot can be read, and is kept under the identifier of its session. -/
def Keyed (entries : List (SessionId × Bytes)) : Prop :=
  ∀ e ∈ entries, ∃ v, Session.ofSnapshot e.2 = .ok v ∧ v.id = e.1

theorem keyed_iff_all : Keyed rest ↔
    ∀ e ∈ rest, (Session.ofSnapshot e.2).toOption.any (·.id = e.1) = true := by
  refine forall₂_congr fun e _ => ?_
  cases Session.ofSnapshot e.2 <;> simp [Except.toOption]

instance (entries : List (SessionId × Bytes)) : Decidable (Keyed entries) :=
  decidable_of_iff' _ keyed_iff_all

/-- The session of this entry is in progress. -/
def isUnfinished (e : SessionId × Bytes) : Bool :=
  match Session.ofSnapshot e.2 with
  | .ok v => v.isInProgress
  | .error _ => false

/-- The entries whose sessions are in progress. -/
def unfinished (m : Memory) : List (SessionId × Bytes) := m.entries.filter isUnfinished

theorem isUnfinished_eq {v : Session} (hv : Session.ofSnapshot b = .ok v) :
    isUnfinished (id, b) = v.isInProgress := by
  rw [isUnfinished, hv]

/-- No entry before this one, and none after it, has its identifier. -/
theorem Ordered.alone (h : m.Ordered) (hm : m.entries = kept ++ (id, b) :: rest) :
    (∀ e ∈ kept, e.1 ≠ id) ∧ ∀ e ∈ rest, e.1 ≠ id := by
  rw [Ordered, hm, List.pairwise_append, List.pairwise_cons] at h
  obtain ⟨-, ⟨hrest, -⟩, hkept⟩ := h
  refine ⟨fun e he => ?_, fun e he => ?_⟩
  · exact SessionId.ne_of_before (hkept e he (id, b) List.mem_cons_self)
  · exact (SessionId.ne_of_before (hrest e he)).symm

theorem Ordered.load (h : m.Ordered) (hm : m.entries = kept ++ (id, b) :: rest) :
    m.load id = some b := by
  have hkept : kept.find? (·.1 = id) = none := by
    simpa [List.find?_eq_none] using (h.alone hm).1
  rw [Memory.load, hm, List.find?_append, hkept]
  simp

theorem Ordered.remove (h : m.Ordered) (hm : m.entries = kept ++ (id, b) :: rest) :
    (m.remove id).entries = kept ++ rest := by
  obtain ⟨hkept, hrest⟩ := h.alone hm
  have hkept : kept.filter (·.1 ≠ id) = kept := by simpa [List.filter_eq_self] using hkept
  have hrest : rest.filter (·.1 ≠ id) = rest := by simpa [List.filter_eq_self] using hrest
  rw [Memory.remove, hm, List.filter_append, List.filter_cons_of_neg (by simp), hkept, hrest]

end Store.Memory

namespace Site

variable {s s' : Site} {id first : SessionId} {b : Bytes} {v : Session} {config : Config}
  {kept rest : List (SessionId × Bytes)} {ids : List SessionId} {restored : Option SessionId}

open Store.Memory (Keyed isUnfinished isUnfinished_eq)

/-! ### One entry after the other -/

/-- One that is not in progress is forgotten. -/
theorem runs_restoreFrom_over {r : Except Error (Option SessionId)}
    (h : s.Runs (Node.restoreFrom (id :: ids) restored).run r s') (ho : s.store.Ordered)
    (hm : s.store.entries = kept ++ (id, b) :: rest) (hv : Session.ofSnapshot b = .ok v)
    (hp : v.isInProgress = false) :
    Runs ⟨s.node, s.store.remove id⟩ (Node.restoreFrom ids restored).run r s' := by
  have h := runs_loaded h
  rw [ho.load hm] at h
  dsimp only at h
  rw [hv] at h
  have h := runs_read h
  rw [hp] at h
  exact runs_stored h

/-- The first one in progress becomes the active one. -/
theorem runs_restoreFrom_first {r : Except Error (Option SessionId)}
    (h : s.Runs (Node.restoreFrom (id :: ids) none).run r s') (ho : s.store.Ordered)
    (hm : s.store.entries = kept ++ (id, b) :: rest) (hv : Session.ofSnapshot b = .ok v)
    (hp : v.isInProgress = true) (ha : s.node.directory.active = none) :
    Runs ⟨⟨s.node.config, (s.node.directory.activate v).2⟩, s.store⟩
      (Node.restoreFrom ids (some id)).run r s' := by
  have h := runs_loaded h
  rw [ho.load hm] at h
  dsimp only at h
  rw [hv] at h
  have h := runs_read h
  rw [hp] at h
  obtain ⟨now, s₁, hclock, h⟩ := runs_asked h
  obtain rfl : s = s₁ := hclock.symm
  obtain ⟨out, h⟩ := runs_install_free h ha
  exact h

/-- Any other one in progress is passed over. -/
theorem runs_restoreFrom_later {r : Except Error (Option SessionId)}
    (h : s.Runs (Node.restoreFrom (id :: ids) (some first)).run r s') (ho : s.store.Ordered)
    (hm : s.store.entries = kept ++ (id, b) :: rest) (hv : Session.ofSnapshot b = .ok v)
    (hp : v.isInProgress = true) : s.Runs (Node.restoreFrom ids (some first)).run r s' := by
  have h := runs_loaded h
  rw [ho.load hm] at h
  dsimp only at h
  rw [hv] at h
  have h := runs_read h
  rw [hp] at h
  exact h

/-! ### All entries -/

/-- With an active session, the rest of the store loses what is not in progress. -/
theorem runs_restoreFrom_rest {r : Except Error (Option SessionId)}
    (h : s.Runs (Node.restoreFrom (rest.map (·.1)) (some first)).run r s') (ho : s.store.Ordered)
    (hm : s.store.entries = kept ++ rest) (hk : Keyed rest) :
    r = .ok (some first) ∧ s' = ⟨s.node, ⟨kept ++ rest.filter isUnfinished⟩⟩ := by
  induction rest generalizing s kept with
  | nil =>
    obtain ⟨rfl, rfl⟩ := runs_done h
    obtain ⟨n, ⟨entries⟩⟩ := s'
    cases hm
    exact ⟨rfl, rfl⟩
  | cons e rest ih =>
    obtain ⟨id, b⟩ := e
    obtain ⟨⟨v, hv, -⟩, hk⟩ := List.forall_mem_cons.1 hk
    cases hp : v.isInProgress with
    | false =>
      rw [List.filter_cons_of_neg (by simp [isUnfinished_eq hv, hp])]
      have h := runs_restoreFrom_over h ho hm hv hp
      have hrest := ih h (ho.perform (.remove id)) (ho.remove hm) hk
      exact hrest
    | true =>
      rw [List.filter_cons_of_pos (by simp [isUnfinished_eq hv, hp])]
      have hm' : s.store.entries = kept ++ [(id, b)] ++ rest := by rw [hm, List.append_cons]
      rw [List.append_cons]
      exact ih (runs_restoreFrom_later h ho hm hv hp) ho hm' hk

/-- What becomes of a node and its answer when these entries are in progress: the session of the
first one is active, or none. -/
inductive TakesUp (n : Node) : List (SessionId × Bytes) → Option SessionId → Node → Prop
  | nothing : TakesUp n [] none n
  | first {id : SessionId} {b : Bytes} {v : Session} {later : List (SessionId × Bytes)}
      (hv : Session.ofSnapshot b = .ok v) (hid : v.id = id) :
      TakesUp n ((id, b) :: later) (some id) ⟨n.config, (n.directory.activate v).2⟩

/-- Without an active session, the first one in progress is taken up, and then the rest is as
before. -/
theorem runs_restoreFrom_none {r : Except Error (Option SessionId)}
    (h : s.Runs (Node.restoreFrom (rest.map (·.1)) none).run r s') (ho : s.store.Ordered)
    (hm : s.store.entries = kept ++ rest) (hk : Keyed rest)
    (ha : s.node.directory.active = none) :
    ∃ answer, r = .ok answer ∧ TakesUp s.node (rest.filter isUnfinished) answer s'.node ∧
      s'.store = ⟨kept ++ rest.filter isUnfinished⟩ := by
  induction rest generalizing s kept with
  | nil =>
    obtain ⟨rfl, rfl⟩ := runs_done h
    obtain ⟨n, ⟨entries⟩⟩ := s'
    cases hm
    exact ⟨none, rfl, .nothing, rfl⟩
  | cons e rest ih =>
    obtain ⟨id, b⟩ := e
    obtain ⟨⟨v, hv, hid⟩, hk⟩ := List.forall_mem_cons.1 hk
    cases hp : v.isInProgress with
    | false =>
      rw [List.filter_cons_of_neg (by simp [isUnfinished_eq hv, hp])]
      have h := runs_restoreFrom_over h ho hm hv hp
      have hrest := ih h (ho.perform (.remove id)) (ho.remove hm) hk ha
      exact hrest
    | true =>
      rw [List.filter_cons_of_pos (by simp [isUnfinished_eq hv, hp])]
      have h := runs_restoreFrom_first h ho hm hv hp ha
      have hm' : s.store.entries = kept ++ [(id, b)] ++ rest := by rw [hm, List.append_cons]
      obtain ⟨rfl, rfl⟩ := runs_restoreFrom_rest h ho hm' hk
      exact ⟨some id, rfl, .first hv hid, congrArg Store.Memory.mk (List.append_cons ..).symm⟩

/-- What a new node on the store `m` answers and leaves when it takes up what is in progress. -/
structure Resumption (m : Store.Memory) (r : Except Error Reply) (s' : Site) : Prop where
  /-- The entries of sessions in progress stay as they are, and all others go. -/
  store : s'.store = ⟨m.unfinished⟩
  /-- If there is none, nothing comes back. -/
  nothing : m.unfinished = [] → r = .ok (.restored none) ∧ s'.active = none
  /-- Otherwise the first one by identifier comes back, and no other. -/
  resumed : ∀ id b later, m.unfinished = (id, b) :: later →
    (∀ e ∈ later, id.before e.1 = true) ∧ r = .ok (.restored (some id)) ∧
      ∃ v, Session.ofSnapshot b = .ok v ∧ v.id = id ∧ s'.node.directory.activeId = some id ∧
        s'.active = some v ∧ s'.node.directory.sessions = [v]

/-- Whatever a store holds, a new node on it takes up the first session in progress, and the store
is left with those in progress. -/
theorem resumption_of_store (config : Config) {m : Store.Memory} (ho : m.Ordered)
    (hk : Keyed m.entries) :
    (∃ r s', Runs ⟨(Process.start config).node, m⟩ (Command.restore.program config) r s') ∧
      ∀ r s', Runs ⟨(Process.start config).node, m⟩ (Command.restore.program config) r s' →
        Resumption m r s' := by
  refine ⟨⟨_, _, runs_run SigningMixer.circumstances _ _⟩, fun r s' h => ?_⟩
  have h := runs_listed h
  obtain ⟨answer, s₁, hfrom, h⟩ := runs_bind h
  have hm : m.entries = [] ++ m.entries := rfl
  obtain ⟨answer, rfl, htakes, hstore⟩ := runs_restoreFrom_none hfrom ho hm hk rfl
  obtain ⟨rfl, rfl⟩ := runs_done h
  have hordered : m.unfinished.Pairwise fun e e' => e.1.before e'.1 = true := ho.filter _
  refine ⟨hstore, fun hnone => ?_, fun id b later hsome => ?_⟩
  · rw [Store.Memory.unfinished] at hnone
    rw [hnone] at htakes
    generalize hn : s'.node = n at htakes
    cases htakes
    exact ⟨rfl, by rw [active, hn]; rfl⟩
  · rw [hsome, List.pairwise_cons] at hordered
    rw [Store.Memory.unfinished] at hsome
    rw [hsome] at htakes
    generalize hn : s'.node = n at htakes
    cases htakes with
    | first hv hid =>
      refine ⟨hordered.1, rfl, _, hv, hid, ?_, ?_, rfl⟩
      · exact congrArg some hid
      · rw [active, hn]
        rfl

end Site

namespace MixedStore

/-- A session that has not begun. -/
def blank (n : UInt8) : Session := .fresh ⟨.replicate 16 n⟩ .standard 0

/-- A session that the Sender has begun. -/
def begun (n : UInt8) : Session :=
  let terms : Schedule := ⟨[⟨⟨"payee"⟩, ⟨100000⟩⟩]⟩
  ((blank n).perform 5 (.beginAsSender terms .none ⟨2⟩ ⟨3⟩)).2

/-- Two sessions in progress, and one before each that is not, saved in no order. -/
def mixed : Store.Memory :=
  [begun 4, blank 1, begun 2, blank 3].foldl (fun m v => m.save v.id v.toSnapshot) .empty

end MixedStore

open MixedStore in
theorem Site.resumption_of_mixed :
    mixed.entries.length = 4 ∧ mixed.unfinished.map (·.1) = [(begun 2).id, (begun 4).id] ∧
      ∃ s', Runs ⟨(Process.start .standard).node, mixed⟩ (Command.restore.program .standard)
          (.ok (.restored (some (begun 2).id))) s' ∧
        Resumption mixed (.ok (.restored (some (begun 2).id))) s' := by
  have hmixed : mixed.Ordered ∧ Store.Memory.Keyed mixed.entries ∧ mixed.entries.length = 4 ∧
      mixed.unfinished.map (·.1) = [(begun 2).id, (begun 4).id] := by decide +kernel
  obtain ⟨ho, hk, hlength, hunfinished⟩ := hmixed
  obtain ⟨⟨r, s', h⟩, hresumes⟩ := resumption_of_store .standard ho hk
  obtain ⟨⟨id, b⟩, later, hcons, rfl, -⟩ := List.map_eq_cons_iff.1 hunfinished
  obtain ⟨-, rfl, -⟩ := (hresumes r s' h).resumed _ _ _ hcons
  exact ⟨hlength, hunfinished, s', h, hresumes _ s' h⟩

end EscrowMix
