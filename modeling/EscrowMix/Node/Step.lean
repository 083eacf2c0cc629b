import EscrowMix.Directory

/-!
The locked steps of a node. A step looks at or changes the directory or one session, with nothing in
between; what a node does is made of such steps and of requests to its collaborators. While a
session is locked a step may read the clock, ask which connections are open, and hand snapshots to
the store, whose failures it ignores.
-/

namespace EscrowMix

/-- A node: its parameters and its sessions. -/
structure Node where
  config : Config
  directory : Directory
deriving DecidableEq

namespace Node

/-- A node that has just started, if its parameters are valid. -/
def start (config : Config) : Except Error Node := do
  config.validate.mapError .config
  return ⟨config, .empty config.feePolicy⟩

/-- What a locked step can see of the world. -/
structure Surroundings where
  now : UInt64
  isConnected : PeerId → Bool

/-- Connections with the roles that act there. -/
abbrev Targets := List (Role × PeerId)

/-- The counterparts with an open connection. -/
def reachable (env : Surroundings) : List (Role × Option PeerId) → Targets
  | [] => []
  | (role, some peer) :: rest =>
    if env.isConnected peer then (role, peer) :: reachable env rest else reachable env rest
  | (_, none) :: rest => reachable env rest

/-- All counterparts, each of which must have an open connection. -/
def connected (env : Surroundings) : List (Role × Option PeerId) → Except Error Targets
  | [] => .ok []
  | (role, some peer) :: rest =>
    if env.isConnected peer then do return (role, peer) :: (← connected env rest)
    else .error (.peerDisconnected role)
  | (role, none) :: _ => .error (.peerDisconnected role)

/-- Hands a session to the store; one that has not begun is forgotten there. -/
def persist (s : Session) : Store.Request :=
  if s.status = .notBegun then .remove s.id else .save s.id s.toSnapshot

/-- A call that ends in this way is handed to the store: every committed change is, except the
beginning of an invited session, which has a step of its own. A verdict on the deposits is handed on
whether or not its ticket was stale. -/
def isSaved : (c : Session.Call) → Except Error c.Answer → Bool
  | .beginAsSender .., .ok _ => true
  | .setOwnKey .., .ok news => news
  | .learnKey .., .ok news => news
  | .completeMultisig .., .ok _ => true
  | .recordOwnDeposit _, .ok _ => true
  | .learnDeposit .., .ok _ => true
  | .completeVerification .., _ => true
  | .completeSignature .., .ok _ => true
  | .completeSignature .., .error (.fatal _) => true
  | .learnRound .., .ok _ => true
  | .completeCommit _, .ok _ => true
  | .markReclaimable _, .ok _ => true
  | .reset _, .ok _ => true
  | _, _ => false

/-- A locked step. -/
inductive Step where
  /-- Find the slot of the active session. -/
  | lookup (id : SessionId)
  /-- Find or create the session with an identifier. -/
  | enroll (id : SessionId) (now : UInt64)
  /-- Make a restored session the active one. -/
  | install (s : Session) (now : UInt64)
  /-- Drop the active session if it has the identifier. -/
  | drop (id : SessionId)
  /-- Reset or flag the active session if it is idle. -/
  | sweep (now : UInt64)
  /-- Perform a call on a session, at a time read before or at the clock's. -/
  | call (slot : Slot) (time : Option UInt64) (c : Session.Call)
  /-- Perform a call whose outcome every counterpart is told; all must be connected. -/
  | announce (slot : Slot) (c : Session.Call)
  /-- Reset a session and find who is to be told. -/
  | abandon (slot : Slot)
  /-- Find the counterparts that can be told. -/
  | reachable (slot : Slot)
  /-- Look at a session. -/
  | view (slot : Slot)
  /-- Hand a session to the store. -/
  | save (slot : Slot)
deriving DecidableEq

/-- What a step answers. A call answers also with the session that it leaves. -/
def Step.Answer : Step → Type
  | lookup _ => Except Error Slot
  | enroll .. | install .. => Except Error (Slot × Option Eviction)
  | drop _ => Unit
  | sweep _ => List SweepOutcome
  | call _ _ c => Except Error c.Answer × Session
  | announce _ c => Except Error ((Role × Targets) × c.Answer)
  | abandon _ => Except Error Targets
  | reachable _ => Targets
  | view _ => Session
  | save _ => Unit

/-- What a step leaves: its answer, the node, and what was handed to the store. -/
structure Outcome (α : Type) where
  answer : α
  node : Node
  handed : List Store.Request

/-- A step that changes nothing. -/
def unchanged {α : Type} (n : Node) (answer : α) : Outcome α := ⟨answer, n, []⟩

/-- A step that changes the directory only. -/
def withDirectory {α : Type} (n : Node) (answer : α) (d : Directory) : Outcome α :=
  ⟨answer, { n with directory := d }, []⟩

/-- The end of an enrolment. -/
def enrolled (n : Node) :
    Except Error ((Slot × Option Eviction) × Directory) →
      Outcome (Except Error (Slot × Option Eviction))
  | .ok (answer, d) => n.withDirectory (.ok answer) d
  | .error e => n.unchanged (.error e)

/-- Performs a call on the session in a slot. -/
def callOn (n : Node) (now : UInt64) (slot : Slot) (c : Session.Call) :
    Outcome (Except Error c.Answer × Session) :=
  let (answer, s) := (n.directory.session slot).perform now c
  ⟨(answer, s), { n with directory := n.directory.update slot s },
    if isSaved c answer then [persist s] else []⟩

/-- Performs a call once every counterpart is connected. -/
def announceOn (n : Node) (env : Surroundings) (slot : Slot) (c : Session.Call) :
    Outcome (Except Error ((Role × Targets) × c.Answer)) :=
  let s := n.directory.session slot
  let audience : Except Error (Role × Targets) := do
    let targets ← connected env s.counterparts
    return (← s.localRole, targets)
  match audience with
  | .error e => n.unchanged (.error e)
  | .ok audience =>
    let out := n.callOn env.now slot c
    ⟨out.answer.1.map fun answer => (audience, answer), out.node, out.handed⟩

/-- Resets the session in a slot; the audit log is kept. -/
def abandonOn (n : Node) (env : Surroundings) (slot : Slot) : Outcome (Except Error Targets) :=
  let targets := reachable env (n.directory.session slot).counterparts
  let out := n.callOn env.now slot (.reset true)
  ⟨out.answer.1.map fun _ => targets, out.node, out.handed⟩

/-- Performs a locked step. -/
def perform (n : Node) (env : Surroundings) : (q : Step) → Outcome q.Answer
  | .lookup id => n.unchanged (n.directory.lookup id)
  | .enroll id now => n.enrolled (n.directory.getOrCreate id now)
  | .install s now => n.enrolled (n.directory.install s now)
  | .drop id => n.withDirectory () (n.directory.drop id).2
  | .sweep now =>
    let (outcomes, d) := n.directory.sweep now n.config.maxIdleSecs none
    n.withDirectory outcomes d
  | .call slot time c => n.callOn (time.getD env.now) slot c
  | .announce slot c => n.announceOn env slot c
  | .abandon slot => n.abandonOn env slot
  | .reachable slot => n.unchanged (reachable env (n.directory.session slot).counterparts)
  | .view slot => n.unchanged (n.directory.session slot)
  | .save slot => ⟨(), n, [persist (n.directory.session slot)]⟩

end Node

end EscrowMix
