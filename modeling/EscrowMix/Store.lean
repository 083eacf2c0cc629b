import EscrowMix.SessionId

/-!
Where snapshots of sessions are kept, so that a node can go on after a restart: the requests to a
store, and a store in memory.
-/

namespace EscrowMix.Store

/-- How a store can fail. -/
inductive Error where
  /-- The store cannot be reached. -/
  | unavailable
  /-- Anything else. -/
  | other (text : String)
deriving DecidableEq

/-- The wording of a failure. -/
def Error.message : Error → String
  | unavailable => "Session store unavailable"
  | other text => "Store error: " ++ text

/-- The text of a failure of another kind. -/
def Error.inner? : Error → Option String
  | other text => some text
  | _ => none

/-- What a store is asked to do. -/
inductive Request where
  /-- Keep a snapshot in place of an older one. -/
  | save (id : SessionId) (snapshot : Bytes)
  /-- Give back a snapshot. -/
  | load (id : SessionId)
  /-- Forget a snapshot; one that is not kept may be forgotten too. -/
  | remove (id : SessionId)
  /-- List the sessions with a snapshot. -/
  | list
deriving DecidableEq

/-- What a request that succeeds gives. -/
def Request.Value : Request → Type
  | save .. => Unit
  | load _ => Option Bytes
  | remove _ => Unit
  | list => List SessionId

/-- A store in memory, in the order of the identifiers. -/
structure Memory where
  entries : List (SessionId × Bytes)
deriving DecidableEq

namespace Memory

/-- Nothing is kept. -/
def empty : Memory := ⟨[]⟩

/-- Puts an entry in its place in the order. -/
def insertEntry (id : SessionId) (snapshot : Bytes) :
    List (SessionId × Bytes) → List (SessionId × Bytes)
  | [] => [(id, snapshot)]
  | e :: es =>
    if e.1 = id then (id, snapshot) :: es
    else if id.before e.1 then (id, snapshot) :: e :: es
    else e :: insertEntry id snapshot es

/-- Keeps a snapshot in place of an older one. -/
def save (m : Memory) (id : SessionId) (snapshot : Bytes) : Memory :=
  ⟨insertEntry id snapshot m.entries⟩

/-- The snapshot of a session. -/
def load (m : Memory) (id : SessionId) : Option Bytes :=
  (m.entries.find? (·.1 = id)).map (·.2)

/-- Forgets the snapshot of a session. -/
def remove (m : Memory) (id : SessionId) : Memory :=
  ⟨m.entries.filter (·.1 ≠ id)⟩

/-- The sessions with a snapshot, in order. -/
def list (m : Memory) : List SessionId := m.entries.map (·.1)

/-- Does what is asked; a store in memory never fails. -/
def perform (m : Memory) : (q : Request) → q.Value × Memory
  | .save id snapshot => ((), m.save id snapshot)
  | .load id => (m.load id, m)
  | .remove id => ((), m.remove id)
  | .list => (m.list, m)

end Memory

end EscrowMix.Store
