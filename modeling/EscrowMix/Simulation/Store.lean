import EscrowMix.Store

/-!
A store in memory whose methods can be made to fail, and which can list sessions that it does not
keep.
-/

namespace EscrowMix.Simulation

namespace Store

/-- The methods of a store. -/
inductive Method where
  | save | load | remove | list
deriving DecidableEq

/-- The method of a name. -/
def Method.ofName? : String → Option Method
  | "save" => some save
  | "load" => some load
  | "remove" => some remove
  | "list" => some list
  | _ => none

/-- The method of a request. -/
def methodOf : Store.Request → Method
  | .save .. => .save
  | .load _ => .load
  | .remove _ => .remove
  | .list => .list

/-- The failure of a name. -/
def failureOf (text : String) : Store.Error :=
  if text = "unavailable" then .unavailable else .other text

end Store

/-- A store in memory. -/
structure Store where
  memory : Store.Memory
  /-- The methods that fail, and how. -/
  failures : List (Store.Method × EscrowMix.Store.Error)
  /-- Sessions that are listed though nothing is kept of them. -/
  ghosts : List SessionId

namespace Store

/-- Nothing is kept and nothing fails. -/
def new : Store := ⟨.empty, [], []⟩

/-- Puts an identifier in its place in the order. -/
def insertId (id : SessionId) : List SessionId → List SessionId
  | [] => [id]
  | i :: is => if i.before id then i :: insertId id is else id :: i :: is

/-- The sessions that are listed. -/
def listed (s : Store) : List SessionId := s.ghosts.foldr insertId s.memory.list

/-- Does what is asked, if the method works. -/
def answer (s : Store) (q : EscrowMix.Store.Request) :
    Except EscrowMix.Store.Error q.Value × Store :=
  match s.failures.lookup (methodOf q) with
  | some e => (.error e, s)
  | none =>
    match q with
    | .list => (.ok s.listed, s)
    | q =>
      let (value, memory) := s.memory.perform q
      (.ok value, { s with memory := memory })

/-- Keeps a snapshot whatever fails. -/
def keep (s : Store) (id : SessionId) (bytes : Bytes) : Store :=
  { s with memory := s.memory.save id bytes }

end Store

end EscrowMix.Simulation
