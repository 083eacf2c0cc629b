import EscrowMix.Session.Call

/-!
The sessions of a node. At most one is active, and a new one replaces it only once the active one is
complete, has not begun, or can be reset. A session keeps its slot after it was replaced, because a
call that waits for a collaborator still refers to it.
-/

namespace EscrowMix

/-- What a sweep did to an idle session. -/
inductive SweepOutcome where
  /-- It was reset and dropped. -/
  | reset (id : SessionId)
  /-- It cannot be reset and waits for an operator. -/
  | flagged (id : SessionId)
deriving DecidableEq

/-- How an outcome is shown. -/
def SweepOutcome.text : SweepOutcome → String
  | reset id => "Reset(SessionId(" ++ id.text ++ "))"
  | flagged id => "Flagged(SessionId(" ++ id.text ++ "))"

/-- A session that was replaced, and the counterparts it was still running with. -/
structure Eviction where
  id : SessionId
  counterparts : List (Role × Option PeerId)
deriving DecidableEq

/-- The place of a session in its directory. -/
abbrev Slot := Nat

/-- The sessions of a node. -/
structure Directory where
  /-- The fees of new sessions. -/
  fees : FeePolicy
  /-- Every session so far, by slot. -/
  sessions : List Session
  /-- The active session: the identifier it was enrolled under, and its slot. -/
  active : Option (SessionId × Slot)
deriving DecidableEq

namespace Directory

/-- No session yet. -/
def empty (fees : FeePolicy) : Directory := ⟨fees, [], none⟩

/-- What stands in a slot that was never handed out. -/
def vacant : Session := .fresh ⟨.replicate 16 0⟩ .standard 0

/-- The session in a slot. -/
def session (d : Directory) (slot : Slot) : Session := d.sessions.getD slot vacant

/-- Replaces the session in a slot. -/
def update (d : Directory) (slot : Slot) (s : Session) : Directory :=
  { d with sessions := d.sessions.set slot s }

/-- The active session. -/
def activeSession (d : Directory) : Option Session := d.active.map fun (_, slot) => d.session slot

/-- The identifier of the active session. -/
def activeId (d : Directory) : Option SessionId := d.active.map (·.1)

/-- The slot of the active session, which must have the identifier. -/
def lookup (d : Directory) (id : SessionId) : Except Error Slot :=
  match d.active with
  | some (current, slot) => if current = id then .ok slot else .error (.unknownSession id)
  | none => .error (.unknownSession id)

/-- Puts a session into a new slot and makes it the active one. -/
def activate (d : Directory) (s : Session) : Slot × Directory :=
  (d.sessions.length,
    { d with sessions := d.sessions ++ [s], active := some (s.id, d.sessions.length) })

/-- Makes way for another session: one in progress is reset, unless that is refused or a transition
is outstanding. -/
def vacate (d : Directory) (id : SessionId) (slot : Slot) (now : UInt64) :
    Except Error (Eviction × Directory) :=
  let current := d.session slot
  if current.isInProgress then
    if current.isBusy || !current.canReset then .error (.sessionAlreadyActive id)
    else do
      let cleared ← current.reset true now
      return (⟨id, current.counterparts⟩, d.update slot cleared)
  else .ok (⟨id, []⟩, d)

/-- Enrolls a session. If one with its identifier is active, that one's slot is the answer, and it
takes the place of the session there only on request. -/
def enroll (d : Directory) (s : Session) (replace : Bool) (now : UInt64) :
    Except Error ((Slot × Option Eviction) × Directory) :=
  match d.active with
  | none =>
    let (slot, d) := d.activate s
    .ok ((slot, none), d)
  | some (id, slot) =>
    if id = s.id then .ok ((slot, none), if replace then d.update slot s else d)
    else do
      let (eviction, d) ← d.vacate id slot now
      let (slot, d) := d.activate s
      return ((slot, some eviction), d)

/-- The session with an identifier, a new one if none is active under it. -/
def getOrCreate (d : Directory) (id : SessionId) (now : UInt64) :
    Except Error ((Slot × Option Eviction) × Directory) :=
  d.enroll (.fresh id d.fees now) false now

/-- Makes a restored session the active one. -/
def install (d : Directory) (s : Session) (now : UInt64) :
    Except Error ((Slot × Option Eviction) × Directory) :=
  d.enroll s true now

/-- Drops the active session if it has the identifier, and tells whether it had. -/
def drop (d : Directory) (id : SessionId) : Bool × Directory :=
  if d.activeId = some id then (true, { d with active := none }) else (false, d)

/-- Seconds since the last activity, none if that is ahead of the clock. -/
def idleSecs (s : Session) (now : UInt64) : Nat := now.toNat - s.lastActivity.toNat

/-- Resets and drops the active session if it is in progress and idle for more than `maxIdle`
seconds, or flags it if it cannot be reset. One with an outstanding transition is left alone, and so
is one whose slot is locked. -/
def sweep (d : Directory) (now maxIdle : UInt64) (locked : Option Slot) :
    List SweepOutcome × Directory :=
  match d.active with
  | none => ([], d)
  | some (id, slot) =>
    let s := d.session slot
    if locked = some slot then ([], d)
    else if s.isInProgress && !s.isBusy && decide (maxIdle.toNat < idleSecs s now) then
      match s.reset true now with
      | .ok cleared => ([.reset id], { d.update slot cleared with active := none })
      | .error _ => ([.flagged id], d.update slot (s.flag now))
    else ([], d)

end Directory

end EscrowMix
