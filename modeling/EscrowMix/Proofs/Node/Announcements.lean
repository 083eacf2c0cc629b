import EscrowMix.Proofs.Node.Mirror
import EscrowMix.Proofs.Node.Roles
import EscrowMix.Proofs.Session.Rounds

/-!
Announcements. A party tells the two others its address and key, its deposit, or the distribution
after its round, and all three commands do so in the same way: they are refused before anything
happens unless both counterparts are connected, and what they announce is what the session holds
from then on. A command is carried out here with nothing in between, with connections that do not
change meanwhile, and with a store that may fail.
-/

namespace EscrowMix

open Node (Command Reply Running Request Surroundings Step Targets)

/-! ### Runs under given conditions -/

/-- What a command meets with: the connections that are open, and whether the store does all that it
is handed. -/
structure Conditions where
  isOpen : PeerId → Bool
  keeps : Prop

namespace Site

variable {α β : Type} {x : Conditions} {s s₁ s' : Site} {qs : List Request} {slot : Slot}

/-- The store is handed requests. It does each of them, or loses it if it may fail. -/
inductive Stores (keeps : Prop) : Store.Memory → List Store.Request → Store.Memory → Prop
  | nil {m : Store.Memory} : Stores keeps m [] m
  | done {m m' : Store.Memory} {q : Store.Request} {qs : List Store.Request}
      (h : Stores keeps (m.perform q).2 qs m') : Stores keeps m (q :: qs) m'
  | lost {m m' : Store.Memory} {q : Store.Request} {qs : List Store.Request} (hk : ¬keeps)
      (h : Stores keeps m qs m') : Stores keeps m (q :: qs) m'

open Node.Running (ask orFail step lookup call)

/-- A call that is carried out, and what the store then keeps. -/
def Calls (x : Conditions) (s : Site) (slot : Slot) (c : Session.Call) (a : c.Answer) (s₁ : Site) :
    Prop :=
  ∃ now v, (s.session slot).perform now c = (.ok a, v) ∧ s₁.node = s.node.put slot v ∧
    Stores x.keeps s.store (if Node.isSaved c (.ok a) then [Node.persist v] else []) s₁.store

end Site

variable {x : Conditions}

namespace Site

open Node.Running (step lookup call)

variable {α β : Type} {x : Conditions} {s s₁ s' : Site} {qs : List Request} {slot : Slot}
  {own : Role}

end Site

/-! ### What the session holds then -/

namespace Session

variable {s v : Session} {own : Role} {now : UInt64}

end Session

/-! ### Announcements -/

namespace Node.Command

/-- The session already holds what the command brings. -/
def Repeats (s : Session) (own : Role) : Command → Prop
  | .setOwnKey _ address key =>
    s.parties.address own = some address ∧ s.parties.key own = some key
  | _ => False

end Node.Command

namespace Site

open Node.Running (step lookup call)

variable {x : Conditions} {s s₁ s' : Site} {qs : List Request} {slot : Slot} {own : Role}
  {c : Command} {id : SessionId} {τ : Topic} {targets : Targets} {v : Session} {msg : PeerMessage}

/-- The session is active in this slot, and the node plays this role in it. -/
structure Plays (s : Site) (id : SessionId) (slot : Slot) (own : Role) : Prop where
  active : s.node.directory.active = some (id, slot)
  lt_length : slot < s.node.directory.sessions.length
  id_eq : (s.session slot).id = id
  role : (s.session slot).role = some own

theorem session_of_put (hlt : slot < s.node.directory.sessions.length)
    (hn : s'.node = s.node.put slot v) : s'.session slot = v :=
  (congrArg (·.directory.session slot) hn).trans (Directory.session_update_self hlt)

/-- What a call on that session leaves. -/
theorem Plays.calls {call : Session.Call} {a : call.Answer} (h : s.Plays id slot own)
    (hcalls : s.Calls x slot call a s') : (s'.session slot).id = id ∧
      (∃ now, (s.session slot).perform now call = (.ok a, s'.session slot)) ∧
      Stores x.keeps s.store
        (if Node.isSaved call (.ok a) then [Node.persist (s'.session slot)] else []) s'.store := by
  obtain ⟨now, v, hs, hn, hm⟩ := hcalls
  obtain rfl : s'.session slot = v := session_of_put h.lt_length hn
  have hid := (s.session slot).perform_id now call
  rw [hs] at hid
  exact ⟨hid.trans h.id_eq, ⟨now, hs⟩, hm⟩

theorem Plays.later {call : Session.Call} {a : call.Answer} (h : s.Plays id slot own)
    (hcalls : s.Calls x slot call a s') (hrole : (s'.session slot).role = some own) :
    s'.Plays id slot own := by
  obtain ⟨hid, -, -⟩ := h.calls hcalls
  obtain ⟨_, v, -, hn, -⟩ := hcalls
  refine ⟨?_, ?_, hid, hrole⟩
  · rw [hn]
    exact h.active
  · rw [hn]
    exact Nat.lt_of_lt_of_eq h.lt_length Directory.length_update.symm

variable {r : Except Error Reply}

/-- How a request is answered in given circumstances, with a store that does all that it is handed,
or nothing. -/
def answerWith (y : Circumstances) (done : Bool) : (q : Request) → Site → q.Answer × Site
  | .step q, s =>
    let out := s.node.perform y.surroundings q
    (out.answer, ⟨out.node, if done then kept s.store out.handed else s.store⟩)
  | .store q, s =>
    if done then (.ok (s.store.perform q).1, ⟨s.node, (s.store.perform q).2⟩)
    else (.error .unavailable, s)
  | q, s => ((Node.answerIn y q s.node).1, s)

end Site

namespace MixerKey

open SigningMixer

/-- A Mixer was invited by the Sender and knows how to reach the Guarantor. -/
def invited : Site :=
  Site.told circumstances ⟨(Process.start .standard).node, .empty⟩
    [.onInvite ⟨1⟩ sessionId .mixer ⟨[⟨⟨"payee"⟩, ⟨100000⟩⟩]⟩ Config.standard.feePolicy .none,
      .attachPeer sessionId .guarantor ⟨3⟩]

/-- It sets its address and key. -/
def command : Command := .setOwnKey sessionId ⟨"mixer"⟩ mixerKey

/-- What the two others are told. -/
def messages : List Outbound :=
  [⟨.sender, ⟨1⟩, .addressAndKey sessionId .mixer ⟨"mixer"⟩ mixerKey⟩,
    ⟨.guarantor, ⟨3⟩, .addressAndKey sessionId .mixer ⟨"mixer"⟩ mixerKey⟩]

/-- The command is carried out with a store that does all that it is handed, or nothing. -/
def outcome (done : Bool) : Except Error Reply × Site :=
  (command.program invited.node.config).run (Site.answerWith circumstances done) invited

end MixerKey

end EscrowMix
