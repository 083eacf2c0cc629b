import EscrowMix.Node.Command
import EscrowMix.Session.View
import EscrowMix.Simulation.Edit
import EscrowMix.Simulation.Ledger
import EscrowMix.Simulation.Store
import EscrowMix.Simulation.Wallet

/-!
A network in memory: nodes with a wallet and a store each, and one ledger, one clock and one set of
connections for all of them. The connection numbered `i` leads to node `i`. What a simulation does
is a list of steps; steps can also be kept for the moment at which a node next asks its wallet or
the ledger, which is how commands are made to run in the midst of others.
-/

namespace EscrowMix.Simulation

/-- Where kept steps run. -/
inductive Moment where
  /-- Before the wallet does what it is asked. -/
  | wallet (m : Wallet.Method)
  /-- Before the ledger is asked for confirmations. -/
  | ledger
  /-- Not at all. -/
  | never
deriving DecidableEq

/-- The moment of a name: a method of the wallet, or the ledger. -/
def Moment.ofName (name : String) : Moment :=
  if name = "ledger" then ledger else (Wallet.Method.ofName? name).elim never wallet

/-- Why a step is not performed at all. -/
inductive Refusal where
  /-- The step is not well formed. -/
  | malformed
  /-- The step names something that does not exist. -/
  | missing
  /-- The step has an argument that the library does not accept. -/
  | rejected (e : Error)
deriving Inhabited

/-- What a node is told to do in a step. -/
inductive Action where
  /-- Nothing, because of what it is told. -/
  | refused (reason : Refusal)
  /-- A command. -/
  | command (c : Node.Command)
  /-- What concerns a session. One that is not named is the one begun last. -/
  | about (id : Option SessionId) (a : SessionId → Action)
  /-- The whole state of a session. -/
  | full (id : SessionId)
  /-- Replaces the behaviour of the wallet. -/
  | wallet (b : Wallet.Behaviour)
  /-- The transactions that the wallet broadcast. -/
  | broadcasts
  /-- Asks the wallet for a signature. -/
  | walletSign (tx : Bytes) (key : PublicKey)
  /-- Replaces the failures and the ghosts of the store. -/
  | store (failures : List (Store.Method × EscrowMix.Store.Error)) (ghosts : List SessionId)
  /-- Keeps bytes, after an edit, as the snapshot of a session. -/
  | plant (as : SessionId) (bytes : Bytes) (edit : Edit)
  /-- What is done only if another station exists. -/
  | beside (other : Nat) (a : Action)
  /-- Keeps the snapshot that a station has of a session, after an edit, as that of another. -/
  | graft (as : SessionId) (source : Nat) (id : SessionId) (edit : Edit)
  /-- The snapshot that is kept of a session. -/
  | dump (id : SessionId)
  /-- A new node in place of the old one, with the same wallet and store. -/
  | restart (config : Option Config)
  /-- Puts a stored snapshot, after an edit, into the directory. -/
  | install (id : SessionId) (edit : Edit)

/-- A step of a simulation. -/
inductive Step where
  /-- A step that could not be read. -/
  | refused (reason : Refusal)
  | clock (set add : Option UInt64)
  | disconnect (peer : PeerId)
  | reconnect (peer : PeerId)
  | deliver (message : Nat) (target : Option Nat)
  | deliverAll
  | pay (p : Ledger.Payment)
  | spend (o : OutPoint)
  | ledger (failure : Option EscrowMix.Ledger.Error) (after : Nat)
  | ledgerCalls
  | node (i : Nat) (a : Action)
  /-- Keeps steps for the next such moment of a node. -/
  | during (i : Nat) (m : Moment) (steps : List Step)

/-- A node with its collaborators. -/
structure Station where
  node : Node
  /-- The nodes that ran here before, in order. A node that was replaced goes on with the commands
  that it had not ended. -/
  replaced : List Node
  wallet : Wallet
  store : Store
  /-- Steps that are kept for moments. -/
  kept : List (Moment × List Step)

/-- The node with so many predecessors. -/
def Station.nodeAfter (station : Station) (predecessors : Nat) : Node :=
  station.replaced[predecessors]?.getD station.node

/-- Changes the node with so many predecessors. -/
def Station.setNodeAfter (station : Station) (predecessors : Nat) (n : Node) : Station :=
  if predecessors < station.replaced.length then
    { station with replaced := station.replaced.set predecessors n }
  else { station with node := n }

/-- Puts another node in place of the present one. -/
def Station.replaceNode (station : Station) (n : Node) : Station :=
  { station with node := n, replaced := station.replaced ++ [station.node] }

/-- A node of the network: its station, and how many nodes ran there before it. -/
structure NodeRef where
  station : Nat
  predecessors : Nat
deriving DecidableEq

/-- What can be seen of a station. -/
structure StationView where
  stored : List (SessionId × Nat)
  broadcasts : Nat
  session : Option Session.View
deriving DecidableEq

/-- A message that a node sent. -/
structure Posted where
  source : Nat
  out : Outbound
  isDelivered : Bool

/-- What a step answers. -/
inductive Answer where
  | refused (reason : Refusal)
  | failed (e : Error)
  | done
  | flag (b : Bool)
  | time (t : UInt64)
  | posted (out : List (Nat × Outbound))
  | begun (id : SessionId) (out : List (Nat × Outbound))
  | deliveries (results : List (Nat × Answer))
  | ledgerFailure (e : Option EscrowMix.Ledger.Error)
  | ledgerCalls (asked : List EscrowMix.Ledger.Query)
  | amount (a : Amount)
  | report (r : Session.Report)
  | full (s : Session)
  | swept (outcomes : List SweepOutcome)
  | session (id : Option SessionId)
  | evicted (id : Option SessionId)
  | broadcasts (txs : List Bytes)
  | signed (tx : Bytes) (count : UInt8)
  | bytes (bs : Option Bytes)

/-- How a step ended: its answer, the steps that ran inside it, and the stations that look different
since they were last looked at. -/
inductive Ended where
  | mk (answer : Answer) (nested : List Ended) (changes : List (Nat × StationView))

/-- The network. -/
structure World where
  stations : List Station
  ledger : Ledger
  clock : UInt64
  disconnected : List PeerId
  /-- The bytes of the next fresh identifiers. -/
  seeds : List UInt8
  /-- The number of fresh identifiers so far. -/
  drawn : Nat
  posted : List Posted
  /-- The session begun last. -/
  lastBegun : Option SessionId
  /-- The stations as they were last looked at. -/
  shown : List (Option StationView)
  /-- The logs as they were last looked at. -/
  logs : List ((Nat × SessionId) × List LogEntry)

namespace World

/-- The time at which a simulation begins, unless another is given. -/
def epoch : UInt64 := 1650000000

/-- The network of nodes with these parameters. -/
def start (configs : List Config) (clock : UInt64) (seeds : List UInt8) : Except Error World := do
  let nodes ← configs.mapM Node.start
  return {
    stations := nodes.map (⟨·, [], .new, .new, []⟩)
    ledger := .empty
    clock := clock
    disconnected := []
    seeds := seeds
    drawn := 0
    posted := []
    lastBegun := none
    shown := nodes.map fun _ => none
    logs := [] }

/-- The time after so many seconds more. The clock stops at the last time that it can show. -/
def later (time seconds : UInt64) : UInt64 :=
  UInt64.ofNat (min (time.toNat + seconds.toNat) (UInt64.size - 1))

/-- The random bytes of the `n`-th fresh identifier, counted from zero: the seed given for it, or
its number. -/
def randomBytes (seeds : List UInt8) (n : Nat) : FixedBytes 16 :=
  .replicate 16 (seeds[n]?.getD (UInt8.ofNat (n + 1)))

/-- Draws a fresh identifier. -/
def draw (w : World) : SessionId × World :=
  (.ofRandom (randomBytes w.seeds w.drawn), { w with drawn := w.drawn + 1 })

/-- Changes a station. -/
def atStation (w : World) (i : Nat) (f : Station → Station) : World :=
  { w with stations := w.stations.modify i f }

/-- What a locked step of a node sees. -/
def surroundings (w : World) : Node.Surroundings :=
  ⟨w.clock, fun peer => !w.disconnected.contains peer⟩

/-- Takes the steps that are kept for a moment, out of the station. -/
def takeKept (w : World) (i : Nat) (m : Moment) : List Step × World :=
  match w.stations[i]? with
  | none => ([], w)
  | some station =>
    ((station.kept.lookup m).getD [],
      w.atStation i fun station => { station with kept := station.kept.filter (·.1 ≠ m) })

/-! ### Looking at stations -/

/-- A station as it looks, given the logs as they were last looked at. -/
def viewOf (logs : List ((Nat × SessionId) × List LogEntry)) (i : Nat) (station : Station) :
    StationView where
  stored := station.store.memory.entries.map fun (id, bytes) => (id, bytes.length)
  broadcasts := station.wallet.broadcasts.length
  session := station.node.directory.activeSession.map fun s =>
    s.view ((logs.lookup (i, s.id)).getD [])

/-- A view without the lines of the log, which are news by nature. -/
def withoutNews (v : StationView) : StationView :=
  { v with session := v.session.map fun s => { s with logNew := [] } }

/-- The log of a session, put in place of the one that was last looked at. -/
def keepLog (logs : List ((Nat × SessionId) × List LogEntry)) (i : Nat) (s : Session) :
    List ((Nat × SessionId) × List LogEntry) :=
  ((i, s.id), s.log) :: logs.filter (·.1 ≠ (i, s.id))

/-- Looks at all stations, and tells which of them look different since they were last looked at.
The logs of all active sessions are looked at, also where nothing but the log is new. -/
def look (w : World) : List (Nat × StationView) × World :=
  let stations := w.stations.zipIdx
  let views := stations.map fun (station, i) => viewOf w.logs i station
  let logs := stations.foldl (fun logs (station, i) =>
    station.node.directory.activeSession.elim logs (keepLog logs i)) w.logs
  let news := (views.zip w.shown).zipIdx.filterMap fun ((v, shown), i) =>
    if shown = some (withoutNews v) then none else some (i, v)
  (news, { w with shown := views.map fun v => some (withoutNews v), logs := logs })

/-! ### Commands -/

/-- A world in which a command runs, with the steps that ran inside it so far. -/
structure Running where
  world : World
  nested : List Ended

/-- Runs the steps that are kept for a moment. -/
def runKept (runSteps : List Step → World → List Ended × World) (i : Nat) (m : Moment)
    (r : Running) : Running :=
  let (steps, w) := r.world.takeKept i m
  let (nested, w) := runSteps steps w
  ⟨w, r.nested ++ nested⟩

/-- Asks the store of a station. -/
def askStore (i : Nat) (q : EscrowMix.Store.Request) (w : World) :
    Except EscrowMix.Store.Error q.Value × World :=
  match w.stations[i]? with
  | none => (.error .unavailable, w)
  | some station =>
    let (value, store) := station.store.answer q
    (value, w.atStation i ({ · with store := store }))

/-- Asks the wallet of a station. -/
def askWallet (i : Nat) (q : EscrowMix.Wallet.Request) (w : World) :
    Except EscrowMix.Wallet.Error q.Value × World :=
  match w.stations[i]? with
  | none => (.error .locked, w)
  | some station =>
    let (value, wallet) := station.wallet.answer q
    (value, w.atStation i ({ · with wallet := wallet }))

/-- Asks the ledger. -/
def askLedger (q : EscrowMix.Ledger.Query) (w : World) :
    Except EscrowMix.Ledger.Error q.Value × World :=
  let (value, ledger) := w.ledger.answer q
  (value, { w with ledger := ledger })

/-- The moment before a question to the ledger, if steps can be kept for it. -/
def ledgerMoment? : EscrowMix.Ledger.Query → Option Moment
  | .confirmations _ => some .ledger
  | _ => none

/-- A node of the network. -/
def node (w : World) (n : NodeRef) : Node :=
  match w.stations[n.station]? with
  | some station => station.nodeAfter n.predecessors
  | none => ⟨.standard, .empty .standard⟩

/-- Changes a node. -/
def setNode (w : World) (ref : NodeRef) (n : Node) : World :=
  w.atStation ref.station (·.setNodeAfter ref.predecessors n)

/-- The present node of a station. -/
def presentNode (w : World) (i : Nat) : NodeRef :=
  ⟨i, (w.stations[i]?.map (·.replaced.length)).getD 0⟩

/-- Performs a locked step of a node and hands on what it hands to the store. -/
def performStep (ref : NodeRef) (q : Node.Step) (w : World) : q.Answer × World :=
  let out := (w.node ref).perform w.surroundings q
  (out.answer, out.handed.foldl (fun w request => (askStore ref.station request w).2)
    (w.setNode ref out.node))

/-- Answers a request of a command that runs on a node. -/
def answer (runSteps : List Step → World → List Ended × World) (ref : NodeRef) :
    (q : Node.interface.Request) → Running → Node.interface.Answer q × Running
  | .clock, r => (r.world.clock, r)
  | .freshId, r =>
    let (id, w) := r.world.draw
    (id, { r with world := w })
  | .isConnected peer, r => (r.world.surroundings.isConnected peer, r)
  | .store q, r =>
    let (value, w) := askStore ref.station q r.world
    (value, { r with world := w })
  | .wallet q, r =>
    let r := runKept runSteps ref.station (.wallet (Wallet.methodOf q)) r
    let (value, w) := askWallet ref.station q r.world
    (value, { r with world := w })
  | .ledger q, r =>
    let r := match ledgerMoment? q with
      | some m => runKept runSteps ref.station m r
      | none => r
    let (value, w) := askLedger q r.world
    (value, { r with world := w })
  | .step q, r =>
    let (value, w) := performStep ref q r.world
    (value, { r with world := w })

/-- Numbers the messages that a node sends and keeps them. -/
def post (w : World) (i : Nat) (out : List Outbound) : List (Nat × Outbound) × World :=
  ((List.range' w.posted.length out.length).zip out,
    { w with posted := w.posted ++ out.map (⟨i, ·, false⟩) })

/-- The answer to a command that ended. -/
def conclude (i : Nat) (result : Except Error Node.Reply) (w : World) : Answer × World :=
  match result with
  | .error e => (.failed e, w)
  | .ok (.messages out) =>
    let (posted, w) := w.post i out
    (.posted posted, w)
  | .ok (.started id out) =>
    let (posted, w) := w.post i out
    (.begun id posted, { w with lastBegun := some id })
  | .ok .done => (.done, w)
  | .ok (.amount a) => (.amount a, w)
  | .ok (.report r) => (.report r, w)
  | .ok (.swept outcomes) => (.swept outcomes, w)
  | .ok (.restored id) => (.session id, w)

/-- Runs a command on the present node of a station, which ends it even if it is replaced. -/
def command (runSteps : List Step → World → List Ended × World) (i : Nat) (c : Node.Command)
    (r : Running) : Answer × Running :=
  let ref := r.world.presentNode i
  let (result, r) := (c.program (r.world.node ref).config).run (answer runSteps ref) r
  let (answer, w) := conclude i result r.world
  (answer, { r with world := w })

/-! ### Steps -/

/-- The snapshot that a station keeps of a session. -/
def kept (w : World) (i : Nat) (id : SessionId) : Option Bytes := do
  let station ← w.stations[i]?
  station.store.memory.load id

/-- Keeps bytes, after an edit, in the store of a station. -/
def plant (i : Nat) (as : SessionId) (bytes : Bytes) (edit : Edit) (r : Running) :
    Answer × Running :=
  (.done, { r with world := r.world.atStation i fun station =>
    { station with store := station.store.keep as (edit.apply bytes) } })

/-- Installs a snapshot in the directory of the present node of a station. -/
def installAt (i : Nat) (bytes : Bytes) (r : Running) : Answer × Running :=
  match Session.ofSnapshot bytes with
  | .error e => (.failed e, r)
  | .ok s =>
    let ref := r.world.presentNode i
    let n := r.world.node ref
    match n.directory.install s r.world.clock with
    | .error e => (.failed e, r)
    | .ok ((_, evicted), d) =>
      (.evicted (evicted.map (·.id)),
        { r with world := r.world.setNode ref { n with directory := d } })

/-- Does what a node is told in a step. -/
def act (runSteps : List Step → World → List Ended × World) (i : Nat) (a : Action) (r : Running) :
    Answer × Running :=
  let w := r.world
  let n := w.node (w.presentNode i)
  match a with
  | .refused reason => (.refused reason, r)
  | .command c => command runSteps i c r
  | .about id a =>
    match id <|> w.lastBegun with
    | some id => act runSteps i (a id) r
    | none => (.refused .missing, r)
  | .beside other a =>
    if other < w.stations.length then act runSteps i a r else (.refused .missing, r)
  | .full id =>
    match n.directory.lookup id with
    | .error e => (.failed e, r)
    | .ok slot => (.full (n.directory.session slot), r)
  | .wallet b =>
    (.done, { r with world := w.atStation i fun station =>
      { station with wallet := { station.wallet with behaviour := b } } })
  | .broadcasts => (.broadcasts ((w.stations[i]?.map (·.wallet.broadcasts)).getD []), r)
  | .walletSign tx key =>
    let r := runKept runSteps i (.wallet .sign) r
    match askWallet i (.sign tx key) r.world with
    | (.ok (tx, count), w) => (.signed tx count, { r with world := w })
    | (.error e, w) => (.failed (.wallet e), { r with world := w })
  | .store failures ghosts =>
    (.done, { r with world := w.atStation i fun station =>
      { station with store := { station.store with failures := failures, ghosts := ghosts } } })
  | .plant as bytes edit => plant i as bytes edit r
  | .graft as source id edit =>
    match w.kept source id with
    | none => (.refused .missing, r)
    | some bytes => plant i as bytes edit r
  | .dump id => (.bytes (w.kept i id), r)
  | .restart config =>
    match Node.start (config.getD n.config) with
    | .error e => (.failed e, r)
    | .ok n => (.done, { r with world := w.atStation i (·.replaceNode n) })
  | .install id edit =>
    match w.kept i id with
    | none => (.refused .missing, r)
    | some bytes => installAt i (edit.apply bytes) r

/-- Counts a message as delivered. -/
def markDelivered (w : World) (message : Nat) : World :=
  { w with posted := w.posted.modify message fun posted => { posted with isDelivered := true } }

/-- Hands a message to a node. It counts as delivered whether or not the node exists. -/
def deliver (runSteps : List Step → World → List Ended × World) (message : Nat)
    (target : Option Nat) (r : Running) : Answer × Running :=
  match r.world.posted[message]? with
  | none => (.refused .missing, r)
  | some posted =>
    let r := { r with world := r.world.markDelivered message }
    let i := target.getD posted.out.peer.number.toNat
    if i < r.world.stations.length then
      command runSteps i (.ofMessage ⟨UInt64.ofNat posted.source⟩ posted.out.message) r
    else (.refused .missing, r)

/-- Delivers messages that were not delivered, the earliest first, at most so many. -/
def deliverAll (runSteps : List Step → World → List Ended × World) :
    Nat → Running → List (Nat × Answer) × Running
  | 0, r => ([], r)
  | n + 1, r =>
    match r.world.posted.findIdx? (!·.isDelivered) with
    | none => ([], r)
    | some message =>
      let (answer, r) := deliver runSteps message none r
      let (rest, r) := deliverAll runSteps n r
      ((message, answer) :: rest, r)

end World

mutual

/-- The steps in a step, itself included. -/
def Step.count : Step → Nat
  | .during _ _ steps => 1 + Step.countAll steps
  | _ => 1

/-- The steps in a list. -/
def Step.countAll : List Step → Nat
  | [] => 0
  | step :: steps => step.count + Step.countAll steps

end

namespace World

/-- More messages than can be delivered before none is left: an invitation is answered by two
cancellations at most, any other message by none, and a step that is kept sends four at most. -/
def deliveryBound (w : World) : Nat :=
  3 * w.posted.length + 12 * w.stations.foldr (fun station n =>
    station.kept.foldr (fun (_, steps) n => Step.countAll steps + n) n) 0 + 1

/-- Performs a step, given how steps inside it are run. -/
def perform (runSteps : List Step → World → List Ended × World) (step : Step) (r : Running) :
    Answer × Running :=
  let w := r.world
  match step with
  | .refused reason => (.refused reason, r)
  | .clock set add =>
    let time := later (set.getD w.clock) (add.getD 0)
    (.time time, { r with world := { w with clock := time } })
  | .disconnect peer =>
    (.flag (!w.disconnected.contains peer),
      { r with world := { w with disconnected := peer :: w.disconnected } })
  | .reconnect peer =>
    (.flag (w.disconnected.contains peer),
      { r with world := { w with disconnected := w.disconnected.filter (· ≠ peer) } })
  | .deliver message target => deliver runSteps message target r
  | .deliverAll =>
    let (results, r) := deliverAll runSteps w.deliveryBound r
    (.deliveries results, r)
  | .pay p => (.done, { r with world := { w with ledger := w.ledger.pay p } })
  | .spend o => (.done, { r with world := { w with ledger := w.ledger.spend o } })
  | .ledger failure after =>
    (.ledgerFailure failure,
      { r with world := { w with ledger := { w.ledger with failure := failure, after := after } } })
  | .ledgerCalls =>
    (.ledgerCalls w.ledger.asked,
      { r with world := { w with ledger := { w.ledger with asked := [] } } })
  | .node i a => if i < w.stations.length then act runSteps i a r else (.refused .missing, r)
  | .during i m steps =>
    if i < w.stations.length then
      (.done, { r with world := w.atStation i fun station =>
        { station with kept := (m, steps) :: station.kept.filter (·.1 ≠ m) } })
    else (.refused .missing, r)

/-- Performs a step and looks at the stations. Steps that are kept can run inside one another to the
given depth. -/
def runStep : Nat → Step → World → Ended × World
  | 0, _, w => (.mk (.refused .missing) [] [], w)
  | depth + 1, step, w =>
    let runSteps (steps : List Step) (w : World) : List Ended × World :=
      steps.foldl (fun (ended, w) step =>
        let (e, w) := runStep depth step w
        (ended ++ [e], w)) ([], w)
    let (answer, r) := perform runSteps step ⟨w, []⟩
    let (changes, w) := r.world.look
    (.mk answer r.nested changes, w)

/-- Performs steps in order. Each kept step runs at most once, so they are never more deeply inside
one another than there are steps. -/
def run (steps : List Step) (w : World) : List Ended × World :=
  let depth := Step.countAll steps + 1
  steps.foldl (fun (ended, w) step =>
    let (e, w) := runStep depth step w
    (ended ++ [e], w)) ([], w)

end World

end EscrowMix.Simulation
