import EscrowMix.Address
import EscrowMix.Bytes
import EscrowMix.Codec
import EscrowMix.Coin
import EscrowMix.CommandLine
import EscrowMix.Config
import EscrowMix.Directory
import EscrowMix.Error
import EscrowMix.Escrow
import EscrowMix.Json
import EscrowMix.Json.Error
import EscrowMix.Json.Message
import EscrowMix.Json.Session
import EscrowMix.Json.Terms
import EscrowMix.Json.Text
import EscrowMix.Json.View
import EscrowMix.Keccak
import EscrowMix.Ledger
import EscrowMix.Message
import EscrowMix.Node.Command
import EscrowMix.Node.Step
import EscrowMix.Party
import EscrowMix.Program
import EscrowMix.Proofs.Blank
import EscrowMix.Proofs.Codec
import EscrowMix.Proofs.Codec.Data
import EscrowMix.Proofs.Codec.Form
import EscrowMix.Proofs.Codec.Laws
import EscrowMix.Proofs.Codec.Size
import EscrowMix.Proofs.Directory
import EscrowMix.Proofs.Escrow
import EscrowMix.Proofs.Escrow.Deposits
import EscrowMix.Proofs.Escrow.Rounds
import EscrowMix.Proofs.Except
import EscrowMix.Proofs.Fingerprint
import EscrowMix.Proofs.Network.Agreement
import EscrowMix.Proofs.Network.Run
import EscrowMix.Proofs.Network.Truth
import EscrowMix.Proofs.Node.Admission
import EscrowMix.Proofs.Node.Announcements
import EscrowMix.Proofs.Node.Atomicity
import EscrowMix.Proofs.Node.Broadcast
import EscrowMix.Proofs.Node.Calls
import EscrowMix.Proofs.Node.Commands
import EscrowMix.Proofs.Node.Conduct
import EscrowMix.Proofs.Node.Custody
import EscrowMix.Proofs.Node.Exclusion
import EscrowMix.Proofs.Node.Funding
import EscrowMix.Proofs.Node.Histories
import EscrowMix.Proofs.Node.Interleaving
import EscrowMix.Proofs.Node.Mirror
import EscrowMix.Proofs.Node.Obligations
import EscrowMix.Proofs.Node.Process
import EscrowMix.Proofs.Node.Races
import EscrowMix.Proofs.Node.Restart
import EscrowMix.Proofs.Node.Resumption
import EscrowMix.Proofs.Node.Roles
import EscrowMix.Proofs.Node.Segment
import EscrowMix.Proofs.Node.Sessions
import EscrowMix.Proofs.Node.Signing
import EscrowMix.Proofs.Node.Site
import EscrowMix.Proofs.Node.Slots
import EscrowMix.Proofs.Node.Talk
import EscrowMix.Proofs.Node.Upkeep
import EscrowMix.Proofs.Node.Verification
import EscrowMix.Proofs.Node.Waiting
import EscrowMix.Proofs.Party
import EscrowMix.Proofs.Program
import EscrowMix.Proofs.Reinstallation
import EscrowMix.Proofs.Schedule
import EscrowMix.Proofs.Session.Admitted
import EscrowMix.Proofs.Session.AuditLog
import EscrowMix.Proofs.Session.Broadcast
import EscrowMix.Proofs.Session.Calls
import EscrowMix.Proofs.Session.Consistent
import EscrowMix.Proofs.Session.Defects
import EscrowMix.Proofs.Session.Effects
import EscrowMix.Proofs.Session.Evolution
import EscrowMix.Proofs.Session.Facts
import EscrowMix.Proofs.Session.FundingOrder
import EscrowMix.Proofs.Session.FundingSteps
import EscrowMix.Proofs.Session.InPlace
import EscrowMix.Proofs.Session.Lifecycle
import EscrowMix.Proofs.Session.Outcomes
import EscrowMix.Proofs.Session.Progress
import EscrowMix.Proofs.Session.Readiness
import EscrowMix.Proofs.Session.Renewal
import EscrowMix.Proofs.Session.Rounds
import EscrowMix.Proofs.Session.Snapshot
import EscrowMix.Proofs.Session.Tickets
import EscrowMix.Proofs.Session.Transitions
import EscrowMix.Proofs.Session.WriteOnce
import EscrowMix.Proofs.Session.Written
import EscrowMix.Proofs.Store
import EscrowMix.Proofs.Utf8
import EscrowMix.Proofs.Verdict
import EscrowMix.Proofs.Verification
import EscrowMix.PublicKey
import EscrowMix.Role
import EscrowMix.Schedule
import EscrowMix.Session.Basic
import EscrowMix.Session.Call
import EscrowMix.Session.Funding
import EscrowMix.Session.Reset
import EscrowMix.Session.Setup
import EscrowMix.Session.Signing
import EscrowMix.Session.Snapshot
import EscrowMix.Session.View
import EscrowMix.SessionId
import EscrowMix.Simulation.Edit
import EscrowMix.Simulation.Ledger
import EscrowMix.Simulation.Store
import EscrowMix.Simulation.Wallet
import EscrowMix.Simulation.World
import EscrowMix.Status
import EscrowMix.Store
import EscrowMix.Text.Blank
import EscrowMix.Text.Digits
import EscrowMix.Text.Utf8
import EscrowMix.Verification
import EscrowMix.Wallet
