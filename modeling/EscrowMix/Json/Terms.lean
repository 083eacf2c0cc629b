import EscrowMix.Config
import EscrowMix.Json
import EscrowMix.PublicKey

/-!
The JSON forms of the chain's data, of the terms of a session, and of a node's parameters. An
address is taken as it is written, without the checks of its text form, and so is a schedule.
-/

namespace EscrowMix.JsonForm

/-- A role is its name, with the capital. -/
instance : JsonForm Role where
  write r := .text r.name
  read? j := do
    let name ← j.name?
    Role.all.find? (·.name = name)

/-- The values in signing order. -/
instance {α : Type} [JsonForm α] : JsonForm (RoleMap α) where
  write m := write m.values
  read? j := do
    match ← (read? j : Option (List α)) with
    | [sender, mixer, guarantor] => some ⟨sender, mixer, guarantor⟩
    | _ => none

instance : JsonForm Amount := ⟨fun a => write a.sats, fun j => (read? j).map Amount.mk⟩

instance : JsonForm Txid := ⟨fun t => .text t.text, fun j => do Txid.parse? (← read? j)⟩

/-- A script is hexadecimal text. -/
instance : JsonForm Script where
  write s := .text (Hex.encode s.bytes)
  read? j := do return ⟨← Hex.decode? (← read? j)⟩

instance : JsonForm PublicKey := ⟨fun k => .text k.text, fun j => do PublicKey.parse? (← read? j)⟩

instance : JsonForm Address := ⟨fun a => .text a.text, fun j => (read? j).map Address.mk⟩

instance : JsonForm Payout where
  write p := .object [("address", write p.address), ("amount", write p.amount)]
  read? j := do
    let [address, amount] ← j.fields? ["address", "amount"] | none
    return ⟨← read? address, ← read? amount⟩

instance : JsonForm Schedule := ⟨fun s => write s.payouts, fun j => (read? j).map Schedule.mk⟩

instance : JsonForm FeePolicy where
  write f :=
    .object [("fee_per_party", write f.feePerParty), ("mixer_fee_bps", write f.mixerBps),
      ("guarantor_fee_bps", write f.guarantorBps)]
  read? j := do
    let [feePerParty, mixerBps, guarantorBps] ←
      j.fields? ["fee_per_party", "mixer_fee_bps", "guarantor_fee_bps"] | none
    return ⟨← read? feePerParty, ← read? mixerBps, ← read? guarantorBps⟩

/-- Parameters that are not given are those of a node that was given none. -/
instance : JsonForm Config where
  write c :=
    .object [("min_confirmations", write c.minConfirmations),
      ("fee_per_party", write c.feePerParty), ("mixer_fee_bps", write c.mixerBps),
      ("guarantor_fee_bps", write c.guarantorBps), ("max_idle_secs", write c.maxIdleSecs)]
  read? j := do
    let [minConfirmations, feePerParty, mixerBps, guarantorBps, maxIdleSecs] ←
      j.optionalFields? ["min_confirmations", "fee_per_party", "mixer_fee_bps",
        "guarantor_fee_bps", "max_idle_secs"] | none
    let standard := Config.standard
    return {
      minConfirmations := ← Json.readD? standard.minConfirmations minConfirmations
      feePerParty := ← Json.readD? standard.feePerParty feePerParty
      mixerBps := ← Json.readD? standard.mixerBps mixerBps
      guarantorBps := ← Json.readD? standard.guarantorBps guarantorBps
      maxIdleSecs := ← Json.readD? standard.maxIdleSecs maxIdleSecs }

end EscrowMix.JsonForm
