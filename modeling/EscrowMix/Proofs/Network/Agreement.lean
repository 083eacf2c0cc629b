import EscrowMix.Proofs.Network.Truth
import EscrowMix.Proofs.Node.Signing

/-!
The parties of a session agree. Whatever happens in a network, there is a truth about its sessions
that all of them fit, and two sessions that fit the same truth cannot differ.
-/

namespace EscrowMix

open Network (Takes Step)

namespace Truth

variable {T T' : Truth} {net net' : Network} {i : Nat} {m : Moment} {slot : Slot}
  {rest : List PeerMessage}

/-- The truth about a network. -/
structure Describes (T : Truth) (net : Network) : Prop where
  sessions : ∀ p s, net.session? p = some s → s.status ≠ .notBegun → T.Fits p s
  mail : T.Covers net.mail
  /-- Terms are set under identifiers that were drawn. -/
  drawn : ∀ id, id ∉ net.drawn → T.terms id = none
  /-- Roles are played under terms that were set. -/
  seated : ∀ id role, T.terms id = none → T.seat id role = none
  /-- Facts are said by roles that are played. -/
  spoken : ∀ id role τ, T.seat id role = none → τ.owner? = some role → T.said id τ = none

theorem describes_start (configs : List Config) : empty.Describes (.start configs) where
  sessions p s hs hst := by
    obtain ⟨w, hw, rfl⟩ := Option.map_eq_some_iff.1 hs
    obtain ⟨config, -, rfl⟩ := List.mem_map.1 (List.mem_of_getElem? hw)
    exact absurd rfl hst
  mail := ⟨fun _ hm => absurd hm List.not_mem_nil, List.nodup_nil⟩
  drawn _ _ := rfl
  seated _ _ _ := rfl
  spoken _ _ _ _ _ := rfl

/-- After a moment every session fits, if the one that it is about does, and the truth did not change
for the others. -/
theorem Describes.sessions_after (hd : T.Describes net) (hi : net.nodes[i]? = some m.before)
    (hself : (m.after.session slot).status ≠ .notBegun → T'.Fits (i, slot) (m.after.session slot))
    (hrest : ∀ slot', slot' ≠ slot → (m.before.session slot').Quiet (m.after.session slot'))
    (hother : ∀ q t, q ≠ (i, slot) → T.Fits q t → T'.Fits q t) :
    ∀ p s, (net.after i m rest).session? p = some s → s.status ≠ .notBegun → T'.Fits p s := by
  rintro ⟨j, slot'⟩ s hs hst
  rw [Network.session?_after hi] at hs
  split at hs
  · next he =>
    subst he
    cases hs
    by_cases hslot : slot' = slot
    · subst hslot
      exact hself hst
    · refine hother _ _ (fun e => hslot (congrArg Prod.snd e)) ?_
      exact Fits.quiet (hd.sessions _ _ (Network.session?_before hi slot')) (hrest slot' hslot) hst
  · next he => exact hother _ _ (fun e => he (congrArg Prod.fst e)) (hd.sessions _ _ hs hst)

/-- What is posted of a session that fits is true. -/
theorem Fits.posted {p : Seat} {s : Session} {out : List PeerMessage}
    (h : s.status ≠ .notBegun → T.Fits p s)
    (hout : ∀ msg ∈ out, msg.isNotice = true ∨ s.Holds msg) :
    ∀ msg ∈ out, T.Backs msg ∧ msg.invitation? = none := by
  intro msg hm
  rcases hout msg hm with hn | hh
  · exact ⟨.of_notice hn, not_invitation_of_notice hn⟩
  · exact (h hh.1).backs hh

/-- A session goes on, and nothing new is said. -/
theorem Describes.heard (hd : T.Describes net) (hi : net.nodes[i]? = some m.before)
    (hmail : Takes net.mail m rest)
    (hself : (m.after.session slot).status ≠ .notBegun → T.Fits (i, slot) (m.after.session slot))
    (hrest : ∀ slot', slot' ≠ slot → (m.before.session slot').Quiet (m.after.session slot'))
    (hposted : ∀ msg ∈ m.posted, msg.isNotice = true ∨ (m.after.session slot).Holds msg) :
    T.Describes (net.after i m rest) where
  sessions := hd.sessions_after hi hself hrest fun _ _ _ h => h
  mail := (hd.mail.sublist hmail.sublist).append (Fits.posted hself hposted)
  drawn id hid := hd.drawn id fun h => hid (List.mem_append_left _ h)
  seated := hd.seated
  spoken := hd.spoken

/-- A session goes on and says something. -/
theorem Describes.said (hd : T.Describes net) (hi : net.nodes[i]? = some m.before)
    (hmail : Takes net.mail m rest) {τ : Topic} {msg : PeerMessage}
    (hm : (m.before.session slot).MaySay τ) (hτ : msg.topic? = some τ)
    (hl : (m.before.session slot).Learns (some msg) (m.after.session slot))
    (hrest : ∀ slot', slot' ≠ slot → (m.before.session slot').Quiet (m.after.session slot'))
    (hposted : ∀ msg ∈ m.posted, msg.isNotice = true ∨ (m.after.session slot).Holds msg) :
    (T.say (m.before.session slot).id τ msg).Describes (net.after i m rest) := by
  have hs := hd.sessions _ _ (Network.session?_before hi slot) hl.begun
  have hself := hs.say_self hm hl hτ
  exact {
    sessions := hd.sessions_after hi (fun _ => hself) hrest fun q t hne ht => hs.say_ne hm ht hne
    mail := by
      refine Covers.append ⟨fun msg' hm' => ?_, ?_⟩ (Fits.posted (fun _ => hself) hposted)
      · exact (hd.mail.backs msg' (hmail.sublist.subset hm')).say (hs.maySay τ hm)
      · exact (hd.mail.sublist hmail.sublist).once
    drawn := fun id hid => hd.drawn id fun h => hid (List.mem_append_left _ h)
    seated := hd.seated
    spoken := fun id role τ' hseat hrole => by
      refine (if_neg ?_).trans (hd.spoken id role τ' hseat hrole)
      rintro ⟨rfl, rfl⟩
      obtain ⟨own, ho, hseat'⟩ := hs.seat
      cases ho.symm.trans (hm.role_eq.trans hrole)
      cases hseat.symm.trans hseat' }

/-- A session begins on an invitation. -/
theorem Describes.invited (hd : T.Describes net) (hi : net.nodes[i]? = some m.before)
    (hmail : Takes net.mail m rest) {role : Role} {s : Session} (hs : m.after.session slot = s)
    (hb : s.Begins role) (hheard : m.heard? = some (.invite s.id role s.schedule s.fees))
    (hok : m.succeeds = true)
    (hrest : ∀ slot', slot' ≠ slot → (m.before.session slot').Quiet (m.after.session slot'))
    (hposted : ∀ msg ∈ m.posted, msg.isNotice = true) :
    (T.seated s.id role (i, slot)).Describes (net.after i m rest) := by
  obtain ⟨hterms, hnone⟩ :=
    (hd.mail.backs _ (hmail.mem hheard)).invitation s.id role s.schedule s.fees rfl
  have hself : (T.seated s.id role (i, slot)).Fits (i, slot) s :=
    .begins hb hterms (if_pos ⟨rfl, rfl⟩) fun τ hτ => hd.spoken _ _ τ hnone hτ
  have hused : ∀ msg ∈ rest, msg.invitation? ≠ some (s.id, role) := by
    cases hmail with
    | nothing h => cases h.symm.trans hheard
    | left _ _ h => cases h.symm.trans hok
    | accepted h hm =>
      cases h.symm.trans hheard
      exact (hm ▸ hd.mail).accepted rfl
  exact {
    sessions := hd.sessions_after hi (fun _ => hs ▸ hself) hrest fun q t _ ht => ht.seated_ne hnone
    mail := by
      refine Covers.append ⟨fun msg hm => ?_, (hd.mail.sublist hmail.sublist).once⟩ fun msg hm => ?_
      · exact (hd.mail.backs msg (hmail.sublist.subset hm)).seated (hused msg hm)
      · exact ⟨.of_notice (hposted msg hm), not_invitation_of_notice (hposted msg hm)⟩
    drawn := fun id hid => hd.drawn id fun h => hid (List.mem_append_left _ h)
    seated := fun id role' h => by
      refine (if_neg ?_).trans (hd.seated id role' h)
      rintro ⟨rfl, -⟩
      cases hterms.symm.trans h
    spoken := fun id role' τ h => hd.spoken id role' τ (seat_of_seated h) }

/-- A session begins under an identifier that was drawn for it. -/
theorem Describes.sent (hd : T.Describes net) (hi : net.nodes[i]? = some m.before)
    (hmail : Takes net.mail m rest) (hnodup : (net.drawn ++ m.drawn).Nodup) {s : Session}
    {notices : List PeerMessage} (hs : m.after.session slot = s) (hb : s.Begins .sender)
    (hdrawn : m.drawn = [s.id])
    (hrest : ∀ slot', slot' ≠ slot → (m.before.session slot').Quiet (m.after.session slot'))
    (hnotices : ∀ msg ∈ notices, msg.isNotice = true)
    (hposted : m.posted = notices ++ s.invitations) :
    ((T.agreed s.id s.schedule s.fees).seated s.id .sender (i, slot)).Describes
      (net.after i m rest) := by
  have hfresh : s.id ∉ net.drawn := by
    rw [hdrawn, List.nodup_append] at hnodup
    exact fun h => hnodup.2.2 _ h _ (List.mem_singleton.2 rfl) rfl
  have hterms : T.terms s.id = none := hd.drawn s.id hfresh
  have hseat : ∀ role, T.seat s.id role = none := fun role => hd.seated s.id role hterms
  have hself : ((T.agreed s.id s.schedule s.fees).seated s.id .sender (i, slot)).Fits (i, slot) s :=
    .begins hb (if_pos rfl) (if_pos ⟨rfl, rfl⟩) fun τ hτ => hd.spoken _ _ τ (hseat _) hτ
  have hnew : ∀ msg ∈ rest, ∀ role, msg.invitation? ≠ some (s.id, role) := fun msg hm role he =>
    (hd.mail.backs msg (hmail.sublist.subset hm)).terms_ne he hterms
  exact {
    sessions := hd.sessions_after hi (fun _ => hs ▸ hself) hrest fun q t _ ht =>
      (ht.agreed_ne hterms).seated_ne (hseat _)
    mail := by
      have hrest : ((T.agreed s.id s.schedule s.fees).seated s.id .sender (i, slot)).Covers rest :=
        ⟨fun msg hm => ((hd.mail.backs msg (hmail.sublist.subset hm)).agreed hterms).seated
          (hnew msg hm .sender), (hd.mail.sublist hmail.sublist).once⟩
      have hnotice : ∀ msg ∈ notices, ∀ {T : Truth}, T.Backs msg ∧ msg.invitation? = none :=
        fun msg hm _ => ⟨.of_notice (hnotices msg hm), not_invitation_of_notice (hnotices msg hm)⟩
      rw [Network.after, hposted, ← List.append_assoc]
      refine (hrest.append fun msg hm => hnotice msg hm).invitations (if_pos rfl)
        ((if_neg fun he => absurd he.2 (by decide)).trans (hseat .mixer))
        ((if_neg fun he => absurd he.2 (by decide)).trans (hseat .guarantor)) fun msg hm role => ?_
      rcases List.mem_append.1 hm with hm | hm
      · exact hnew msg hm role
      · rw [(hnotice msg hm (T := T)).2]
        exact (Option.some_ne_none _).symm
    drawn := fun id hid => by
      have hid : id ∉ net.drawn ++ [s.id] := hdrawn ▸ hid
      rw [List.mem_append, List.mem_singleton, not_or] at hid
      exact (if_neg hid.2).trans (hd.drawn id hid.1)
    seated := fun id role h => by
      obtain ⟨hne, h⟩ := terms_of_agreed h
      exact (if_neg fun he => hne he.1).trans (hd.seated id role h)
    spoken := fun id role τ h => hd.spoken id role τ (seat_of_seated h) }

/-- Whatever happens next, there is a truth about it. -/
theorem Describes.step (hd : T.Describes net) (hi : net.nodes[i]? = some m.before)
    (ht : m.Talks) (hmail : Takes net.mail m rest) (hdrawn : (net.drawn ++ m.drawn).Nodup) :
    ∃ T' : Truth, T'.Describes (net.after i m rest) := by
  cases ht with
  | goesOn h hrest hposted =>
    cases h with
    | quiet hq =>
      refine ⟨T, hd.heard hi hmail (fun hst => ?_) hrest hposted⟩
      exact Fits.quiet (hd.sessions _ _ (Network.session?_before hi _)) hq hst
    | tells _ hm hone hl =>
      exact ⟨_, hd.said hi hmail hm (Session.fact?_topic hone).1 hl hrest hposted⟩
    | hears hh hl =>
      refine ⟨T, hd.heard hi hmail (fun _ => ?_) hrest hposted⟩
      refine (hd.sessions _ _ (Network.session?_before hi _) hl.begun).learns hl fun msg τ he hτ => ?_
      cases he
      exact (hd.mail.backs _ (hmail.mem hh)).fact τ hτ
  | invited hs hb hheard hok hrest hposted =>
    exact ⟨_, hd.invited hi hmail hs hb hheard hok hrest hposted⟩
  | sent hs hb hdrawn' hrest hnotices hposted =>
    exact ⟨_, hd.sent hi hmail hdrawn hs hb hdrawn' hrest hnotices hposted⟩

end Truth

/-- In every network there is a truth. -/
theorem Network.Reachable.described {net : Network} (h : net.Reachable) :
    ∃ T : Truth, T.Describes net := by
  induction h with
  | start configs => exact ⟨.empty, Truth.describes_start configs⟩
  | step h hs ih =>
    obtain ⟨T, hd⟩ := ih
    obtain ⟨hi, hm, hmail, hdrawn⟩ := hs
    exact hd.step hi (h.talks hi hm) hmail hdrawn

namespace Session

/-- The distribution has all its signatures. -/
def IsFinal (s : Session) : Prop := s.status = .distTxComplete ∨ s.status = .complete

/-- Two sessions have the same terms, and the same data wherever both have it. -/
structure Concurs (s t : Session) : Prop where
  schedule : t.schedule = s.schedule
  fees : t.fees = s.fees
  terms : t.termsFingerprint = s.termsFingerprint
  requiredCoins : ∀ role, t.requiredCoins (some role) = s.requiredCoins (some role)
  key : ∀ role a k a' k', s.parties.address role = some a → s.parties.key role = some k →
    t.parties.address role = some a' → t.parties.key role = some k' → a' = a ∧ k' = k
  deposit : ∀ role d d', s.record.deposit role = some d → t.record.deposit role = some d' → d' = d
  candidate : ∀ c c', s.record.candidate = some c → t.record.candidate = some c' →
    t.record.signedCount = s.record.signedCount → c' = c
  final : s.IsFinal → t.IsFinal → ∃ c, s.record.candidate = some c ∧ t.record.candidate = some c

/-- A session whose distribution has all its signatures holds it, and counts them. -/
theorem Consistent.final {s : Session} (h : s.Consistent) (hf : s.IsFinal) :
    (∃ c, s.record.candidate = some c) ∧ s.record.signedCount = Escrow.signatureThreshold := by
  rw [← Option.isSome_iff_exists, h.record.candidate, h.record.signedCount]
  rcases hf with hst | hst <;> rw [hst] <;> decide

end Session

/-- What two sessions hold on a topic is the same. -/
theorem Truth.Fits.fact_eq {T : Truth} {p q : Seat} {s t : Session} {τ : Topic}
    {msg msg' : PeerMessage} (hs : T.Fits p s) (ht : T.Fits q t) (hid : t.id = s.id)
    (h : s.fact? τ = some msg) (h' : t.fact? τ = some msg') : msg' = msg := by
  have hsaid := ht.fact τ msg' h'
  rw [hid, hs.fact τ msg h] at hsaid
  exact (Option.some.inj hsaid).symm

/-- Two sessions that fit the same truth cannot differ. -/
theorem Truth.Fits.concurs {T : Truth} {p q : Seat} {s t : Session} (hs : T.Fits p s)
    (ht : T.Fits q t) (hid : t.id = s.id) (hcs : s.Consistent) (hct : t.Consistent) :
    s.Concurs t := by
  have hterms := ht.terms
  rw [hid, hs.terms] at hterms
  obtain ⟨hschedule, hfees⟩ := Prod.mk.inj (Option.some.inj hterms)
  have hcandidate : ∀ c c', s.record.candidate = some c → t.record.candidate = some c' →
      t.record.signedCount = s.record.signedCount → c' = c := by
    intro c c' hc hc' hn
    have hfact := Session.fact?_round hc'
    rw [hn] at hfact
    have he := hs.fact_eq ht hid (Session.fact?_round hc) hfact
    exact (PeerMessage.signatureRound.inj he).2.2
  have hcoins : ∀ (u : Session) (role : Role), u.requiredCoins (some role) =
      (u.fees.requiredCoins role u.schedule).mapError .schedule := fun _ _ => rfl
  exact {
    schedule := hschedule.symm
    fees := hfees.symm
    terms := by rw [Session.termsFingerprint, Session.termsFingerprint, hschedule, hfees]
    requiredCoins := fun role => by rw [hcoins, hcoins, hschedule, hfees]
    key := fun role a k a' k' ha hk ha' hk' => by
      have he := hs.fact_eq ht hid (Session.fact?_key ha hk) (Session.fact?_key ha' hk')
      exact (PeerMessage.addressAndKey.inj he).2.2
    deposit := fun role d d' hd hd' => by
      have he := hs.fact_eq ht hid (Session.fact?_deposit hd) (Session.fact?_deposit hd')
      exact (PeerMessage.depositNotice.inj he).2.2
    candidate := hcandidate
    final := fun hfs hft => by
      obtain ⟨⟨c, hc⟩, hn⟩ := hcs.final hfs
      obtain ⟨⟨c', hc'⟩, hn'⟩ := hct.final hft
      obtain rfl := hcandidate c c' hc hc' (hn'.trans hn.symm)
      exact ⟨c', hc, hc'⟩ }

/-- In every network of nodes, whatever they are told and however late or seldom their messages
arrive, two nodes that hold a session under one identifier agree on it, as soon as it has begun on
both: on the terms, on every key and deposit that both know, and on the distribution of every round
that both reached; once both have all signatures, they have the same distribution. -/
theorem Network.Reachable.agreement {net : Network} (h : net.Reachable) {i j : Nat}
    {id : SessionId} {s t : Session} (hs : net.held? i = some (id, s))
    (ht : net.held? j = some (id, t)) (hbegun : s.status ≠ .notBegun)
    (hbegun' : t.status ≠ .notBegun) : s.Concurs t := by
  obtain ⟨T, hd⟩ := h.described
  obtain ⟨⟨slot, hp⟩, hid, hcs⟩ := h.held hs
  obtain ⟨⟨slot', hq⟩, hid', hct⟩ := h.held ht
  exact (hd.sessions _ _ hp hbegun).concurs (hd.sessions _ _ hq hbegun') (hid'.trans hid.symm)
    hcs hct

/-! ### Three nodes that finish -/

namespace Trio

def sessionId : SessionId := ⟨.replicate 16 9⟩

/-- The address and the key of a role. -/
def address (r : Role) : Address := ⟨r.name⟩
def key : Role → PublicKey :=
  RoleMap.get ⟨SigningMixer.senderKey, SigningMixer.mixerKey, SigningMixer.guarantorKey⟩

/-- The deposit of a role. -/
def deposit (r : Role) : Deposit := ⟨⟨.replicate 32 (r.signingRound + 1)⟩, 0, ⟨[]⟩⟩

/-- The wallets and the ledger do what they are asked. -/
def circumstances : Circumstances where
  surroundings := ⟨5, fun _ => true⟩
  drawn := sessionId
  wallet
    | .deriveMultisig .. => .ok ⟨⟨"escrow"⟩, ⟨[]⟩⟩
    | .build .. => .ok [0]
    | .verify .. => .ok true
    | .sign candidate _ => .ok (candidate ++ [1], UInt8.ofNat candidate.length)
    | .broadcast _ => .ok ()
  ledger
    | .confirmations _ => .ok (1 : UInt32)
    | .output _ => .ok (some ⟨⟨1000000⟩, ⟨[]⟩⟩)
    | .isConfirmedPaying .. => .ok true

/-- A node of each role, in their order, and the connection to it. -/
def peer (r : Role) : PeerId := ⟨UInt64.ofNat (r.index + 1)⟩

/-- The node of a role is told something. -/
def tell (r : Role) (c : Node.Command) : Nat × Turn := (r.index, .tell c)

/-- A job of a node gets several answers. -/
def answers (r : Role) (job n : Nat) : List (Nat × Turn) := .replicate n (r.index, .answer job)

/-- The others get the message of a role. -/
def deliver (r : Role) (msg : PeerMessage) : List (Nat × Turn) :=
  r.others.map fun q => tell q (.ofMessage (peer r) msg)

/-- The terms of the session. -/
def schedule : Schedule := ⟨[⟨⟨"payee"⟩, ⟨100000⟩⟩]⟩

/-- The Sender invites the two others, and all three go through the whole protocol. -/
def turns : List (Nat × Turn) :=
  [tell .sender (.beginSend [⟨"payee"⟩] ⟨100000⟩ .none (peer .mixer) (peer .guarantor)),
    tell .mixer (.ofMessage (peer .sender)
      (.invite sessionId .mixer schedule Config.standard.feePolicy)),
    tell .guarantor (.ofMessage (peer .sender)
      (.invite sessionId .guarantor schedule Config.standard.feePolicy)),
    tell .mixer (.attachPeer sessionId .guarantor (peer .guarantor)),
    tell .guarantor (.attachPeer sessionId .mixer (peer .mixer))] ++
  Role.all.flatMap (fun r => tell r (.setOwnKey sessionId (address r) (key r)) ::
    deliver r (.addressAndKey sessionId r (address r) (key r))) ++
  Role.all.map (fun r => tell r (.deriveMultisig sessionId)) ++
  answers .sender 4 1 ++ answers .mixer 5 1 ++ answers .guarantor 5 1 ++
  Role.all.flatMap (fun r => tell r (.recordOwnDeposit sessionId (deposit r)) ::
    deliver r (.depositNotice sessionId r (deposit r))) ++
  Role.all.map (fun r => tell r (.verifyDeposits sessionId)) ++
  answers .sender 8 9 ++ answers .mixer 9 9 ++ answers .guarantor 9 9 ++
  tell .sender (.contributeSignature sessionId) :: answers .sender 9 1 ++
  deliver .sender (.signatureRound sessionId 0 [0]) ++
  tell .mixer (.contributeSignature sessionId) :: answers .mixer 11 2 ++
  deliver .mixer (.signatureRound sessionId 1 [0, 1]) ++
  tell .guarantor (.contributeSignature sessionId) :: answers .guarantor 12 2 ++
  deliver .guarantor (.signatureRound sessionId 2 [0, 1, 1])

/-- What becomes of three nodes then. -/
def finished : Network :=
  (Network.start (.replicate 3 .standard)).play circumstances turns

end Trio

open Trio in
theorem Network.Reachable.agreement_of_finished :
    ∃ s t, finished.held? 0 = some (sessionId, s) ∧ finished.held? 2 = some (sessionId, t) ∧
      s.status = .distTxComplete ∧ t.status = .distTxComplete ∧ s.Concurs t := by
  have hs : (finished.held? 0).map (fun x => (x.1, x.2.status)) =
    some (sessionId, .distTxComplete) := by decide +kernel
  have ht : (finished.held? 2).map (fun x => (x.1, x.2.status)) =
    some (sessionId, .distTxComplete) := by decide +kernel
  obtain ⟨⟨_, s⟩, hs, hs'⟩ := Option.map_eq_some_iff.1 hs
  obtain ⟨⟨_, t⟩, ht, ht'⟩ := Option.map_eq_some_iff.1 ht
  obtain ⟨rfl, hst⟩ := Prod.mk.inj hs'
  obtain ⟨rfl, hst'⟩ := Prod.mk.inj ht'
  have h : finished.Reachable := (Reachable.start _).play _ _
  exact ⟨s, t, hs, ht, hst, hst', h.agreement hs ht (by rw [hst]; nofun) (by rw [hst']; nofun)⟩

end EscrowMix
