import EscrowMix.Proofs.Network.Run

/-!
The truth about the sessions of a network: the terms under each identifier, the one place where each
role is played, and the one fact that was said on each topic. No node knows it, but whatever a
session holds and a message says is part of it.
-/

namespace EscrowMix

/-- What is true of the sessions so far. -/
structure Truth where
  terms : SessionId → Option (Schedule × FeePolicy)
  seat : SessionId → Role → Option Seat
  said : SessionId → Topic → Option PeerMessage

/-- The session and the role of an invitation. -/
def PeerMessage.invitation? : PeerMessage → Option (SessionId × Role)
  | .invite id role _ _ => some (id, role)
  | _ => none

namespace Truth

variable {T : Truth} {p q : Seat} {s s' t : Session} {id : SessionId} {role : Role} {τ : Topic}
  {msg msg' : PeerMessage} {f : Option PeerMessage}

/-- Before anything happened. -/
def empty : Truth := ⟨fun _ => none, fun _ _ => none, fun _ _ => none⟩

/-- Something is said. -/
def say (T : Truth) (id : SessionId) (τ : Topic) (msg : PeerMessage) : Truth :=
  { T with said := fun id' τ' => if id' = id ∧ τ' = τ then some msg else T.said id' τ' }

/-- A role is played. -/
def seated (T : Truth) (id : SessionId) (role : Role) (p : Seat) : Truth :=
  { T with seat := fun id' role' => if id' = id ∧ role' = role then some p else T.seat id' role' }

theorem seat_of_seated {id' : SessionId} {role' : Role}
    (h : (T.seated id role p).seat id' role' = none) : T.seat id' role' = none := by
  unfold seated at h
  dsimp only at h
  split at h
  · cases h
  · exact h

/-- Terms are set. -/
def agreed (T : Truth) (id : SessionId) (schedule : Schedule) (fees : FeePolicy) : Truth :=
  { T with terms := fun id' => if id' = id then some (schedule, fees) else T.terms id' }

theorem terms_of_agreed {id' : SessionId} {schedule : Schedule} {fees : FeePolicy}
    (h : (T.agreed id schedule fees).terms id' = none) : id' ≠ id ∧ T.terms id' = none := by
  unfold agreed at h
  dsimp only at h
  split at h
  · cases h
  · next hne => exact ⟨hne, h⟩

/-! ### What is true of a session -/

/-- What a session knows is true, and what it may say nobody said. -/
structure Fits (T : Truth) (p : Seat) (s : Session) : Prop where
  terms : T.terms s.id = some (s.schedule, s.fees)
  seat : ∃ own, s.role = some own ∧ T.seat s.id own = some p
  fact : ∀ τ msg, s.fact? τ = some msg → T.said s.id τ = some msg
  maySay : ∀ τ, s.MaySay τ → T.said s.id τ = none

/-- A session learns what is true. -/
theorem Fits.learns (h : T.Fits p s) (hl : s.Learns f s')
    (hf : ∀ msg τ, f = some msg → msg.topic? = some τ → T.said msg.sessionId τ = some msg) :
    T.Fits p s' where
  terms := by
    rw [hl.id, hl.schedule, hl.fees]
    exact h.terms
  seat := by
    rw [hl.role, hl.id]
    exact h.seat
  fact τ msg hτ := by
    obtain ⟨htopic, hid⟩ := Session.fact?_topic hτ
    rcases hl.fact τ msg hτ with hold | hnew
    · rw [hl.id]
      exact h.fact τ msg hold
    · rw [← hid]
      exact hf msg τ hnew htopic
  maySay τ hm := by
    rw [hl.id]
    exact h.maySay τ (hl.maySay τ hm).1

theorem Fits.quiet (h : s.status ≠ .notBegun → T.Fits p s) (hq : s.Quiet s')
    (hst : s'.status ≠ .notBegun) : T.Fits p s' := by
  cases hq with
  | forgets he => exact absurd he hst
  | keeps hl => exact (h hl.begun).learns hl nofun

/-- Two sessions with the same identifier and role are one. -/
theorem Fits.seat_eq (hs : T.Fits p s) (ht : T.Fits q t) (hid : t.id = s.id)
    (hrole : t.role = s.role) : q = p := by
  obtain ⟨own, ho, hp⟩ := hs.seat
  obtain ⟨own', ho', hq⟩ := ht.seat
  cases ho.symm.trans (hrole.symm.trans ho')
  rw [hid, hp] at hq
  exact (Option.some.inj hq).symm

/-- What a session may say on its own topic was said by no other. -/
theorem Fits.say_ne (hs : T.Fits p s) (hm : s.MaySay τ) (ht : T.Fits q t) (hne : q ≠ p) :
    (T.say s.id τ msg).Fits q t where
  terms := ht.terms
  seat := ht.seat
  fact τ' msg' hf := by
    have hsaid := ht.fact τ' msg' hf
    refine (if_neg ?_).trans hsaid
    rintro ⟨hid, rfl⟩
    rw [hid, hs.maySay τ' hm] at hsaid
    cases hsaid
  maySay τ' hm' := by
    refine (if_neg ?_).trans (ht.maySay τ' hm')
    rintro ⟨hid, rfl⟩
    exact hne (hs.seat_eq ht hid (hm'.role_eq.trans hm.role_eq.symm))

theorem Fits.say_self (hs : T.Fits p s) (hm : s.MaySay τ) (hl : s.Learns (some msg) s')
    (hτ : msg.topic? = some τ) : (T.say s.id τ msg).Fits p s' where
  terms := by
    rw [hl.id, hl.schedule, hl.fees]
    exact hs.terms
  seat := by
    rw [hl.role, hl.id]
    exact hs.seat
  fact τ' msg' hf := by
    rw [hl.id]
    rcases hl.fact τ' msg' hf with hold | hnew
    · have hsaid := hs.fact τ' msg' hold
      refine (if_neg ?_).trans hsaid
      rintro ⟨-, rfl⟩
      rw [hs.maySay τ' hm] at hsaid
      cases hsaid
    · cases hnew
      have he : τ' = τ := Option.some.inj ((Session.fact?_topic hf).1.symm.trans hτ)
      exact if_pos ⟨rfl, he⟩
  maySay τ' hm' := by
    rw [hl.id]
    obtain ⟨hmay, hne⟩ := hl.maySay τ' hm'
    refine (if_neg ?_).trans (hs.maySay τ' hmay)
    rintro ⟨-, rfl⟩
    exact hne msg rfl hτ

/-- A role that nobody played yet. -/
theorem Fits.seated_ne (ht : T.Fits q t) (hnone : T.seat id role = none) :
    (T.seated id role p).Fits q t where
  terms := ht.terms
  seat := by
    obtain ⟨own, ho, hq⟩ := ht.seat
    refine ⟨own, ho, (if_neg ?_).trans hq⟩
    rintro ⟨he, rfl⟩
    rw [he, hnone] at hq
    cases hq
  fact := ht.fact
  maySay := ht.maySay

/-- An identifier that nobody used yet. -/
theorem Fits.agreed_ne {schedule : Schedule} {fees : FeePolicy} (ht : T.Fits q t)
    (hnone : T.terms id = none) : (T.agreed id schedule fees).Fits q t where
  terms := by
    refine (if_neg fun he => ?_).trans ht.terms
    have hterms := ht.terms
    rw [he, hnone] at hterms
    cases hterms
  seat := ht.seat
  fact := ht.fact
  maySay := ht.maySay

/-- A session that begins fits if nothing was said in its role. -/
theorem Fits.begins (hb : s.Begins role) (hterms : T.terms s.id = some (s.schedule, s.fees))
    (hseat : T.seat s.id role = some p)
    (hsaid : ∀ τ, τ.owner? = some role → T.said s.id τ = none) : T.Fits p s where
  terms := hterms
  seat := ⟨role, hb.role, hseat⟩
  fact τ _ hf := absurd ((hb.fact τ).symm.trans hf) nofun
  maySay τ hm := hsaid τ (hm.role_eq.symm.trans hb.role)

/-! ### What is true of a message -/

/-- A message says what is true: a fact that was said, or an invitation, under the terms of its
session, to a role that nobody plays yet. -/
structure Backs (T : Truth) (msg : PeerMessage) : Prop where
  fact : ∀ τ, msg.topic? = some τ → T.said msg.sessionId τ = some msg
  invitation : ∀ id role schedule fees, msg = .invite id role schedule fees →
    T.terms id = some (schedule, fees) ∧ T.seat id role = none

theorem Backs.of_notice (h : msg.isNotice = true) : T.Backs msg := by
  cases msg with
  | commit | cancel => exact ⟨nofun, nofun⟩
  | _ => cases h

theorem not_invitation_of_notice (h : msg.isNotice = true) : msg.invitation? = none := by
  cases msg with
  | invite => cases h
  | _ => rfl

/-- Whatever a session holds was said. -/
theorem Fits.backs (h : T.Fits p s) (hh : s.Holds msg) :
    T.Backs msg ∧ msg.invitation? = none := by
  obtain ⟨-, τ, hf⟩ := hh
  obtain ⟨hτ, hid⟩ := Session.fact?_topic hf
  refine ⟨⟨fun τ' hτ' => ?_, ?_⟩, ?_⟩
  · cases hτ.symm.trans hτ'
    rw [hid]
    exact h.fact τ msg hf
  · rintro id role schedule fees rfl
    cases hτ
  · cases msg with
    | invite => cases hτ
    | _ => rfl

theorem Backs.terms_ne (h : T.Backs msg) (he : msg.invitation? = some (id, role)) :
    T.terms id ≠ none := by
  cases msg with
  | invite id' role' schedule fees =>
    cases he
    rw [(h.invitation _ _ schedule fees rfl).1]
    exact nofun
  | _ => cases he

theorem Backs.say (h : T.Backs msg') (hnone : T.said id τ = none) : (T.say id τ msg).Backs msg' where
  fact τ' hτ' := by
    have hsaid := h.fact τ' hτ'
    refine (if_neg ?_).trans hsaid
    rintro ⟨he, rfl⟩
    rw [he, hnone] at hsaid
    cases hsaid
  invitation := h.invitation

theorem Backs.seated (h : T.Backs msg) (hne : msg.invitation? ≠ some (id, role)) :
    (T.seated id role p).Backs msg where
  fact := h.fact
  invitation id' role' schedule fees he := by
    obtain ⟨hterms, hseat⟩ := h.invitation id' role' schedule fees he
    refine ⟨hterms, (if_neg ?_).trans hseat⟩
    rintro ⟨rfl, rfl⟩
    exact hne (congrArg PeerMessage.invitation? he)

theorem Backs.agreed {schedule : Schedule} {fees : FeePolicy} (h : T.Backs msg)
    (hnone : T.terms id = none) : (T.agreed id schedule fees).Backs msg where
  fact := h.fact
  invitation id' role schedule' fees' he := by
    obtain ⟨hterms, hseat⟩ := h.invitation id' role schedule' fees' he
    refine ⟨(if_neg fun hid => ?_).trans hterms, hseat⟩
    rw [hid, hnone] at hterms
    cases hterms

/-- Every message says what is true, and nobody is invited twice. -/
structure Covers (T : Truth) (mail : List PeerMessage) : Prop where
  backs : ∀ msg ∈ mail, T.Backs msg
  once : (mail.filterMap PeerMessage.invitation?).Nodup

theorem Covers.sublist {mail rest : List PeerMessage} (h : T.Covers mail) (hs : rest.Sublist mail) :
    T.Covers rest :=
  ⟨fun msg hm => h.backs msg (hs.subset hm), h.once.sublist (hs.filterMap _)⟩

theorem Covers.append {mail out : List PeerMessage} (h : T.Covers mail)
    (hout : ∀ msg ∈ out, T.Backs msg ∧ msg.invitation? = none) : T.Covers (mail ++ out) where
  backs msg hm := (List.mem_append.1 hm).elim (h.backs msg) fun hm => (hout msg hm).1
  once := by
    have hnil : out.filterMap PeerMessage.invitation? = [] :=
      List.filterMap_eq_nil_iff.2 fun msg hm => (hout msg hm).2
    rw [List.filterMap_append, hnil, List.append_nil]
    exact h.once

/-- Once an invitation is accepted, nobody is invited to that role. -/
theorem Covers.accepted {front back : List PeerMessage} {x : SessionId × Role}
    (h : T.Covers (front ++ msg :: back)) (hx : msg.invitation? = some x) :
    ∀ msg' ∈ front ++ back, msg'.invitation? ≠ some x := by
  have hp : (front ++ msg :: back).Perm (msg :: (front ++ back)) := List.perm_middle
  have hnodup := (hp.filterMap PeerMessage.invitation?).nodup h.once
  rw [List.filterMap_cons, hx, List.nodup_cons] at hnodup
  exact fun msg' hm he => hnodup.1 (List.mem_filterMap.2 ⟨msg', hm, he⟩)

/-- The invitations to a session that nobody knew of. -/
theorem Covers.invitations {mail : List PeerMessage} (h : T.Covers mail)
    (hterms : T.terms s.id = some (s.schedule, s.fees))
    (hmixer : T.seat s.id .mixer = none) (hguarantor : T.seat s.id .guarantor = none)
    (hnew : ∀ msg ∈ mail, ∀ role, msg.invitation? ≠ some (s.id, role)) :
    T.Covers (mail ++ s.invitations) where
  backs msg hm := by
    rcases List.mem_append.1 hm with hm | hm
    · exact h.backs msg hm
    · rcases List.mem_cons.1 hm with rfl | hm
      · refine ⟨nofun, fun id role schedule fees he => ?_⟩
        cases he
        exact ⟨hterms, hmixer⟩
      · obtain rfl := List.mem_singleton.1 hm
        refine ⟨nofun, fun id role schedule fees he => ?_⟩
        cases he
        exact ⟨hterms, hguarantor⟩
  once := by
    have hold : ∀ role, (s.id, role) ∉ mail.filterMap PeerMessage.invitation? := by
      intro role hm
      obtain ⟨msg, hm, he⟩ := List.mem_filterMap.1 hm
      exact hnew msg hm role he
    have hpair : s.invitations.filterMap PeerMessage.invitation? =
      [(s.id, .mixer), (s.id, .guarantor)] := rfl
    rw [List.filterMap_append, hpair, List.nodup_append]
    refine ⟨h.once, by simp, ?_⟩
    rintro x hx y hy rfl
    rcases List.mem_cons.1 hy with rfl | hy
    · exact hold _ hx
    · obtain rfl := List.mem_singleton.1 hy
      exact hold _ hx

end Truth

end EscrowMix
