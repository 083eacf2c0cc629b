import EscrowMix.Proofs.Session.FundingSteps

/-!
The order of the funding. The keys have to come before the escrow, and the escrow before the own
deposit; any order of the steps that keeps to this is accepted, and all of them lead to the same
session, but for the time of the last activity and the order and times of the lines in its log.
-/

namespace EscrowMix.Session

namespace Funding

/-- The step that a move tries. -/
def Move.step? : Move → Option Step
  | key role _ => some (.key role)
  | escrow .. => some .escrow
  | deposit role _ => some (.deposit role)
  | other .. => none

/-- The steps that are tried, in order. -/
def steps (ms : List Move) : List Step := ms.filterMap Move.step?

section

variable (p : Parts) (own : Role)

/-- The step of a move, if the session accepts it. -/
def Move.accepted? (s : Session) (m : Move) : Option Step :=
  if (m.take p own s).1 then m.step? else none

/-- The steps that a session accepts, in order. -/
def accepted : Session → List Move → List Step
  | _, [] => []
  | s, m :: ms => (m.accepted? p own s).toList ++ accepted (m.take p own s).2 ms

/-- The session that moves lead to. -/
def result (s : Session) (ms : List Move) : Session := ms.foldl (fun s m => (m.take p own s).2) s

/-- A call that is no step is refused, or repeats what was accepted. -/
def Move.isAllowed (done : List Step) (s : Session) : Move → Bool
  | .key .. | .deposit .. => true
  | .escrow now meanwhile _ => refuses (s.perform now .claimMultisig).2 meanwhile
  | .other now c => isRefusal (s.perform now c).1 || repeats p own done c

/-- The moves are those of a funding in which some steps are done. -/
def isFunding (done : List Step) (s : Session) : List Move → Bool
  | [] => true
  | m :: ms => m.isAllowed p own done s &&
    isFunding (done ++ (m.accepted? p own s).toList) (m.take p own s).2 ms

end

variable {p : Parts} {own : Role} {done : List Step} {s t u : Session} {now : UInt64}

/-! ### Runs -/

/-- The steps that have to come before a step are done. -/
def Fits (own : Role) (done : List Step) : Step → Prop
  | .key _ => True
  | .escrow => ∀ r, .key r ∈ done
  | .deposit r => r = own → .escrow ∈ done

/-- Each of the steps comes after those that have to come before it. -/
def Fit (own : Role) (done : List Step) : List Step → Prop
  | [] => True
  | σ :: σs => Fits own done σ ∧ Fit own (done ++ [σ]) σs

/-- What a move does: it takes its step if that fits, and changes nothing else. -/
structure Goes (p : Parts) (own : Role) (s : Session) (done : List Step) (t : Session) (m : Move) :
    Prop where
  reached : Reached p own s (done ++ (m.accepted? p own t).toList) (m.take p own t).2
  fits : ∀ σ, m.step? = some σ → ((m.take p own t).1 = true ↔ Fits own done σ)

theorem goes_of_taken {m : Move} {σ : Step} (hσ : m.step? = some σ)
    (hm : m.take p own t = (true, u)) (hu : Reached p own s (done ++ [σ]) u)
    (hfits : Fits own done σ) : Goes p own s done t m := by
  have haccepted : m.accepted? p own t = some σ := by
    rw [Move.accepted?, hm, hσ]
    rfl
  refine ⟨?_, fun τ hτ => ?_⟩
  · rw [haccepted, hm]
    exact hu
  · obtain rfl := Option.some.inj (hσ.symm.trans hτ)
    rw [hm]
    exact iff_of_true rfl hfits

theorem goes_of_refused {m : Move} {σ : Step} (hσ : m.step? = some σ)
    (hm : m.take p own t = (false, t)) (h : Reached p own s done t)
    (hfits : ¬Fits own done σ) : Goes p own s done t m := by
  have haccepted : m.accepted? p own t = none := by
    rw [Move.accepted?, hm]
    rfl
  refine ⟨?_, fun τ hτ => ?_⟩
  · rw [haccepted, hm, Option.toList_none, List.append_nil]
    exact h
  · obtain rfl := Option.some.inj (hσ.symm.trans hτ)
    rw [hm]
    exact iff_of_false Bool.false_ne_true hfits

theorem Reached.goes (hs : Begun own s) (h : Reached p own s done t) (hp : p.Distinct) {m : Move}
    (ha : m.isAllowed p own done t = true) (hnew : ∀ σ, m.step? = some σ → σ ∉ done) :
    Goes p own s done t m := by
  cases m with
  | key role now =>
    have hrole := hnew (.key role) rfl
    by_cases hr : role = own
    · subst hr
      obtain ⟨u, hu, hreached⟩ := h.takes_ownKey hs hrole now
      exact goes_of_taken rfl hu hreached trivial
    · obtain ⟨u, hu, hreached⟩ := h.takes_peerKey hs hr hrole now
      exact goes_of_taken rfl hu hreached trivial
  | escrow now meanwhile later =>
    by_cases hkeys : ∀ r, .key r ∈ done
    · obtain ⟨u, hu, hreached⟩ := h.takes_escrow hs (hnew .escrow rfl) hkeys now later ha
      exact goes_of_taken rfl hu hreached hkeys
    · exact goes_of_refused rfl (h.refuses_escrow hkeys now meanwhile later) h hkeys
  | deposit role now =>
    have hrole := hnew (.deposit role) rfl
    by_cases hr : role = own
    · subst hr
      by_cases hescrow : .escrow ∈ done
      · obtain ⟨u, hu, hreached⟩ := h.takes_ownDeposit hs hp hrole hescrow now
        exact goes_of_taken rfl hu hreached fun _ => hescrow
      · have hrefused := h.refuses_ownDeposit hescrow now
        exact goes_of_refused rfl hrefused h fun hfits => hescrow (hfits rfl)
    · obtain ⟨u, hu, hreached⟩ := h.takes_peerDeposit hs hp hr hrole now
      exact goes_of_taken rfl hu hreached fun e => absurd e hr
  | other now c =>
    have hnone : (Move.other now c).accepted? p own t = none := by
      unfold Move.accepted?
      split <;> rfl
    refine ⟨?_, nofun⟩
    rw [hnone, Option.toList_none, List.append_nil]
    rcases Bool.or_eq_true_iff.1 ha with hc | hc
    · have hkept : (Move.take p own t (.other now c)).2 = t := perform_isRefusal h.reachable hc
      rw [hkept]
      exact h
    · exact h.repeated hs hc now

theorem accepted_sublist (p : Parts) (own : Role) (t : Session) (ms : List Move) :
    (accepted p own t ms).Sublist (steps ms) := by
  induction ms generalizing t with
  | nil => exact List.Sublist.refl _
  | cons m ms ih =>
    have hrest := ih (m.take p own t).2
    rw [accepted, Move.accepted?, steps, List.filterMap_cons]
    cases m.step? with
    | none => split <;> exact hrest
    | some σ =>
      split
      · exact hrest.cons_cons σ
      · exact hrest.cons σ

/-- A run leads to what its accepted steps lead to, and accepts all of them if each fits. -/
theorem Reached.run (hs : Begun own s) (h : Reached p own s done t) (hp : p.Distinct)
    {ms : List Move} (ha : isFunding p own done t ms = true) (hnodup : (done ++ steps ms).Nodup) :
    Reached p own s (done ++ accepted p own t ms) (result p own t ms) ∧
      (accepted p own t ms = steps ms ↔ Fit own done (steps ms)) := by
  -- the steps done so far carry the session from move to move
  induction ms generalizing t done with
  | nil => exact ⟨(List.append_nil done).symm ▸ h, iff_of_true rfl trivial⟩
  | cons m ms ih =>
    obtain ⟨hm, hrest⟩ := Bool.and_eq_true_iff.1 ha
    have hresult : result p own t (m :: ms) = result p own (m.take p own t).2 ms := rfl
    have haccepted : accepted p own t (m :: ms) =
      (m.accepted? p own t).toList ++ accepted p own (m.take p own t).2 ms := rfl
    cases hσ : m.step? with
    | none =>
      have hsteps : steps (m :: ms) = steps ms := by rw [steps, List.filterMap_cons, hσ, steps]
      have hnone : m.accepted? p own t = none := by simp [Move.accepted?, hσ]
      have hgoes := h.goes hs hp hm (by rw [hσ]; exact nofun)
      rw [hsteps] at hnodup ⊢
      have hreached := hgoes.reached
      rw [hnone, Option.toList_none, List.append_nil] at hreached hrest
      rw [hresult, haccepted, hnone]
      exact ih hreached hrest hnodup
    | some σ =>
      have hsteps : steps (m :: ms) = σ :: steps ms := by rw [steps, List.filterMap_cons, hσ, steps]
      rw [hsteps] at hnodup ⊢
      have hnew : σ ∉ done := fun hin =>
        (List.disjoint_of_nodup_append hnodup) hin List.mem_cons_self
      have hgoes := h.goes hs hp hm fun τ hτ => Option.some.inj (hσ.symm.trans hτ) ▸ hnew
      have hfits := hgoes.fits σ hσ
      have hreached := hgoes.reached
      cases htake : (m.take p own t).1 with
      | true =>
        have hsome : m.accepted? p own t = some σ := by simp [Move.accepted?, htake, hσ]
        rw [hsome, Option.toList_some] at hreached hrest
        rw [hresult, haccepted, hsome, Option.toList_some, List.singleton_append,
          List.append_cons]
        rw [List.append_cons] at hnodup
        obtain ⟨hres, hiff⟩ := ih hreached hrest hnodup
        refine ⟨hres, ?_⟩
        rw [List.cons.injEq, Fit, ← hiff]
        exact and_congr (iff_of_true rfl (hfits.1 htake)) Iff.rfl
      | false =>
        have hnone : m.accepted? p own t = none := by simp [Move.accepted?, htake]
        rw [hnone, Option.toList_none, List.append_nil] at hreached hrest
        rw [hresult, haccepted, hnone, Option.toList_none, List.nil_append]
        have hnodup' : (done ++ steps ms).Nodup :=
          hnodup.sublist (List.Sublist.append_left (List.sublist_cons_self σ _) done)
        -- a step that was refused is missing from then on
        refine ⟨(ih hreached hrest hnodup').1, iff_of_false (fun e => ?_) fun hfit => ?_⟩
        · have hlength := (accepted_sublist p own (m.take p own t).2 ms).length_le
          rw [e, List.length_cons] at hlength
          exact Nat.not_succ_le_self _ hlength
        · exact Bool.false_ne_true (htake.symm.trans (hfits.2 hfit.1))

/-! ### Orders -/

theorem fit_iff_split {order : List Step} : Fit own done order ↔
    ∀ before σ after, order = before ++ σ :: after → Fits own (done ++ before) σ := by
  induction order generalizing done with
  | nil => exact iff_of_true trivial fun before σ after e => by simp at e
  | cons τ order ih =>
    rw [Fit, ih]
    constructor
    · rintro ⟨hτ, hrest⟩ before σ after e
      cases before with
      | nil =>
        obtain ⟨rfl, -⟩ := List.cons.inj e
        rw [List.append_nil]
        exact hτ
      | cons τ' before =>
        obtain ⟨rfl, hrest'⟩ := List.cons.inj e
        rw [List.append_cons]
        exact hrest before σ after hrest'
    · intro h
      refine ⟨?_, fun before σ after e => ?_⟩
      · have hτ := h [] τ order rfl
        rwa [List.append_nil] at hτ
      · rw [← List.append_cons]
        exact h (τ :: before) σ after (congrArg _ e)

theorem mem_of_pair_sublist {α : Type} {a b : α} {before after : List α} (hbefore : b ∉ before)
    (hafter : b ∉ after) (h : [a, b].Sublist (before ++ b :: after)) (hab : a ≠ b) :
    a ∈ before := by
  obtain ⟨l₁, l₂, e, h₁, h₂⟩ := List.sublist_append_iff.1 h
  match l₁, e with
  | [], e =>
    rw [← (show [a, b] = l₂ from e)] at h₂
    cases h₂ with
    | cons _ h₂ => exact absurd (h₂.subset (by simp)) hafter
    | cons_cons => exact absurd rfl hab
  | x :: l₁, e =>
    obtain ⟨rfl, -⟩ := List.cons.inj e
    exact h₁.subset List.mem_cons_self

theorem pair_sublist {α : Type} {a b : α} {before after : List α} (h : a ∈ before) :
    [a, b].Sublist (before ++ b :: after) :=
  (List.singleton_sublist.2 h).append (List.singleton_sublist.2 List.mem_cons_self)

/-- In an order of all steps each fits iff the keys precede the escrow and the escrow precedes the
own deposit. -/
theorem fit_iff {order : List Step} (hnodup : order.Nodup) (hall : ∀ σ, σ ∈ order) :
    Fit own [] order ↔ (∀ r, [.key r, .escrow].Sublist order) ∧
      [.escrow, .deposit own].Sublist order := by
  rw [fit_iff_split]
  constructor
  · intro h
    constructor
    · intro r
      obtain ⟨before, after, rfl⟩ := List.append_of_mem (hall .escrow)
      exact pair_sublist (h before .escrow after rfl r)
    · obtain ⟨before, after, rfl⟩ := List.append_of_mem (hall (.deposit own))
      exact pair_sublist (h before (.deposit own) after rfl rfl)
  · rintro ⟨hkeys, hescrow⟩ before σ after rfl
    obtain ⟨hbefore, hafter⟩ : σ ∉ before ∧ σ ∉ after := by
      have hmiddle := List.nodup_middle.1 hnodup
      simpa using (List.nodup_cons.1 hmiddle).1
    rw [List.nil_append]
    cases σ with
    | key r => trivial
    | escrow => exact fun r => mem_of_pair_sublist hbefore hafter (hkeys r) nofun
    | deposit r =>
      rintro rfl
      exact mem_of_pair_sublist hbefore hafter hescrow nofun

/-- The moves of a funding from its beginning, in which every step is tried once. -/
structure IsOrder (p : Parts) (own : Role) (s : Session) (ms : List Move) : Prop where
  funding : isFunding p own [] s ms = true
  once : (steps ms).Perm Step.all

/-- The sessions are the same, but for the time of the last activity and the order and the times of
the lines in their logs. -/
structure SameButOrder (t u : Session) : Prop where
  same : { u with lastActivity := t.lastActivity, log := t.log } = t
  events : (u.log.map (·.event)).Perm (t.log.map (·.event))

/-- All steps lead to one session. -/
theorem Reached.sameButOrder {done' : List Step} (h : Reached p own s done t)
    (h' : Reached p own s done' u) (hall : done.Perm Step.all) (hall' : done'.Perm Step.all) :
    SameButOrder t u := by
  -- with all steps done, what a session holds no longer depends on them
  have hmem (σ : Step) : σ ∈ done := hall.mem_iff.2 (Step.mem_all σ)
  have hmem' (σ : Step) : σ ∈ done' := hall'.mem_iff.2 (Step.mem_all σ)
  have hstatus : t.status = .depositsObserved :=
    h.status.trans (stage_depositsObserved (hmem _) (hasDeposits_iff.2 fun r => hmem _))
  have hstatus' : u.status = .depositsObserved :=
    h'.status.trans (stage_depositsObserved (hmem' _) (hasDeposits_iff.2 fun r => hmem' _))
  have hparties : t.parties.parties = u.parties.parties := RoleMap.ext_get fun r => by
    rw [h.party, h'.party, partyOf, partyOf, if_pos (hmem _), if_pos (hmem' _)]
  have hdeposits : t.record.deposits = u.record.deposits := RoleMap.ext_get fun r => by
    have hdeposit := (h.deposit r).trans (if_pos (hmem _))
    have hdeposit' := (h'.deposit r).trans (if_pos (hmem' _))
    exact hdeposit.trans hdeposit'.symm
  have hepoch : t.epoch = u.epoch := by
    rw [h.epoch, h'.epoch, hall.length_eq, hall'.length_eq]
  have hescrow : t.escrow = u.escrow := by
    rw [h.escrow, h'.escrow, if_pos (hmem _), if_pos (hmem' _)]
  have hregistry : t.parties = u.parties := by
    have hrole : t.parties.role = u.parties.role := h.role.trans h'.role.symm
    rw [show t.parties = ⟨t.parties.role, t.parties.parties⟩ from rfl, hrole, hparties]
  have hrecord : t.record = u.record := by
    have hrest := h.record.trans h'.record.symm
    generalize t.record = r at hrest hdeposits
    generalize u.record = r' at hrest hdeposits
    cases r
    cases r'
    simp_all
  refine ⟨?_, ?_⟩
  · have hkept := h.kept.trans h'.kept.symm
    cases t
    cases u
    simp_all
  · have hevents := h.events
    have hevents' := h'.events
    rw [hstatus] at hevents
    rw [hstatus'] at hevents'
    have hsteps := ((hall'.trans hall.symm).map (event p own)).append_left (s.log.map (·.event))
    exact hevents'.trans ((hsteps.append_right _).trans hevents.symm)

theorem Step.nodup_all : Step.all.Nodup := by decide

theorem Begun.reached (hs : Begun own s) (hr : Reachable s) : Reached p own s [] s :=
  ⟨hs.holds, hr, hs.status, rfl, nofun, nofun⟩

theorem IsOrder.run {ms : List Move} (h : IsOrder p own s ms) (hs : Begun own s)
    (hr : Reachable s) (hp : p.Distinct) :
    Reached p own s (accepted p own s ms) (result p own s ms) ∧
      (accepted p own s ms = steps ms ↔ Fit own [] (steps ms)) :=
  (hs.reached hr).run hs hp h.funding (h.once.nodup_iff.2 Step.nodup_all)

end Funding

open Funding in
/-- After any successful beginning, let every party's key and deposit and the escrow come in any
order, at any times, with refused calls and repeated announcements in between. All seven steps are
accepted iff the keys precede the escrow and the escrow precedes the own deposit, and then the
session has observed all deposits and is the same for every order. -/
theorem Reachable.funding_in_any_order {s₀ s : Session} (h : Reachable s₀) {c : Call}
    (hc : c.begins = true) {now : UInt64} {a : c.Answer} (hs : s₀.perform now c = (.ok a, s))
    {own : Role} (ho : s.role = some own) (p : Funding.Parts) (hp : p.Distinct) :
    (∀ ms, IsOrder p own s ms → (accepted p own s ms = steps ms ↔
      (∀ r, [Step.key r, .escrow].Sublist (steps ms)) ∧
        [Step.escrow, .deposit own].Sublist (steps ms))) ∧
    (∀ ms, IsOrder p own s ms → accepted p own s ms = steps ms →
      (result p own s ms).status = .depositsObserved) ∧
    ∀ ms ms', IsOrder p own s ms → accepted p own s ms = steps ms →
      IsOrder p own s ms' → accepted p own s ms' = steps ms' →
        SameButOrder (result p own s ms) (result p own s ms') := by
  obtain ⟨own', hbegun⟩ := begun_of_begins h hc hs
  obtain rfl : own = own' := Option.some.inj (ho.symm.trans hbegun.role)
  have hr : Reachable s := h.of_perform (by cases c <;> trivial) hs
  refine ⟨fun ms hms => ?_, fun ms hms hacc => ?_, fun ms ms' hms hacc hms' hacc' => ?_⟩
  · rw [(hms.run hbegun hr hp).2]
    exact fit_iff (hms.once.nodup_iff.2 Step.nodup_all) fun σ =>
      hms.once.mem_iff.2 (Step.mem_all σ)
  · have hreached := (hms.run hbegun hr hp).1
    rw [hacc] at hreached
    have hmem (σ : Step) : σ ∈ steps ms := hms.once.mem_iff.2 (Step.mem_all σ)
    have hdeposits : hasDeposits (steps ms) = true := hasDeposits_iff.2 fun r => hmem _
    exact hreached.status.trans (stage_depositsObserved (hmem _) hdeposits)
  · have hreached := (hms.run hbegun hr hp).1
    have hreached' := (hms'.run hbegun hr hp).1
    rw [hacc] at hreached
    rw [hacc'] at hreached'
    exact hreached.sameButOrder hreached' hms.once hms'.once

namespace Funding.Orderly

open Reclaimed Distributed

/-- What comes to the invited Mixer. -/
def parts : Parts where
  address
    | .sender => ⟨"sender"⟩
    | .mixer => ⟨"mixer"⟩
    | .guarantor => ⟨"guarantor"⟩
  key _ := Reclaimed.key
  peer _ := none
  escrow := ⟨⟨"escrow"⟩, ⟨[]⟩⟩
  deposit role := ⟨⟨.replicate 32 role.tag⟩, 0, ⟨[]⟩⟩

/-- One party after the other. -/
def straight : List Move :=
  [.key .sender 2, .key .mixer 3, .key .guarantor 4, .escrow 5 [] 6, .deposit .sender 7,
    .deposit .mixer 8, .deposit .guarantor 9]

/-- The Sender's deposit comes first of all, its key twice, and the own deposit is refused before
the escrow is there, also while that is derived. -/
def crossed : List Move :=
  let early : Call := .recordOwnDeposit (parts.deposit .mixer)
  [.deposit .sender 2, .key .guarantor 3, .key .sender 4, .key .mixer 5,
    .other 6 (.learnKey .sender ⟨"sender"⟩ Reclaimed.key (some ⟨4⟩)), .other 7 early,
    .escrow 8 [(9, early)] 10, .deposit .guarantor 11, .deposit .mixer 12]

theorem straight_isOrder : IsOrder parts .mixer invited straight :=
  ⟨by decide +kernel, by decide +kernel⟩

theorem crossed_isOrder : IsOrder parts .mixer invited crossed :=
  ⟨by decide +kernel, by decide +kernel⟩

end Funding.Orderly

open Distributed Funding Funding.Orderly in
theorem Reachable.funding_in_any_order_of_mixer :
    accepted parts .mixer invited crossed = steps crossed ∧
      (result parts .mixer invited crossed).status = .depositsObserved ∧
      SameButOrder (result parts .mixer invited straight)
        (result parts .mixer invited crossed) := by
  have hstart : Reachable Reclaimed.start := .fresh ..
  have hs : Reclaimed.start.perform 1 invitation = (.ok (), invited) := Prod.ext rfl rfl
  have hp : parts.Distinct := by
    intro r q h
    cases r <;> cases q <;> first | rfl | exact absurd h (by decide)
  obtain ⟨hiff, hstatus, hsame⟩ := hstart.funding_in_any_order rfl hs rfl parts hp
  have hstraight := (hiff straight straight_isOrder).2
    ⟨fun r => by cases r <;> decide, by decide⟩
  have hcrossed := (hiff crossed crossed_isOrder).2
    ⟨fun r => by cases r <;> decide, by decide⟩
  exact ⟨hcrossed, hstatus crossed crossed_isOrder hcrossed,
    hsame _ _ straight_isOrder hstraight crossed_isOrder hcrossed⟩

end EscrowMix.Session
