import EscrowMix.Proofs.Blank
import EscrowMix.Proofs.Codec

/-!
What a reader and a writer owe each other. A reader takes the bytes of its value and never looks
ahead, so what it finds does not depend on what follows, and an input that is cut off is refused as
such. What it takes is what the writer would have written, except for the blanks around an address,
which a reader trims. So beside each reader stands one that finds the texts of the addresses, as they
are in the bytes: two inputs for one value are the same if these texts are.

These laws hold of a type if they hold of its parts; the lemmas below build them up in the way in
which readers are built: one value after the other, a value made of parts or refused, sequences, and
values that may be missing.
-/

namespace EscrowMix

namespace Codec

variable {α β : Type} {r : Reader α} {s : Reader β} {f : α → Reader β} {bs bs' rest rest' : Bytes}
  {a a' : α} {b : β}

/-! ### Readers that do not look ahead -/

/-- A reader takes its value from the front of the input, whatever follows, and refuses an input
because it ends too early or else whatever follows. -/
structure Streams (r : Reader α) : Prop where
  takes : ∀ {bs a rest}, r bs = .ok (a, rest) → ∃ front, bs = front ++ rest ∧ Takes r front a
  fails : ∀ {bs e}, r bs = .error e → e = .endOfInput ∨ ∀ more, r (bs ++ more) = .error e

theorem Takes.unique (h : Takes r bs a) (h' : Takes r bs a') : a = a' :=
  congrArg Prod.fst (Except.ok.inj ((h []).symm.trans (h' [])))

theorem takes_pure_iff {v : α} : Takes (pure v) bs a ↔ bs = [] ∧ a = v := by
  constructor
  · intro h
    have hout : Except.ok (v, bs ++ []) = (Except.ok (a, []) : Except Error _) := h []
    simpa [eq_comm, and_comm] using hout
  · rintro ⟨rfl, rfl⟩
    exact takes_pure a

theorem not_takes_fail {e : Error} : ¬Takes (fail e : Reader α) bs a := fun h => nomatch h []

theorem streams_pure (a : α) : Streams (pure a) where
  takes h := by
    cases h
    exact ⟨[], rfl, takes_pure a⟩
  fails h := nomatch h

theorem streams_fail (e : Error) : Streams (fail e : Reader α) where
  takes h := nomatch h
  fails h := .inr fun _ => h

theorem split?_eq_some {n : Nat} {front : Bytes} (h : split? n bs = some (front, rest)) :
    bs = front ++ rest ∧ front.length = n := by
  induction n generalizing bs front with
  | zero =>
    cases h
    exact ⟨rfl, rfl⟩
  | succ n ih =>
    cases bs with
    | nil => cases h
    | cons b bs =>
      obtain ⟨⟨front', rest'⟩, hsplit, hout⟩ := Option.map_eq_some_iff.1 h
      cases hout
      obtain ⟨rfl, rfl⟩ := ih hsplit
      exact ⟨rfl, rfl⟩

theorem readBlock_eq_ok {n : Nat} {front : Bytes} (h : readBlock n bs = .ok (front, rest)) :
    bs = front ++ rest ∧ front.length = n := by
  unfold readBlock at h
  split at h
  · next hsplit =>
    cases h
    exact split?_eq_some hsplit
  · cases h

theorem streams_readBlock (n : Nat) : Streams (readBlock n) where
  takes h := by
    obtain ⟨hbs, hn⟩ := readBlock_eq_ok h
    exact ⟨_, hbs, takes_readBlock hn⟩
  fails h := by
    unfold readBlock at h
    split at h <;> cases h
    exact .inl rfl

/-- Two readers in a row; the second one may depend on what the first one gave. -/
theorem Streams.bind (hr : Streams r) (hf : ∀ {bs a}, Takes r bs a → Streams (f a)) :
    Streams (r >>= f) where
  takes h := by
    obtain ⟨⟨a, mid⟩, hra, hfa⟩ := bind_eq_ok.1 h
    obtain ⟨front, rfl, ht⟩ := hr.takes hra
    obtain ⟨back, rfl, ht'⟩ := (hf ht).takes hfa
    exact ⟨front ++ back, (List.append_assoc ..).symm, ht.bind ht'⟩
  fails {bs e} h := by
    rcases bind_eq_error.1 h with hra | ⟨⟨a, mid⟩, hra, hfa⟩
    · refine (hr.fails hra).imp_right fun hmore more => ?_
      rw [run_bind, hmore]
      rfl
    · obtain ⟨front, rfl, ht⟩ := hr.takes hra
      refine ((hf ht).fails hfa).imp_right fun hmore more => ?_
      rw [run_bind, List.append_assoc, ht]
      exact hmore more

/-- What two readers in a row take is in two parts. -/
theorem Streams.takes_bind (hr : Streams r) (hf : ∀ {bs a}, Takes r bs a → Streams (f a))
    (h : Takes (r >>= f) bs b) :
    ∃ front back a, bs = front ++ back ∧ Takes r front a ∧ Takes (f a) back b := by
  have hall := h []
  rw [List.append_nil] at hall
  obtain ⟨⟨a, mid⟩, hra, hfa⟩ := bind_eq_ok.1 hall
  obtain ⟨front, rfl, ht⟩ := hr.takes hra
  obtain ⟨back, hmid, ht'⟩ := (hf ht).takes hfa
  rw [List.append_nil] at hmid
  exact ⟨front, mid, a, rfl, ht, hmid ▸ ht'⟩

/-- A part of what a value takes is too short. -/
theorem Streams.endOfInput {front : Bytes} (hr : Streams r) (h : Takes r bs a)
    (hp : front <+: bs) (hne : front ≠ bs) : r front = .error .endOfInput := by
  obtain ⟨more, rfl⟩ := hp
  cases hread : r front with
  | error e =>
    rcases hr.fails hread with rfl | hmore
    · rfl
    · have hall := h []
      rw [List.append_nil, hmore] at hall
      cases hall
  | ok out =>
    obtain ⟨a', left⟩ := out
    obtain ⟨front, rfl, ht⟩ := hr.takes hread
    have hall := h []
    rw [List.append_nil, List.append_assoc, ht] at hall
    have hnil : left ++ more = [] := congrArg Prod.snd (Except.ok.inj hall)
    refine absurd ?_ hne
    rw [(List.append_eq_nil_iff.1 hnil).2, List.append_nil]

/-! ### Whole inputs -/

section

variable [Codec α]

theorem Streams.takes_of_decode (hr : Streams (read : Reader α)) (h : decode bs = .ok a) :
    Takes read bs a := by
  unfold decode at h
  split at h
  · cases h
  · next hread =>
    cases h
    obtain ⟨front, rfl, ht⟩ := hr.takes hread
    rwa [List.append_nil]
  · cases h

theorem Takes.trailingBytes (h : Takes read bs a) (hne : rest ≠ []) :
    (Codec.decode (bs ++ rest) : Except Error α) = .error .trailingBytes := by
  obtain ⟨b, bs', rfl⟩ := List.exists_cons_of_ne_nil hne
  rw [Codec.decode, h]

theorem Streams.decode_endOfInput {front : Bytes} (hr : Streams (read : Reader α))
    (h : Takes read bs a) (hp : front <+: bs) (hne : front ≠ bs) :
    (decode front : Except Error α) = .error .endOfInput := by
  rw [decode, hr.endOfInput h hp hne]

end

/-! ### The addresses in an input -/

/-- Reads past a value that holds no address. -/
def skip (r : Reader α) : Reader (List String) := do
  let _ ← r
  return []

/-- The address texts of two parts. -/
def together (x y : Reader (List String)) : Reader (List String) := do return (← x) ++ (← y)

/-- The address texts of `n` values one after the other. -/
def manyTexts (x : Reader (List String)) : Nat → Reader (List String)
  | 0 => return []
  | n + 1 => together x (manyTexts x n)

/-- The address texts of a sequence. -/
def listTexts (x : Reader (List String)) : Reader (List String) := do
  let n : UInt32 ← read
  manyTexts x n.toNat

/-- The address texts of what may be there. -/
def optionTexts (x : Reader (List String)) : Reader (List String) := do
  match (← read : UInt8) with
  | 1 => x
  | _ => return []

/-- No address text is found. -/
def Silent (x : Reader (List String)) : Prop := ∀ bs ts rest, x bs = .ok (ts, rest) → ts = []

variable {x y : Reader (List String)}

theorem Takes.skip (h : Takes r bs a) : Takes (skip r) bs [] := h.last (takes_pure [])

theorem Takes.together {ts us : List String} (h : Takes x bs ts) (h' : Takes y bs' us) :
    Takes (together x y) (bs ++ bs') (ts ++ us) :=
  h.bind (h'.last (takes_pure _))

theorem Silent.bind {z : α → Reader (List String)} (hz : ∀ a, Silent (z a)) :
    Silent (r >>= z) := by
  intro bs ts rest h
  obtain ⟨⟨a, mid⟩, -, h⟩ := bind_eq_ok.1 h
  exact hz a _ _ _ h

theorem silent_nil : Silent (pure []) := by
  intro bs ts rest h
  cases h
  rfl

theorem silent_skip (r : Reader α) : Silent (skip r) := .bind fun _ => silent_nil

theorem Silent.together (hx : Silent x) (hy : Silent y) : Silent (together x y) := by
  intro bs ts rest h
  obtain ⟨⟨ts₁, mid⟩, h₁, h⟩ := bind_eq_ok.1 h
  obtain ⟨⟨ts₂, mid'⟩, h₂, h⟩ := bind_eq_ok.1 h
  cases h
  rw [hx _ _ _ h₁, hy _ _ _ h₂]
  rfl

theorem Silent.many (hx : Silent x) (n : Nat) : Silent (manyTexts x n) := by
  induction n with
  | zero => exact silent_nil
  | succ n ih => exact hx.together ih

theorem Silent.list (hx : Silent x) : Silent (listTexts x) := .bind fun n => hx.many n.toNat

theorem Silent.option (hx : Silent x) : Silent (optionTexts x) := .bind fun tag => by
  split
  · exact hx
  · exact silent_nil

/-! ### Readers and writers that match -/

/-- A reader and a writer match, where `x` finds the address texts in what is read: the values that
fit are read back, only such values are read, and all that bytes for the same value can differ in
is the padding of the addresses. -/
structure Matches (r : Reader α) (w : α → Bytes) (x : Reader (List String)) (fits : α → Prop) :
    Prop where
  streams : Streams r
  back : ∀ {a}, fits a → Takes r (w a) a
  fits_of_takes : ∀ {bs a}, Takes r bs a → fits a
  respelled : ∀ {bs bs' a}, Takes r bs a → Takes r bs' a → ∃ ts ts', Takes x bs ts ∧
    Takes x bs' ts' ∧ ts.map Text.trim = ts'.map Text.trim ∧ (ts = ts' → bs = bs')
  trimmed : ∀ {a}, fits a → ∃ ts, Takes x (w a) ts ∧ ∀ t ∈ ts, Text.Trimmed t

variable {w : α → Bytes} {v : β → Bytes} {fits : α → Prop} {fits' : β → Prop}

/-- Without addresses the bytes of a value are all the same. -/
theorem Matches.of_only (hs : Streams r) (hb : ∀ {a}, fits a → Takes r (w a) a)
    (ho : ∀ {bs a}, Takes r bs a → fits a ∧ bs = w a) : Matches r w (skip r) fits where
  streams := hs
  back := hb
  fits_of_takes h := (ho h).1
  respelled h h' := ⟨[], [], h.skip, h'.skip, rfl, fun _ => (ho h).2.trans (ho h').2.symm⟩
  trimmed h := ⟨[], (hb h).skip, nofun⟩

theorem Matches.only (h : Matches r w x fits) (hx : Silent x) (ht : Takes r bs a) : bs = w a := by
  obtain ⟨ts, ts', hts, hts', -, heq⟩ := h.respelled ht (h.back (h.fits_of_takes ht))
  refine heq ?_
  rw [hx _ _ _ (hts []), hx _ _ _ (hts' [])]

/-- Nothing is lost by reading past a value without addresses. -/
theorem Matches.skipped (h : Matches r w x fits) (hx : Silent x) : Matches r w (skip r) fits :=
  .of_only h.streams h.back fun ht => ⟨h.fits_of_takes ht, h.only hx ht⟩

theorem Matches.congr {w' : α → Bytes} {fits' : α → Prop} (h : Matches r w x fits)
    (hw : ∀ a, fits a → w a = w' a) (hfits : ∀ a, fits a ↔ fits' a) : Matches r w' x fits' where
  streams := h.streams
  back {a} ha := by
    have hfit := (hfits a).2 ha
    exact hw a hfit ▸ h.back hfit
  fits_of_takes ht := (hfits _).1 (h.fits_of_takes ht)
  respelled := h.respelled
  trimmed {a} ha := by
    have hfit := (hfits a).2 ha
    exact hw a hfit ▸ h.trimmed hfit

theorem matches_pure (a : α) : Matches (pure a) (fun _ => []) (pure []) (· = a) where
  streams := streams_pure a
  back h := takes_pure_iff.2 ⟨rfl, h⟩
  fits_of_takes h := (takes_pure_iff.1 h).2
  respelled h h' := by
    obtain ⟨rfl, -⟩ := takes_pure_iff.1 h
    obtain ⟨rfl, -⟩ := takes_pure_iff.1 h'
    exact ⟨[], [], takes_pure _, takes_pure _, rfl, fun _ => rfl⟩
  trimmed _ := ⟨[], takes_pure _, nofun⟩

theorem matches_fail (e : Error) (w : α → Bytes) (x : Reader (List String)) (hfits : ∀ a, ¬fits a) :
    Matches (fail e) w x fits where
  streams := streams_fail e
  back h := absurd h (hfits _)
  fits_of_takes h := absurd h not_takes_fail
  respelled h := absurd h not_takes_fail
  trimmed h := absurd h (hfits _)

/-! ### Values in a row -/

/-- Two values one after the other. -/
def both (r : Reader α) (s : Reader β) : Reader (α × β) := do return (← r, ← s)

theorem Streams.both (hr : Streams r) (hs : Streams s) : Streams (both r s) :=
  hr.bind fun _ => hs.bind fun _ => streams_pure _

theorem Takes.both (hr : Takes r bs a) (hs : Takes s bs' b) : Takes (both r s) (bs ++ bs') (a, b) :=
  hr.bind (hs.last (takes_pure _))

theorem Streams.takes_both (hr : Streams r) (hs : Streams s) (h : Takes (Codec.both r s) bs (a, b)) :
    ∃ front back, bs = front ++ back ∧ Takes r front a ∧ Takes s back b := by
  obtain ⟨front, _, a', rfl, ha, h⟩ := hr.takes_bind (fun _ => hs.bind fun _ => streams_pure _) h
  obtain ⟨back, _, b', rfl, hb, h⟩ := hs.takes_bind (fun _ => streams_pure _) h
  obtain ⟨rfl, hpair⟩ := takes_pure_iff.1 h
  cases hpair
  exact ⟨front, back, by rw [List.append_nil], ha, hb⟩

theorem Matches.both (hr : Matches r w x fits) (hs : Matches s v y fits') :
    Matches (both r s) (fun p => w p.1 ++ v p.2) (together x y) (fun p => fits p.1 ∧ fits' p.2) where
  streams := hr.streams.both hs.streams
  back h := (hr.back h.1).both (hs.back h.2)
  fits_of_takes h := by
    obtain ⟨_, _, -, ha, hb⟩ := hr.streams.takes_both hs.streams h
    exact ⟨hr.fits_of_takes ha, hs.fits_of_takes hb⟩
  respelled h h' := by
    obtain ⟨_, _, rfl, ha, hb⟩ := hr.streams.takes_both hs.streams h
    obtain ⟨_, _, rfl, ha', hb'⟩ := hr.streams.takes_both hs.streams h'
    obtain ⟨ts, ts', ht, ht', htrim, heq⟩ := hr.respelled ha ha'
    obtain ⟨us, us', hu, hu', hutrim, hueq⟩ := hs.respelled hb hb'
    refine ⟨_, _, ht.together hu, ht'.together hu', ?_, fun hall => ?_⟩
    · rw [List.map_append, List.map_append, htrim, hutrim]
    · have hlen : ts.length = ts'.length := by simpa using congrArg List.length htrim
      obtain ⟨hts, hus⟩ := List.append_inj hall hlen
      rw [heq hts, hueq hus]
  trimmed h := by
    obtain ⟨ts, ht, htrim⟩ := hr.trimmed h.1
    obtain ⟨us, hu, hutrim⟩ := hs.trimmed h.2
    exact ⟨_, ht.together hu, fun t hmem => (List.mem_append.1 hmem).elim (htrim t) (hutrim t)⟩

/-- A value made of what was read, or refused. -/
theorem Matches.refine (h : Matches r w x fits) (hs : s = r >>= f)
    (hback : ∀ {b}, fits' b → Takes s (v b) b)
    (hf : ∀ a, fits a → (∃ b, f a = pure b ∧ fits' b ∧ v b = w a) ∨ ∃ e, f a = fail e) :
    Matches s v x fits' := by
  subst hs
  have hstreams : ∀ {bs a}, Takes r bs a → Streams (f a) := fun {bs a} ht => by
    obtain ⟨b, hb, -⟩ | ⟨e, he⟩ := hf a (h.fits_of_takes ht)
    · exact hb ▸ streams_pure b
    · exact he ▸ streams_fail e
  -- A value is made of one that was read, from the same bytes.
  have hmade : ∀ {bs b}, Takes (r >>= f) bs b →
      ∃ a, Takes r bs a ∧ fits a ∧ f a = pure b ∧ fits' b ∧ v b = w a := fun {bs b} ht => by
    obtain ⟨front, back, a, rfl, ha, hb⟩ := h.streams.takes_bind hstreams ht
    have hfit := h.fits_of_takes ha
    obtain ⟨b', hpure, hfit', hw⟩ | ⟨e, he⟩ := hf a hfit
    · rw [hpure] at hb
      obtain ⟨rfl, rfl⟩ := takes_pure_iff.1 hb
      exact ⟨a, by rwa [List.append_nil], hfit, hpure, hfit', hw⟩
    · exact absurd (he ▸ hb) not_takes_fail
  exact {
    streams := h.streams.bind hstreams
    back := hback
    fits_of_takes := fun ht => by
      obtain ⟨_, -, -, -, hfit, -⟩ := hmade ht
      exact hfit
    respelled := fun ht ht' => by
      obtain ⟨a, ha, hfit, -, -, hw⟩ := hmade ht
      obtain ⟨a', ha', hfit', -, -, hw'⟩ := hmade ht'
      obtain rfl : a = a' := (h.back hfit).unique ((hw.symm.trans hw') ▸ h.back hfit')
      exact h.respelled ha ha'
    trimmed := fun hb => by
      obtain ⟨a, -, hfit, -, -, hw⟩ := hmade (hback hb)
      exact hw ▸ h.trimmed hfit }

/-- A value made of what was read, and of nothing else. -/
theorem Matches.made (h : Matches r w x fits) (g : α → β) (hs : s = r >>= fun a => pure (g a))
    (hg : ∀ a, fits a → fits' (g a) ∧ v (g a) = w a) (hfrom : ∀ b, fits' b → ∃ a, fits a ∧ g a = b) :
    Matches s v x fits' := by
  subst hs
  refine h.refine rfl (fun {b} hb => ?_) fun a ha => .inl ⟨g a, rfl, hg a ha⟩
  obtain ⟨a, ha, rfl⟩ := hfrom b hb
  rw [(hg a ha).2]
  exact (h.back ha).last (takes_pure _)

/-- A first value without addresses on which the rest depends. -/
theorem Matches.after {z : α → Reader (List String)} (key : β → α) (hr : Matches r w (skip r) fits)
    (hf : ∀ a, fits a → Matches (f a) v (z a) fun b => fits' b ∧ key b = a)
    (hkey : ∀ b, fits' b → fits (key b)) :
    Matches (r >>= f) (fun b => w (key b) ++ v b) (r >>= z) fits' := by
  have hstreams : ∀ {bs a}, Takes r bs a → Streams (f a) := fun {bs a} ht =>
    (hf a (hr.fits_of_takes ht)).streams
  have hparts : ∀ {bs b}, Takes (r >>= f) bs b →
      ∃ back, bs = w (key b) ++ back ∧ fits (key b) ∧ Takes (f (key b)) back b ∧ fits' b :=
    fun {bs b} ht => by
      obtain ⟨front, back, a, rfl, ha, hb⟩ := hr.streams.takes_bind hstreams ht
      have hfit := hr.fits_of_takes ha
      obtain ⟨hfit', rfl⟩ := (hf a hfit).fits_of_takes hb
      exact ⟨back, by rw [hr.only (silent_skip r) ha], hfit, hb, hfit'⟩
  exact {
    streams := hr.streams.bind hstreams
    back := fun {b} hb => (hr.back (hkey b hb)).bind ((hf _ (hkey b hb)).back ⟨hb, rfl⟩)
    fits_of_takes := fun ht => by
      obtain ⟨_, -, -, -, hfit⟩ := hparts ht
      exact hfit
    respelled := fun {bs bs' b} ht ht' => by
      obtain ⟨back, rfl, hfit, hb, -⟩ := hparts ht
      obtain ⟨back', rfl, -, hb', -⟩ := hparts ht'
      obtain ⟨ts, ts', hts, hts', htrim, heq⟩ := (hf _ hfit).respelled hb hb'
      have hfirst := hr.back hfit
      exact ⟨ts, ts', hfirst.bind hts, hfirst.bind hts', htrim, fun h => by rw [heq h]⟩
    trimmed := fun {b} hb => by
      obtain ⟨ts, hts, htrim⟩ := (hf _ (hkey b hb)).trimmed ⟨hb, rfl⟩
      exact ⟨ts, (hr.back (hkey b hb)).bind hts, htrim⟩ }

/-! ### Values without addresses -/

/-- A reader and a writer match, and nothing that is read is an address. -/
def Exact (r : Reader α) (w : α → Bytes) (fits : α → Prop) : Prop := Matches r w (skip r) fits

theorem Matches.exact (h : Matches r w x fits) (hx : Silent x) : Exact r w fits := h.skipped hx

theorem Exact.both (hr : Exact r w fits) (hs : Exact s v fits') :
    Exact (both r s) (fun p => w p.1 ++ v p.2) (fun p => fits p.1 ∧ fits' p.2) :=
  (Matches.both hr hs).exact ((silent_skip r).together (silent_skip s))

theorem Exact.refine (h : Exact r w fits) (hs : s = r >>= f)
    (hback : ∀ {b}, fits' b → Takes s (v b) b)
    (hf : ∀ a, fits a → (∃ b, f a = pure b ∧ fits' b ∧ v b = w a) ∨ ∃ e, f a = fail e) :
    Exact s v fits' :=
  (Matches.refine h hs hback hf).exact (silent_skip r)

theorem Exact.made (h : Exact r w fits) (g : α → β) (hs : s = r >>= fun a => pure (g a))
    (hg : ∀ a, fits a → fits' (g a) ∧ v (g a) = w a) (hfrom : ∀ b, fits' b → ∃ a, fits a ∧ g a = b) :
    Exact s v fits' :=
  (Matches.made h g hs hg hfrom).exact (silent_skip r)

theorem Exact.after (key : β → α) (hr : Exact r w fits)
    (hf : ∀ a, fits a → Exact (f a) v fun b => fits' b ∧ key b = a)
    (hkey : ∀ b, fits' b → fits (key b)) : Exact (r >>= f) (fun b => w (key b) ++ v b) fits' :=
  (Matches.after key hr hf hkey).exact (.bind fun a => silent_skip (f a))

end Codec

end EscrowMix
