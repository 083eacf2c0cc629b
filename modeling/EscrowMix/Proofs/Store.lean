import EscrowMix.Store
import Mathlib.Data.List.Induction

/-!
The store in memory keeps its entries in the order of their identifiers, with one entry for each.
Every content in that order can come about, since its entries can be saved one after the other.
-/

namespace EscrowMix

/-! ### The order of identifiers -/

/-- Byte strings are ordered as lists. -/
theorem Bytes.before_iff_lt {a b : Bytes} : Bytes.before a b = true ↔ a < b := by
  induction a generalizing b with
  | nil => cases b <;> simp [Bytes.before]
  | cons x a ih =>
    cases b with
    | nil => simp [Bytes.before]
    | cons y b => simp [Bytes.before, List.cons_lt_cons_iff, ih]

namespace SessionId

variable {a b c : SessionId}

theorem before_irrefl (a : SessionId) : a.before a = false := by
  rw [Bool.eq_false_iff, before, ne_eq, Bytes.before_iff_lt]
  exact List.lt_irrefl _

theorem ne_of_before (h : a.before b = true) : a ≠ b := by
  rintro rfl
  rw [before_irrefl] at h
  cases h

theorem before_trans (hab : a.before b = true) (hbc : b.before c = true) : a.before c = true := by
  rw [before, Bytes.before_iff_lt] at *
  exact List.lt_trans hab hbc

/-- Of two identifiers one comes first. -/
theorem before_of_not_before (h : a.before b = false) (hne : a ≠ b) : b.before a = true := by
  rw [before, Bytes.before_iff_lt]
  rw [Bool.eq_false_iff, before, ne_eq, Bytes.before_iff_lt, List.not_lt] at h
  refine List.not_le.1 fun hle => hne ?_
  obtain ⟨a⟩ := a
  obtain ⟨b⟩ := b
  exact congrArg SessionId.mk (FixedBytes.ext_bytes (List.le_antisymm hle h))

end SessionId

namespace Store.Memory

variable {m : Memory} {id : SessionId} {snapshot : Bytes} {entries es : List (SessionId × Bytes)}

/-! ### The order of the entries -/

/-- The entries stand in the order of their identifiers, with no identifier twice. -/
def Ordered (m : Memory) : Prop := m.entries.Pairwise fun e e' => e.1.before e'.1 = true

instance (m : Memory) : Decidable m.Ordered :=
  inferInstanceAs (Decidable (m.entries.Pairwise fun e e' => e.1.before e'.1 = true))

theorem mem_insertEntry {e : SessionId × Bytes} (h : e ∈ insertEntry id snapshot es) :
    e.1 = id ∨ e ∈ es := by
  induction es with
  | nil => exact .inl (congrArg Prod.fst (List.mem_singleton.1 h))
  | cons e' es ih =>
    unfold insertEntry at h
    split at h <;> try split at h
    all_goals rw [List.mem_cons] at h
    · rcases h with rfl | h
      · exact .inl rfl
      · exact .inr (List.mem_cons_of_mem _ h)
    · rcases h with rfl | h
      · exact .inl rfl
      · exact .inr h
    · rcases h with rfl | h
      · exact .inr List.mem_cons_self
      · exact (ih h).imp_right (List.mem_cons_of_mem _)

theorem insertEntry_ordered (h : es.Pairwise fun e e' => e.1.before e'.1 = true) :
    (insertEntry id snapshot es).Pairwise fun e e' => e.1.before e'.1 = true := by
  induction es with
  | nil => exact List.pairwise_singleton _ _
  | cons e es ih =>
    obtain ⟨hhead, htail⟩ := List.pairwise_cons.1 h
    unfold insertEntry
    split
    · next heq => exact List.pairwise_cons.2 ⟨heq ▸ hhead, htail⟩
    · next hne =>
      split
      · next hbefore =>
        refine List.pairwise_cons.2 ⟨fun e' he' => ?_, h⟩
        rcases List.mem_cons.1 he' with rfl | he'
        · exact hbefore
        · exact SessionId.before_trans hbefore (hhead e' he')
      · next hafter =>
        refine List.pairwise_cons.2 ⟨fun e' he' => ?_, ih htail⟩
        rcases mem_insertEntry he' with heq | he'
        · rw [heq]
          exact SessionId.before_of_not_before (Bool.eq_false_iff.2 hafter) (Ne.symm hne)
        · exact hhead e' he'

theorem empty_ordered : empty.Ordered := List.Pairwise.nil

/-- Whatever a store is asked, it stays in order. -/
theorem Ordered.perform (h : m.Ordered) (q : Request) : (m.perform q).2.Ordered := by
  cases q with
  | save id snapshot => exact insertEntry_ordered h
  | remove id => exact h.filter _
  | load | list => exact h

end Store.Memory

end EscrowMix
