import Mathlib.Data.List.DropRight
import EscrowMix.Address

/-!
Removing the blanks at both ends. What is left neither begins nor ends with a blank, so removing
them again changes nothing, and the address of a text is one that is read back.
-/

namespace EscrowMix

namespace Text

theorem trimChars_eq (cs : List Char) :
    trimChars cs = (cs.dropWhile isBlank).rdropWhile isBlank := rfl

theorem trimChars_sublist (cs : List Char) : (trimChars cs).Sublist cs := by
  rw [trimChars_eq]
  exact (List.rdropWhile_prefix _ _).sublist.trans (List.dropWhile_suffix _).sublist

/-- Removing blanks at the end uncovers none at the beginning. -/
theorem dropWhile_trimChars (cs : List Char) :
    (trimChars cs).dropWhile isBlank = trimChars cs := by
  rw [trimChars_eq, List.dropWhile_eq_self_iff]
  intro hl
  have hprefix := List.rdropWhile_prefix isBlank (cs.dropWhile isBlank)
  have hpos : 0 < (cs.dropWhile isBlank).length := Nat.lt_of_lt_of_le hl hprefix.length_le
  have hfirst := List.dropWhile_eq_self_iff.1 (List.dropWhile_idempotent isBlank cs) hpos
  rwa [List.IsPrefix.getElem hprefix hl]

theorem trimChars_trimChars (cs : List Char) : trimChars (trimChars cs) = trimChars cs := by
  rw [trimChars_eq (trimChars cs), dropWhile_trimChars, trimChars_eq]
  exact List.rdropWhile_idempotent isBlank _

/-- Once trimmed, a text stays as it is. -/
theorem trimmed_trim (s : String) : Trimmed (trim s) := by
  rw [Trimmed, trim, trim, String.toList_ofList, trimChars_trimChars]

end Text

theorem Address.parse_eq_ok {s : String} {a : Address} :
    Address.parse s = .ok a ↔ Text.trim s = a.text ∧ a.text ≠ "" := by
  obtain ⟨text⟩ := a
  rw [Address.parse]
  split
  · next h => grind
  · next h => grind

/-- An address that is given by a text is canonical. -/
theorem Address.canonical_of_parse {s : String} {a : Address} (h : Address.parse s = .ok a) :
    a.Canonical := by
  obtain ⟨htrim, hne⟩ := Address.parse_eq_ok.1 h
  exact ⟨htrim ▸ Text.trimmed_trim s, hne⟩

end EscrowMix
