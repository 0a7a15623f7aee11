import LiveSurface.Component.Properties
import LiveSurface.Proofs.Data.Parts
import LiveSurface.Proofs.Number.Range
import Mathlib.Data.Nat.Digits.Defs

/-!
# Values that can be written

Only whole numbers with too many digits are not written. Binary64 has none of them, and what can be
written has none of them inside. So a descriptor shows as a text in every data model that can be
written (`Descriptor.display_of_isWritten`).
-/
namespace LiveSurface

/-- Binary64 has no whole number of more than 309 digits. -/
theorem Double.isWritten_of_toInt? {d : Double} {n : Int} (whole : d.toInt? = some n) :
    Numeral.isWritten n = true := by
  cases d with
  | finite negative m e canonical =>
    obtain ⟨-, -, form⟩ := oddForm_of_toInt? whole
    have below : n.natAbs < overflow := lt_overflow_of_canonical (by rw [form]; exact canonical)
    have small : overflow ≤ 10 ^ 309 := by decide +kernel
    have short := Nat.toDigits_length 10 n.natAbs 309 (by decide) (Nat.lt_of_lt_of_le below small)
    exact decide_eq_true (Nat.le_trans short (by decide))
  | _ => cases whole

namespace Value

theorem itemsWritten_iff (items : List Value) :
    itemsWritten items = true ↔ ∀ item ∈ items, item.isWritten = true := by
  induction items with
  | nil => simp [itemsWritten]
  | cons item rest ih => simp [itemsWritten, ih]

theorem fieldsWritten_iff (fields : Fields) :
    fieldsWritten fields = true ↔ ∀ field ∈ fields, field.2.isWritten = true := by
  induction fields with
  | nil => simp [fieldsWritten]
  | cons field rest ih => simp [fieldsWritten, ih]

theorem isWritten_of_inside {part v : Value} (inside : part.Inside v)
    (written : v.isWritten = true) : part.isWritten = true := by
  cases inside with
  | item member => exact (itemsWritten_iff _).mp written _ member
  | field member => exact (fieldsWritten_iff _).mp written _ member

theorem text_of_isWritten {v : Value} (written : v.isWritten = true) : v.text = .ok v.wording :=
  if_pos written

theorem display_of_isWritten {v : Value} (written : v.isWritten = true) :
    ∃ s, v.display = .ok s := by
  unfold display
  split
  · exact ⟨_, rfl⟩
  · exact ⟨_, rfl⟩
  · next d =>
    split
    · next n whole => exact ⟨_, text_of_isWritten (Double.isWritten_of_toInt? whole)⟩
    · exact ⟨_, rfl⟩
  · exact ⟨_, text_of_isWritten written⟩

end Value

namespace Descriptor

/-- A checked descriptor has no literals but texts, binary64 numbers and booleans. -/
theorem isWritten_of_mem_setFields {d : Descriptor} {name : String} {v : Value}
    (member : (name, v) ∈ d.setFields) : v.isWritten = true := by
  have among : (name, v) ∈ d.allFields := List.mem_of_mem_filter member
  simp only [allFields, List.mem_cons, Prod.mk.injEq, List.not_mem_nil, or_false] at among
  rcases among with ⟨-, rfl⟩ | ⟨-, rfl⟩ | ⟨-, rfl⟩ | ⟨-, rfl⟩
  · cases d.literalString <;> rfl
  · cases d.literalNumber <;> rfl
  · cases d.literalBoolean <;> rfl
  · cases d.path <;> rfl

theorem resolve_of_isWritten (d : Descriptor) {model : Value} (written : model.isWritten = true) :
    (Binding.resolve (.obj d.setFields) model).isWritten = true := by
  unfold Binding.resolve
  dsimp only
  split
  · next v literal =>
    unfold Binding.literal? at literal
    obtain ⟨key, -, taken⟩ := List.exists_of_findSome?_eq_some literal
    split at taken
    · cases taken
    · exact isWritten_of_mem_setFields (Entries.mem_of_get? taken)
  · split
    · exact Value.read_of_inside (motive := (·.isWritten = true)) rfl Value.isWritten_of_inside
        written _
    · rfl

theorem display_of_isWritten (descriptor : Option Descriptor) {model : Value}
    (written : model.isWritten = true) : ∃ s, display descriptor model = .ok s := by
  cases descriptor with
  | none => exact ⟨"", rfl⟩
  | some d => exact Value.display_of_isWritten (d.resolve_of_isWritten written)

end Descriptor
end LiveSurface
