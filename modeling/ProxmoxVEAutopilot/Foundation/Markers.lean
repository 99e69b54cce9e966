import Mathlib

/-!
# Markers in a text

`marker in text`, and where a marker can stand in a text that is put together from fixed
labels and free fields.
-/

namespace ProxmoxVEAutopilot.Foundation

set_option autoImplicit false

section Lists
variable {α : Type*} {m a b : List α}

/-- A marker without the separator lies on one side of it. -/
theorem infix_separated {c : α} (h : c ∉ m) : m <:+: a ++ c :: b ↔ m <:+: a ∨ m <:+: b := by
  constructor
  · intro hm
    rcases List.infix_append_iff.mp hm with hleft | hright | ⟨left, right, rfl, hsuffix, hstart⟩
    · exact .inl hleft
    · rcases List.infix_cons_iff.mp hright with hstart | htail
      · cases m with
        | nil => exact .inl (List.nil_infix)
        | cons head tail =>
          obtain ⟨rfl, _⟩ := List.cons_prefix_cons.mp hstart
          exact absurd List.mem_cons_self h
      · exact .inr htail
    · -- what of the marker is behind the cut begins with the separator
      cases right with
      | nil =>
        rw [List.append_nil]
        exact .inl hsuffix.isInfix
      | cons head tail =>
        obtain ⟨rfl, _⟩ := List.cons_prefix_cons.mp hstart
        exact absurd (List.mem_append_right _ List.mem_cons_self) h
  · rintro (hleft | hright)
    · exact List.infix_append_of_infix_left hleft
    · exact List.infix_append_of_infix_right (List.infix_cons hright)

/-- A label that lacks the marker's first letter holds no part of it. -/
theorem infix_labelled {c : α} (h : c ∉ a) : c :: m <:+: a ++ b ↔ c :: m <:+: b := by
  induction a with
  | nil => rw [List.nil_append]
  | cons head tail ih =>
    rw [List.mem_cons, not_or] at h
    rw [List.cons_append, List.infix_cons_iff, ih h.2]
    refine or_iff_right fun hstart => h.1 ?_
    exact (List.cons_prefix_cons.mp hstart).1

end Lists

def contains (marker text : String) : Bool := decide (marker.toList <:+: text.toList)

theorem contains_iff {marker text : String} : contains marker text = true ↔ marker.toList <:+: text.toList :=
  decide_eq_true_iff

end ProxmoxVEAutopilot.Foundation
