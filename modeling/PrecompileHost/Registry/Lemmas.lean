import PrecompileHost.Registry
import PrecompileHost.WordMap.Lemmas

/-!
Looking up in a part of a registry: what was chosen is bound as it is registered, and nothing else
is bound.
-/

namespace PrecompileHost.Registry

theorem get?_foldl_insert (r : Registry) (chosen : List Address) (selected : Registry)
    (a : Address) :
    (chosen.foldl
      (fun selected a =>
        match r.get? a with
        | some p => selected.insert a p
        | none => selected) selected).get? a =
      if a ∈ chosen then (r.get? a).or (selected.get? a) else selected.get? a := by
  induction chosen generalizing selected with
  | nil => rfl
  | cons b rest ih =>
    rw [List.foldl_cons, ih]
    by_cases hb : a = b
    · subst hb
      cases hregistered : r.get? a <;> simp
    · cases hregistered : r.get? b <;> simp [hb, WordMap.get?_insert]

/-- A selection binds what is chosen as the registry does. -/
theorem get?_select (r : Registry) (chosen : List Address) (a : Address) :
    (r.select chosen).get? a = if a ∈ chosen then r.get? a else none := by
  have hfold := r.get?_foldl_insert chosen ∅ a
  rw [WordMap.get?_empty, Option.or_none] at hfold
  exact hfold

theorem get?_select_eq_some_iff {r : Registry} {chosen : List Address} {a : Address}
    {p : Precompile} :
    (r.select chosen).get? a = some p ↔ r.get? a = some p ∧ a ∈ chosen := by
  rw [get?_select]
  split
  · rename_i ha
    exact (and_iff_left ha).symm
  · rename_i ha
    exact iff_of_false nofun fun h => ha h.2

theorem mem_keys_select {r : Registry} {chosen : List Address} {a : Address} :
    a ∈ (r.select chosen).keys ↔ a ∈ r.keys ∧ a ∈ chosen := by
  simp only [WordMap.mem_keys_iff, get?_select_eq_some_iff, exists_and_right]

/-- Order and repetitions do not matter for what is selected. -/
theorem select_congr {r : Registry} {chosen chosen' : List Address}
    (h : ∀ a, a ∈ chosen ↔ a ∈ chosen') : r.select chosen = r.select chosen' := by
  refine WordMap.ext_get? fun a => ?_
  rw [get?_select, get?_select]
  simp only [h a]

theorem select_keys (r : Registry) : r.select r.keys = r := by
  refine WordMap.ext_get? fun a => ?_
  rw [get?_select]
  split
  · rfl
  · rename_i ha
    rw [WordMap.mem_keys_iff] at ha
    cases hregistered : r.get? a with
    | none => rfl
    | some p => exact absurd ⟨p, hregistered⟩ ha

end PrecompileHost.Registry
