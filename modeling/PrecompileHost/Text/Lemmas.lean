import Mathlib.Data.List.TakeWhile
import PrecompileHost.Text.Blank

/-!
Blanks at the ends of a text. Every text is what is left of it with blanks on both sides, and
whatever is written between blanks is what is left.
-/

namespace PrecompileHost.Text

/-- Nothing but blank characters. -/
def Blank (text : List Char) : Prop :=
  ∀ c ∈ text, isBlank c = true

instance (text : List Char) : Decidable (Blank text) :=
  List.decidableBAll (isBlank · = true) text

/-- No blank character at either end. -/
structure Bare (text : List Char) : Prop where
  first : ∀ c ∈ text.head?, isBlank c = false
  last : ∀ c ∈ text.getLast?, isBlank c = false

variable {left text right : List Char}

theorem Blank.append (hleft : Blank left) (hright : Blank right) : Blank (left ++ right) :=
  List.forall_mem_append.mpr ⟨hleft, hright⟩

theorem Blank.reverse (h : Blank text) : Blank text.reverse := by
  simpa [Blank] using h

theorem Bare.of_forall (h : ∀ c ∈ text, isBlank c = false) : Bare text :=
  ⟨fun c hc => h c (List.mem_of_mem_head? hc), fun c hc => h c (List.mem_of_getLast? hc)⟩

theorem dropWhile_append_of_blank (hleft : Blank left)
    (hfirst : ∀ c ∈ text.head?, isBlank c = false) : (left ++ text).dropWhile isBlank = text := by
  rw [List.dropWhile_append_of_pos hleft]
  cases text with
  | nil => rfl
  | cons c rest => simp [hfirst c rfl]

theorem trim_of_blank (h : Blank text) : trim text = [] := by
  simp [trim, List.dropWhile_eq_nil_iff.mpr h]

/-- Blanks around a text do not matter. -/
theorem trim_append (hleft : Blank left) (htext : Bare text) (hright : Blank right) :
    trim (left ++ text ++ right) = text := by
  cases text with
  | nil => simpa using trim_of_blank (hleft.append hright)
  | cons c rest =>
    have hfront : (left ++ (c :: rest ++ right)).dropWhile isBlank = c :: rest ++ right :=
      dropWhile_append_of_blank hleft htext.first
    have hback :
        (right.reverse ++ (c :: rest).reverse).dropWhile isBlank = (c :: rest).reverse := by
      apply dropWhile_append_of_blank hright.reverse
      rw [List.head?_reverse]
      exact htext.last
    rw [trim, List.append_assoc, hfront, List.reverse_append, hback, List.reverse_reverse]

theorem head?_dropWhile (text : List Char) :
    ∀ c ∈ (text.dropWhile isBlank).head?, isBlank c = false := by
  intro c hc
  have h := List.head?_dropWhile_not isBlank text
  rw [Option.mem_def.mp hc] at h
  exact h

theorem trim_append_takeWhile (text : List Char) :
    trim text ++ ((text.dropWhile isBlank).reverse.takeWhile isBlank).reverse =
      text.dropWhile isBlank := by
  rw [trim, ← List.reverse_append, List.takeWhile_append_dropWhile, List.reverse_reverse]

theorem bare_trim (text : List Char) : Bare (trim text) where
  first c hc := by
    apply head?_dropWhile text
    rw [← trim_append_takeWhile]
    simp [Option.mem_def.mp hc]
  last c hc := by
    apply head?_dropWhile (text.dropWhile isBlank).reverse
    rw [trim, List.getLast?_reverse] at hc
    exact hc

/-- Only blanks are lost. -/
theorem exists_append_trim (text : List Char) :
    ∃ left right, Blank left ∧ Blank right ∧ left ++ trim text ++ right = text := by
  have htakeWhile (l : List Char) : Blank (l.takeWhile isBlank) :=
    fun c hc => List.mem_takeWhile_imp hc
  refine ⟨_, _, htakeWhile text, (htakeWhile (text.dropWhile isBlank).reverse).reverse, ?_⟩
  rw [List.append_assoc, trim_append_takeWhile, List.takeWhile_append_dropWhile]

theorem trim_eq_nil_iff : trim text = [] ↔ Blank text := by
  constructor
  · intro h
    obtain ⟨left, right, hleft, hright, htext⟩ := exists_append_trim text
    rw [← htext, h, List.append_nil]
    exact hleft.append hright
  · exact trim_of_blank

end PrecompileHost.Text
