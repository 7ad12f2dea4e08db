import PrecompileHost.WordMap.Basic

/-!
What looking up says about the finite maps: one equation for each operation, and two maps that
bind every key alike are equal.
-/

namespace PrecompileHost.WordMap

variable {w : Nat} {α : Type}

theorem lookupEntry_insertEntry (k j : BitVec w) (v : α) (l : List (BitVec w × α)) :
    lookupEntry j (insertEntry k v l) = if j = k then some v else lookupEntry j l := by
  induction l with
  | nil => rfl
  | cons e rest ih =>
    obtain ⟨i, u⟩ := e
    unfold insertEntry
    split
    · rfl
    · split
      · rename_i heq
        subst heq
        simp only [lookupEntry]
        split <;> rfl
      · rename_i hne
        simp only [lookupEntry, ih]
        by_cases hji : j = i
        · subst hji
          simp [Ne.symm hne]
        · simp [hji]

theorem lookupEntry_eq_none {k : BitVec w} {l : List (BitVec w × α)} (h : ∀ e ∈ l, e.1 ≠ k) :
    lookupEntry k l = none := by
  induction l with
  | nil => rfl
  | cons e rest ih =>
    have hk : k ≠ e.1 := fun hk => h e List.mem_cons_self hk.symm
    simp only [lookupEntry, if_neg hk]
    exact ih fun e he => h e (List.mem_cons_of_mem _ he)

theorem lookupEntry_eraseEntry (k j : BitVec w) {l : List (BitVec w × α)}
    (h : l.Pairwise (fun a b => a.1 < b.1)) :
    lookupEntry j (eraseEntry k l) = if j = k then none else lookupEntry j l := by
  induction l with
  | nil => simp [eraseEntry, lookupEntry]
  | cons e rest ih =>
    obtain ⟨i, u⟩ := e
    have hrest := List.pairwise_cons.mp h
    unfold eraseEntry
    split
    · rename_i heq
      subst heq
      by_cases hj : j = k
      · subst hj
        rw [if_pos rfl]
        exact lookupEntry_eq_none fun e he heq =>
          BitVec.lt_irrefl _ (heq ▸ hrest.1 e he)
      · simp [lookupEntry, hj]
    · rename_i hne
      simp only [lookupEntry, ih hrest.2]
      by_cases hji : j = i
      · subst hji
        simp [Ne.symm hne]
      · simp [hji]

@[simp] theorem get?_empty (k : BitVec w) : (∅ : WordMap w α).get? k = none := rfl

theorem get?_insert (m : WordMap w α) (k j : BitVec w) (v : α) :
    (m.insert k v).get? j = if j = k then some v else m.get? j :=
  lookupEntry_insertEntry k j v m.entries

/-- A binding takes precedence over those before it. -/
theorem get?_insert_or (m : WordMap w α) (k j : BitVec w) (v : α) :
    (m.insert k v).get? j = (if j = k then some v else none).or (m.get? j) := by
  rw [get?_insert]
  split <;> rfl

@[simp] theorem get?_insert_self (m : WordMap w α) (k : BitVec w) (v : α) :
    (m.insert k v).get? k = some v := by
  simp [get?_insert]

theorem get?_erase (m : WordMap w α) (k j : BitVec w) :
    (m.erase k).get? j = if j = k then none else m.get? j :=
  lookupEntry_eraseEntry k j m.ascending

theorem mem_map_fst_iff (k : BitVec w) (l : List (BitVec w × α)) :
    k ∈ l.map (·.1) ↔ ∃ v, lookupEntry k l = some v := by
  induction l with
  | nil => simp [lookupEntry]
  | cons e rest ih =>
    obtain ⟨i, u⟩ := e
    rw [List.map_cons, List.mem_cons, ih]
    by_cases hk : k = i
    · simp [lookupEntry, hk]
    · simp [lookupEntry, hk]

/-- The keys are what is bound. -/
theorem mem_keys_iff (m : WordMap w α) (k : BitVec w) : k ∈ m.keys ↔ ∃ v, m.get? k = some v :=
  mem_map_fst_iff k m.entries

/-- Two ascending lists that look up alike are the same list. -/
theorem eq_of_lookupEntry_eq {l l' : List (BitVec w × α)}
    (hl : l.Pairwise (fun a b => a.1 < b.1)) (hl' : l'.Pairwise (fun a b => a.1 < b.1))
    (h : ∀ k, lookupEntry k l = lookupEntry k l') : l = l' := by
  induction l generalizing l' with
  | nil =>
    cases l' with
    | nil => rfl
    | cons e rest => simpa [lookupEntry] using h e.1
  | cons e rest ih =>
    cases l' with
    | nil => simpa [lookupEntry] using h e.1
    | cons e' rest' =>
      obtain ⟨i, u⟩ := e
      obtain ⟨i', u'⟩ := e'
      have hrest := List.pairwise_cons.mp hl
      have hrest' := List.pairwise_cons.mp hl'
      have mem_of_lookup {k : BitVec w} {v : α} :
          {l : List (BitVec w × α)} → lookupEntry k l = some v → (k, v) ∈ l := by
        intro l
        induction l with
        | nil => intro h; cases h
        | cons e rest ih =>
          intro h
          unfold lookupEntry at h
          split at h
          · cases h
            rename_i hk
            rw [hk]
            exact List.mem_cons_self
          · exact List.mem_cons_of_mem _ (ih h)
      have hi : i = i' := by
        by_cases heq : i = i'
        · exact heq
        · have hmem : (i, u) ∈ rest' := by
            have := h i
            simp only [lookupEntry, if_true, if_neg heq] at this
            exact mem_of_lookup this.symm
          have hmem' : (i', u') ∈ rest := by
            have := h i'
            simp only [lookupEntry, if_true, if_neg (Ne.symm heq)] at this
            exact mem_of_lookup this
          exact absurd (BitVec.lt_trans (hrest'.1 _ hmem) (hrest.1 _ hmem'))
            (BitVec.lt_irrefl _)
      subst hi
      have hu : u = u' := by
        have := h i
        simpa [lookupEntry] using this
      subst hu
      congr 1
      refine ih hrest.2 hrest'.2 fun k => ?_
      by_cases hk : k = i
      · subst hk
        rw [lookupEntry_eq_none fun e he heq => BitVec.lt_irrefl _ (heq ▸ hrest.1 e he),
          lookupEntry_eq_none fun e he heq => BitVec.lt_irrefl _ (heq ▸ hrest'.1 e he)]
      · have := h k
        simpa only [lookupEntry, if_neg hk] using this

/-- Maps that bind every key alike are equal. -/
theorem ext_get? {m n : WordMap w α} (h : ∀ k, m.get? k = n.get? k) : m = n := by
  cases m with
  | mk l hl =>
    cases n with
    | mk l' hl' =>
      have : l = l' := eq_of_lookupEntry_eq hl hl' h
      subst this
      rfl

end PrecompileHost.WordMap
