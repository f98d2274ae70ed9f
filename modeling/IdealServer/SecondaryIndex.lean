import Mathlib.Logic.Function.Basic

/-! A table and an index of its rows by one of their attributes. -/
namespace SecondaryIndex

variable {κ α ρ : Type*} [DecidableEq κ] [DecidableEq α]

/-- The index leads from an attribute to the key of the row that has it, and from no other attribute. -/
def Indexes (attr : ρ → α) (table : κ → Option ρ) (index : α → Option κ) : Prop :=
  ∀ a k, index a = some k ↔ ∃ row, table k = some row ∧ attr row = a

variable {attr : ρ → α} {table : κ → Option ρ} {index : α → Option κ} {a : α} {k : κ} {row row' : ρ}

/-- A row that nothing leads to. -/
theorem Indexes.insert (h : Indexes attr table index) (hkey : table k = none) (ha : index (attr row) = none) :
    Indexes attr (Function.update table k (some row)) (Function.update index (attr row) (some k)) := by
  intro b j
  by_cases hj : j = k
  · rw [hj, Function.update_self]
    by_cases hb : b = attr row
    · rw [hb, Function.update_self]
      exact iff_of_true rfl ⟨row, rfl, rfl⟩
    · rw [Function.update_of_ne hb]
      apply iff_of_false
      · intro hbk
        obtain ⟨other,hother,_⟩ := (h b k).mp hbk
        cases hkey.symm.trans hother
      · intro ⟨other,hother,hattr⟩
        rw [← Option.some.inj hother] at hattr
        exact hb hattr.symm
  · rw [Function.update_of_ne hj]
    by_cases hb : b = attr row
    · rw [hb, Function.update_self]
      apply iff_of_false
      · intro hkj
        exact hj (Option.some.inj hkj).symm
      · intro hother
        have hold := (h (attr row) j).mpr hother
        rw [ha] at hold
        cases hold
    · rw [Function.update_of_ne hb]
      exact h b j

omit [DecidableEq κ] in
/-- The index gets an entry, and the table no row. -/
theorem Indexes.not_insert (h : Indexes attr table index) (ha : index a = none) :
    ¬Indexes attr table (Function.update index a (some k)) := by
  intro hbad
  obtain ⟨other,hother,hattr⟩ := (hbad a k).mp (Function.update_self ..)
  have hold := (h a k).mpr ⟨other, hother, hattr⟩
  rw [ha] at hold
  cases hold

theorem Indexes.erase (h : Indexes attr table index) (hkey : table k = some row) :
    Indexes attr (Function.update table k none) (Function.update index (attr row) none) := by
  have hindex : index (attr row) = some k := (h _ k).mpr ⟨row, hkey, rfl⟩
  intro b j
  by_cases hj : j = k
  · rw [hj, Function.update_self]
    apply iff_of_false
    · intro hbk
      by_cases hb : b = attr row
      · rw [hb, Function.update_self] at hbk
        cases hbk
      · rw [Function.update_of_ne hb] at hbk
        obtain ⟨other,hother,hattr⟩ := (h b k).mp hbk
        rw [hkey] at hother
        rw [← Option.some.inj hother] at hattr
        exact hb hattr.symm
    · intro ⟨other,hother,_⟩
      cases hother
  · rw [Function.update_of_ne hj]
    by_cases hb : b = attr row
    · rw [hb, Function.update_self]
      apply iff_of_false
      · intro hnone
        cases hnone
      · intro hother
        have hold := (h (attr row) j).mpr hother
        rw [hindex] at hold
        exact hj (Option.some.inj hold).symm
    · rw [Function.update_of_ne hb]
      exact h b j

omit [DecidableEq α] in
/-- A row may change, but for its attribute. -/
theorem Indexes.replace_iff (h : Indexes attr table index) (hkey : table k = some row) :
    Indexes attr (Function.update table k (some row')) index ↔ attr row' = attr row := by
  have hindex : index (attr row) = some k := (h _ k).mpr ⟨row, hkey, rfl⟩
  constructor
  · intro hnew
    obtain ⟨other,hother,hattr⟩ := (hnew (attr row) k).mp hindex
    rw [Function.update_self] at hother
    rw [Option.some.inj hother]
    exact hattr
  · intro hsame b j
    rw [h b j]
    by_cases hj : j = k
    · rw [hj, Function.update_self, hkey]
      constructor
      · intro ⟨other,hother,hattr⟩
        rw [← Option.some.inj hother] at hattr
        exact ⟨row', rfl, hsame.trans hattr⟩
      · intro ⟨other,hother,hattr⟩
        rw [← Option.some.inj hother] at hattr
        exact ⟨row, rfl, hsame.symm.trans hattr⟩
    · rw [Function.update_of_ne hj]

end SecondaryIndex
