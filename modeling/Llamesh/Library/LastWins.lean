import Mathlib.Data.List.Perm.Basic

/-!
# Settings where the last one wins

A list of keys with values that is read from left to right, where a later value of a key replaces
the earlier ones. The order of the list matters exactly when some key has two values: `winner_perm`
and `consistent_iff`.
-/

namespace LastWins

variable {ι ν : Type} [DecidableEq ι]

/-- The value of a key after all settings. -/
def winner (settings : List (ι × ν)) (key : ι) : Option ν := settings.reverse.lookup key

/-- No key has two values. -/
def Consistent (settings : List (ι × ν)) : Prop :=
  ∀ a ∈ settings, ∀ b ∈ settings, a.1 = b.1 → a.2 = b.2

variable {settings other : List (ι × ν)} {key : ι} {value : ν}

/-- The last setting of a key wins. -/
theorem winner_concat_self (settings : List (ι × ν)) (key : ι) (value : ν) :
    winner (settings ++ [(key, value)]) key = some value := by
  simp [winner]

private theorem mem_of_winner (h : winner settings key = some value) : (key, value) ∈ settings := by
  obtain ⟨later, earlier, hlist, -⟩ := List.lookup_eq_some_iff.mp h
  rw [← List.mem_reverse, hlist]
  exact List.mem_append_right _ List.mem_cons_self

private theorem exists_winner (h : (key, value) ∈ settings) :
    ∃ last, winner settings key = some last := by
  cases hlast : winner settings key with
  | some last => exact ⟨last, rfl⟩
  | none =>
    have hnone := List.lookup_eq_none_iff.mp hlast (key, value) (List.mem_reverse.mpr h)
    simp at hnone

/-- Without two values of a key, the settings are those in the list. -/
theorem winner_eq_some_iff (h : Consistent settings) :
    winner settings key = some value ↔ (key, value) ∈ settings := by
  constructor
  · exact mem_of_winner
  · intro hmem
    obtain ⟨last, hlast⟩ := exists_winner hmem
    have hvalue : last = value := h _ (mem_of_winner hlast) _ hmem rfl
    rw [hlast, hvalue]

/-- Without two values of a key, the order makes no difference. -/
theorem winner_perm (h : Consistent settings) (hperm : settings.Perm other) (key : ι) :
    winner other key = winner settings key := by
  have hother : Consistent other := fun a ha b hb =>
    h a (hperm.mem_iff.mpr ha) b (hperm.mem_iff.mpr hb)
  ext value
  rw [winner_eq_some_iff hother, winner_eq_some_iff h, hperm.mem_iff]

/-- No key has two values exactly when every setting of the list is in force. -/
theorem consistent_iff :
    Consistent settings ↔ ∀ a ∈ settings, winner settings a.1 = some a.2 := by
  constructor
  · exact fun h a ha => (winner_eq_some_iff h).mpr ha
  · intro h a ha b hb hkey
    have hvalue := (h a ha).symm.trans (hkey ▸ h b hb)
    exact Option.some.inj hvalue

end LastWins
