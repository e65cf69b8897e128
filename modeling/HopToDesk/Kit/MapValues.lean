import Mathlib.Data.List.AList
import Mathlib.Tactic

/-!
# Mapping the values of a table

An association list with each value replaced by a function of its key and itself. The keys stay, and
looking a key up gives the value mapped. A value that is found after an insertion or an erasure is
the one that was put in, or was there before.
-/

set_option autoImplicit false

namespace Kit

variable {κ : Type} {α : Type}

/-- The table with `f` applied to every value. -/
def mapValues (f : κ → α → α) (table : AList fun _ : κ => α) : AList fun _ : κ => α where
  entries := table.entries.map fun e => ⟨e.1, f e.1 e.2⟩
  nodupKeys := by
    have hkeys := table.nodupKeys
    rw [List.NodupKeys, List.keys] at hkeys ⊢
    rwa [List.map_map]

@[simp]
theorem keys_mapValues (f : κ → α → α) (table : AList fun _ : κ => α) :
    (mapValues f table).keys = table.keys := by
  rw [AList.keys, AList.keys, mapValues, List.keys, List.map_map]
  rfl

@[simp]
theorem mem_mapValues (f : κ → α → α) (table : AList fun _ : κ => α) (key : κ) :
    key ∈ mapValues f table ↔ key ∈ table := by
  rw [AList.mem_keys, AList.mem_keys, keys_mapValues]

@[simp]
theorem lookup_mapValues [DecidableEq κ] (f : κ → α → α) (table : AList fun _ : κ => α) (key : κ) :
    (mapValues f table).lookup key = (table.lookup key).map (f key) :=
  List.dlookup_map₂ key

variable [DecidableEq κ] {table : AList fun _ : κ => α} {key key' : κ} {value value' : α}

theorem lookup_insert_eq_some (h : (table.insert key value).lookup key' = some value') :
    key' = key ∧ value' = value ∨ key' ≠ key ∧ table.lookup key' = some value' := by
  by_cases hsame : key' = key
  · subst hsame
    rw [AList.lookup_insert] at h
    exact .inl ⟨rfl, (Option.some.inj h).symm⟩
  · rw [AList.lookup_insert_ne hsame] at h
    exact .inr ⟨hsame, h⟩

theorem lookup_erase_eq_some (h : (table.erase key).lookup key' = some value) :
    key' ≠ key ∧ table.lookup key' = some value := by
  by_cases hsame : key' = key
  · subst hsame
    rw [AList.lookup_erase] at h
    cases h
  · rw [AList.lookup_erase_ne hsame] at h
    exact ⟨hsame, h⟩

end Kit
