import ComponentLoader.OrderedMap
set_option autoImplicit false

/-!
# Laws of ordered maps (SPEC §3)

A lookup after `insert` finds the new value under every key that compares equal to the inserted one,
and what was there before under every other key.  The keys of a map depend on the inserted keys
alone, in the order of their insertion.  Of the order only `Std.TransOrd` is used: that keys which
compare equal compare alike with every third key.
-/

namespace ComponentLoader.OrderedMap

variable {κ ν : Type} [Ord κ]

/-! ## Lookups -/

theorem find?_insertEntry [Std.TransOrd κ] (key k : κ) (value : ν) (entries : List (κ × ν)) :
    ((insertEntry key value entries).find? fun entry => compare k entry.1 == .eq).map (·.2) =
      if compare k key = .eq then some value
      else (entries.find? fun entry => compare k entry.1 == .eq).map (·.2) := by
  induction entries with
  | nil =>
      by_cases hk : compare k key = .eq <;> simp [insertEntry, hk]
  | cons first rest ih =>
      obtain ⟨k₀, v₀⟩ := first
      cases horder : compare key k₀ with
      | lt =>
          by_cases hk : compare k key = .eq <;> simp [insertEntry, horder, hk, List.find?_cons]
      | eq =>
          have hsame : compare k key = compare k k₀ := Std.TransCmp.congr_right horder
          by_cases hk : compare k k₀ = .eq <;>
            simp [insertEntry, horder, hsame, hk]
      | gt =>
          simp only [insertEntry, horder, List.find?_cons]
          by_cases hk₀ : compare k k₀ = .eq
          · have hk : compare k key ≠ .eq := by
              intro hk
              have hgt : compare k k₀ = .gt := (Std.TransCmp.congr_left hk).trans horder
              rw [hk₀] at hgt
              cases hgt
            simp [hk₀, hk]
          · have hne : (compare k k₀ == .eq) = false := by simp [hk₀]
            simp only [hne]
            exact ih

/-- What is found under a key after an entry was put. -/
theorem get?_insert [Std.TransOrd κ] (map : OrderedMap κ ν) (key k : κ) (value : ν) :
    (map.insert key value).get? k = if compare k key = .eq then some value else map.get? k :=
  find?_insertEntry key k value map.entries

theorem get?_insert_self [Std.TransOrd κ] (map : OrderedMap κ ν) (key : κ) (value : ν) :
    (map.insert key value).get? key = some value := by
  rw [get?_insert, if_pos Std.ReflCmp.compare_self]

/-- What is found after an entry was put is the new value under its key, or was there before. -/
theorem get?_insert_eq_some [Std.TransOrd κ] [Std.LawfulEqOrd κ] {map : OrderedMap κ ν} {key k : κ}
    {value found : ν} (h : (map.insert key value).get? k = some found) :
    k = key ∧ found = value ∨ map.get? k = some found := by
  rw [get?_insert] at h
  split at h
  · rename_i hcompare
    exact Or.inl ⟨Std.LawfulEqOrd.eq_of_compare hcompare, (Option.some.inj h).symm⟩
  · exact Or.inr h

/-- Keys that compare equal find the same. -/
theorem get?_congr [Std.TransOrd κ] {map : OrderedMap κ ν} {key k : κ} (h : compare key k = .eq) :
    map.get? key = map.get? k := by
  have htests : (fun entry : κ × ν => compare key entry.1 == .eq) =
      fun entry => compare k entry.1 == .eq := by
    funext entry
    rw [Std.TransCmp.congr_left h]
  unfold get?
  rw [htests]

theorem get?_eq_none_iff {map : OrderedMap κ ν} {key : κ} :
    map.get? key = none ↔ ∀ k ∈ map.keys, compare key k ≠ .eq := by
  simp [get?, keys]

/-- A value that is found stands in an entry whose key compares equal. -/
theorem exists_mem_of_get?_eq_some {map : OrderedMap κ ν} {key : κ} {value : ν}
    (h : map.get? key = some value) :
    ∃ k, (k, value) ∈ map.entries ∧ compare key k = .eq := by
  unfold get? at h
  obtain ⟨entry, hfind, rfl⟩ := Option.map_eq_some_iff.mp h
  have htest := List.find?_some hfind
  exact ⟨entry.1, List.mem_of_find?_eq_some hfind, by simpa using htest⟩

/-! ## Entries -/

/-- An entry after `insert` was there before, or has the new value under the new key or under an
equal key that was there before. -/
theorem mem_entries_insert {map : OrderedMap κ ν} {key : κ} {value : ν} {entry : κ × ν}
    (h : entry ∈ (map.insert key value).entries) :
    entry ∈ map.entries ∨
      entry.2 = value ∧
        (entry.1 = key ∨ compare key entry.1 = .eq ∧ ∃ old, (entry.1, old) ∈ map.entries) := by
  unfold insert at h
  simp only at h
  generalize map.entries = entries at h
  induction entries with
  | nil =>
      simp only [insertEntry, List.mem_singleton] at h
      subst h
      exact Or.inr ⟨rfl, Or.inl rfl⟩
  | cons first rest ih =>
      obtain ⟨k₀, v₀⟩ := first
      cases horder : compare key k₀ with
      | lt =>
          simp only [insertEntry, horder, List.mem_cons] at h
          rcases h with rfl | h
          · exact Or.inr ⟨rfl, Or.inl rfl⟩
          · exact Or.inl (List.mem_cons.mpr h)
      | eq =>
          simp only [insertEntry, horder, List.mem_cons] at h
          rcases h with rfl | h
          · exact Or.inr ⟨rfl, Or.inr ⟨horder, v₀, List.mem_cons_self⟩⟩
          · exact Or.inl (List.mem_cons_of_mem _ h)
      | gt =>
          simp only [insertEntry, horder, List.mem_cons] at h
          rcases h with rfl | h
          · exact Or.inl List.mem_cons_self
          · rcases ih h with hold | ⟨hvalue, hkey⟩
            · exact Or.inl (List.mem_cons_of_mem _ hold)
            · refine Or.inr ⟨hvalue, hkey.imp_right ?_⟩
              rintro ⟨heq, old, hold⟩
              exact ⟨heq, old, List.mem_cons_of_mem _ hold⟩

/-! ## Keys -/

/-- Where an inserted key goes depends on the keys alone, whatever the values are. -/
theorem keys_insert_congr {μ : Type} {map : OrderedMap κ ν} {other : OrderedMap κ μ}
    (h : map.keys = other.keys) (key : κ) (value : ν) (value' : μ) :
    (map.insert key value).keys = (other.insert key value').keys := by
  obtain ⟨entries⟩ := map
  obtain ⟨others⟩ := other
  simp only [keys, insert] at h ⊢
  induction entries generalizing others with
  | nil =>
      have hnil : others = [] := by simpa using h.symm
      simp [hnil, insertEntry]
  | cons first rest ih =>
      obtain ⟨k₀, v₀⟩ := first
      cases others with
      | nil => simp at h
      | cons first' rest' =>
          obtain ⟨k₁, v₁⟩ := first'
          simp only [List.map_cons, List.cons.injEq] at h
          obtain ⟨rfl, hrest⟩ := h
          cases horder : compare key k₀ with
          | lt => simp [insertEntry, horder, hrest]
          | eq => simp [insertEntry, horder, hrest]
          | gt =>
              simp only [insertEntry, horder, List.map_cons, List.cons.injEq, true_and]
              exact ih rest' hrest

/-! ## Order -/

/-- The keys of a map are in order, each of them once. -/
def Sorted (map : OrderedMap κ ν) : Prop :=
  map.entries.Pairwise fun entry later => compare entry.1 later.1 = .lt

theorem sorted_empty : (empty : OrderedMap κ ν).Sorted :=
  List.Pairwise.nil

theorem pairwise_insertEntry [Std.TransOrd κ] (key : κ) (value : ν) {entries : List (κ × ν)}
    (h : entries.Pairwise fun entry later => compare entry.1 later.1 = .lt) :
    (insertEntry key value entries).Pairwise fun entry later => compare entry.1 later.1 = .lt := by
  induction entries with
  | nil => exact List.pairwise_singleton _ _
  | cons first rest ih =>
      obtain ⟨k₀, v₀⟩ := first
      obtain ⟨hfirst, hrest⟩ := List.pairwise_cons.mp h
      cases horder : compare key k₀ with
      | lt =>
          simp only [insertEntry, horder]
          refine List.pairwise_cons.mpr ⟨fun later hmem => ?_, h⟩
          rcases List.mem_cons.mp hmem with rfl | hmem
          · exact horder
          · exact Std.TransCmp.lt_trans horder (hfirst later hmem)
      | eq =>
          simp only [insertEntry, horder]
          exact List.pairwise_cons.mpr ⟨hfirst, hrest⟩
      | gt =>
          simp only [insertEntry, horder]
          refine List.pairwise_cons.mpr ⟨fun later hmem => ?_, ih hrest⟩
          have hmem : later ∈ (OrderedMap.insert ⟨rest⟩ key value).entries := hmem
          rcases mem_entries_insert hmem with hmem | ⟨-, hkey | ⟨-, old, hold⟩⟩
          · exact hfirst later hmem
          · rw [hkey]
            exact Std.OrientedCmp.lt_of_gt horder
          · exact hfirst (later.1, old) hold

theorem Sorted.insert [Std.TransOrd κ] {map : OrderedMap κ ν} (h : map.Sorted)
    (key : κ) (value : ν) :
    (map.insert key value).Sorted :=
  pairwise_insertEntry key value h

end ComponentLoader.OrderedMap
