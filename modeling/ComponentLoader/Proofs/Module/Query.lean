import ComponentLoader.Proofs.Module.Id
set_option autoImplicit false

/-!
# Laws of queries (SPEC §3)

A query is read pair by pair, so what is put behind a query is read after it (`parse_append`).
Pairs whose keys are none of the module ids' own change at most the scope token.  A reference that
has a query of its own is continued by a further question mark, which belongs to the value of its
last pair: `continued` is such a query, and `add_continued` says what becomes of that pair.
-/

namespace ComponentLoader.ModuleId

/-! ## Queries one after the other -/

theorem queryPairs_append (front rest : Text) :
    queryPairs (front ++ '&' :: rest) = queryPairs front ++ queryPairs rest := by
  unfold queryPairs
  rw [Text.splitOn_append, List.filter_append]

namespace Query

/-- What stands behind a query is read after it. -/
theorem parse_append (front rest : Text) :
    Query.parse (front ++ '&' :: rest) =
      (Query.parse front).bind fun query => (queryPairs rest).foldlM Query.add query := by
  unfold Query.parse
  rw [queryPairs_append, List.foldlM_append]
  rfl

/-- A query ends with a pair, in front of which another query may stand. -/
theorem exists_last_pair (query : Text) :
    ∃ front last, '&' ∉ last ∧ (query = front ++ '&' :: last ∨ front = [] ∧ query = last) := by
  by_cases h : '&' ∈ query
  · -- the last `&` is the first one from the end
    obtain ⟨after, before, hsplit, hafter⟩ := List.eq_append_cons_of_mem (List.mem_reverse.mpr h)
    refine ⟨before.reverse, after.reverse, by simpa using hafter, Or.inl ?_⟩
    have hquery := congrArg List.reverse hsplit
    simpa using hquery
  · exact ⟨[], query, h, Or.inr ⟨rfl, rfl⟩⟩

/-! ## Foreign pairs -/

/-- The key of a pair says neither the kind nor the number of what is asked for. -/
def IsForeign (pair : Text) : Prop :=
  (splitPair pair).1 ≠ "type".toList ∧ (splitPair pair).1 ≠ "i".toList

instance (pair : Text) : Decidable (IsForeign pair) :=
  inferInstanceAs (Decidable (_ ∧ _))

theorem add_of_isForeign {pair : Text} (h : IsForeign pair) (query : Query) :
    ∃ scope, query.add pair = .ok { query with scope := scope } := by
  unfold Query.add
  simp only
  rw [if_neg h.1, if_neg h.2]
  split
  · exact ⟨_, rfl⟩
  · exact ⟨query.scope, rfl⟩

theorem foldlM_add_of_isForeign {pairs : List Text} (h : ∀ pair ∈ pairs, IsForeign pair)
    (query : Query) :
    ∃ scope, pairs.foldlM Query.add query = .ok { query with scope := scope } := by
  induction pairs generalizing query with
  | nil => exact ⟨query.scope, rfl⟩
  | cons pair rest ih =>
      obtain ⟨scope, hpair⟩ := add_of_isForeign (h pair List.mem_cons_self) query
      obtain ⟨scope', hrest⟩ :=
        ih (fun pair hmem => h pair (List.mem_cons_of_mem _ hmem)) { query with scope := scope }
      refine ⟨scope', ?_⟩
      rw [List.foldlM_cons, hpair]
      exact hrest

/-! ## Continued queries -/

/-- A query behind which another question mark stands, with the first pair that is written for a
stylesheet. -/
def continued (query : Text) : Text :=
  query ++ "?type".toList ++ '=' :: stylesheetType

/-- The pair that a continued query ends with: the key is that of the last pair, if it has one with
a value, and never one that says the kind or the number for a pair without. -/
theorem splitPair_continued (last : Text) :
    (∃ key value, last = key ++ '=' :: value ∧ '=' ∉ key ∧
      splitPair (continued last) = (key, continued value)) ∨
    '=' ∉ last ∧ splitPair (continued last) = (last ++ "?type".toList, stylesheetType) := by
  by_cases h : '=' ∈ last
  · obtain ⟨key, value, rfl, hkey⟩ := List.eq_append_cons_of_mem h
    refine Or.inl ⟨key, value, rfl, hkey, ?_⟩
    have htext : continued (key ++ '=' :: value) = key ++ '=' :: continued value := by
      simp [continued]
    rw [htext, splitPair_append_cons hkey]
  · have hkey : '=' ∉ last ++ "?type".toList := by
      simpa using h
    exact Or.inr ⟨h, splitPair_append_cons hkey stylesheetType⟩

/-- A value that goes on with a question mark is no kind. -/
theorem continued_ne_stylesheetType (value : Text) : continued value ≠ stylesheetType := by
  intro h
  have hmem : '?' ∈ continued value := by simp [continued]
  rw [h] at hmem
  exact absurd hmem (by decide)

/-- Nor is it a number. -/
theorem readIndex?_continued (value : Text) : readIndex? (continued value) = none := by
  have hmem {text : Text} (htext : '?' ∈ text) : Text.readDecimal? text = none := by
    unfold Text.readDecimal?
    refine if_neg ?_
    rintro ⟨-, hdigits⟩
    exact absurd (List.all_eq_true.mp hdigits _ htext) (by decide)
  have hvalue : '?' ∈ (Text.dropLead? "+" (continued value)).getD (continued value) := by
    have hall : '?' ∈ continued value := by simp [continued]
    cases hdrop : Text.dropLead? "+" (continued value) with
    | none => exact hall
    | some rest =>
        rw [Text.dropLead?_eq_some_iff.mp hdrop] at hall
        exact (List.mem_append.mp hall).resolve_left (by decide)
  unfold readIndex?
  rw [hmem hvalue]
  rfl

/-- What a query says after a pair that is continued: the kind is one that no stylesheet has, or the
number cannot be read, or nothing but the scope token has changed. -/
theorem add_continued (query : Query) (last : Text) :
    ("type=".toList <+: last ∧ ∃ kind, kind ≠ stylesheetType ∧
      query.add (continued last) = .ok { query with kind := some kind }) ∨
    ("i=".toList <+: last ∧ ∃ e, query.add (continued last) = .error e) ∨
    (¬ "type=".toList <+: last ∧ ¬ "i=".toList <+: last ∧
      ∃ scope, query.add (continued last) = .ok { query with scope := scope }) := by
  rcases splitPair_continued last with ⟨key, value, rfl, hkey, hpair⟩ | ⟨hnone, hpair⟩
  · -- a text without `=` is the key exactly if the pair begins with it and `=`
    have hlead (name : Text) (hname : '=' ∉ name) :
        name ++ ['='] <+: key ++ '=' :: value ↔ key = name := by
      constructor
      · rintro ⟨rest, hrest⟩
        rw [List.append_assoc, List.singleton_append] at hrest
        exact (Text.append_cons_inj hname hkey hrest).1.symm
      · rintro rfl
        exact ⟨value, by simp⟩
    have htype := hlead "type".toList (by decide)
    have hindex := hlead "i".toList (by decide)
    by_cases hkeyType : key = "type".toList
    · refine Or.inl ⟨htype.mpr hkeyType, _, continued_ne_stylesheetType value, ?_⟩
      unfold Query.add
      rw [hpair]
      simp only
      rw [if_pos hkeyType]
    · by_cases hkeyIndex : key = "i".toList
      · refine Or.inr (Or.inl ⟨hindex.mpr hkeyIndex, .invalidIndex (continued value), ?_⟩)
        unfold Query.add
        rw [hpair]
        simp only
        rw [if_neg hkeyType, if_pos hkeyIndex, readIndex?_continued]
      · refine Or.inr (Or.inr
          ⟨fun h => hkeyType (htype.mp h), fun h => hkeyIndex (hindex.mp h), ?_⟩)
        refine add_of_isForeign ?_ query
        unfold IsForeign
        rw [hpair]
        exact ⟨hkeyType, hkeyIndex⟩
  · have hnot (name : Text) : ¬ name ++ ['='] <+: last := by
      rintro ⟨rest, rfl⟩
      simp at hnone
    refine Or.inr (Or.inr ⟨hnot "type".toList, hnot "i".toList, ?_⟩)
    refine add_of_isForeign ?_ query
    have hmark : '?' ∈ last ++ "?type".toList := by simp
    unfold IsForeign
    rw [hpair]
    refine ⟨?_, ?_⟩
    · intro hkey
      rw [show last ++ "?type".toList = "type".toList from hkey] at hmark
      exact absurd hmark (by decide)
    · intro hkey
      rw [show last ++ "?type".toList = "i".toList from hkey] at hmark
      exact absurd hmark (by decide)

end Query

end ComponentLoader.ModuleId
