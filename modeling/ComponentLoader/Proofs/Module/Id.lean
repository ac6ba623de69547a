import ComponentLoader.Module.Id
import ComponentLoader.Proofs.Text.Basic
set_option autoImplicit false

/-!
# Laws of module ids (SPEC §3)

What can be read of an id: its path is all before the first question mark, and the rest says which
part of the file is asked for.  An id that was written is read back (`parse_text`) if its path holds
no question mark and its scope token is one that a query can carry.
-/

namespace ComponentLoader

/-- A query can carry the part: its scope token is not empty and ends no pair. -/
def ModulePart.Writable : ModulePart → Prop
  | .script _ => True
  | .stylesheet scope _ => ∀ token, scope = some token → token ≠ [] ∧ '&' ∉ token

namespace ModuleId

/-! ## Reading -/

/-- An id without a query is a path; otherwise the query says which part is asked for. -/
theorem parse_eq_ok_iff {id : Text} {parsed : ModuleId} :
    parse id = .ok parsed ↔
      Text.cut '?' id = none ∧ parsed = ⟨⟨id⟩, none⟩ ∨
        ∃ path query asked part, Text.cut '?' id = some (path, query) ∧
          Query.parse query = .ok asked ∧ asked.part = .ok part ∧ parsed = ⟨⟨path⟩, part⟩ := by
  unfold parse
  cases Text.cut '?' id with
  | none => simp [eq_comm]
  | some found =>
      obtain ⟨path, query⟩ := found
      simp only [reduceCtorEq, false_and, Option.some.injEq, Prod.mk.injEq, false_or]
      constructor
      · intro h
        cases hquery : Query.parse query with
        | error e => simp [hquery, bind, Except.bind] at h
        | ok asked =>
            cases hpart : asked.part with
            | error e => simp [hquery, hpart, bind, Except.bind] at h
            | ok part =>
                simp only [hquery, hpart, bind, Except.bind] at h
                cases h
                exact ⟨path, query, asked, part, ⟨rfl, rfl⟩, hquery, hpart, rfl⟩
      · rintro ⟨_, _, asked, part, ⟨rfl, rfl⟩, hquery, hpart, rfl⟩
        simp only [hquery, hpart, bind, Except.bind]
        rfl

/-- The path of an id holds no question mark. -/
theorem not_mem_path_of_parse {id : Text} {parsed : ModuleId}
    (h : parse id = .ok parsed) : '?' ∉ parsed.path.text := by
  rcases parse_eq_ok_iff.mp h with ⟨hcut, rfl⟩ | ⟨path, query, asked, part, hcut, -, -, rfl⟩
  · exact Text.cut_eq_none_iff.mp hcut
  · exact Text.not_mem_of_cut_eq_some hcut

/-- The text of a path asks for that path, and for no part of it, exactly if it
has no question mark. -/
theorem parse_path_iff {path : FilePath} :
    parse path.text = .ok ⟨path, none⟩ ↔ '?' ∉ path.text := by
  constructor
  · exact not_mem_path_of_parse
  · intro hmark
    exact parse_eq_ok_iff.mpr (Or.inl ⟨Text.cut_eq_none_iff.mpr hmark, rfl⟩)

/-- The path of an id that can be read is all before its first question mark. -/
theorem path_eq_pathOf {id : Text} {parsed : ModuleId}
    (h : parse id = .ok parsed) : parsed.path = pathOf id := by
  unfold pathOf
  rcases parse_eq_ok_iff.mp h with ⟨hcut, rfl⟩ | ⟨path, query, asked, part, hcut, -, -, rfl⟩
  · rw [Text.upTo_of_not_mem (Text.cut_eq_none_iff.mp hcut)]
  · rw [Text.cut_eq_some hcut, Text.upTo_append_cons (Text.not_mem_of_cut_eq_some hcut)]

/-! ## Reading what was written -/

theorem readIndex?_decimal (index : UInt64) :
    readIndex? (Text.decimal index.toNat) = some index := by
  have hplus : Text.dropLead? "+" (Text.decimal index.toNat) = none := by
    cases hdrop : Text.dropLead? "+" (Text.decimal index.toNat) with
    | none => rfl
    | some rest =>
        have hmem : '+' ∈ Text.decimal index.toNat := by
          rw [Text.dropLead?_eq_some_iff.mp hdrop]
          exact List.mem_append_left _ List.mem_cons_self
        exact absurd hmem (Text.not_mem_decimal rfl _)
  unfold readIndex?
  rw [hplus, Option.getD_none, Text.readDecimal?_decimal]
  simp [UInt64.toNat_lt_size]

theorem splitPair_append_cons {key : Text} (h : '=' ∉ key) (value : Text) :
    splitPair (key ++ '=' :: value) = (key, value) := by
  unfold splitPair
  rw [Text.cut_append_cons h, Option.getD_some]

namespace Query

theorem add_kind (query : Query) (value : Text) :
    query.add ("type".toList ++ '=' :: value) = .ok { query with kind := some value } := by
  unfold add
  rw [splitPair_append_cons (by decide)]
  rfl

theorem add_index (query : Query) (index : UInt64) :
    query.add ("i".toList ++ '=' :: Text.decimal index.toNat) =
      .ok { query with index := some index } := by
  unfold add
  rw [splitPair_append_cons (by decide)]
  simp only
  rw [if_neg (by decide), if_pos trivial, readIndex?_decimal]

theorem add_scope (query : Query) {value : Text} (hne : value ≠ []) :
    query.add ("scope".toList ++ '=' :: value) = .ok { query with scope := some value } := by
  unfold add
  rw [splitPair_append_cons (by decide)]
  simp only
  rw [if_neg (by decide), if_neg (by decide), if_pos ⟨trivial, hne⟩]

end Query

theorem queryPairs_of_not_mem {pair : Text} (h : '&' ∉ pair) (hne : pair ≠ []) :
    queryPairs pair = [pair] := by
  unfold queryPairs
  rw [Text.splitOn_of_not_mem h]
  simp [hne]

theorem queryPairs_append_cons {pair : Text} (h : '&' ∉ pair) (hne : pair ≠ []) (rest : Text) :
    queryPairs (pair ++ '&' :: rest) = pair :: queryPairs rest := by
  unfold queryPairs
  rw [Text.splitOn_append_cons h]
  simp [hne]

/-- A pair ends where its value ends. -/
theorem not_mem_pair {key value : Text} (hkey : '&' ∉ key) (hvalue : '&' ∉ value) :
    '&' ∉ key ++ '=' :: value := by
  intro hmem
  rcases List.mem_append.mp hmem with hmem | hmem
  · exact hkey hmem
  · rcases List.mem_cons.mp hmem with heq | hmem
    · exact absurd heq (by decide)
    · exact hvalue hmem

theorem queryPairs_pair {key value : Text} (hkey : '&' ∉ key) (hvalue : '&' ∉ value) :
    queryPairs (key ++ '=' :: value) = [key ++ '=' :: value] :=
  queryPairs_of_not_mem (not_mem_pair hkey hvalue) (by simp)

theorem queryPairs_pair_cons {key value : Text} (hkey : '&' ∉ key) (hvalue : '&' ∉ value)
    (rest : Text) :
    queryPairs (key ++ '=' :: value ++ '&' :: rest) = (key ++ '=' :: value) :: queryPairs rest :=
  queryPairs_append_cons (not_mem_pair hkey hvalue) (by simp) rest

/-- The query that is written for a part asks for it. -/
theorem part_parse_queryText {part : ModulePart} (h : part.Writable) :
    ∃ asked, Query.parse (queryText part) = .ok asked ∧ asked.part = .ok (some part) := by
  have hindex (index : UInt64) : '&' ∉ Text.decimal index.toNat :=
    Text.not_mem_decimal rfl index.toNat
  unfold Query.parse
  cases part with
  | script index =>
      have htext : queryText (.script index) = ("type".toList ++ '=' :: scriptType) ++
          '&' :: ("i".toList ++ '=' :: Text.decimal index.toNat) := rfl
      rw [htext, queryPairs_pair_cons (by decide) (by decide),
        queryPairs_pair (by decide) (hindex index)]
      simp only [List.foldlM_cons, Query.add_kind, Query.add_index, bind, Except.bind]
      exact ⟨_, rfl, rfl⟩
  | stylesheet scope index =>
      -- the scope token and the index may each be there or not
      cases scope with
      | none =>
          cases index with
          | none => exact ⟨_, rfl, rfl⟩
          | some index =>
              have htext : queryText (.stylesheet none (some index)) =
                  ("type".toList ++ '=' :: stylesheetType) ++
                    '&' :: ("i".toList ++ '=' :: Text.decimal index.toNat) := rfl
              rw [htext, queryPairs_pair_cons (by decide) (by decide),
                queryPairs_pair (by decide) (hindex index)]
              simp only [List.foldlM_cons, Query.add_kind, Query.add_index, bind, Except.bind]
              exact ⟨_, rfl, rfl⟩
      | some token =>
          obtain ⟨hne, hend⟩ := h token rfl
          cases index with
          | none =>
              have htext : queryText (.stylesheet (some token) none) =
                  ("type".toList ++ '=' :: stylesheetType) ++
                    '&' :: ("scope".toList ++ '=' :: token) := List.append_nil _
              rw [htext, queryPairs_pair_cons (by decide) (by decide),
                queryPairs_pair (by decide) hend]
              simp only [List.foldlM_cons, Query.add_kind, Query.add_scope _ hne, bind, Except.bind]
              exact ⟨_, rfl, rfl⟩
          | some index =>
              have htext : queryText (.stylesheet (some token) (some index)) =
                  ("type".toList ++ '=' :: stylesheetType) ++
                    '&' :: (("scope".toList ++ '=' :: token) ++
                      '&' :: ("i".toList ++ '=' :: Text.decimal index.toNat)) :=
                List.append_assoc _ _ _
              rw [htext, queryPairs_pair_cons (by decide) (by decide),
                queryPairs_pair_cons (by decide) hend, queryPairs_pair (by decide) (hindex index)]
              simp only [List.foldlM_cons, Query.add_kind, Query.add_scope _ hne, Query.add_index,
                bind, Except.bind]
              exact ⟨_, rfl, rfl⟩

/-- An id that was written is read back. -/
theorem parse_text {id : ModuleId} (hpath : '?' ∉ id.path.text)
    (hpart : ∀ part, id.part = some part → part.Writable) : parse id.text = .ok id := by
  obtain ⟨path, part⟩ := id
  cases part with
  | none => exact parse_path_iff.mpr hpath
  | some part =>
      obtain ⟨asked, hquery, hasked⟩ := part_parse_queryText (hpart part rfl)
      exact parse_eq_ok_iff.mpr
        (Or.inr ⟨path.text, queryText part, asked, some part,
          Text.cut_append_cons hpath (queryText part), hquery, hasked, rfl⟩)

end ModuleId

end ComponentLoader
