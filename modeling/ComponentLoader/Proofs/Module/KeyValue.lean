import ComponentLoader.Proofs.Module.Id
import Mathlib.Data.List.Induction
import Mathlib.Data.List.Nodup
set_option autoImplicit false

/-!
# What a query says (SPEC §3)

A query says what its pairs give the keys `type`, `i` and `scope`, and it says nothing else: it can
be read by the values of each key (`parse_eq_ofPairs`).  Pairs with other keys stand between these
without meaning, and so do empty pairs.  Where each key is given once, its pair may stand anywhere
(`parse_eq_of_perm_ownPairs`).

A value of `i` that is no index makes the whole id unreadable, whatever it is for.  So an id
whose query has no `type` is one of a plain file only as long as every `i` in it has an
index (`parse_of_no_type`).
-/

namespace ComponentLoader.ModuleId

/-! ## Values of keys -/

/-- The pairs of a query as keys and values, in order. -/
def keyValues (query : Text) : List (Text × Text) :=
  (queryPairs query).map splitPair

/-- The values that some pairs give a key, in order. -/
def valuesOf (key : Text) (pairs : List (Text × Text)) : List Text :=
  (pairs.filter fun pair => pair.1 = key).map Prod.snd

theorem valuesOf_concat (key : Text) (pairs : List (Text × Text)) (pair : Text × Text) :
    valuesOf key (pairs ++ [pair]) =
      valuesOf key pairs ++ if pair.1 = key then [pair.2] else [] := by
  unfold valuesOf
  rw [List.filter_append, List.map_append]
  by_cases h : pair.1 = key <;> simp [h]

theorem mem_valuesOf {key value : Text} {pairs : List (Text × Text)} :
    value ∈ valuesOf key pairs ↔ (key, value) ∈ pairs := by
  simp [valuesOf]

/-- Only pairs with an empty key are left out. -/
theorem mem_keyValues_iff {key value : Text} (hkey : key ≠ []) {query : Text} :
    (key, value) ∈ keyValues query ↔
      ∃ pair ∈ Text.splitOn '&' query, splitPair pair = (key, value) := by
  unfold keyValues queryPairs
  simp only [List.mem_map, List.mem_filter, decide_eq_true_eq]
  constructor
  · rintro ⟨pair, ⟨hmem, -⟩, hpair⟩
    exact ⟨pair, hmem, hpair⟩
  · rintro ⟨pair, hmem, hpair⟩
    refine ⟨pair, ⟨hmem, ?_⟩, hpair⟩
    rintro rfl
    exact hkey (congrArg Prod.fst hpair).symm

/-- The first of some values that is no index. -/
def badIndex? (values : List Text) : Option Text :=
  values.find? fun value => (readIndex? value).isNone

namespace Query

/-- What the values of the three keys say: the first one that should be an index and is none is an
error, and otherwise the last value of each key counts, where an empty scope token is none. -/
def ofValues (kinds indices scopes : List Text) : Except ModuleIdError Query :=
  match badIndex? indices with
  | some value => .error (.invalidIndex value)
  | none => .ok {
      kind := kinds.getLast?
      index := indices.getLast?.bind readIndex?
      scope := (scopes.filter (· ≠ [])).getLast? }

theorem ofValues_concat_kind (kinds indices scopes : List Text) (value : Text) :
    ofValues (kinds ++ [value]) indices scopes =
      (ofValues kinds indices scopes).bind fun query => .ok { query with kind := some value } := by
  unfold ofValues
  split
  · rfl
  · simp [Except.bind]

theorem ofValues_concat_index (kinds indices scopes : List Text) (value : Text) :
    ofValues kinds (indices ++ [value]) scopes =
      (ofValues kinds indices scopes).bind fun query =>
        match readIndex? value with
        | some index => .ok { query with index := some index }
        | none => .error (.invalidIndex value) := by
  unfold ofValues
  have happend : badIndex? (indices ++ [value]) = (badIndex? indices).or (badIndex? [value]) :=
    List.find?_append
  rw [happend]
  cases badIndex? indices with
  | some bad => rfl
  | none =>
      cases hvalue : readIndex? value with
      | none => simp [badIndex?, hvalue, Except.bind]
      | some index => simp [badIndex?, hvalue, Except.bind]

theorem ofValues_concat_scope (kinds indices scopes : List Text) {value : Text} (h : value ≠ []) :
    ofValues kinds indices (scopes ++ [value]) =
      (ofValues kinds indices scopes).bind fun query => .ok { query with scope := some value } := by
  unfold ofValues
  split
  · rfl
  · simp [Except.bind, h]

theorem ofValues_concat_nil (kinds indices scopes : List Text) :
    ofValues kinds indices (scopes ++ [[]]) = ofValues kinds indices scopes := by
  simp [ofValues]

/-- What some pairs say. -/
def ofPairs (pairs : List (Text × Text)) : Except ModuleIdError Query :=
  ofValues (valuesOf "type" pairs) (valuesOf "i" pairs) (valuesOf "scope" pairs)

/-- What they say after one more pair. -/
theorem ofPairs_concat (pairs : List (Text × Text)) (pair : Text) :
    ofPairs (pairs ++ [splitPair pair]) = (ofPairs pairs).bind fun query => query.add pair := by
  unfold ofPairs Query.add
  simp only [valuesOf_concat]
  generalize splitPair pair = said
  obtain ⟨key, value⟩ := said
  have htype : "type".toList ≠ "i".toList ∧ "type".toList ≠ "scope".toList := by decide
  have hindex : "i".toList ≠ "type".toList ∧ "i".toList ≠ "scope".toList := by decide
  have hscope : "scope".toList ≠ "type".toList ∧ "scope".toList ≠ "i".toList := by decide
  by_cases hkeyType : key = "type".toList
  · subst hkeyType
    simp only [if_pos, if_neg htype.1, if_neg htype.2, List.append_nil, ofValues_concat_kind]
  by_cases hkeyIndex : key = "i".toList
  · subst hkeyIndex
    simp only [if_pos, if_neg hindex.1, if_neg hindex.2, List.append_nil]
    exact ofValues_concat_index _ _ _ _
  by_cases hkeyScope : key = "scope".toList
  · subst hkeyScope
    simp only [if_pos, if_neg hscope.1, if_neg hscope.2, List.append_nil]
    by_cases hvalue : value = []
    · simp only [hvalue, ofValues_concat_nil, ne_eq, not_true, and_false, if_false]
      exact (bind_pure _).symm
    · simp only [hvalue, ofValues_concat_scope _ _ _ hvalue, ne_eq, not_false_eq_true, and_true,
        if_true]
  -- a foreign pair adds no value and changes nothing
  · simp only [if_neg hkeyType, if_neg hkeyIndex, hkeyScope, false_and, if_false, List.append_nil]
    exact (bind_pure _).symm

/-- A query is read to what its pairs say. -/
theorem parse_eq_ofPairs (query : Text) : Query.parse query = ofPairs (keyValues query) := by
  unfold Query.parse keyValues
  induction queryPairs query using List.reverseRecOn with
  | nil => rfl
  | append_singleton pairs pair ih =>
      rw [List.foldlM_append, ih, List.map_append, List.map_singleton, ofPairs_concat]
      exact congrArg _ (funext fun query => by rw [List.foldlM_cons]; exact bind_pure _)

theorem scope_of_parse {text : Text} {query : Query} (h : Query.parse text = .ok query) :
    query.scope = ((valuesOf "scope" (keyValues text)).filter (· ≠ [])).getLast? := by
  rw [parse_eq_ofPairs, ofPairs, ofValues] at h
  split at h
  · cases h
  · cases h
    rfl

end Query

/-! ## Ids without a type -/

/-- An id is read by what the pairs of its query say. -/
theorem parse_eq_of_cut {id path query : Text} (h : Text.cut '?' id = some (path, query)) :
    parse id = (Query.ofPairs (keyValues query)).bind fun asked =>
      asked.part.bind fun part => .ok ⟨⟨path⟩, part⟩ := by
  unfold parse
  rw [h, ← Query.parse_eq_ofPairs]
  rfl

/-- Without a type only an index that cannot be read makes a difference. -/
theorem parse_eq_of_valuesOf_type {id path query : Text} (h : Text.cut '?' id = some (path, query))
    (htype : valuesOf "type" (keyValues query) = []) :
    parse id =
      match badIndex? (valuesOf "i" (keyValues query)) with
      | some value => .error (.invalidIndex value)
      | none => .ok ⟨⟨path⟩, none⟩ := by
  rw [parse_eq_of_cut h, Query.ofPairs, Query.ofValues, htype]
  cases badIndex? (valuesOf "i" (keyValues query)) <;> rfl

/-- A query without a type asks for a plain file exactly if every value that it gives the key `i` is
an index.  Otherwise the id cannot be read, for the first such value that is none. -/
theorem parse_of_no_type {path query : Text} (hpath : '?' ∉ path)
    (htype : ∀ pair ∈ Text.splitOn '&' query, (splitPair pair).1 ≠ "type".toList) :
    (parse (path ++ '?' :: query) = .ok ⟨⟨path⟩, none⟩ ↔
      ∀ pair ∈ Text.splitOn '&' query, (splitPair pair).1 = "i".toList →
        (readIndex? (splitPair pair).2).isSome) ∧
    ∀ e, parse (path ++ '?' :: query) = .error e ↔
      ∃ value, badIndex? (valuesOf "i" (keyValues query)) = some value ∧
        e = .invalidIndex value := by
  have hkind : valuesOf "type" (keyValues query) = [] := by
    refine List.eq_nil_iff_forall_not_mem.mpr fun value hmem => ?_
    obtain ⟨pair, hpair, hsplit⟩ := (mem_keyValues_iff (by decide)).mp (mem_valuesOf.mp hmem)
    exact htype pair hpair (congrArg Prod.fst hsplit)
  have hindices : badIndex? (valuesOf "i" (keyValues query)) = none ↔
      ∀ pair ∈ Text.splitOn '&' query, (splitPair pair).1 = "i".toList →
        (readIndex? (splitPair pair).2).isSome := by
    unfold badIndex?
    rw [List.find?_eq_none]
    constructor
    · intro hall pair hpair hkey
      have hmem : (splitPair pair).2 ∈ valuesOf "i" (keyValues query) :=
        mem_valuesOf.mpr ((mem_keyValues_iff (by decide)).mpr ⟨pair, hpair, Prod.ext hkey rfl⟩)
      simpa [Option.isSome_iff_ne_none] using hall _ hmem
    · intro hall value hmem
      obtain ⟨pair, hpair, hsplit⟩ := (mem_keyValues_iff (by decide)).mp (mem_valuesOf.mp hmem)
      have hindex := hall pair hpair (congrArg Prod.fst hsplit)
      rw [hsplit] at hindex
      simpa [Option.isSome_iff_ne_none] using hindex
  rw [parse_eq_of_valuesOf_type (Text.cut_append_cons hpath query) hkind, ← hindices]
  cases badIndex? (valuesOf "i" (keyValues query)) with
  | none => simp
  | some value => simp [eq_comm]

/-- A sign and leading zeros of an index, an empty pair and a key that only begins like one do not
matter. -/
theorem parse_of_no_type_crowded :
    let path : Text := "src/card.html"
    let query : Text := "v=1&i=+007&&scope=x&types=componentScript"
    '?' ∉ path ∧ (∀ pair ∈ Text.splitOn '&' query, (splitPair pair).1 ≠ "type".toList) ∧
      parse (path ++ '?' :: query) = .ok ⟨⟨path⟩, none⟩ := by
  intro path query
  have hpath : '?' ∉ path := by decide
  have htype : ∀ pair ∈ Text.splitOn '&' query, (splitPair pair).1 ≠ "type".toList := by decide
  exact ⟨hpath, htype, (parse_of_no_type hpath htype).1.mpr (by decide)⟩

/-- A query without a type in which another meaning of `i` makes the id unreadable. -/
theorem parse_of_no_type_foreign_index :
    '?' ∉ "src/card.html".toList ∧
      (∀ pair ∈ Text.splitOn '&' "i=first", (splitPair pair).1 ≠ "type".toList) ∧
      parse "src/card.html?i=first" = .error (.invalidIndex "first") ∧
      parse "src/card.html?i=first" ≠ .ok ⟨⟨"src/card.html"⟩, none⟩ := by
  decide

/-! ## The order of pairs -/

/-- The keys that mean something. -/
def keys : List Text :=
  ["type", "i", "scope"]

/-- The pairs of a query whose keys mean something, in order. -/
def ownPairs (query : Text) : List (Text × Text) :=
  (keyValues query).filter fun pair => pair.1 ∈ keys

theorem valuesOf_ownPairs {key : Text} (h : key ∈ keys) (query : Text) :
    valuesOf key (ownPairs query) = valuesOf key (keyValues query) := by
  unfold valuesOf ownPairs
  rw [List.filter_filter]
  refine congrArg _ (List.filter_congr fun pair _ => ?_)
  by_cases hkey : pair.1 = key <;> simp [hkey, h]

theorem length_valuesOf_le_one {pairs : List (Text × Text)} (h : (pairs.map Prod.fst).Nodup)
    (key : Text) : (valuesOf key pairs).length ≤ 1 := by
  have hcount := List.nodup_iff_count_le_one.mp h key
  rw [List.count, List.countP_map, List.countP_eq_length_filter] at hcount
  rw [valuesOf, List.length_map]
  simpa [Function.comp_def, beq_eq_decide] using hcount

/-- A key that is given once has the same value wherever its pair stands. -/
theorem valuesOf_eq_of_perm {pairs pairs' : List (Text × Text)} (h : pairs.Perm pairs')
    (hkeys : (pairs.map Prod.fst).Nodup) (key : Text) :
    valuesOf key pairs = valuesOf key pairs' := by
  have hperm : (valuesOf key pairs).Perm (valuesOf key pairs') := (h.filter _).map _
  have hlength := length_valuesOf_le_one hkeys key
  cases hvalues : valuesOf key pairs with
  | nil =>
      rw [hvalues] at hperm
      exact (List.nil_perm.mp hperm).symm
  | cons value rest =>
      rw [hvalues] at hperm hlength
      obtain rfl : rest = [] :=
        List.eq_nil_of_length_eq_zero (Nat.le_zero.mp (Nat.le_of_succ_le_succ hlength))
      exact List.singleton_perm.mp hperm

/-- A query says what the values of its own keys say. -/
theorem ofPairs_eq_of_valuesOf {query query' : Text}
    (h : ∀ key ∈ keys, valuesOf key (ownPairs query) = valuesOf key (ownPairs query')) :
    Query.ofPairs (keyValues query) = Query.ofPairs (keyValues query') := by
  have hvalues (key : Text) (hkey : key ∈ keys) :
      valuesOf key (keyValues query) = valuesOf key (keyValues query') := by
    rw [← valuesOf_ownPairs hkey, ← valuesOf_ownPairs hkey, h key hkey]
  unfold Query.ofPairs
  rw [hvalues _ (by decide), hvalues _ (by decide), hvalues _ (by decide)]

/-- Ids with one path whose queries have the same pairs of their own keys, each key at most
once, are read alike, or refused for the same reason: neither the order of these pairs matters
nor what stands between them. -/
theorem parse_eq_of_perm_ownPairs {id id' path query query' : Text}
    (hid : Text.cut '?' id = some (path, query)) (hid' : Text.cut '?' id' = some (path, query'))
    (hpairs : (ownPairs query).Perm (ownPairs query'))
    (hkeys : ((ownPairs query).map Prod.fst).Nodup) : parse id = parse id' := by
  rw [parse_eq_of_cut hid, parse_eq_of_cut hid',
    ofPairs_eq_of_valuesOf fun key _ => valuesOf_eq_of_perm hpairs hkeys key]

/-- Of two mistakes the same one is found in whatever order they are made. -/
theorem parse_eq_of_perm_ownPairs_refused :
    let id : Text := "a//b.html?type=componentImage&v=2&i=x"
    let id' : Text := "a//b.html?&i=x&&hash&type=componentImage&"
    Text.cut '?' id = some ("a//b.html".toList, "type=componentImage&v=2&i=x".toList) ∧
      Text.cut '?' id' = some ("a//b.html".toList, "&i=x&&hash&type=componentImage&".toList) ∧
      (ownPairs "type=componentImage&v=2&i=x").Perm (ownPairs "&i=x&&hash&type=componentImage&") ∧
      ((ownPairs "type=componentImage&v=2&i=x").map Prod.fst).Nodup ∧
      parse id = parse id' ∧ parse id = .error (.invalidIndex "x") := by
  intro id id'
  have hid : Text.cut '?' id = some ("a//b.html".toList, "type=componentImage&v=2&i=x".toList) := by
    decide
  have hid' : Text.cut '?' id' =
      some ("a//b.html".toList, "&i=x&&hash&type=componentImage&".toList) := by decide
  have hpairs : (ownPairs "type=componentImage&v=2&i=x").Perm
      (ownPairs "&i=x&&hash&type=componentImage&") := by decide
  have hkeys : ((ownPairs "type=componentImage&v=2&i=x").map Prod.fst).Nodup := by decide
  exact ⟨hid, hid', hpairs, hkeys, parse_eq_of_perm_ownPairs hid hid' hpairs hkeys, by rfl⟩

end ComponentLoader.ModuleId
