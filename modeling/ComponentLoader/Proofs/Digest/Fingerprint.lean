import ComponentLoader.Digest.Fingerprint
import ComponentLoader.Proofs.Module.Id
set_option autoImplicit false

/-!
# What a fingerprint consists of (SPEC §4.6, §8)

A fingerprint may stand in a class name, an attribute name and a query because of its characters
alone: they are ASCII letters and digits, `-` and `_`, whatever the text is.  So no character that
separates the pairs of a query, or that ends a path, can come from one, and every scope token that
is made of one can be written in an id.
-/

namespace ComponentLoader

/-! ## Symbols -/

/-- Numbers beyond the alphabet have the last symbol, so sixty-four of them are all. -/
theorem Base64.forall_symbol {p : Char → Prop} (h : ∀ m : Fin 64, p (symbol m)) (n : Nat) :
    p (symbol n) := by
  by_cases hn : n < 64
  · exact h ⟨n, hn⟩
  · have hlast : symbol n = symbol (63 : Fin 64) := by
      unfold symbol
      rw [if_neg (by omega), if_neg (by omega), if_neg (by omega), if_neg (by omega)]
      rfl
    rw [hlast]
    exact h 63

/-- Every character of an encoding fills up the last group or is a symbol. -/
theorem Base64.eq_padding_or_symbol_of_mem {bytes : List UInt8} {c : Char}
    (h : c ∈ encode bytes) : c = padding ∨ ∃ n, c = symbol n := by
  fun_induction encode bytes with
  | case1 => cases h
  | case2 a n =>
      simp only [List.mem_cons, List.not_mem_nil, or_false] at h
      rcases h with rfl | rfl | rfl | rfl
      · exact Or.inr ⟨_, rfl⟩
      · exact Or.inr ⟨_, rfl⟩
      · exact Or.inl rfl
      · exact Or.inl rfl
  | case3 a b n =>
      simp only [List.mem_cons, List.not_mem_nil, or_false] at h
      rcases h with rfl | rfl | rfl | rfl
      · exact Or.inr ⟨_, rfl⟩
      · exact Or.inr ⟨_, rfl⟩
      · exact Or.inr ⟨_, rfl⟩
      · exact Or.inl rfl
  | case4 a b c d n ih =>
      simp only [List.mem_cons] at h
      rcases h with rfl | rfl | rfl | rfl | hrest
      · exact Or.inr ⟨_, rfl⟩
      · exact Or.inr ⟨_, rfl⟩
      · exact Or.inr ⟨_, rfl⟩
      · exact Or.inr ⟨_, rfl⟩
      · exact ih hrest

namespace Fingerprint

/-- Whether a character may stand in a fingerprint. -/
def isTokenChar (c : Char) : Bool :=
  c.isAlphanum || c = '-' || c = '_'

theorem isTokenChar_iff {c : Char} :
    isTokenChar c = true ↔
      'A' ≤ c ∧ c ≤ 'Z' ∨ 'a' ≤ c ∧ c ≤ 'z' ∨ '0' ≤ c ∧ c ≤ '9' ∨ c = '-' ∨ c = '_' := by
  have hupper : c.isUpper = true ↔ 'A' ≤ c ∧ c ≤ 'Z' := decide_eq_true_iff
  have hlower : c.isLower = true ↔ 'a' ≤ c ∧ c ≤ 'z' :=
    Bool.and_eq_true_iff.trans (and_congr decide_eq_true_iff decide_eq_true_iff)
  have hdigit : c.isDigit = true ↔ '0' ≤ c ∧ c ≤ '9' :=
    Bool.and_eq_true_iff.trans (and_congr decide_eq_true_iff decide_eq_true_iff)
  have hkinds : isTokenChar c = (c.isUpper || c.isLower || c.isDigit || c = '-' || c = '_') := rfl
  simp only [hkinds, Bool.or_eq_true, decide_eq_true_eq, hupper, hlower, hdigit, or_assoc]

theorem isTokenChar_safeSymbol (n : Nat) : isTokenChar (safeSymbol (Base64.symbol n)) = true :=
  Base64.forall_symbol (p := fun c => isTokenChar (safeSymbol c) = true) (by decide) n

theorem isTokenChar_of_mem {text : Text} {c : Char} (h : c ∈ ofText text) :
    isTokenChar c = true := by
  have hmem := List.mem_of_mem_take h
  obtain ⟨raw, hraw, rfl⟩ := List.mem_map.mp hmem
  obtain ⟨hencoded, hkept⟩ := List.mem_filter.mp hraw
  have hne : raw ≠ Base64.padding := of_decide_eq_true hkept
  rcases Base64.eq_padding_or_symbol_of_mem hencoded with rfl | ⟨n, rfl⟩
  · exact absurd rfl hne
  · exact isTokenChar_safeSymbol n

/-- No other character stands in a fingerprint. -/
theorem not_mem_ofText {c : Char} (h : isTokenChar c = false) (text : Text) : c ∉ ofText text := by
  intro hmem
  rw [isTokenChar_of_mem hmem] at h
  cases h

end Fingerprint

/-- The token that is made from a seed can stand in a query. -/
theorem Naming.writable_scopeToken (seed : Text) (index : Option UInt64) :
    (ModulePart.stylesheet (some (scopeToken seed)) index).Writable := by
  rintro token ⟨⟩
  refine ⟨List.cons_ne_nil _ _, ?_⟩
  intro hmem
  rcases List.mem_cons.mp hmem with heq | hmem
  · exact absurd heq (by decide)
  · exact Fingerprint.not_mem_ofText (by decide) _ hmem

end ComponentLoader
