import ComponentLoader.Proofs.Cache.Pass
import Mathlib.Data.Finset.Card
set_option autoImplicit false

/-!
# What a memo answers in the course of time (SPEC §3, §4.1)

Files change while a memo is asked for their identities, and from time to time a pass begins.  A
watch is the memo among its files, together with the questions of the pass, which the memo itself
does not keep.  They decide all that it answers and remembers (`IdentityWatch.Recalls`, kept by
every event): for each path it is the first question that found an identity which counts, under
whatever spelling it was asked, and a question that found none leaves no trace.
-/

namespace ComponentLoader

/-- A question for the identity of a path: what the files showed when it was
asked, and the answer. -/
structure IdentityQuestion where
  path : FilePath
  shown : Except IdentityError CacheKey
  answer : Except IdentityError CacheKey

/-- What happens to a memo or to the files. -/
inductive IdentityEvent where
  | edit (change : FileEdit)
  | ask (path : FilePath)
  | beginPass

/-- A memo among files, with the questions that it was asked in this pass. -/
structure IdentityWatch where
  files : FileTree
  memo : IdentityMemo
  questions : List IdentityQuestion

namespace IdentityWatch

/-! ## Events -/

/-- The watch before anything happened. -/
def start (files : FileTree) : IdentityWatch := ⟨files, .empty, []⟩

/-- What a question for a path is answered. -/
def answer (watch : IdentityWatch) (path : FilePath) : Except IdentityError CacheKey :=
  (watch.memo.identity watch.files path).map Prod.fst

/-- The memo after a question for a path; one that fails changes nothing. -/
def memoAfter (watch : IdentityWatch) (path : FilePath) : IdentityMemo :=
  match watch.memo.identity watch.files path with
  | .ok (_, memo) => memo
  | .error _ => watch.memo

/-- The watch after an event. -/
def next (watch : IdentityWatch) : IdentityEvent → IdentityWatch
  | .edit change => { watch with files := watch.files.edit change }
  | .ask path =>
    { watch with
      memo := watch.memoAfter path
      questions := watch.questions ++
        [⟨path, IdentityMemo.observe watch.files path, watch.answer path⟩] }
  | .beginPass => { watch with memo := .empty, questions := [] }

/-- The watch after some events. -/
def run (watch : IdentityWatch) (events : List IdentityEvent) : IdentityWatch :=
  events.foldl next watch

/-! ## Questions that found something -/

/-- The questions of the pass that were answered with an identity. -/
def found (watch : IdentityWatch) : List IdentityQuestion :=
  watch.questions.filter fun question => question.answer.isOk

/-- The first of them for a path, under any spelling of it. -/
def first? (watch : IdentityWatch) (path : FilePath) : Option IdentityQuestion :=
  watch.found.find? fun question => question.path.Same path

theorem exists_key_of_first? {watch : IdentityWatch} {path : FilePath} {question : IdentityQuestion}
    (h : watch.first? path = some question) : ∃ key, question.answer = .ok key := by
  have hok : question.answer.isOk = true := (List.mem_filter.mp (List.mem_of_find?_eq_some h)).2
  cases hanswer : question.answer with
  | ok key => exact ⟨key, rfl⟩
  | error e => simp [hanswer, Except.isOk, Except.toBool] at hok

/-- What a memo remembers of a path is what the first question which found something was answered,
and this is what the files showed when it was asked. -/
structure Recalls (watch : IdentityWatch) : Prop where
  known_eq : ∀ path, watch.memo.known.get? path =
    (watch.first? path).bind fun question => question.answer.toOption
  answer_eq : ∀ path question, watch.first? path = some question → question.answer = question.shown
  sorted : watch.memo.known.Sorted

theorem recalls_start (files : FileTree) : (start files).Recalls where
  known_eq _ := rfl
  answer_eq _ _ h := nomatch h
  sorted := OrderedMap.sorted_empty

/-! ## Steps -/

/-- What is remembered is answered; otherwise the files are looked at, and an identity that
they show is remembered. -/
theorem answer_cases (watch : IdentityWatch) (path : FilePath) :
    (∃ key, watch.memo.known.get? path = some key ∧ watch.answer path = .ok key ∧
        watch.memoAfter path = watch.memo) ∨
      watch.memo.known.get? path = none ∧
        watch.answer path = IdentityMemo.observe watch.files path ∧
        ((∃ key, watch.answer path = .ok key ∧
            watch.memoAfter path = ⟨watch.memo.known.insert path key⟩) ∨
          ∃ e, watch.answer path = .error e ∧ watch.memoAfter path = watch.memo) := by
  unfold answer memoAfter IdentityMemo.identity
  cases hknown : watch.memo.known.get? path with
  | some key => exact Or.inl ⟨key, rfl, rfl, rfl⟩
  | none =>
      refine Or.inr ⟨rfl, ?_⟩
      cases IdentityMemo.observe watch.files path with
      | ok key => exact ⟨rfl, Or.inl ⟨key, rfl, rfl⟩⟩
      | error e => exact ⟨rfl, Or.inr ⟨e, rfl, rfl⟩⟩

/-- After a question the memo knows an answer for the spellings of the path,
unless it knew one before. -/
theorem get?_memoAfter (watch : IdentityWatch) (path asked : FilePath) :
    (watch.memoAfter path).known.get? asked =
      (watch.memo.known.get? asked).or
        (if path.Same asked then (watch.answer path).toOption else none) := by
  have hcongr (h : path.Same asked) : watch.memo.known.get? path = watch.memo.known.get? asked :=
    OrderedMap.get?_congr (FilePath.compare_eq_iff_same.mpr h)
  rcases watch.answer_cases path with
    ⟨key, hknown, hanswer, hmemo⟩ | ⟨hknown, -, ⟨key, hanswer, hmemo⟩ | ⟨e, hanswer, hmemo⟩⟩
  · by_cases hsame : path.Same asked
    · simp [hmemo, ← hcongr hsame, hknown]
    · simp [hmemo, hsame]
  · by_cases hsame : path.Same asked
    · have hcompare := FilePath.compare_eq_iff_same.mpr hsame.symm
      simp [hmemo, OrderedMap.get?_insert, hcompare, ← hcongr hsame, hknown, hsame, hanswer,
        Except.toOption]
    · have hcompare : compare asked path ≠ .eq :=
        fun h => hsame (FilePath.compare_eq_iff_same.mp h).symm
      simp [hmemo, OrderedMap.get?_insert, hcompare, hsame]
  · simp [hmemo, hanswer, Except.toOption]

/-- In the same way it is the first question for these spellings, unless there was one before. -/
theorem first?_ask (watch : IdentityWatch) (path asked : FilePath) :
    (watch.next (.ask path)).first? asked =
      (watch.first? asked).or
        (if (watch.answer path).isOk ∧ path.Same asked then
          some ⟨path, IdentityMemo.observe watch.files path, watch.answer path⟩
        else none) := by
  unfold first? found next
  rw [List.filter_append, List.find?_append]
  cases hok : (watch.answer path).isOk with
  | false => simp [hok]
  | true => by_cases hsame : path.Same asked <;> simp [hok, hsame]

variable {watch : IdentityWatch} {path : FilePath}

theorem Recalls.get?_eq_none_iff (h : watch.Recalls) :
    watch.memo.known.get? path = none ↔ watch.first? path = none := by
  rw [h.known_eq]
  cases hfirst : watch.first? path with
  | none => simp
  | some question =>
      obtain ⟨key, hanswer⟩ := exists_key_of_first? hfirst
      simp [hanswer, Except.toOption]

theorem Recalls.ask (h : watch.Recalls) (path : FilePath) : (watch.next (.ask path)).Recalls where
  known_eq asked := by
    rw [first?_ask, next, get?_memoAfter, h.known_eq]
    cases hfirst : watch.first? asked with
    | some question =>
        obtain ⟨key, hanswer⟩ := exists_key_of_first? hfirst
        simp [hanswer, Except.toOption]
    | none =>
        by_cases hsame : path.Same asked <;>
          cases hanswer : watch.answer path <;>
            simp [hsame, Except.toOption, Except.isOk, Except.toBool]
  answer_eq asked question hquestion := by
    rw [first?_ask] at hquestion
    rcases Option.or_eq_some_iff.mp hquestion with hold | ⟨hnone, hnew⟩
    · exact h.answer_eq asked question hold
    · -- the first question for a path finds nothing in the memo
      rw [Option.ite_none_right_eq_some] at hnew
      obtain ⟨⟨-, hsame⟩, hnew⟩ := hnew
      cases hnew
      have hunknown : watch.memo.known.get? path = none := by
        rw [OrderedMap.get?_congr (FilePath.compare_eq_iff_same.mpr hsame), h.get?_eq_none_iff,
          hnone]
      rcases watch.answer_cases path with ⟨key, hknown, -⟩ | ⟨-, hshown, -⟩
      · rw [hunknown] at hknown
        cases hknown
      · exact hshown
  sorted := by
    rcases watch.answer_cases path with ⟨key, -, -, hmemo⟩ | ⟨-, -, ⟨key, -, hmemo⟩ | ⟨e, -, hmemo⟩⟩
    · rw [next, hmemo]
      exact h.sorted
    · rw [next, hmemo]
      exact h.sorted.insert path key
    · rw [next, hmemo]
      exact h.sorted

theorem Recalls.next (h : watch.Recalls) (event : IdentityEvent) : (watch.next event).Recalls := by
  cases event with
  | edit change => exact ⟨h.known_eq, h.answer_eq, h.sorted⟩
  | ask path => exact h.ask path
  | beginPass => exact ⟨fun _ => rfl, fun _ _ hfirst => (nomatch hfirst), OrderedMap.sorted_empty⟩

theorem Recalls.run (h : watch.Recalls) (events : List IdentityEvent) :
    (watch.run events).Recalls := by
  induction events generalizing watch with
  | nil => exact h
  | cons event rest ih => exact ih (h.next event)

/-! ## Answers -/

/-- The answer is what the first question for the path was shown, if there was one. -/
theorem Recalls.answer_eq_shown (h : watch.Recalls) (path : FilePath) :
    watch.answer path =
      match watch.first? path with
      | some first => first.shown
      | none => IdentityMemo.observe watch.files path := by
  rcases watch.answer_cases path with ⟨key, hknown, hanswer, -⟩ | ⟨hknown, hshown, -⟩
  · rw [h.known_eq] at hknown
    obtain ⟨first, hfirst, hkey⟩ := Option.bind_eq_some_iff.mp hknown
    obtain ⟨key', hkey'⟩ := exists_key_of_first? hfirst
    rw [hkey', Except.toOption, Option.some.injEq] at hkey
    rw [hfirst, hanswer, ← hkey, ← hkey', h.answer_eq path first hfirst]
  · rw [h.get?_eq_none_iff.mp hknown, hshown]

/-- A path is in the memo under some spelling exactly if a question found something for it. -/
theorem Recalls.exists_key_iff (h : watch.Recalls) (path : FilePath) :
    (∃ key ∈ watch.memo.known.keys, key.Same path) ↔
      ∃ question ∈ watch.found, question.path.Same path := by
  have hknown : (∃ key ∈ watch.memo.known.keys, key.Same path) ↔
      watch.memo.known.get? path ≠ none := by
    rw [ne_eq, OrderedMap.get?_eq_none_iff]
    simp only [not_forall, not_not, exists_prop, FilePath.compare_eq_iff_same]
    exact exists_congr fun key => and_congr_right fun _ => ⟨.symm, .symm⟩
  have hfirst : (∃ question ∈ watch.found, question.path.Same path) ↔ watch.first? path ≠ none := by
    simp [first?]
  rw [hknown, hfirst, ne_eq, ne_eq, h.get?_eq_none_iff]

/-- So it remembers as many paths as were found, however often and under however many spellings. -/
theorem Recalls.size_eq (h : watch.Recalls) :
    watch.memo.size = (watch.found.map fun question => question.path.segments).toFinset.card := by
  have hnodup : (watch.memo.known.keys.map FilePath.segments).Nodup := by
    rw [OrderedMap.keys, List.map_map, List.Nodup, List.pairwise_map]
    refine h.sorted.imp fun {entry later} hlt hsame => ?_
    rw [FilePath.compare_eq_iff_same.mpr hsame] at hlt
    cases hlt
  have hsame : (watch.memo.known.keys.map FilePath.segments).toFinset =
      (watch.found.map fun question => question.path.segments).toFinset := by
    ext segments
    simp only [List.mem_toFinset, List.mem_map]
    constructor
    · rintro ⟨key, hkey, rfl⟩
      exact (h.exists_key_iff key).mp ⟨key, hkey, .refl key⟩
    · rintro ⟨question, hquestion, rfl⟩
      exact (h.exists_key_iff question.path).mpr ⟨question, hquestion, .refl question.path⟩
  rw [← hsame, List.toFinset_card_of_nodup hnodup, List.length_map, OrderedMap.keys,
    List.length_map]
  rfl

/-- A question that finds nothing leaves no trace in the memo, and is no first one. -/
theorem Recalls.ask_of_error (h : watch.Recalls) {e : IdentityError}
    (herror : watch.answer path = .error e) :
    (watch.next (.ask path)).memo = watch.memo ∧ (watch.next (.ask path)).first? path = none := by
  rcases watch.answer_cases path with
    ⟨key, -, hanswer, -⟩ | ⟨hknown, -, ⟨key, hanswer, -⟩ | ⟨-, -, hmemo⟩⟩
  · rw [hanswer] at herror
    cases herror
  · rw [hanswer] at herror
    cases herror
  · refine ⟨hmemo, ?_⟩
    rw [first?_ask, h.get?_eq_none_iff.mp hknown, herror]
    simp [Except.isOk, Except.toBool]

/-- Whatever happens to the files, the questions stay. -/
theorem first?_run_edits (watch : IdentityWatch) (changes : List FileEdit) (path : FilePath) :
    (watch.run (changes.map .edit)).first? path = watch.first? path := by
  induction changes generalizing watch with
  | nil => rfl
  | cons change rest ih => exact ih (watch.next (.edit change))

end IdentityWatch

/-- Whatever happens to the files and in whatever order it is asked, a path is answered what the
files showed to the first question of the pass which found something for some spelling of it, and
what they show now if there was none.  A question that finds nothing changes nothing, so a file that
comes later in the pass is found.  As many paths are remembered as were found in the pass. -/
theorem identity_by_first_found (files : FileTree) (events : List IdentityEvent) :
    let watch := (IdentityWatch.start files).run events
    (∀ path, watch.answer path =
      match watch.first? path with
      | some first => first.shown
      | none => IdentityMemo.observe watch.files path) ∧
    (∀ path first, watch.first? path = some first →
      ∃ key, first.shown = .ok key ∧ first.answer = .ok key) ∧
    (∀ path e, watch.answer path = .error e →
      (watch.next (.ask path)).memo = watch.memo ∧
        ∀ (changes : List FileEdit) (key : CacheKey),
          let later := (watch.next (.ask path)).run (changes.map .edit)
          IdentityMemo.observe later.files path = .ok key → later.answer path = .ok key) ∧
    watch.memo.size = (watch.found.map fun question => question.path.segments).toFinset.card := by
  intro watch
  have hrecalls : watch.Recalls := (IdentityWatch.recalls_start files).run events
  refine ⟨hrecalls.answer_eq_shown, fun path first hfirst => ?_, fun path e herror => ?_,
    hrecalls.size_eq⟩
  · obtain ⟨key, hanswer⟩ := IdentityWatch.exists_key_of_first? hfirst
    exact ⟨key, (hrecalls.answer_eq path first hfirst).symm.trans hanswer, hanswer⟩
  · obtain ⟨hmemo, hnone⟩ := hrecalls.ask_of_error herror
    refine ⟨hmemo, ?_⟩
    intro changes key later hshown
    have hlater : later.Recalls := (hrecalls.ask path).run _
    have hfirst : later.first? path = none :=
      (IdentityWatch.first?_run_edits _ changes path).trans hnone
    rw [hlater.answer_eq_shown, hfirst]
    exact hshown

/-- A file that is asked for, changed, and removed again, and one that is asked
for before it is there. -/
theorem identity_by_first_found_removed :
    let path : FilePath := ⟨"app/./a.html"⟩
    let late : FilePath := ⟨"late.html"⟩
    let watch := (IdentityWatch.start (FileTree.empty ["srv"])).run
      [.edit (.write ⟨"app/a.html"⟩ [0x61] 5), .ask ⟨"app//a.html"⟩,
        .edit (.touch ⟨"app/a.html"⟩ 7),
        .ask ⟨"app/a.html"⟩, .ask late, .edit (.remove ⟨"app/a.html"⟩)]
    let later := (watch.next (.ask late)).run [.edit (.write late [] 9)]
    ∃ first, watch.first? path = some first ∧ watch.answer path = first.shown ∧
      (∃ key, first.shown = .ok key ∧ first.answer = .ok key) ∧
      watch.files.isFile path = false ∧ (∃ e, watch.answer late = .error e) ∧
      IdentityMemo.observe later.files late = .ok ⟨"5-9-0"⟩ ∧ later.answer late = .ok ⟨"5-9-0"⟩ ∧
      watch.memo.size = 1 := by
  intro path late watch later
  obtain ⟨hanswer, hfirst, herror, hsize⟩ := identity_by_first_found (FileTree.empty ["srv"])
    [.edit (.write ⟨"app/a.html"⟩ [0x61] 5), .ask ⟨"app//a.html"⟩, .edit (.touch ⟨"app/a.html"⟩ 7),
      .ask ⟨"app/a.html"⟩, .ask late, .edit (.remove ⟨"app/a.html"⟩)]
  obtain ⟨first, hsome⟩ : ∃ first, watch.first? path = some first :=
    Option.isSome_iff_exists.mp (by decide +kernel)
  have hlate : watch.answer late = .error ⟨late, .missing⟩ := by decide +kernel
  have hshown : IdentityMemo.observe later.files late = .ok ⟨"5-9-0"⟩ := by decide +kernel
  refine ⟨first, hsome, ?_, hfirst path first hsome, by decide +kernel, ⟨_, hlate⟩, hshown, ?_, ?_⟩
  · rw [hanswer path, hsome]
  · exact (herror late _ hlate).2 [.write late [] 9] _ hshown
  · rw [hsize]
    decide +kernel

end ComponentLoader
