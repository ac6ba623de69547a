import ComponentLoader.Proofs.FilePath.Step
set_option autoImplicit false

/-!
# What becomes of `..` in a path (SPEC §4.4)

Resolved from its text alone, a path comes to the names that no later `..` takes back, and in front
of them, unless it is absolute, one `..` for each that found no name (`resolved`).  `normalize`
takes back names in the same way, but it also takes back a `..` that it has kept, and it keeps one
behind the root directory.  So of the `..` that found no name, two in a row are lost, and one is
left if their number is odd.

The two agree for a relative path with at most one such `..`, and for an absolute path
with an even number of them.
-/

namespace ComponentLoader.FilePath

/-! ## Paths that are put together from segments -/

section

variable {segment : Segment} {steps : List Segment}

theorem Segment.isReadBack_up : Segment.up.IsReadBack := by
  constructor <;> decide

theorem Segment.IsReadBack.text_ne (h : segment.IsReadBack) :
    segment.text ≠ [] ∧ segment.text ≠ ['.'] := by
  constructor
  all_goals
    intro htext
    have hread := h.1
    rw [htext] at hread
    cases hread

theorem Segment.IsReadBack.isAbsolute (h : segment.IsReadBack) :
    isAbsolute ⟨segment.text⟩ = false := by
  rw [Bool.eq_false_iff]
  intro habsolute
  exact h.2 (List.mem_of_head? (eq_of_beq habsolute))

/-- Steps are joined with slashes between them. -/
theorem foldl_join {start : Text} (hstart : start ≠ []) (hlast : start.getLast? ≠ some '/')
    (h : ∀ segment ∈ steps, segment.IsReadBack) :
    steps.foldl (fun (path : FilePath) segment => path.join ⟨segment.text⟩) ⟨start⟩ =
      ⟨Text.join "/" (start :: steps.map Segment.text)⟩ := by
  induction steps generalizing start with
  | nil => simp
  | cons step rest ih =>
      have hstep := h step List.mem_cons_self
      have hjoin : join ⟨start⟩ ⟨step.text⟩ = ⟨start ++ "/".toList ++ step.text⟩ := by
        unfold join
        rw [if_neg (by simp [hstep.isAbsolute]), if_neg (by simp [hstart, hlast])]
        simp
      have hend : (start ++ "/".toList ++ step.text).getLast? ≠ some '/' := by
        rw [List.getLast?_append_of_ne_nil _ hstep.text_ne.1]
        exact fun hslash => hstep.2 (List.mem_of_getLast? hslash)
      rw [List.foldl_cons, hjoin, ih (by simp [hstart]) hend
        fun segment hmem => h segment (List.mem_cons_of_mem _ hmem), Text.join_append_cons,
        List.map_cons, Text.join_cons_cons, List.append_assoc]

theorem text_ofSegments (h : ∀ segment ∈ steps, segment.IsReadBack) :
    (ofSegments steps).text = Text.join "/" (steps.map Segment.text) ∧
      (ofSegments (.root :: steps)).text = '/' :: Text.join "/" (steps.map Segment.text) := by
  cases steps with
  | nil => exact ⟨rfl, rfl⟩
  | cons first rest =>
      have hfirst := h first List.mem_cons_self
      have hrest := fun segment hmem => h segment (List.mem_cons_of_mem first hmem)
      have hlast : first.text.getLast? ≠ some '/' := fun hslash =>
        hfirst.2 (List.mem_of_getLast? hslash)
      have hjoin : join ⟨[]⟩ ⟨first.text⟩ = ⟨first.text⟩ := by simp [join]
      have hjoinRoot : join ⟨"/".toList⟩ ⟨first.text⟩ = ⟨"/".toList ++ first.text⟩ := by
        simp [join, hfirst.isAbsolute]
      have hend : ("/".toList ++ first.text).getLast? ≠ some '/' := by
        rw [List.getLast?_append_of_ne_nil _ hfirst.text_ne.1]
        exact hlast
      constructor
      · unfold ofSegments
        rw [List.foldl_cons, hjoin, foldl_join hfirst.text_ne.1 hlast hrest, List.map_cons]
      · unfold ofSegments
        rw [List.foldl_cons, List.foldl_cons, show join ⟨[]⟩ ⟨Segment.root.text⟩ = ⟨"/"⟩ from rfl,
          hjoinRoot, foldl_join (by simp) hend hrest, Text.join_append_cons]
        rfl

/-- A relative path that does not begin with `.` consists of steps. -/
theorem segments_of_head?_splitOn {text : Text} (hslash : text.head? ≠ some '/')
    (hhere : (Text.splitOn '/' text).head? ≠ some ['.']) :
    segments ⟨text⟩ = (Text.splitOn '/' text).filterMap bodySegment? := by
  unfold segments
  fun_cases front text with
  | case1 body => exact absurd rfl hslash
  | case2 => exact absurd rfl hhere
  | case3 body => simp [Text.splitOn] at hhere
  | case4 => rfl

/-- A path that is put together from segments has these segments. -/
theorem segments_ofSegments (h : ∀ segment ∈ steps, segment.IsReadBack) :
    (ofSegments steps).segments = steps ∧
      (ofSegments (.root :: steps)).segments = .root :: steps := by
  obtain ⟨htext, htextRoot⟩ := text_ofSegments h
  have hroot : (ofSegments (.root :: steps)).segments =
      .root ::
        (Text.splitOn '/' (Text.join "/" (steps.map Segment.text))).filterMap bodySegment? := by
    unfold segments
    rw [htextRoot]
    rfl
  cases steps with
  | nil => exact ⟨rfl, rfl⟩
  | cons first rest =>
      have hfirst := h first List.mem_cons_self
      have hsplit := splitOn_join_text (List.cons_ne_nil first rest) h
      rw [hsplit, filterMap_bodySegment?_text h] at hroot
      refine ⟨?_, hroot⟩
      have hhere : (Text.splitOn '/' (ofSegments (first :: rest)).text).head? ≠ some ['.'] := by
        rw [htext, hsplit]
        simpa using hfirst.text_ne.2
      have hslash : (ofSegments (first :: rest)).text.head? ≠ some '/' := by
        obtain ⟨c, others, hc⟩ := List.exists_cons_of_ne_nil hfirst.text_ne.1
        have hhead : c ∈ (Text.join "/" ((first :: rest).map Segment.text)).head? :=
          Text.mem_head?_join "/" rfl (hc ▸ rfl)
        rw [htext, show (Text.join "/" _).head? = some c from hhead]
        rintro ⟨⟩
        exact hfirst.2 (hc ▸ List.mem_cons_self)
      rw [segments_of_head?_splitOn hslash hhere, htext, hsplit, filterMap_bodySegment?_text h]

end

/-! ## Names that are taken back -/

/-- Where segments lead if each `..` takes back the nearest name before it that is still there. -/
structure Trail where
  /-- how many `..` found no name -/
  outs : Nat := 0
  /-- the names that are still there, the last one first -/
  names : List Text := []
  deriving DecidableEq

namespace Trail

/-- One segment further.  The front of a path and `.` lead nowhere. -/
def go (trail : Trail) : Segment → Trail
  | .root | .here => trail
  | .name text => { trail with names := text :: trail.names }
  | .up =>
    match trail.names with
    | [] => { trail with outs := trail.outs + 1 }
    | _ :: before => { trail with names := before }

/-- The steps that lead the same way, with some number of `..` in front. -/
def steps (trail : Trail) (outs : Nat) : List Segment :=
  List.replicate outs .up ++ trail.names.reverse.map .name

theorem foldl_go_steps (trail : Trail) (outs : Nat) :
    (trail.steps outs).foldl go {} = { trail with outs := outs } := by
  have hups (before : Nat) :
      (List.replicate outs Segment.up).foldl go { outs := before } = { outs := before + outs } := by
    induction outs generalizing before with
    | zero => rfl
    | succ n ih =>
        have hrest := ih (before + 1)
        rw [Nat.add_right_comm] at hrest
        exact hrest
  have hnames (texts before : List Text) :
      (texts.map Segment.name).foldl go { outs := outs, names := before } =
        { outs := outs, names := texts.reverse ++ before } := by
    induction texts generalizing before with
    | nil => rfl
    | cons text rest ih =>
        rw [List.map_cons, List.foldl_cons, List.reverse_cons, List.append_assoc]
        exact ih (text :: before)
  rw [steps, List.foldl_append, hups, Nat.zero_add, hnames, List.reverse_reverse, List.append_nil]

theorem mem_names_go {trail : Trail} {segment : Segment} {name : Text}
    (h : name ∈ (trail.go segment).names) : name ∈ trail.names ∨ segment = .name name := by
  obtain ⟨outs, names⟩ := trail
  cases segment with
  | root => exact Or.inl h
  | here => exact Or.inl h
  | name text =>
      rcases List.mem_cons.mp h with rfl | hbefore
      · exact Or.inr rfl
      · exact Or.inl hbefore
  | up =>
      cases names with
      | nil => exact Or.inl h
      | cons last before => exact Or.inl (List.mem_cons_of_mem last h)

theorem mem_names_foldl {segments : List Segment} {trail : Trail} {name : Text}
    (h : name ∈ (segments.foldl go trail).names) : name ∈ trail.names ∨ .name name ∈ segments := by
  induction segments generalizing trail with
  | nil => exact Or.inl h
  | cons segment rest ih =>
      rcases ih h with hnext | hrest
      · exact (mem_names_go hnext).imp_right fun heq => List.mem_cons.mpr (Or.inl heq.symm)
      · exact Or.inr (List.mem_cons_of_mem _ hrest)

end Trail

/-- Where a path leads. -/
def trail (path : FilePath) : Trail :=
  path.segments.foldl Trail.go {}

theorem trail_eq_foldl_steps (path : FilePath) : path.trail = path.steps.foldl Trail.go {} := by
  unfold trail steps
  rw [List.foldl_filter]
  congr
  funext trail segment
  cases segment <;> rfl

theorem root_mem_segments_iff {path : FilePath} :
    .root ∈ path.segments ↔ path.isAbsolute = true := by
  have hbody (pieces : List Text) : .root ∉ pieces.filterMap bodySegment? := by
    intro hmem
    rw [← FileTree.filter_isStep_bodySegments] at hmem
    exact absurd (List.mem_filter.mp hmem).2 (by decide)
  obtain ⟨text⟩ := path
  unfold segments
  fun_cases front text with
  | case1 body => exact iff_of_true List.mem_cons_self rfl
  | case2 => decide
  | case3 body =>
      refine iff_of_false (fun hmem => ?_) (by simp [isAbsolute])
      rcases List.mem_append.mp hmem with hlead | hmem
      · exact absurd (List.mem_singleton.mp hlead) (by decide)
      · exact hbody _ hmem
  | case4 _ hroot _ _ =>
      refine iff_of_false (hbody _) fun habsolute => ?_
      obtain ⟨body, rfl⟩ := List.head?_eq_some_iff.mp (eq_of_beq habsolute)
      exact hroot body rfl

/-- The path with `.` left out and with every `..` resolved that finds a name before it.  The others
lead nowhere from the root directory, and stay in front of a relative path. -/
def resolved (path : FilePath) : FilePath :=
  if path.isAbsolute then ofSegments (.root :: path.trail.steps 0)
  else ofSegments (path.trail.steps path.trail.outs)

/-! ## What is kept -/

section

variable {front : List Segment}

/-- What `normalize` keeps of a trail behind a front, the last segment first: every name, but only
the parity of the number of `..`. -/
def kept (front : List Segment) (trail : Trail) : List Segment :=
  trail.names.map .name ++ (List.replicate (trail.outs % 2) .up ++ front)

theorem kept_eq_reverse (front : List Segment) (trail : Trail) :
    kept front trail = (trail.steps (trail.outs % 2)).reverse ++ front := by
  simp [kept, Trail.steps]

/-- One segment further: a `..` that finds no name is kept, or removes the one
that was kept before. -/
theorem resolveSegment_kept (hfront : front = [] ∨ front = [.root]) (trail : Trail)
    {segment : Segment} (hroot : segment ≠ .root) :
    resolveSegment (kept front trail) segment = kept front (trail.go segment) := by
  obtain ⟨outs, names⟩ := trail
  cases segment with
  | root => exact absurd rfl hroot
  | here => rfl
  | name text => rfl
  | up =>
      cases names with
      | cons name before => rfl
      | nil =>
          have hnext : Trail.go ⟨outs, []⟩ .up = ⟨outs + 1, []⟩ := rfl
          rw [hnext]
          unfold kept
          rcases Nat.mod_two_eq_zero_or_one outs with heven | hodd
          · have hodd : (outs + 1) % 2 = 1 := by omega
            rcases hfront with rfl | rfl <;> simp [heven, hodd, resolveSegment]
          · have heven : (outs + 1) % 2 = 0 := by omega
            simp [heven, hodd, resolveSegment]

theorem foldl_resolveSegment (hfront : front = [] ∨ front = [.root]) (trail : Trail)
    {segments : List Segment} (hroot : .root ∉ segments) :
    segments.foldl resolveSegment (kept front trail) =
      kept front (segments.foldl Trail.go trail) := by
  induction segments generalizing trail with
  | nil => rfl
  | cons segment rest ih =>
      obtain ⟨hsegment, hrest⟩ := not_or.mp (fun hmem => hroot (List.mem_cons.mpr hmem))
      rw [List.foldl_cons, List.foldl_cons, resolveSegment_kept hfront trail (Ne.symm hsegment),
        ih _ hrest]

end

/-- Of the `..` that found no name, `normalize` keeps one if their number is odd. -/
theorem normalize_eq (path : FilePath) :
    path.normalize =
      ofSegments ((if path.isAbsolute then [.root] else []) ++
        path.trail.steps (path.trail.outs % 2)) := by
  have hback (front : List Segment) :
      (kept front path.trail).reverse =
        front.reverse ++ path.trail.steps (path.trail.outs % 2) := by
    rw [kept_eq_reverse, List.reverse_append, List.reverse_reverse]
  unfold normalize
  cases habsolute : path.isAbsolute with
  | false =>
      have hroot : .root ∉ path.segments := by
        rw [root_mem_segments_iff, habsolute]
        exact Bool.false_ne_true
      have hfold := foldl_resolveSegment (Or.inl rfl) {} hroot
      rw [show path.segments.foldl resolveSegment [] = _ from hfold]
      exact congrArg ofSegments (hback [])
  | true =>
      rw [segments_of_isAbsolute habsolute]
      have hroot : .root ∉ path.steps := fun hmem => absurd (List.mem_filter.mp hmem).2 (by decide)
      have hfold := foldl_resolveSegment (Or.inr rfl) {} hroot
      rw [← trail_eq_foldl_steps] at hfold
      rw [List.foldl_cons,
        show path.steps.foldl resolveSegment (resolveSegment [] .root) = _ from hfold]
      exact congrArg ofSegments (hback [.root])

/-! ## Segments of the results -/

theorem isReadBack_of_mem_trail {path : FilePath} {outs : Nat} {segment : Segment}
    (h : segment ∈ path.trail.steps outs) : segment.IsReadBack := by
  rcases List.mem_append.mp h with hup | hname
  · rw [List.eq_of_mem_replicate hup]
    exact Segment.isReadBack_up
  · obtain ⟨name, hmem, rfl⟩ := List.mem_map.mp hname
    have hsegment :=
      (Trail.mem_names_foldl (List.mem_reverse.mp hmem)).resolve_left List.not_mem_nil
    exact isReadBack_of_mem_steps (List.mem_filter.mpr ⟨hsegment, rfl⟩)

theorem segments_ofSegments_trail (path : FilePath) (outs : Nat) (absolute : Bool) :
    (ofSegments ((if absolute then [.root] else []) ++ path.trail.steps outs)).segments =
      (if absolute then [.root] else []) ++ path.trail.steps outs := by
  have hsegments := segments_ofSegments fun segment (hmem : segment ∈ path.trail.steps outs) =>
    isReadBack_of_mem_trail hmem
  cases absolute with
  | false => exact hsegments.1
  | true => exact hsegments.2

theorem segments_normalize (path : FilePath) :
    path.normalize.segments =
      (if path.isAbsolute then [.root] else []) ++ path.trail.steps (path.trail.outs % 2) := by
  rw [normalize_eq, segments_ofSegments_trail]

theorem resolved_eq (path : FilePath) :
    path.resolved =
      ofSegments ((if path.isAbsolute then [.root] else []) ++
        path.trail.steps (if path.isAbsolute then 0 else path.trail.outs)) := by
  unfold resolved
  cases path.isAbsolute <;> rfl

theorem steps_inj {trail : Trail} {outs outs' : Nat} :
    trail.steps outs = trail.steps outs' ↔ outs = outs' := by
  constructor
  · intro h
    simpa [Trail.steps] using congrArg List.length h
  · rintro rfl
    rfl

theorem isAbsolute_ofSegments_trail (path : FilePath) (outs : Nat) (absolute : Bool) :
    (ofSegments ((if absolute then [.root] else []) ++ path.trail.steps outs)).isAbsolute =
      absolute := by
  rw [Bool.eq_iff_iff, ← root_mem_segments_iff, segments_ofSegments_trail]
  cases absolute <;> simp [Trail.steps]

theorem trail_ofSegments_trail (path : FilePath) (outs : Nat) (absolute : Bool) :
    (ofSegments ((if absolute then [.root] else []) ++ path.trail.steps outs)).trail =
      { path.trail with outs := outs } := by
  have hfront : (if absolute then [Segment.root] else []).foldl Trail.go {} = {} := by
    cases absolute <;> rfl
  show (ofSegments _).segments.foldl Trail.go {} = _
  rw [segments_ofSegments_trail, List.foldl_append, hfront, Trail.foldl_go_steps]

theorem isAbsolute_normalize (path : FilePath) : path.normalize.isAbsolute = path.isAbsolute := by
  rw [normalize_eq, isAbsolute_ofSegments_trail]

theorem trail_normalize (path : FilePath) :
    path.normalize.trail = { path.trail with outs := path.trail.outs % 2 } := by
  rw [normalize_eq, trail_ofSegments_trail]

/-- What has been normalized stays as it is. -/
theorem normalize_normalize (path : FilePath) : path.normalize.normalize = path.normalize := by
  rw [normalize_eq path.normalize, isAbsolute_normalize, trail_normalize]
  conv => rhs; rw [normalize_eq]
  simp only [Nat.mod_mod, Trail.steps]

/-! ## Where paths lead -/

/-- The names that a trail leads to from some names on.  Nothing is above the root directory. -/
def Trail.lead (start : List Text) (trail : Trail) : List Text :=
  start.take (start.length - trail.outs) ++ trail.names.reverse

/-- One piece of a path further. -/
theorem lead_piece (start : List Text) (trail : Trail) (piece : Text) :
    (if piece = [] ∨ piece = ['.'] then trail.lead start
      else if piece = ['.', '.'] then (trail.lead start).dropLast
      else trail.lead start ++ [piece]) =
      ((bodySegment? piece).toList.foldl Trail.go trail).lead start := by
  obtain ⟨outs, names⟩ := trail
  unfold bodySegment?
  split
  · rfl
  · split
    · cases names with
      | nil =>
          have hlength : (start.take (start.length - outs)).length - 1 =
              start.length - (outs + 1) := by
            rw [List.length_take]
            omega
          simp only [Trail.lead, Trail.go, Option.toList_some, List.foldl_cons, List.foldl_nil,
            List.reverse_nil, List.append_nil]
          rw [List.dropLast_eq_take, hlength, List.take_take, Nat.min_eq_left (by omega)]
      | cons last before =>
          simp [Trail.lead, Trail.go, List.dropLast_append_of_ne_nil]
    · simp [Trail.lead, Trail.go]

theorem foldl_lead (start : List Text) (trail : Trail) (pieces : List Text) :
    pieces.foldl (fun here piece =>
        if piece = [] ∨ piece = ['.'] then here
        else if piece = ['.', '.'] then here.dropLast else here ++ [piece]) (trail.lead start) =
      ((pieces.filterMap bodySegment?).foldl Trail.go trail).lead start := by
  induction pieces generalizing trail with
  | nil => rfl
  | cons piece rest ih =>
      rw [List.foldl_cons, lead_piece, ih]
      cases hpiece : bodySegment? piece <;> simp [hpiece]

theorem filterMap_bodySegment?_route (tree : FileTree) (path : FilePath) :
    (tree.route path).2.filterMap bodySegment? = path.steps := by
  rw [steps_eq_filterMap]
  unfold FileTree.route
  split
  · rename_i body hbody
    rw [hbody]
    simp [Text.splitOn, bodySegment?]
  · rfl

/-- The names that a path spells are those that its trail leads to. -/
theorem spelledNames_eq (tree : FileTree) (path : FilePath) :
    tree.spelledNames path =
      path.trail.lead (if path.isAbsolute then [] else tree.workingNames) := by
  have hstart : (tree.route path).1 = if path.isAbsolute then [] else tree.workingNames := by
    unfold FileTree.route isAbsolute
    split
    · rename_i body hbody
      rw [hbody]
      rfl
    · rename_i hroot
      rw [if_neg]
      intro habsolute
      obtain ⟨body, hbody⟩ := List.head?_eq_some_iff.mp (eq_of_beq habsolute)
      exact hroot body hbody
  have hempty (start : List Text) : start = Trail.lead start {} := by simp [Trail.lead]
  unfold FileTree.spelledNames
  dsimp only
  rw [hstart, trail_eq_foldl_steps, ← filterMap_bodySegment?_route tree path, ← foldl_lead,
    ← hempty]

/-- Resolving a path changes nothing about where it leads. -/
theorem spelledNames_resolved (tree : FileTree) (path : FilePath) :
    tree.spelledNames path.resolved = tree.spelledNames path := by
  rw [spelledNames_eq, spelledNames_eq, resolved_eq, isAbsolute_ofSegments_trail,
    trail_ofSegments_trail]
  cases path.isAbsolute <;> simp [Trail.lead]

/-- Neither does normalizing an absolute path, since a `..` leads nowhere
from the root directory. -/
theorem spelledNames_normalize (tree : FileTree) {path : FilePath} (h : path.isAbsolute = true) :
    tree.spelledNames path.normalize = tree.spelledNames path := by
  rw [spelledNames_eq, spelledNames_eq, isAbsolute_normalize, trail_normalize, h]
  simp [Trail.lead]

/-! ## The two compared -/

/-- `normalize` resolves a path exactly if the `..` that find no name are at most one in a relative
path, and even in number in an absolute one.  Otherwise a relative path loses two of them in a row,
and an absolute path has one left.  In any case it changes nothing the second time, and an absolute
path still leads to the same names. -/
theorem normalize_same_resolved_iff (path : FilePath) :
    path.normalize.segments =
        (if path.isAbsolute then [.root] else []) ++ path.trail.steps (path.trail.outs % 2) ∧
      (path.normalize.Same path.resolved ↔
        if path.isAbsolute then path.trail.outs % 2 = 0 else path.trail.outs ≤ 1) ∧
      (path.isAbsolute = true → (.up ∉ path.normalize.segments ↔ path.trail.outs % 2 = 0)) ∧
      (path.isAbsolute = false →
        (path.normalize.trail.outs = path.trail.outs ↔ path.trail.outs ≤ 1)) ∧
      path.normalize.normalize = path.normalize ∧
      ∀ tree : FileTree, tree.spelledNames path.resolved = tree.spelledNames path ∧
        (path.isAbsolute = true → tree.spelledNames path.normalize = tree.spelledNames path) := by
  refine ⟨segments_normalize path, ?_, ?_, ?_, normalize_normalize path,
    fun tree => ⟨spelledNames_resolved tree path, spelledNames_normalize tree⟩⟩
  · unfold Same
    rw [segments_normalize, resolved_eq, segments_ofSegments_trail, List.append_cancel_left_eq,
      steps_inj]
    cases path.isAbsolute with
    | false =>
        simp only [Bool.false_eq_true, if_false]
        omega
    | true => simp
  · intro habsolute
    rw [segments_normalize, habsolute]
    simp [Trail.steps]
  · intro hrelative
    rw [trail_normalize]
    show path.trail.outs % 2 = path.trail.outs ↔ path.trail.outs ≤ 1
    omega

/-- An absolute path with two `..` that find no name, and a relative path with one. -/
theorem normalize_same_resolved_crowded :
    let absolute : FilePath := ⟨"/../x/../../a/./b//../c/"⟩
    let relative : FilePath := ⟨"./a/../../b/.././c"⟩
    absolute.isAbsolute = true ∧ absolute.trail.outs = 2 ∧ .up ∉ absolute.normalize.segments ∧
      absolute.normalize.Same absolute.resolved ∧
      relative.isAbsolute = false ∧ relative.normalize.trail.outs = relative.trail.outs ∧
      relative.normalize.Same relative.resolved ∧ relative.normalize = ⟨"../c"⟩ := by
  intro absolute relative
  obtain ⟨-, hsame, hups, -⟩ := normalize_same_resolved_iff absolute
  obtain ⟨-, hsame', -, houts, -⟩ := normalize_same_resolved_iff relative
  exact ⟨by decide, by decide, (hups (by decide)).mpr (by decide), hsame.mpr (by decide), by decide,
    (houts (by decide)).mpr (by decide), hsame'.mpr (by decide), by decide⟩

/-- Behind the root directory one `..` is left, and of two in front of a relative path none. -/
theorem normalize_not_same_resolved :
    normalize ⟨"/../x.html"⟩ = ⟨"/../x.html"⟩ ∧ resolved ⟨"/../x.html"⟩ = ⟨"/x.html"⟩ ∧
      ¬(normalize ⟨"/../x.html"⟩).Same (resolved ⟨"/../x.html"⟩) ∧
      normalize ⟨"../../x.html"⟩ = ⟨"x.html"⟩ ∧ resolved ⟨"../../x.html"⟩ = ⟨"../../x.html"⟩ ∧
      ¬(normalize ⟨"../../x.html"⟩).Same (resolved ⟨"../../x.html"⟩) := by
  decide

end ComponentLoader.FilePath
