import ComponentLoader.Digest.Fingerprint
import ComponentLoader.Style.Import
import ComponentLoader.Style.Scope
set_option autoImplicit false

/-!
# Processing stylesheets (SPEC §4.3)

A stylesheet is preprocessed if its kind asks for it, scoped if there is a token, and given its
source map if one is wanted and there is one, in a comment at the end as a Base64 data address.
Beside the result stands what was done for it, so that work can be counted.
-/

namespace ComponentLoader

/-! ## Source maps -/

namespace SourceMap

/-- A stylesheet as it is continued: a line that does not end is ended. -/
def endOpenLine (code : Text) : Text :=
  if code ≠ [] ∧ code.getLast? ≠ some '\n' then code ++ ['\n'] else code

/-- A stylesheet with its source map. -/
def append (code map : Text) : Text :=
  endOpenLine code ++ "/*# sourceMappingURL=data:application/json;base64," ++
    Base64.encode map.utf8 ++ " */"

end SourceMap

/-! ## Kinds and requests -/

/-- The kinds of stylesheets. -/
inductive StyleKind where
  /-- plain CSS -/
  | css
  /-- to be preprocessed -/
  | scss
  deriving DecidableEq, Repr, Inhabited

/-- The kind that a language or an extension names; without preprocessing all are plain. -/
def StyleKind.ofLang? (preprocess : Bool) (lang : Text) : Option StyleKind :=
  let lang := Text.asciiLower lang
  if lang = "css".toList then some .css
  else if lang = "scss".toList then some (if preprocess then .scss else .css)
  else none

/-- What is asked of the pipeline. -/
structure StyleRequest where
  file : FilePath
  scope : Option Text
  kind : StyleKind
  sourceMap : Bool
  strategy : ScopeStrategy
  deriving DecidableEq, Repr, Inhabited

/-- A processed stylesheet, with the files on which it depends. -/
structure ProcessedStyle where
  code : Text
  dependencies : List FilePath
  deriving DecidableEq, Repr, Inhabited

/-- The two steps of the pipeline. -/
structure StylePipeline where
  preprocessor : Preprocessor
  scoper : Scoper

/-- What was done for a stylesheet: the number of preprocessor runs, and
what the scoper was told. -/
structure StyleWork where
  preprocessings : Nat := 0
  scopings : List ScopeContext := []
  deriving DecidableEq, Repr, Inhabited

/-- The pipeline that inlines imports and marks selectors. -/
def StylePipeline.standard : StylePipeline := ⟨inlineImports, markSelectors⟩

/-- Paths in order with one more at the end, unless it is among them. -/
def addPath (paths : List FilePath) (path : FilePath) : List FilePath :=
  if paths.any fun known => decide (known.Same path) then paths else paths ++ [path]

/-- The files that a preprocessed stylesheet depends on: itself first, each path once. -/
def dependenciesOf (file : FilePath) (loaded : List FilePath) : List FilePath :=
  loaded.foldl addPath [file]

/-- The code with its source map, where one is wanted and there is one. -/
def withSourceMap (wanted : Bool) (map : Option Text) (code : Text) : Text :=
  match wanted, map with
  | true, some map => SourceMap.append code map
  | _, _ => code

namespace StylePipeline

/-- The stylesheet after preprocessing, with the files that it depends on. -/
def preprocess (pipeline : StylePipeline) (files : FileTree) (source : Text)
    (request : StyleRequest) : Except StyleError (Preprocessed × List FilePath) :=
  match request.kind with
  | .css => .ok ({ css := source }, [])
  | .scss =>
    match pipeline.preprocessor files source request.file request.sourceMap with
    | .error e => .error e
    | .ok result => .ok (result, dependenciesOf request.file result.loaded)

/-- What the scoper is told about a preprocessed stylesheet. -/
def contextOf (request : StyleRequest) (sourceMap : Option Text) : ScopeContext :=
  ⟨request.file, sourceMap, request.strategy⟩

/-- The stylesheet after scoping, with the source map that counts then. -/
def scope (pipeline : StylePipeline) (request : StyleRequest) (css : Text)
    (sourceMap : Option Text) : Except StyleError Scoped :=
  match request.scope with
  | none => .ok ⟨css, sourceMap⟩
  | some token =>
    match pipeline.scoper css token (contextOf request sourceMap) with
    | .error e => .error e
    | .ok result => .ok ⟨result.code, result.sourceMap.or sourceMap⟩

/-- What the pipeline makes of a stylesheet. -/
def process (pipeline : StylePipeline) (files : FileTree) (source : Text)
    (request : StyleRequest) : Except StyleError ProcessedStyle :=
  match pipeline.preprocess files source request with
  | .error e => .error e
  | .ok (preprocessed, dependencies) =>
    match pipeline.scope request preprocessed.css preprocessed.sourceMap with
    | .error e => .error e
    | .ok result => .ok ⟨withSourceMap request.sourceMap result.sourceMap result.code, dependencies⟩

/-- What the pipeline does for a stylesheet. -/
def work (pipeline : StylePipeline) (files : FileTree) (source : Text) (request : StyleRequest) :
    StyleWork where
  preprocessings := if request.kind = .scss then 1 else 0
  scopings :=
    match request.scope, pipeline.preprocess files source request with
    | some _, .ok (preprocessed, _) => [contextOf request preprocessed.sourceMap]
    | _, _ => []

end StylePipeline

end ComponentLoader
