import ComponentLoader.FileTree.Basic
set_option autoImplicit false

/-!
# Faults of stylesheets (SPEC §4.3, §7.1)

Why a stylesheet gives no result, together with the file to blame.
-/

namespace ComponentLoader

/-- Why a stylesheet cannot be scoped. -/
inductive ScopeFault where
  /-- a closing brace without an opening one -/
  | unexpectedClose
  /-- an opening brace without a closing one -/
  | unclosedOpen
  deriving DecidableEq, Repr, Inhabited

/-- The wording of a fault. -/
def ScopeFault.message : ScopeFault → Text
  | unexpectedClose => "unexpected '\x7d'"
  | unclosedOpen => "unclosed '\x7b'"

/-- Why a stylesheet cannot be preprocessed. -/
inductive PreprocessFault where
  /-- no file fits the target of an import -/
  | unresolvedImport (target : Text)
  /-- an import leads back to a file that is being read -/
  | importCycle (path : FilePath)
  /-- another preprocessor refuses, in its own words -/
  | refused (message : Text)
  deriving DecidableEq, Repr, Inhabited

/-- The wording of a fault. -/
def PreprocessFault.message : PreprocessFault → Text
  | unresolvedImport target => "cannot resolve import '" ++ target ++ "'"
  | importCycle path => "import cycle through '" ++ path.text ++ "'"
  | refused message => message

/-- Why a stylesheet gives no result. -/
inductive StyleError where
  | unreadable (path : FilePath) (fault : IoFault)
  | preprocess (file : FilePath) (fault : PreprocessFault)
  | scope (file : FilePath) (fault : ScopeFault)
  deriving DecidableEq, Repr, Inhabited

/-- The wording of an error. -/
def StyleError.message : StyleError → Text
  | unreadable path fault => "cannot read " ++ path.text ++ ": " ++ fault.message
  | preprocess file fault => file.text ++ ": " ++ fault.message
  | scope file fault => file.text ++ ": cannot scope stylesheet: " ++ fault.message

end ComponentLoader
