import Sandbox.Store.Entry

/-!
# Errors of stores

Every store answers a request with a result or one of four errors.
-/

namespace Sandbox.Store

/-- Why a store does not do what it was asked. -/
inductive Error
  | readOnly
  | invalidPath (path : String)
  | notFound (path : String)
  | disk (path : String) (cause : Disk.Refusal)
  deriving DecidableEq, Repr

/-- The wording of an error. -/
def Error.message : Error → String
  | .readOnly => "readonly filesystem"
  | .invalidPath path => s!"invalid file path: {path}"
  | .notFound path => s!"file not found: {path}"
  | .disk path cause => s!"{path}: {cause.message}"

/-- A refusal of the disk as an error of a store. -/
def Error.ofRefusal (path : String) : Disk.Refusal → Error
  | .missing => .notFound path
  | cause => .disk path cause

end Sandbox.Store
