import Reckoner.Store.Error

/-!
# Errors of the service as answers

Each error has a status, a code for programs and a sentence for people.
-/

namespace Reckoner.Http

/-- Why a request is answered by an error. -/
inductive Error where
  | expression (error : ExpressionError)
  /-- The sender is not known. -/
  | unauthorized (text : String)
  | internal (text : String)
deriving DecidableEq, Repr

namespace Error

/-- The status of the answer. -/
def status : Error → Nat
  | expression (.invalid _) => 422
  | expression .notFound => 404
  | expression (.storage _) => 500
  | unauthorized _ => 401
  | internal _ => 500

/-- The name of the kind of error. -/
def code : Error → String
  | expression (.invalid error) => error.code
  | expression .notFound => "EXPRESSION_NOT_FOUND"
  | expression (.storage _) => "STORAGE_ERROR"
  | unauthorized _ => "UNAUTHORIZED"
  | internal _ => "INTERNAL_ERROR"

/-- The sentence of the answer. -/
def message : Error → String
  | expression (.invalid error) => error.message
  | expression .notFound => "Expression not found"
  | expression (.storage text) => (ExpressionError.storage text).message
  | unauthorized text => text
  | internal text => text

end Error

end Reckoner.Http
