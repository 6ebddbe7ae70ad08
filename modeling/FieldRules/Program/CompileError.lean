import FieldRules.Datum.Registry
import FieldRules.Eval.Format
import FieldRules.Expr.SyntaxError
import FieldRules.Record.Basic

/-!
# What can go wrong with record types

Errors of compilation concern the fields of a record type or one of its
annotations; a description that breaks off leaves nothing to say.  Errors are
sorted into classes with a code and a reason each.
-/

namespace FieldRules

open FieldRules.Text (quoted)

/-- A class of errors. -/
inductive ErrorClass where
  | compile
  | schema
  | registry
  deriving Repr, DecidableEq

/-- The code of a class of errors. -/
def ErrorClass.code : ErrorClass → Nat
  | compile => 3001
  | schema => 3002
  | registry => 3003

/-- What a class of errors is called. -/
def ErrorClass.reason : ErrorClass → String
  | compile => "annotation compile error"
  | schema => "record schema error"
  | registry => "function registry error"

/-- Why the fields of a record type cannot be used. -/
inductive SchemaError where
  | invalidName (name : String)
  /-- A name repeats in the record at the path `owner`. -/
  | duplicateName (name owner : String)
  deriving Repr, DecidableEq

/-- Why an annotation cannot be compiled. -/
inductive AnnotationError where
  | unreadable (error : SyntaxError)
  | unknownField (path : String)

/-- Why a record type cannot be compiled. -/
inductive CompileError where
  /-- The fields of a record type cannot be used. -/
  | schema (type : RecordType) (error : SchemaError)
  /-- The annotation of a field cannot be compiled. -/
  | rejected (type : RecordType) (field : String) (error : AnnotationError)
  /-- A description broke off. -/
  | aborted

/-- The message of an error in the fields of a record type. -/
def SchemaError.message : SchemaError → String
  | invalidName name => "invalid field name " ++ quoted name
  | duplicateName name owner =>
      "duplicate field " ++ quoted name ++ " in " ++ if owner = "" then "<root>" else owner

/-- The message of an error in an annotation. -/
def AnnotationError.message : AnnotationError → String
  | unreadable error => error.message
  | unknownField path => "unknown field " ++ quoted path

namespace CompileError

/-- The message of an error, with the record type and the field it concerns. -/
def message : CompileError → String
  | schema type error => type.name ++ ": " ++ error.message
  | rejected type field error => type.name ++ "." ++ field ++ ": " ++ error.message
  | aborted => ""

/-- The class of an error; a description that broke off has none. -/
def errorClass : CompileError → Option ErrorClass
  | schema _ _ => some .schema
  | rejected _ _ _ => some .compile
  | aborted => none

end CompileError

/-- Why a record cannot be looked at. -/
inductive Failure where
  /-- Its type cannot be compiled. -/
  | compile (error : CompileError)
  /-- An expression has no result. -/
  | fault (fault : Format.Fault)

end FieldRules
