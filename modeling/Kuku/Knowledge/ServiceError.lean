/-
# Knowledge.ServiceError -- the errors of the knowledge services

`KnowledgeErrorCode` is the enumeration the desktop returns to its callers.  The
proposal service and the apply service have an error type each, with the same
fields; one record serves both.  `details`, which no modelled function reads back,
is left out.

A file-system call fails with an `IoError`: the kind the code looks at, and the
text it passes on.
-/

namespace Kuku.Knowledge

inductive KnowledgeErrorCode where
  | invalidArgument
  | validationFailed
  | unsafePath
  | alreadyExists
  | notPending
  | applyInProgress
  | applyRecoveryRequired
  | applyFailed
  | documentChanged
  | ioError
  deriving DecidableEq

structure ServiceError where
  code : KnowledgeErrorCode
  message : String
  deriving DecidableEq

inductive IoErrorKind where
  | alreadyExists
  | notFound
  | other
  deriving DecidableEq

/-- An error of `std::io`. -/
structure IoError where
  kind : IoErrorKind
  text : String

namespace IoError

def fileExists : IoError := ⟨.alreadyExists, "File exists (os error 17)"⟩

def noSuchFile : IoError := ⟨.notFound, "No such file or directory (os error 2)"⟩

end IoError

/-- `ApplyServiceError::io` and `ProposalServiceError::io` of an error's text. -/
def ServiceError.io (error : IoError) : ServiceError := ⟨.ioError, error.text⟩

end Kuku.Knowledge
