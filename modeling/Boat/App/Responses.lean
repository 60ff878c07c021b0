import Boat.App.Database
import Mathlib.Data.List.Sort

/-!
# Responses to exceptions

What a request is answered when its use case raises (`core/http/exception_handlers.py`, and those of
the modules): the handler is the one that is registered for the first class in the method resolution
order of the exception (`_register_exception_handlers`).
-/

namespace Boat.App

/-! ## Classes of exceptions -/

/-- The classes that exceptions are of, or that handlers are registered for. -/
inductive ExceptionClass
  | exception
  | domainError
  | validationError
  | notFoundError
  | conflictError
  | externalServiceError
  | authenticationError
  | authorizationError
  | userNotRegisteredError
  | userAlreadyExistsError
  | promotionNotFoundError
  | promotionCodeNotFoundError
  | promotionRedemptionConflictError
  | insufficientCreditError
  | creditTransactionWriteConflictError
  | receiptImageUnreadableError
  | unsupportedReceiptError
  | receiptOcrProviderUnavailableError
  deriving DecidableEq, Repr

/-- The method resolution order of `DomainError`. -/
def ExceptionClass.domainMro : List ExceptionClass := [.domainError, .exception]

/-- `__mro__`, as far as handlers are registered. -/
def ExceptionClass.mro (c : ExceptionClass) : List ExceptionClass :=
  match c with
  | .exception => [.exception]
  | .domainError => domainMro
  -- a `RuntimeError`
  | .creditTransactionWriteConflictError => [c, .exception]
  | .validationError | .notFoundError | .conflictError | .externalServiceError | .authenticationError
  | .authorizationError | .unsupportedReceiptError | .receiptOcrProviderUnavailableError =>
    c :: domainMro
  | .userNotRegisteredError | .promotionNotFoundError | .promotionCodeNotFoundError =>
    c :: .notFoundError :: domainMro
  | .userAlreadyExistsError | .promotionRedemptionConflictError | .insufficientCreditError =>
    c :: .conflictError :: domainMro
  | .receiptImageUnreadableError => c :: .validationError :: domainMro

/-- The class of an exception of the domain. -/
def exceptionClass : DomainError → ExceptionClass
  | .validation _ => .validationError
  | .insufficientCredit => .insufficientCreditError
  | .creditTransactionWriteConflict => .creditTransactionWriteConflictError
  | .promotionNotFound => .promotionNotFoundError
  | .promotionCodeNotFound => .promotionCodeNotFoundError
  | .promotionRedemptionConflict _ => .promotionRedemptionConflictError
  | .receiptImageUnreadable _ => .receiptImageUnreadableError
  | .unsupportedReceipt .. => .unsupportedReceiptError
  | .receiptOcrProviderUnavailable => .receiptOcrProviderUnavailableError
  | .authentication => .authenticationError
  | .userNotRegistered => .userNotRegisteredError
  | .userAlreadyExists => .userAlreadyExistsError
  | .other _ => .exception

/-- `message`, of the exceptions that have one. -/
def message : DomainError → String
  | .validation _ | .receiptImageUnreadable _ => "입력값이 올바르지 않습니다."
  | .insufficientCredit => "사용 가능한 크레딧이 부족합니다."
  | .promotionNotFound => "프로모션을 찾을 수 없습니다."
  | .promotionCodeNotFound => "프로모션 코드를 찾을 수 없습니다."
  | .promotionRedemptionConflict message => message
  | .unsupportedReceipt .. => "현재는 전자제품 영수증만 지원하고 있어요!"
  | .receiptOcrProviderUnavailable => "OCR 서비스를 일시적으로 사용할 수 없습니다. 잠시 후 다시 시도해 주세요."
  | .authentication => "인증 정보가 올바르지 않습니다."
  | .userNotRegistered => "가입되지 않은 사용자입니다."
  | .userAlreadyExists => "이미 가입된 사용자입니다."
  | .creditTransactionWriteConflict | .other _ => ""

/-- `_error_code`: of the exceptions that carry one. -/
def errorCode : DomainError → Option String
  | .insufficientCredit => some "INSUFFICIENT_CREDIT"
  | .userNotRegistered => some "USER_NOT_REGISTERED"
  | .userAlreadyExists => some "USER_ALREADY_EXISTS"
  | _ => none

namespace AppError

/-- The class of what a use case raises. -/
def exceptionClass : AppError → ExceptionClass
  | .domain e => App.exceptionClass e
  | .notifications (.notFound _) => .notFoundError
  -- of SQLAlchemy and the driver, or a `RuntimeError` of a repository
  | _ => .exception

/-- `message`. -/
def message : AppError → String
  | .domain e => App.message e
  | .notifications (.notFound message) => message
  | _ => ""

/-- `_error_code`. -/
def errorCode : AppError → Option String
  | .domain e => App.errorCode e
  | _ => none

/-- An exception that is no refusal. -/
def Internal : AppError → Prop
  | .domain _ | .notifications (.notFound _) => False
  | _ => True

end AppError

/-! ## Handlers -/

/-- `FieldError`, or `ReceiptOcrFieldError` with its index. -/
structure FieldError where
  field : String
  message : String
  fileIndex : Option ℤ
  deriving DecidableEq, Repr

/-- `ReceiptOcrFieldError`, of a file. -/
def FieldError.ofFile (message : String) (fileIndex : ℤ) : FieldError :=
  ⟨"file", message, some fileIndex⟩

/-- A failure response, without its time. -/
structure FailureResponse where
  status : ℕ
  code : Option String := none
  message : String
  path : String
  errors : List FieldError := []
  deriving DecidableEq, Repr

/-- `_UNREADABLE_RECEIPT_FIELD_MESSAGE`. -/
def unreadableReceiptFieldMessage : String := "영수증 이미지를 인식하지 못했습니다. 다시 촬영하거나 수동 입력해 주세요."

/-- `errors.sort`, of files. -/
def sortErrors (errors : List FieldError) : List FieldError :=
  errors.insertionSort fun x y => x.fileIndex.getD (-1) ≤ y.fileIndex.getD (-1)

section Handlers

variable (path : String) (e : AppError)

def handleDomainValidationError : FailureResponse where
  status := 422
  message := e.message
  path
  errors := match e with
    | .domain (.validation details) => details.map fun detail => ⟨detail.field, detail.message, none⟩
    | _ => []

def handleNotFoundError : FailureResponse where
  status := 404
  code := e.errorCode
  message := e.message
  path

def handleConflictError : FailureResponse where
  status := 409
  code := e.errorCode
  message := e.message
  path

def handleExternalServiceError : FailureResponse where
  status := 503
  message := e.message
  path

def handleAuthenticationError : FailureResponse where
  status := 401
  message := e.message
  path

def handleAuthorizationError : FailureResponse where
  status := 403
  message := e.message
  path

def handleReceiptOcrProviderUnavailableError : FailureResponse where
  status := 503
  message := e.message
  path

def handleReceiptImageUnreadableError : FailureResponse where
  status := 422
  message := e.message
  path
  errors := match e with
    | .domain (.receiptImageUnreadable fileIndexes) =>
      fileIndexes.map (.ofFile unreadableReceiptFieldMessage)
    | _ => []

def handleUnsupportedReceiptError : FailureResponse where
  status := 422
  code := some "UNSUPPORTED_RECEIPT"
  message := e.message
  path
  errors := match e with
    | .domain (.unsupportedReceipt unsupportedFileIndexes unreadableFileIndexes) =>
      sortErrors (unsupportedFileIndexes.map (.ofFile e.message) ++
        unreadableFileIndexes.map (.ofFile unreadableReceiptFieldMessage))
    | _ => []

def handleDomainError : FailureResponse where
  status := 400
  message := e.message
  path

def handleUnexpectedError : FailureResponse where
  status := 500
  message := "서버 내부 오류가 발생했습니다."
  path

/-- `_register_exception_handlers`, of the exceptions of use cases. -/
def exceptionHandlers : List (ExceptionClass × (AppError → FailureResponse)) :=
  [(.validationError, handleDomainValidationError path),
    (.notFoundError, handleNotFoundError path),
    (.conflictError, handleConflictError path),
    (.externalServiceError, handleExternalServiceError path),
    (.authenticationError, handleAuthenticationError path),
    (.authorizationError, handleAuthorizationError path),
    (.receiptOcrProviderUnavailableError, handleReceiptOcrProviderUnavailableError path),
    (.receiptImageUnreadableError, handleReceiptImageUnreadableError path),
    (.unsupportedReceiptError, handleUnsupportedReceiptError path),
    (.domainError, handleDomainError path),
    (.exception, fun _ => handleUnexpectedError path)]

/-- The response of the handler that is found for an exception. -/
def respond : FailureResponse :=
  (e.exceptionClass.mro.findSome? ((exceptionHandlers path).lookup ·)).elim
    (handleUnexpectedError path) (· e)

end Handlers

/-- What is no refusal is an unexpected error. -/
theorem respond_internal {path : String} {e : AppError}
    (he : e.Internal) : respond path e = handleUnexpectedError path := by
  rcases e with e | e | e | e | e | -
  · exact he.elim
  · rfl
  · rfl
  · cases e with
    | notFound message => exact he.elim
    | _ => rfl
  · rfl
  · rfl

end Boat.App
