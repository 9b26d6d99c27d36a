/-! The well-known statuses of HTTP responses. Each has a code, a reason phrase, a class and a
shape, which says what a response of that status has to carry. -/
namespace DocumentServer

/-- What the first digit of a code says about the request. -/
inductive StatusClass where
  | successful
  | redirection
  | clientError
  | serverError
  deriving DecidableEq, Repr

/-- What a response has to carry on account of its status. -/
inductive StatusShape where
  /-- Nothing in particular. -/
  | plain
  /-- No body. -/
  | emptyBody
  /-- The location to go to. -/
  | redirect
  /-- The offending method and the allowed ones. -/
  | methodNotAllowed
  /-- A link to the demand that blocks the resource. -/
  | legalBlock
  deriving DecidableEq, Repr

inductive Status where
  | ok
  | created
  | accepted
  | nonAuthoritativeInformation
  | noContent
  | resetContent
  | partialContent
  | multipleChoices
  | movedPermanently
  | found
  | seeOther
  | notModified
  | useProxy
  | temporaryRedirect
  | permanentRedirect
  | badRequest
  | unauthorized
  | paymentRequired
  | forbidden
  | notFound
  | methodNotAllowed
  | notAcceptable
  | proxyAuthenticationRequired
  | requestTimeout
  | conflict
  | gone
  | lengthRequired
  | preconditionFailed
  | requestEntityTooLarge
  | requestUriTooLong
  | unsupportedMediaType
  | requestRangeNotSatisfiable
  | expectationFailed
  | misdirectedRequest
  | unprocessableEntity
  | failedDependency
  | upgradeRequired
  | preconditionRequired
  | tooManyRequests
  | requestHeaderFieldsTooLarge
  | unavailableForLegalReasons
  | internalServerError
  | notImplemented
  | badGateway
  | serviceUnavailable
  | gatewayTimeout
  | versionNotSupported
  | variantAlsoNegotiates
  | insufficientStorage
  | notExtended
  | networkAuthenticationRequired
  deriving DecidableEq, Repr

structure StatusEntry where
  name : String
  code : Nat
  reason : String
  group : StatusClass
  shape : StatusShape

namespace Status

def entry : Status → StatusEntry
  | ok => ⟨"Ok", 200, "OK", .successful, .plain⟩
  | created => ⟨"Created", 201, "Created", .successful, .plain⟩
  | accepted => ⟨"Accepted", 202, "Accepted", .successful, .plain⟩
  | nonAuthoritativeInformation =>
    ⟨"NonAuthoritativeInformation", 203, "Non-Authoritative Information", .successful, .plain⟩
  | noContent => ⟨"NoContent", 204, "No Content", .successful, .emptyBody⟩
  | resetContent => ⟨"ResetContent", 205, "Reset Content", .successful, .emptyBody⟩
  | partialContent => ⟨"PartialContent", 206, "Partial Content", .successful, .plain⟩
  | multipleChoices => ⟨"MultipleChoices", 300, "Multiple Choices", .redirection, .redirect⟩
  | movedPermanently => ⟨"MovedPermanently", 301, "Moved Permanently", .redirection, .redirect⟩
  | found => ⟨"Found", 302, "Found", .redirection, .redirect⟩
  | seeOther => ⟨"SeeOther", 303, "See Other", .redirection, .redirect⟩
  | notModified => ⟨"NotModified", 304, "Not Modified", .redirection, .emptyBody⟩
  | useProxy => ⟨"UseProxy", 305, "Use Proxy", .redirection, .redirect⟩
  | temporaryRedirect => ⟨"TemporaryRedirect", 307, "Temporary Redirect", .redirection, .redirect⟩
  | permanentRedirect => ⟨"PermanentRedirect", 308, "Permanent Redirect", .redirection, .redirect⟩
  | badRequest => ⟨"BadRequest", 400, "Bad Request", .clientError, .plain⟩
  | unauthorized => ⟨"Unauthorized", 401, "Unauthorized", .clientError, .plain⟩
  | paymentRequired => ⟨"PaymentRequired", 402, "Payment Required", .clientError, .plain⟩
  | forbidden => ⟨"Forbidden", 403, "Forbidden", .clientError, .plain⟩
  | notFound => ⟨"NotFound", 404, "Not Found", .clientError, .plain⟩
  | methodNotAllowed =>
    ⟨"MethodNotAllowed", 405, "Method Not Allowed", .clientError, .methodNotAllowed⟩
  | notAcceptable => ⟨"NotAcceptable", 406, "Not Acceptable", .clientError, .plain⟩
  | proxyAuthenticationRequired =>
    ⟨"ProxyAuthenticationRequired", 407, "Proxy Authentication Required", .clientError, .plain⟩
  | requestTimeout => ⟨"RequestTimeout", 408, "Request Timeout", .clientError, .plain⟩
  | conflict => ⟨"Conflict", 409, "Conflict", .clientError, .plain⟩
  | gone => ⟨"Gone", 410, "Gone", .clientError, .plain⟩
  | lengthRequired => ⟨"LengthRequired", 411, "Length Required", .clientError, .plain⟩
  | preconditionFailed => ⟨"PreconditionFailed", 412, "Precondition Failed", .clientError, .plain⟩
  | requestEntityTooLarge =>
    ⟨"RequestEntityTooLarge", 413, "Request Entity Too Large", .clientError, .plain⟩
  | requestUriTooLong => ⟨"RequestUriTooLong", 414, "Request-URI Too Long", .clientError, .plain⟩
  | unsupportedMediaType =>
    ⟨"UnsupportedMediaType", 415, "Unsupported Media Type", .clientError, .plain⟩
  | requestRangeNotSatisfiable =>
    ⟨"RequestRangeNotSatisfiable", 416, "Requested Range Not Satisfiable", .clientError, .plain⟩
  | expectationFailed => ⟨"ExpectationFailed", 417, "Expectation Failed", .clientError, .plain⟩
  | misdirectedRequest => ⟨"MisdirectedRequest", 421, "Misdirected Request", .clientError, .plain⟩
  | unprocessableEntity =>
    ⟨"UnprocessableEntity", 422, "Unprocessable Entity", .clientError, .plain⟩
  | failedDependency => ⟨"FailedDependency", 424, "Failed Dependency", .clientError, .plain⟩
  | upgradeRequired => ⟨"UpgradeRequired", 426, "Upgrade Required", .clientError, .plain⟩
  | preconditionRequired =>
    ⟨"PreconditionRequired", 428, "Precondition Required", .clientError, .plain⟩
  | tooManyRequests => ⟨"TooManyRequests", 429, "Too Many Requests", .clientError, .plain⟩
  | requestHeaderFieldsTooLarge =>
    ⟨"RequestHeaderFieldsTooLarge", 431, "Request Header Fields Too Large", .clientError, .plain⟩
  | unavailableForLegalReasons =>
    ⟨"UnavailableForLegalReasons", 451, "Unavailable For Legal Reasons", .clientError, .legalBlock⟩
  | internalServerError =>
    ⟨"InternalServerError", 500, "Internal Server Error", .serverError, .plain⟩
  | notImplemented => ⟨"NotImplemented", 501, "Not Implemented", .serverError, .plain⟩
  | badGateway => ⟨"BadGateway", 502, "Bad Gateway", .serverError, .plain⟩
  | serviceUnavailable => ⟨"ServiceUnavailable", 503, "Service Unavailable", .serverError, .plain⟩
  | gatewayTimeout => ⟨"GatewayTimeout", 504, "Gateway Timeout", .serverError, .plain⟩
  | versionNotSupported =>
    ⟨"VersionNotSupported", 505, "HTTP Version Not Supported", .serverError, .plain⟩
  | variantAlsoNegotiates =>
    ⟨"VariantAlsoNegotiates", 506, "Variant Also Negotiates", .serverError, .plain⟩
  | insufficientStorage =>
    ⟨"InsufficientStorage", 507, "Insufficient Storage", .serverError, .plain⟩
  | notExtended => ⟨"NotExtended", 510, "Not Extended", .serverError, .plain⟩
  | networkAuthenticationRequired =>
    ⟨"NetworkAuthenticationRequired", 511, "Network Authentication Required", .serverError, .plain⟩

/-- Every status in ascending order of the codes. -/
def all : List Status := [
  .ok, .created, .accepted, .nonAuthoritativeInformation, .noContent, .resetContent,
  .partialContent, .multipleChoices, .movedPermanently, .found, .seeOther, .notModified,
  .useProxy, .temporaryRedirect, .permanentRedirect, .badRequest, .unauthorized, .paymentRequired,
  .forbidden, .notFound, .methodNotAllowed, .notAcceptable, .proxyAuthenticationRequired,
  .requestTimeout, .conflict, .gone, .lengthRequired, .preconditionFailed, .requestEntityTooLarge,
  .requestUriTooLong, .unsupportedMediaType, .requestRangeNotSatisfiable, .expectationFailed,
  .misdirectedRequest, .unprocessableEntity, .failedDependency, .upgradeRequired,
  .preconditionRequired, .tooManyRequests, .requestHeaderFieldsTooLarge,
  .unavailableForLegalReasons, .internalServerError, .notImplemented, .badGateway,
  .serviceUnavailable, .gatewayTimeout, .versionNotSupported, .variantAlsoNegotiates,
  .insufficientStorage, .notExtended, .networkAuthenticationRequired]

def code (status : Status) : Nat := status.entry.code

/-- What a status makes a response carry. -/
def shape (status : Status) : StatusShape := status.entry.shape

def ofCode? (code : Nat) : Option Status := all.find? (·.code == code)

/-- Whether a status leaves no room for a body. -/
def emptyBody (status : Status) : Bool := status.shape = .emptyBody

def isError (status : Status) : Bool :=
  status.entry.group = .clientError || status.entry.group = .serverError

end Status

/-- Whether a code, known or not, leaves no room for a body. -/
def emptyBodyCode (code : Nat) : Bool := (Status.ofCode? code).any Status.emptyBody

/-- The code of a response, well-known or not. -/
structure StatusCode where
  val : Nat
  /-- Codes have three digits, the first of them at most five. -/
  inRange : 100 ≤ val ∧ val ≤ 599

namespace StatusCode

instance : DecidableEq StatusCode := fun a b =>
  if h : a.val = b.val then .isTrue (by cases a; cases b; cases h; rfl)
  else .isFalse fun e => h (congrArg val e)

/-- A number as a code, if it is in range. -/
def ofNat? (code : Nat) : Option StatusCode :=
  if h : 100 ≤ code ∧ code ≤ 599 then some ⟨code, h⟩ else none

end StatusCode

/-- The code of a well-known status is in range. -/
theorem Status.code_inRange (status : Status) : 100 ≤ status.code ∧ status.code ≤ 599 := by
  cases status <;> decide

def Status.statusCode (status : Status) : StatusCode := ⟨status.code, status.code_inRange⟩

end DocumentServer
