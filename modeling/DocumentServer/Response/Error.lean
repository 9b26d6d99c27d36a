/-! What can go wrong while a response is built or sent, each cause with its wording. -/
namespace DocumentServer

/-- A call that the state of a stream or of its writer forbids. -/
inductive StateFault where
  | writeBeforeStart
  | writeAfterEnd
  | notStarted
  | ended
  | writerEnded
  deriving DecidableEq, Repr

/-- A way to send bodies that writers do not offer. -/
inductive Unsupported where
  | compression
  | chunking
  deriving DecidableEq, Repr

/-- An error of the response layer. -/
inductive ResponseError where
  /-- The call comes too early or too late. -/
  | state (fault : StateFault)
  /-- An argument is out of range, or a hook refuses the request. -/
  | invalidArgument (text : String)
  /-- A status was given where the kind of response fixes it. -/
  | statusFixed (code : Nat)
  /-- A redirect has no location. -/
  | missingLocation
  | unsupported (what : Unsupported)
  /-- The line refuses a frame. -/
  | transport (text : String)
  deriving DecidableEq, Repr

namespace StateFault

def text : StateFault → String
  | writeBeforeStart => "Cannot call write() before prepare()"
  | writeAfterEnd => "Cannot call write() after write_eof()"
  | notStarted => "Response has not been started"
  | ended => "EOF has already been sent"
  | writerEnded => "Cannot write to a stream after eof"

end StateFault

namespace Unsupported

def text : Unsupported → String
  | compression => "body compression"
  | chunking => "chunked transfer encoding"

end Unsupported

namespace ResponseError

def message : ResponseError → String
  | state fault => s!"protocol state error: {fault.text}"
  | invalidArgument text => s!"invalid argument: {text}"
  | statusFixed code => s!"can not customize status code of {code}"
  | missingLocation => "HTTP redirects need a location to redirect to"
  | unsupported what => s!"not supported: {what.text}"
  | transport text => s!"transport error: {text}"

/-- The complaint about a code that is out of range. -/
def statusOutOfRange (code : Nat) : ResponseError :=
  invalidArgument s!"status code {code} is outside 100..=599"

end ResponseError

end DocumentServer
