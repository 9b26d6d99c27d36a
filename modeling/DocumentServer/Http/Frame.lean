import DocumentServer.Bytes

/-! The frames that a response consists of: a start with the status and the headers, then pieces of
the body, the last of which says that nothing follows. -/
namespace DocumentServer

inductive Frame where
  /-- The status code and the headers in their order. -/
  | start (status : Nat) (headers : List (Bytes × Bytes))
  /-- A piece of the body, and whether another one follows. -/
  | body (data : Bytes) (more : Bool)
  deriving DecidableEq, Repr

namespace Frame

/-- The type tag of a frame. -/
def tag : Frame → String
  | .start .. => "http.response.start"
  | .body .. => "http.response.body"

def isFinal : Frame → Bool
  | .body _ false => true
  | _ => false

end Frame

end DocumentServer
