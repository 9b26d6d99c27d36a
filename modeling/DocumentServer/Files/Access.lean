import DocumentServer.Bytes

/-! Files by path, and what can go wrong with a path. The same programs run on the files of a
machine and on a `Directory`; they reach either through a `FileAccess`. -/
namespace DocumentServer

/-- Why a path leads to no file that can be used. -/
inductive PathFault where
  | notFound
  | isDirectory
  | notDirectory
  | nameTooLong
  /-- The path holds a zero character. -/
  | zeroInName
  /-- The system refuses for another reason. -/
  | other (text : String)
  deriving DecidableEq, Repr

namespace PathFault

def text : PathFault → String
  | notFound => "No such file or directory (os error 2)"
  | isDirectory => "Is a directory (os error 21)"
  | notDirectory => "Not a directory (os error 20)"
  | nameTooLong => "File name too long (os error 36)"
  | zeroInName => "file name contained an unexpected NUL byte"
  | other text => text

end PathFault

/-- Why a file can not be held. -/
inductive HoldFault where
  | path (fault : PathFault)
  /-- The file is held already. -/
  | held
  deriving DecidableEq, Repr

structure FileAccess (m : Type → Type) where
  /-- Whether there is a file or a directory at a path. -/
  isPresent : String → m Bool
  read : String → m (Except PathFault Bytes)
  write : String → Bytes → m (Except PathFault Unit)
  /-- Takes a file for oneself, an empty one if there is none, and gives its bytes. -/
  hold : String → m (Except HoldFault Bytes)
  /-- Gives up a file, leaving these bytes in it. -/
  release : String → Bytes → m Unit

end DocumentServer
