import LineShell.Fault.Code

/-!
Faults of the system: why a read, a write or a request to the operating system did not succeed.
-/
namespace LineShell

namespace Fault

/-- The broad kinds of fault, for those that have no system code. -/
inductive Kind where
  | notFound
  | permissionDenied
  | connectionRefused
  | connectionReset
  | hostUnreachable
  | networkUnreachable
  | connectionAborted
  | notConnected
  | addrInUse
  | addrNotAvailable
  | networkDown
  | brokenPipe
  | alreadyExists
  | wouldBlock
  | notADirectory
  | isADirectory
  | directoryNotEmpty
  | readOnlyFilesystem
  | filesystemLoop
  | staleNetworkFileHandle
  | invalidInput
  | invalidData
  | timedOut
  | writeZero
  | storageFull
  | notSeekable
  | quotaExceeded
  | fileTooLarge
  | resourceBusy
  | executableFileBusy
  | deadlock
  | crossesDevices
  | tooManyLinks
  | invalidFilename
  | argumentListTooLong
  | interrupted
  | unsupported
  | unexpectedEof
  | outOfMemory
  | inProgress
  | other
  | uncategorized
  deriving DecidableEq, Repr

def Kind.description : Kind → String
  | .notFound => "entity not found"
  | .permissionDenied => "permission denied"
  | .connectionRefused => "connection refused"
  | .connectionReset => "connection reset"
  | .hostUnreachable => "host unreachable"
  | .networkUnreachable => "network unreachable"
  | .connectionAborted => "connection aborted"
  | .notConnected => "not connected"
  | .addrInUse => "address in use"
  | .addrNotAvailable => "address not available"
  | .networkDown => "network down"
  | .brokenPipe => "broken pipe"
  | .alreadyExists => "entity already exists"
  | .wouldBlock => "operation would block"
  | .notADirectory => "not a directory"
  | .isADirectory => "is a directory"
  | .directoryNotEmpty => "directory not empty"
  | .readOnlyFilesystem => "read-only filesystem or storage medium"
  | .filesystemLoop => "filesystem loop or indirection limit (e.g. symlink loop)"
  | .staleNetworkFileHandle => "stale network file handle"
  | .invalidInput => "invalid input parameter"
  | .invalidData => "invalid data"
  | .timedOut => "timed out"
  | .writeZero => "write zero"
  | .storageFull => "no storage space"
  | .notSeekable => "seek on unseekable file"
  | .quotaExceeded => "quota exceeded"
  | .fileTooLarge => "file too large"
  | .resourceBusy => "resource busy"
  | .executableFileBusy => "executable file busy"
  | .deadlock => "deadlock"
  | .crossesDevices => "cross-device link or rename"
  | .tooManyLinks => "too many links"
  | .invalidFilename => "invalid filename"
  | .argumentListTooLong => "argument list too long"
  | .interrupted => "operation interrupted"
  | .unsupported => "unsupported"
  | .unexpectedEof => "unexpected end of file"
  | .outOfMemory => "out of memory"
  | .inProgress => "in progress"
  | .other => "other error"
  | .uncategorized => "uncategorized error"

end Fault

/-- A fault is known by its system code, by its kind alone, or by its kind and a text of its own. -/
inductive Fault where
  | system (code : Int)
  | ofKind (kind : Fault.Kind)
  | worded (kind : Fault.Kind) (text : String)
  deriving DecidableEq, Repr

namespace Fault

def noEntry : Fault := .system 2

def argumentTooLong : Fault := .system 7

def notExecutable : Fault := .system 8

def noChild : Fault := .system 10

def accessDenied : Fault := .system 13

def notDirectory : Fault := .system 20

def isDirectory : Fault := .system 21

def noSpace : Fault := .system 28

def nameTooLong : Fault := .system 36

def linkLoop : Fault := .system 40

def message : Fault → String
  | .system code => s!"{codeText code} (os error {code})"
  | .ofKind kind => kind.description
  | .worded _ text => text

def saysNotFound : Fault → Bool
  | .system code => code = 2
  | .ofKind kind | .worded kind _ => kind = .notFound

def saysDenied : Fault → Bool
  | .system code => code = 1 || code = 13
  | .ofKind kind | .worded kind _ => kind = .permissionDenied

end Fault
end LineShell
