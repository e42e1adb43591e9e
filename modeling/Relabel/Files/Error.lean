/-
**Errors of the operating system.**

* `FileError`: a numbered error, or a path that the system cannot be asked about.
* `FileError.message`: what the system says of it.
-/

import Relabel.Text.Basic

namespace Relabel

/-- Why an operation on files failed. -/
inductive FileError where
  /-- The error with a number of the operating system. -/
  | numbered (number : Int)
  /-- The path holds the character zero. -/
  | zeroInPath
  deriving DecidableEq, Repr

namespace FileError

/-! ### Errors with names -/

@[match_pattern] abbrev notFound : FileError := .numbered 2
@[match_pattern] abbrev alreadyThere : FileError := .numbered 17
@[match_pattern] abbrev notDirectory : FileError := .numbered 20
@[match_pattern] abbrev isDirectory : FileError := .numbered 21
@[match_pattern] abbrev nameTooLong : FileError := .numbered 36

/-! ### Messages -/

/-- The descriptions of the errors, in order of their numbers. A number without an error has an
empty one. -/
def descriptions : List String :=
  ["Success", "Operation not permitted", "No such file or directory", "No such process",
    "Interrupted system call", "Input/output error", "No such device or address",
    "Argument list too long", "Exec format error", "Bad file descriptor", "No child processes",
    "Resource temporarily unavailable", "Cannot allocate memory", "Permission denied",
    "Bad address", "Block device required", "Device or resource busy", "File exists",
    "Invalid cross-device link", "No such device", "Not a directory", "Is a directory",
    "Invalid argument", "Too many open files in system", "Too many open files",
    "Inappropriate ioctl for device", "Text file busy", "File too large", "No space left on device",
    "Illegal seek", "Read-only file system", "Too many links", "Broken pipe",
    "Numerical argument out of domain", "Numerical result out of range",
    "Resource deadlock avoided", "File name too long", "No locks available",
    "Function not implemented", "Directory not empty", "Too many levels of symbolic links", "",
    "No message of desired type", "Identifier removed", "Channel number out of range",
    "Level 2 not synchronized", "Level 3 halted", "Level 3 reset", "Link number out of range",
    "Protocol driver not attached", "No CSI structure available", "Level 2 halted",
    "Invalid exchange", "Invalid request descriptor", "Exchange full", "No anode",
    "Invalid request code", "Invalid slot", "", "Bad font file format", "Device not a stream",
    "No data available", "Timer expired", "Out of streams resources",
    "Machine is not on the network", "Package not installed", "Object is remote",
    "Link has been severed", "Advertise error", "Srmount error", "Communication error on send",
    "Protocol error", "Multihop attempted", "RFS specific error", "Bad message",
    "Value too large for defined data type", "Name not unique on network",
    "File descriptor in bad state", "Remote address changed",
    "Can not access a needed shared library", "Accessing a corrupted shared library",
    ".lib section in a.out corrupted", "Attempting to link in too many shared libraries",
    "Cannot exec a shared library directly", "Invalid or incomplete multibyte or wide character",
    "Interrupted system call should be restarted", "Streams pipe error", "Too many users",
    "Socket operation on non-socket", "Destination address required", "Message too long",
    "Protocol wrong type for socket", "Protocol not available", "Protocol not supported",
    "Socket type not supported", "Operation not supported", "Protocol family not supported",
    "Address family not supported by protocol", "Address already in use",
    "Cannot assign requested address", "Network is down", "Network is unreachable",
    "Network dropped connection on reset", "Software caused connection abort",
    "Connection reset by peer", "No buffer space available",
    "Transport endpoint is already connected", "Transport endpoint is not connected",
    "Cannot send after transport endpoint shutdown", "Too many references: cannot splice",
    "Connection timed out", "Connection refused", "Host is down", "No route to host",
    "Operation already in progress", "Operation now in progress", "Stale file handle",
    "Structure needs cleaning", "Not a XENIX named type file", "No XENIX semaphores available",
    "Is a named type file", "Remote I/O error", "Disk quota exceeded", "No medium found",
    "Wrong medium type", "Operation canceled", "Required key not available", "Key has expired",
    "Key has been revoked", "Key was rejected by service", "Owner died", "State not recoverable",
    "Operation not possible due to RF-kill", "Memory page has hardware error"]

/-- The description of the error with a number. -/
def description (number : Int) : Text :=
  match number.toNat?.bind (descriptions[·]?) with
  | none | some "" => "Unknown error " ++ Text.integer number
  | some text => text

/-- What the system says of an error. -/
def message : FileError → Text
  | .numbered number => description number ++ " (os error " ++ Text.integer number ++ ")"
  | .zeroInPath => "file name contained an unexpected NUL byte"

end FileError

end Relabel
