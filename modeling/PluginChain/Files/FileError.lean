set_option autoImplicit false

/-!
# Failures of file operations

A file operation fails with one of the numbered errors of the operating system,
or because the text it was given or found is not what a path or a text file can
hold.  `FileError.message` is the failure in words; an error number stands behind
its name in brackets.
-/

namespace PluginChain

/-- The names of the errors of the operating system, from number 1 on. -/
def systemErrorNames : List String := [
  "Operation not permitted", "No such file or directory", "No such process",
  "Interrupted system call", "Input/output error", "No such device or address",
  "Argument list too long", "Exec format error", "Bad file descriptor", "No child processes",
  "Resource temporarily unavailable", "Cannot allocate memory", "Permission denied",
  "Bad address", "Block device required", "Device or resource busy", "File exists",
  "Invalid cross-device link", "No such device", "Not a directory", "Is a directory",
  "Invalid argument", "Too many open files in system", "Too many open files",
  "Inappropriate ioctl for device", "Text file busy", "File too large",
  "No space left on device", "Illegal seek", "Read-only file system", "Too many links",
  "Broken pipe", "Numerical argument out of domain", "Numerical result out of range",
  "Resource deadlock avoided", "File name too long", "No locks available",
  "Function not implemented", "Directory not empty", "Too many levels of symbolic links",
  "Unknown error 41", "No message of desired type", "Identifier removed",
  "Channel number out of range", "Level 2 not synchronized", "Level 3 halted", "Level 3 reset",
  "Link number out of range", "Protocol driver not attached", "No CSI structure available",
  "Level 2 halted", "Invalid exchange", "Invalid request descriptor", "Exchange full",
  "No anode", "Invalid request code", "Invalid slot", "Unknown error 58",
  "Bad font file format", "Device not a stream", "No data available", "Timer expired",
  "Out of streams resources", "Machine is not on the network", "Package not installed",
  "Object is remote", "Link has been severed", "Advertise error", "Srmount error",
  "Communication error on send", "Protocol error", "Multihop attempted", "RFS specific error",
  "Bad message", "Value too large for defined data type", "Name not unique on network",
  "File descriptor in bad state", "Remote address changed",
  "Can not access a needed shared library", "Accessing a corrupted shared library",
  ".lib section in a.out corrupted", "Attempting to link in too many shared libraries",
  "Cannot exec a shared library directly", "Invalid or incomplete multibyte or wide character",
  "Interrupted system call should be restarted", "Streams pipe error", "Too many users",
  "Socket operation on non-socket", "Destination address required", "Message too long",
  "Protocol wrong type for socket", "Protocol not available", "Protocol not supported",
  "Socket type not supported", "Operation not supported", "Protocol family not supported",
  "Address family not supported by protocol", "Address already in use",
  "Cannot assign requested address", "Network is down", "Network is unreachable",
  "Network dropped connection on reset", "Software caused connection abort",
  "Connection reset by peer", "No buffer space available",
  "Transport endpoint is already connected", "Transport endpoint is not connected",
  "Cannot send after transport endpoint shutdown", "Too many references: cannot splice",
  "Connection timed out", "Connection refused", "Host is down", "No route to host",
  "Operation already in progress", "Operation now in progress", "Stale file handle",
  "Structure needs cleaning", "Not a XENIX named type file", "No XENIX semaphores available",
  "Is a named type file", "Remote I/O error", "Disk quota exceeded", "No medium found",
  "Wrong medium type", "Operation canceled", "Required key not available", "Key has expired",
  "Key has been revoked", "Key was rejected by service", "Owner died", "State not recoverable",
  "Operation not possible due to RF-kill", "Memory page has hardware error"]

/-- Why a file operation failed. -/
inductive FileError where
  /-- A numbered error of the operating system. -/
  | system (number : Int)
  /-- A path holds the null character. -/
  | nulInPath
  /-- A text was wanted, and the bytes are no UTF-8. -/
  | notUtf8
  deriving DecidableEq, Repr, Inhabited

namespace FileError

/-- There is no file or directory at the path. -/
def notFound : FileError := .system 2

/-- There is something at the path already. -/
def alreadyExists : FileError := .system 17

/-- A directory was wanted where a file is. -/
def notDirectory : FileError := .system 20

/-- A file was wanted where a directory is. -/
def isDirectory : FileError := .system 21

/-- A path, or a name in it, is too long. -/
def nameTooLong : FileError := .system 36

/-- The name of a numbered error.  Numbers below zero have none. -/
def systemErrorName (number : Int) : String :=
  let unknown := "Unknown error " ++ toString number
  if number = 0 then "Success"
  else if number < 0 then unknown
  else systemErrorNames[number.toNat - 1]?.getD unknown

/-- The failure in words. -/
def message : FileError → String
  | .system number => systemErrorName number ++ " (os error " ++ toString number ++ ")"
  | .nulInPath => "file name contained an unexpected NUL byte"
  | .notUtf8 => "stream did not contain valid UTF-8"

example : notDirectory.message = "Not a directory (os error 20)" := by decide +kernel

example : (system (-1)).message = "Unknown error -1 (os error -1)" := by decide +kernel

end FileError

end PluginChain
