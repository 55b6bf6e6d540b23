/-!
# Errors of the operating system

The reasons for which a call can fail, each with its name and its description.
-/

namespace TinyShell

/-- The reason for which a call failed. `unknown` is what is left when no reason was given. -/
inductive Errno where
  | e2big | eacces | eagain | ebadf | ebusy | echild | efault | eintr | einval | eio | eisdir
  | eloop | emfile | enametoolong | enfile | enoent | enoexec | enomem | enospc | enotdir | enxio
  | eperm | epipe | erofs | esrch | etxtbsy | unknown
  deriving DecidableEq, Repr, Inhabited

namespace Errno

/-- Every reason. -/
def all : List Errno :=
  [e2big, eacces, eagain, ebadf, ebusy, echild, efault, eintr, einval, eio, eisdir, eloop, emfile,
    enametoolong, enfile, enoent, enoexec, enomem, enospc, enotdir, enxio, eperm, epipe, erofs,
    esrch, etxtbsy, unknown]

/-- The symbolic name. -/
def name : Errno → String
  | e2big => "E2BIG"
  | eacces => "EACCES"
  | eagain => "EAGAIN"
  | ebadf => "EBADF"
  | ebusy => "EBUSY"
  | echild => "ECHILD"
  | efault => "EFAULT"
  | eintr => "EINTR"
  | einval => "EINVAL"
  | eio => "EIO"
  | eisdir => "EISDIR"
  | eloop => "ELOOP"
  | emfile => "EMFILE"
  | enametoolong => "ENAMETOOLONG"
  | enfile => "ENFILE"
  | enoent => "ENOENT"
  | enoexec => "ENOEXEC"
  | enomem => "ENOMEM"
  | enospc => "ENOSPC"
  | enotdir => "ENOTDIR"
  | enxio => "ENXIO"
  | eperm => "EPERM"
  | epipe => "EPIPE"
  | erofs => "EROFS"
  | esrch => "ESRCH"
  | etxtbsy => "ETXTBSY"
  | unknown => "UnknownErrno"

/-- The reason in words. -/
def describe : Errno → String
  | e2big => "Argument list too long"
  | eacces => "Permission denied"
  | eagain => "Try again"
  | ebadf => "Bad file number"
  | ebusy => "Device or resource busy"
  | echild => "No child processes"
  | efault => "Bad address"
  | eintr => "Interrupted system call"
  | einval => "Invalid argument"
  | eio => "I/O error"
  | eisdir => "Is a directory"
  | eloop => "Too many symbolic links encountered"
  | emfile => "Too many open files"
  | enametoolong => "File name too long"
  | enfile => "File table overflow"
  | enoent => "No such file or directory"
  | enoexec => "Exec format error"
  | enomem => "Out of memory"
  | enospc => "No space left on device"
  | enotdir => "Not a directory"
  | enxio => "No such device or address"
  | eperm => "Operation not permitted"
  | epipe => "Broken pipe"
  | erofs => "Read-only file system"
  | esrch => "No such process"
  | etxtbsy => "Text file busy"
  | unknown => "Unknown errno"

/-- Name and description, as in most messages. -/
def text (errno : Errno) : String := errno.name ++ ": " ++ errno.describe

/-- The reason of this name. -/
def ofName? (name : String) : Option Errno := all.find? (·.name = name)

end Errno

end TinyShell
