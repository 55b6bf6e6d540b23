/-!
# Signals

The signals that processes send each other: numbers, names, and what each does to a process that
has made no arrangement for it.
-/

namespace TinyShell.Machine

/-- The number of a signal. -/
abbrev Signal := Nat

/-- What a signal does to a process. -/
inductive SignalEffect where
  | terminate
  | nothing
  | stop
  | proceed
  deriving DecidableEq, Repr, Inhabited

namespace Signal

/-- The names of the signals from zero on; zero is sent to see whether there is such a process. -/
def names : List String :=
  ["0", "HUP", "INT", "QUIT", "ILL", "TRAP", "ABRT", "BUS", "FPE", "KILL", "USR1", "SEGV", "USR2",
    "PIPE", "ALRM", "TERM", "16", "CHLD", "CONT", "STOP", "TSTP", "TTIN", "TTOU", "URG", "XCPU",
    "XFSZ", "VTALRM", "PROF", "WINCH", "IO", "PWR", "SYS", "32", "33", "RTMIN"] ++
  (List.range 15).map (fun n => "RTMIN+" ++ toString (n + 1)) ++
  (List.range 14).map (fun n => "RTMAX-" ++ toString (14 - n)) ++ ["RTMAX"]

/-- The largest number of a signal. -/
def last : Signal := 64

/-- What is said of a process that a signal has ended. -/
def describe (signal : Signal) : String :=
  let known := ["", "Hangup", "Interrupt", "Quit", "Illegal instruction", "Trace/breakpoint trap",
    "Aborted", "Bus error", "Floating point exception", "Killed", "User defined signal 1",
    "Segmentation fault", "User defined signal 2", "Broken pipe", "Alarm clock", "Terminated",
    "Stack fault", "Child exited", "Continued", "Stopped (signal)", "Stopped",
    "Stopped (tty input)", "Stopped (tty output)", "Urgent I/O condition",
    "CPU time limit exceeded", "File size limit exceeded", "Virtual timer expired",
    "Profiling timer expired", "Window changed", "I/O possible", "Power failure",
    "Bad system call"]
  (known[signal]?).getD ("Real-time signal " ++ toString (signal - 34))

/-- The signals that no process can arrange for. -/
def isSovereign (signal : Signal) : Bool := signal = 9 || signal = 19

/-- What a signal does by default. -/
def effect (signal : Signal) : SignalEffect :=
  if signal = 0 || signal = 17 || signal = 23 || signal = 28 then .nothing
  else if signal = 18 then .proceed
  else if 19 ≤ signal && signal ≤ 22 then .stop
  else .terminate

def hangup : Signal := 1

def interrupt : Signal := 2

def quit : Signal := 3

def segmentFault : Signal := 11

def brokenPipe : Signal := 13

def terminated : Signal := 15

def childEnded : Signal := 17

end Signal

/-- How a process ended. -/
inductive Death where
  | exited (code : Nat)
  | signaled (signal : Signal)
  deriving DecidableEq, Repr, Inhabited

/-- The end of a process that leaves a status: the low byte of it counts. -/
def Death.ofStatus (status : Int32) : Death := .exited (status.toInt % 256).toNat

/-- The end of a process as one number: its code, or 128 and the signal. -/
def Death.code : Death → Nat
  | exited code => code
  | signaled signal => 128 + signal

end TinyShell.Machine
