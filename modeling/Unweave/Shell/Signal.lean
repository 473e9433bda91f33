import Unweave.Shell.Number

/-!
# Signals

Signals have numbers and names.  What a process does about one it has no action for is to end, to
stop or to go on.
-/

namespace Unweave
namespace Shell
namespace Signal

/-- The names of the signals from one on. -/
def names : List String :=
  ["HUP", "INT", "QUIT", "ILL", "TRAP", "ABRT", "BUS", "FPE", "KILL", "USR1", "SEGV", "USR2", "PIPE",
    "ALRM", "TERM", "STKFLT", "CHLD", "CONT", "STOP", "TSTP", "TTIN", "TTOU", "URG", "XCPU", "XFSZ",
    "VTALRM", "PROF", "WINCH", "POLL", "PWR", "SYS"]

/-- Numbers of signals are below this one. -/
def bound : Nat := 65

def nameOf (n : Nat) : String :=
  if n = 0 then "EXIT" else (names[n - 1]?).getD (toString n)

/-- The signal with a name, which may be in small letters. -/
def ofName? (s : String) : Option Nat :=
  let s := s.map Char.toUpper
  if s == "EXIT" then some 0 else (names.idxOf? s).map (· + 1)

/-- The signal that a name or a number means. -/
def parse? (s : String) : Option Nat :=
  match natural? s with
  | some n => if n < bound then some n else none
  | none => ofName? s

/-- What is told of a process that a signal ended; nothing if it was expected. -/
def message (n : Nat) : String :=
  match n with
  | 1 => "Hangup"
  | 3 => "Quit"
  | 4 => "Illegal instruction"
  | 5 => "Trace/breakpoint trap"
  | 6 => "Aborted"
  | 7 => "Bus error"
  | 8 => "Floating point exception"
  | 9 => "Killed"
  | 10 => "User defined signal 1"
  | 11 => "Segmentation fault"
  | 12 => "User defined signal 2"
  | 14 => "Alarm clock"
  | 15 => "Terminated"
  | 16 => "Stack fault"
  | 24 => "CPU time limit exceeded"
  | 25 => "File size limit exceeded"
  | 26 => "Virtual timer expired"
  | 27 => "Profiling timer expired"
  | 29 => "I/O possible"
  | 30 => "Power failure"
  | 31 => "Bad system call"
  | _ => ""

/-- Signals that pass without effect. -/
def isHarmless (n : Nat) : Bool := n == 17 || n == 18 || n == 23 || n == 28

/-- Signals that stop a process until it is told to go on. -/
def stops (n : Nat) : Bool := n == 19 || n == 20 || n == 21 || n == 22

/-- Signals that no action can be set for. -/
def isFixed (n : Nat) : Bool := n == 9 || n == 19

example : ofName? "TERM" = some 15 ∧ nameOf 15 = "TERM" := by decide +kernel

end Signal
end Shell
end Unweave
