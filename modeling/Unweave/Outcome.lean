import Unweave.Json.Decode
import Unweave.Json.Encode
import Unweave.Text.Blank

/-!
# Outcomes of commands
-/

namespace Unweave

open Json (field)

structure Outcome where
  success : Bool
  /-- The exit code; a program that was stopped by a signal has none. -/
  exitCode : Option Int
  stdout : String
  stderr : String
  /-- How long the command ran, in milliseconds. -/
  duration : Nat := 0
  timedOut : Bool := false
deriving DecidableEq

namespace Outcome

/-- Both streams as one text, without the blanks at their ends. -/
def combined (o : Outcome) : String :=
  let out := Text.trimEnd o.stdout
  if (Text.trim o.stderr).isEmpty then out
  else out ++ (if out.isEmpty then "" else "\n") ++ Text.trimEnd o.stderr

def toJson (o : Outcome) : Json :=
  .obj (field "success" (.bool o.success) ++ field "exit_code" (.orNull (o.exitCode.map .int)) ++
    field "stdout" (.str o.stdout) ++ field "stderr" (.str o.stderr) ++
    field "duration" (.ofNat o.duration) ++ field "timed_out" (.bool o.timedOut))

def decode : Json.Decoder Outcome := fun scope j => do
  let r ← Json.record
    ["success", "exit_code", "stdout", "stderr", "duration", "timed_out"] scope j
  let success ← r.required "success" Json.flag
  let exitCode ← r.nullableField "exit_code" (Json.intIn (-2147483648) 2147483648)
  let stdout ← r.required "stdout" Json.text
  let stderr ← r.required "stderr" Json.text
  let duration ← r.required "duration" Json.long
  let timedOut ← r.required "timed_out" Json.flag
  return { success, exitCode, stdout, stderr, duration, timedOut }

end Outcome
end Unweave
