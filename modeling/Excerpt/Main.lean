import Excerpt.CommandLine.Run
import Excerpt.Unicode.Width

/-!
The program on the files of the machine.
-/

namespace Excerpt

/-- The fault behind an error of the operating system, which numbers wrong kinds of files. -/
def faultOf : IO.Error → FileFault
  | .inappropriateType _ code _ => if code = 21 then .isDirectory else .notDirectory
  | .invalidArgument _ code _ => if code = 36 then .nameTooLong else .missing
  | _ => .missing

def readBytes (path : String) : IO (Except FileFault Bytes) := do
  try
    return .ok (← IO.FS.readBinFile path).toList
  catch e =>
    return .error (faultOf e)

def machineFiles : FileAccess IO where
  here := return FilePath.parse (toString (← IO.currentDir)).toList
  read path :=
    if path.contains (Char.ofNat 0) then return .error .embeddedNull
    else readBytes (String.ofList path)

end Excerpt

open Excerpt in
def main (arguments : List String) : IO UInt32 := do
  let _ : Platform := .usual
  let outcome ← CommandLine.run Unicode.cellWidth machineFiles (arguments.map String.toList)
  (← IO.getStdout).putStr (String.ofList outcome.out)
  (← IO.getStderr).putStr (String.ofList outcome.err)
  if let some crash := outcome.crash then
    (← IO.getStderr).putStrLn crash.message
  return outcome.status.toUInt32
