import Peripheral.Text.Utf8

/-
  Peripheral.System — what the operating system can be asked for by way of its programs and
  its files.
-/

namespace Peripheral

/-- Operating systems, as far as they differ in what is asked of them. -/
inductive Platform
  | linux
  /-- Any other Unix. -/
  | unix
  | windows
deriving DecidableEq, Repr

/-- What a program has left behind when it ends. -/
structure ProgramEnd where
  succeeded : Bool
  stdout : List UInt8 := []
  stderr : List UInt8 := []
deriving DecidableEq, Repr

/-- A system as it is at one moment. An error is a number of its own. -/
structure System where
  platform : Platform
  /-- Runs a program with arguments to its end, if it starts. -/
  run : String → List String → Except Int ProgramEnd
  file : String → Except Int (List UInt8)

/-- What a program prints that starts and succeeds. -/
def System.printed? (os : System) (program : String) (arguments : List String) : Option String :=
  match os.run program arguments with
  | .ok e => if e.succeeded then some (Text.Utf8.decodeLossy e.stdout) else none
  | .error _ => none

end Peripheral
