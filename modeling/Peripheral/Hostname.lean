import Peripheral.Address.Text
import Peripheral.System
import Peripheral.Text.Blank
import Peripheral.Text.Search

/-
  Peripheral.Hostname — host names in the output of name services, and which service each
  system is asked by.
-/

namespace Peripheral.Hostname

/-- The second word of the first line: an address is followed by its canonical name. -/
def ofHostsLine? (output : String) : Option String :=
  (Text.linesOf output).head?.bind fun line => (Text.wordsOf line)[1]?

/-- What a line of a name server's answer says: the text after `name = `, or after `Name:` at
    its front, without blanks and final dots. -/
def ofAnswerLine? (line : String) : Option String := do
  let line := Text.trim line.toList
  let said ← match Text.afterFirst? "name = ".toList line with
    | some rest => some rest
    | none =>
      if "Name:".toList.isPrefixOf line then some (line.drop "Name:".length) else none
  let name := Text.dropEnd '.' (Text.trim said)
  if name.isEmpty then none else some (String.ofList name)

/-- The first line that says a name. -/
def ofAnswer? (output : String) : Option String := (Text.linesOf output).findSome? ofAnswerLine?

/-- The name that the name service has for an address. -/
def lookup? (os : System) (ip : Address) : Option String :=
  match os.platform with
  | .linux => (os.printed? "getent" ["hosts", ip.text]).bind ofHostsLine?
  | .unix | .windows => (os.printed? "nslookup" [ip.text]).bind ofAnswer?

end Peripheral.Hostname
