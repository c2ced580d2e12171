import Peripheral.CommandLine.Basic

/-
  Peripheral.CommandLine.Message — what is printed when there is nothing to run: help, the
  version, or what is wrong with the command line.
-/

namespace Peripheral.CommandLine

def version : String := "0.1.0"

namespace Opt

/-- The line of help on an option. -/
def about : Opt → String
  | config => "Path to configuration file [default: tether.toml]"
  | logLevel => "Log level (trace, debug, info, warn, error, critical, off)"
  | help => "Print help"
  | version => "Print version"
  | json => "Print JSON instead of text"
  | usb => "USB device as VID:PID in hex, e.g. 0403:6010"
  | ip => "IP address or glob to probe; \x60*\x60 scans every local subnet"
  | port => "Port to probe"
  | udp => "Probe with UDP instead of TCP"
  | http => "Probe as an HTTP device"

/-- How an option is shown in front of its line of help. -/
def usage (o : Opt) : String := o.short?.elim "    " (fun c => s!"-{c}, ") ++ o.text

end Opt

/-- Lines of two columns, the second one two places after the widest of the first. -/
def columns (rows : List (String × String)) : List String :=
  let width := rows.foldl (fun w r => max w r.1.length) 0
  rows.map fun (left, right) =>
    "  " ++ left ++ String.ofList (List.replicate (width - left.length + 2) ' ') ++ right

def Scope.about : Scope → String
  | program => "Discover USB and Ethernet devices"
  | interfaces => "List usable local network interfaces"
  | devices => "Discover devices matching the given criteria, or those in the config file"

def helpAbout : String := "Print this message or the help of the given subcommand(s)"

/-- The words of a usage line. -/
def Scope.usage : Scope → String
  | program => "tether [OPTIONS] <COMMAND>"
  | interfaces => "tether interfaces [OPTIONS]"
  | devices => "tether devices [OPTIONS]"

def commandLines : List String :=
  ["Commands:"] ++ columns [("interfaces", Scope.interfaces.about), ("devices", Scope.devices.about),
    ("help", helpAbout)] ++ [""]

def Page.lines : Page → List String
  | of scope =>
    [scope.about, "", s!"Usage: {scope.usage}", ""] ++
      (if scope = .program then commandLines else []) ++
      ["Options:"] ++ columns (scope.options.map fun o => (o.usage, o.about))
  | ofHelp =>
    [helpAbout, "", "Usage: tether help [COMMAND]...", "", "Arguments:"] ++
      columns [("[COMMAND]...", "Print help for the subcommand(s)")]

def Page.text (p : Page) : String := String.join (p.lines.map (· ++ "\n"))

namespace Refusal

/-- What is wrong, in one line. -/
def fault? : Refusal → Option String
  | help _ | version | nothingGiven => none
  | commandMissing => some "'tether' requires a subcommand but one was not provided"
  | unknownCommand word => some s!"unrecognized subcommand '{word}'"
  | unexpected word => some s!"unexpected argument '{word}' found"
  | unexpectedValue value flag =>
    some s!"unexpected value '{value}' for '{flag.text}' found; no more were expected"
  | valueMissing o => some s!"a value is required for '{o.text}' but none was supplied"
  | invalidValue value o reason => some s!"invalid value '{value}' for '{o.text}': {reason}"
  | repeated o => some s!"the argument '{o.text}' cannot be used multiple times"
  | conflicting first second => some s!"the argument '{first.text}' cannot be used with '{second.text}'"

/-- Asked for, and no fault. -/
def isAnswer : Refusal → Bool
  | help _ | version => true
  | _ => false

def text (r : Refusal) : String :=
  match r with
  | help page => page.text
  | version => s!"tether {CommandLine.version}\n"
  | nothingGiven => (Page.of .program).text
  | r => "error: " ++ r.fault?.getD "" ++ "\n\nFor more information, try '--help'.\n"

end Refusal

end Peripheral.CommandLine
