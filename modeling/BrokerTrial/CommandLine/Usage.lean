import BrokerTrial.CommandLine.Arguments

/-!
What the program writes instead of running: its usage, with help or with an error.
-/

namespace BrokerTrial

namespace CommandLine

def programName : String := "mqtt-qos-probe"

def usage : String := s!"usage: {programName} [-h] [-s] [-d] [-c CONFIG] [--host HOST]\n"

def helpText : String :=
  usage ++ "\nSubscribe, publish at QoS0 and QoS1, report the outcome.\n\noptions:\n" ++
    "  -h, --help            show this help message and exit\n" ++
    "  -s, --tls             use TLS (default port 8883)\n" ++
    "  -d, --debug           debug logging\n" ++
    "  -c CONFIG, --config CONFIG\n" ++
    "                        YAML configuration file\n" ++
    "  --host HOST           broker host, overrides the configuration\n"

/-- An exit of the program with what it wrote. -/
structure Exit where
  code : Nat
  output : String := ""
  errors : String := ""
deriving DecidableEq, Repr

def Stop.exit : Stop → Exit
  | .help => { code := 0, output := helpText }
  | .refused e => { code := 2, errors := s!"{usage}{programName}: error: {e.message}\n" }

end CommandLine

end BrokerTrial
