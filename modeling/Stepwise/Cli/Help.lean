import Stepwise.Cli.Args

/-!
# Help

The help text of each command.
-/

namespace Stepwise.Cli.Topic

def lines : Topic → List String
  | .general =>
    ["SWODL - run workflow scripts one statement at a time",
     "",
     "Usage: swodl [OPTIONS] <COMMAND>",
     "",
     "Commands:",
     "  run    Run a program, printing one JSON line per executed statement",
     "  check  Link a program and report its diagnostics",
     "  help   Print this message or the help of the given subcommand(s)",
     "",
     "Options:",
     "      --config <CONFIG>  Path to config file (overrides default search)",
     "  -h, --help             Print help"]
  | .run =>
    ["Run a program, printing one JSON line per executed statement",
     "",
     "Usage: swodl run [OPTIONS] <PROGRAM>",
     "",
     "Arguments:",
     "  <PROGRAM>",
     "          Program AST as JSON",
     "",
     "Options:",
     "      --config <CONFIG>",
     "          Path to config file (overrides default search)",
     "  -i, --input <INPUTS>",
     "          Input variable as NAME=VALUE (VALUE is read as JSON, else as text)",
     "  -b, --break <BREAKPOINTS>",
     "          Pause before the statement on this line",
     "      --mock <MOCK>",
     "          TOML file with canned web service responses",
     "      --delay-multiplier <DELAY_MULTIPLIER>",
     "          Factor applied to every delay (0 skips delays)",
     "  -q, --quiet",
     "          Do not print step records",
     "  -h, --help",
     "          Print help"]
  | .check =>
    ["Link a program and report its diagnostics",
     "",
     "Usage: swodl check [OPTIONS] <PROGRAM>",
     "",
     "Arguments:",
     "  <PROGRAM>  Program AST as JSON",
     "",
     "Options:",
     "      --config <CONFIG>  Path to config file (overrides default search)",
     "  -h, --help             Print help"]
  | .help =>
    ["Print this message or the help of the given subcommand(s)",
     "",
     "Usage: swodl help [COMMAND]...",
     "",
     "Arguments:",
     "  [COMMAND]...  Print help for the subcommand(s)"]

end Stepwise.Cli.Topic
