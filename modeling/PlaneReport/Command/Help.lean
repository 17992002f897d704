import PlaneReport.Text.Blank

/-!
# Help texts

What is shown to someone who asks how the program is used.
-/

namespace PlaneReport
namespace Help

def version : String :=
  Text.ofLines ["planar 0.1.0"]

def root : String :=
  Text.ofLines
    ["Print a sample sum and a point-to-point distance",
      "",
      "Usage: planar [OPTIONS] [COMMAND]",
      "",
      "Commands:",
      "  run     Compute and print the report (default)",
      "  init    Set up .planar directory with default configuration",
      "  config  Display active settings",
      "  help    Print this message or the help of the given subcommand(s)",
      "",
      "Options:",
      "  -c, --config <CONFIG>  Path to custom settings.toml file",
      "      --json             Emit JSON instead of text",
      "      --info             Show detailed loading information",
      "  -h, --help             Print help",
      "  -V, --version          Print version",
      "",
      "Examples:",
      "  planar",
      "  planar run --precision 6",
      "  planar --json",
      "  PLANAR_INPUTS__A=10 planar"]

def run : String :=
  Text.ofLines
    ["Compute and print the report (default)",
      "",
      "Usage: planar run [OPTIONS]",
      "",
      "Options:",
      "  -c, --config <CONFIG>        Path to custom settings.toml file",
      "  -p, --precision <PRECISION>  Decimal places for the distance (overrides config)",
      "      --json                   Emit JSON instead of text",
      "      --info                   Show detailed loading information",
      "  -h, --help                   Print help"]

def init : String :=
  Text.ofLines
    ["Set up .planar directory with default configuration",
      "",
      "Usage: planar init [OPTIONS]",
      "",
      "Options:",
      "  -c, --config <CONFIG>  Path to custom settings.toml file",
      "  -f, --force            Force overwrite existing configuration",
      "      --json             Emit JSON instead of text",
      "      --info             Show detailed loading information",
      "  -h, --help             Print help"]

def config : String :=
  Text.ofLines
    ["Display active settings",
      "",
      "Usage: planar config [OPTIONS]",
      "",
      "Options:",
      "  -c, --config <CONFIG>  Path to custom settings.toml file",
      "      --json             Emit JSON instead of text",
      "      --info             Show detailed loading information",
      "  -h, --help             Print help"]

def help : String :=
  Text.ofLines
    ["Print this message or the help of the given subcommand(s)",
      "",
      "Usage: planar help [COMMAND]...",
      "",
      "Arguments:",
      "  [COMMAND]...  Print help for the subcommand(s)"]

end Help
end PlaneReport
