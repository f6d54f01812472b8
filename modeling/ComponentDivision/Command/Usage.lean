/-
# Help

The texts that explain the command line.

* `usage` : the form of a command line;
* `help` : the usage with a line on each option.
-/
import ComponentDivision.Command.Options

namespace ComponentDivision.Command

/-- The name of the program. -/
def program : Text :=
  "svelte-fragments".toList

/-- The form of a command line. -/
def usage : Text :=
  ("usage: svelte-fragments [-h] [--name NAME] [--config CONFIG]\n"
    ++ "                        [--no-expressions] [--markup-parser MARKUP_FEATURES]\n"
    ++ "                        [--json] [--verbose]\n"
    ++ "                        path\n").toList

/-- The usage with a line on each option. -/
def help : Text :=
  usage ++ ("\n"
    ++ "Split a Svelte component into script, style and markup fragments with exact\n"
    ++ "positions.\n"
    ++ "\n"
    ++ "positional arguments:\n"
    ++ "  path                  Path to the component file.\n"
    ++ "\n"
    ++ "options:\n"
    ++ "  -h, --help            show this help message and exit\n"
    ++ "  --name NAME           Display name reported as fileName (default: the path).\n"
    ++ "  --config CONFIG       Path to JSON/YAML divider configuration.\n"
    ++ "  --no-expressions      Skip locating expressions inside the markup.\n"
    ++ "  --markup-parser MARKUP_FEATURES\n"
    ++ "                        BeautifulSoup tree builder used to find script/style\n"
    ++ "                        blocks (default: html.parser).\n"
    ++ "  --json                Emit JSON output.\n"
    ++ "  --verbose             Log progress to stderr.\n").toList

/-- What is printed about a command line that is wrong. -/
def UsageError.report (e : UsageError) : Text :=
  usage ++ program ++ ": error: ".toList ++ e.message ++ ['\n']

end ComponentDivision.Command
