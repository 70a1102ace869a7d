/-!
# Texts of the command line

The version and the help texts, as they are printed.
-/

namespace Stencil.Command

def versionText : String := "Tessera 0.1.0\n"

/-- The lines of a text, each with its line end. -/
def lines (ls : List String) : String :=
  String.join (ls.map (· ++ "\n"))

def helpText : String := lines
  ["usage: tessera [-h] [-v] [--config CONFIG] [--log-level LOG_LEVEL]",
   "               [--log-format \x7btext,json\x7d] [--log-file LOG_FILE]",
   "               \x7bparse,check\x7d ...",
   "",
   "Tessera template parser",
   "",
   "positional arguments:",
   "  \x7bparse,check\x7d         Available commands",
   "    parse               Parse a template and print its AST",
   "    check               Check that templates parse",
   "",
   "options:",
   "  -h, --help            show this help message and exit",
   "  -v, --version         show program's version number and exit",
   "  --config CONFIG       JSON configuration file",
   "  --log-level LOG_LEVEL",
   "                        Log level (debug, info, warning, error)",
   "  --log-format \x7btext,json\x7d",
   "                        Log output format",
   "  --log-file LOG_FILE   Also write logs to this file",
   "",
   "Examples:",
   "  tessera parse page.html                 Print the AST of a template as JSON",
   "  tessera parse page.html --views views/  Resolve views from a directory",
   "  tessera parse title.txt --string        Parse a plain string template",
   "  tessera check views/*.html              Validate several templates",
   "        "]

def parseHelpText : String := lines
  ["usage: tessera parse [-h] [--name NAME] [--string] [--unminified]",
   "                     [--views VIEWS] [--indent]",
   "                     file",
   "",
   "positional arguments:",
   "  file           Template file",
   "",
   "options:",
   "  -h, --help     show this help message and exit",
   "  --name NAME    View name (defaults to the file name without extension)",
   "  --string       Parse as a plain string template",
   "  --unminified   Do not collapse whitespace before parsing",
   "  --views VIEWS  Directory of views available to the template",
   "  --indent       Pretty-print the JSON output"]

def checkHelpText : String := lines
  ["usage: tessera check [-h] [--views VIEWS] files [files ...]",
   "",
   "positional arguments:",
   "  files          Template files",
   "",
   "options:",
   "  -h, --help     show this help message and exit",
   "  --views VIEWS  Directory of views available to the templates"]

end Stencil.Command
