/-
**What the command line says of itself.**
-/

import Relabel.Text.Basic

namespace Relabel

/-- The version of the program. -/
def versionText : Text :=
  "classmint 0.3.0\n"

/-- The lines of the description of the command line. -/
def helpLines : List Text :=
  ["  ___ _               __  __ _     _",
    " / __| |__ _ ______ _|  \\/  (_)_ _| |_",
    "| (__| / _\x60 (_-<_-<  | |\\/| | | ' \\  _|",
    " \\___|_\\__,_/__/__/  |_|  |_|_|_||_\\__|",
    "",
    "CLI tool and library for replacing generated class and id names in HTML/CSS pairs with short "
      ++ "stable ones",
    "",
    "Usage: classmint [OPTIONS] [HTML] [CSS]",
    "",
    "Arguments:",
    "  [HTML]  HTML document to rewrite",
    "  [CSS]   Stylesheet linked from the HTML document",
    "",
    "Options:",
    "  -o, --output <DIR>                  Write rewritten documents and mapping.json into this "
      ++ "directory [default: out]",
    "      --class-prefix <PREFIX>         Prefix of generated class names",
    "      --id-prefix <PREFIX>            Prefix of generated IDs",
    "  -m, --mode <MODE>                   Which tokens to rename: strict (GUID-shaped only) or "
      ++ "default (any opaque token)",
    "      --scripts                       Download external scripts and point their references at "
      ++ "the local copies",
    "  -b, --base-url <http://localhost/>  Resolve relative script references against this URL",
    "      --scripts-dir <DIR>             Directory under the output directory that receives "
      ++ "scripts",
    "  -t, --timeout <60>                  Adjust network request timeout",
    "  -u, --user-agent <Firefox>          Set custom User-Agent string",
    "  -e, --encoding <UTF-8>              Enforce custom charset for input documents",
    "  -s, --silent                        Suppress verbosity",
    "  -v, --verbose                       Log every stage of the run",
    "      --env-docs                      Print the supported environment variables and exit",
    "  -h, --help                          Print help",
    "  -V, --version                       Print version"]

/-- The description of the command line. -/
def helpText : Text :=
  helpLines.flatMap fun line => line ++ ['\n']

end Relabel
