/-!
# Texts of the command line

The usage text stands before every usage error; the help text begins with it.
-/

namespace HackVm.Cli

/-- The name of the program. -/
def programName : String := "vmtranslate"

/-- The version of the program. -/
def versionText : String := "0.1.0"

/-- Lines put together, each with its line feed. -/
def unlines (lines : List String) : String :=
  String.join (lines.map (· ++ "\n"))

/-- How the program is called. -/
def usageText : String :=
  unlines
    ["usage: vmtranslate [-h] [-o OUTPUT] [--bootstrap | --no-bootstrap]",
     "                   [--annotate] [--stack-base STACK_BASE] [--stdout]",
     "                   [--verbose] [--log-file LOG_FILE] [--version]",
     "                   input"]

/-- What the program does and what its options mean. -/
def helpText : String :=
  usageText ++ unlines
    ["",
     "Hack VM Translator: .vm stack-machine code to Hack assembly",
     "",
     "positional arguments:",
     "  input                 Input .vm file or directory of .vm files",
     "",
     "options:",
     "  -h, --help            show this help message and exit",
     "  -o OUTPUT, --output OUTPUT",
     "                        Output .asm file (default: derived from input)",
     "  --bootstrap           Prefix the bootstrap sequence (default for",
     "                        directories)",
     "  --no-bootstrap        Omit the bootstrap sequence",
     "  --annotate            Put a // comment with each VM command in the output",
     "  --stack-base STACK_BASE",
     "                        Initial stack pointer for the bootstrap (default 256)",
     "  --stdout              Print the assembly instead of writing a file",
     "  --verbose, -v         Log progress to stderr (-vv for every command)",
     "  --log-file LOG_FILE   Also write a DEBUG log to this file",
     "  --version             show program's version number and exit"]

end HackVm.Cli
