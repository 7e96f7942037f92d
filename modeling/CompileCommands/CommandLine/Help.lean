/-!
# The help text
-/

namespace CompileCommands.CommandLine

def helpText : String := "\n".intercalate
  [ "Usage: xcbuild-compdb [options] <input>",
    "",
    "converts an xcodebuild log into a compilation database",
    "",
    "Arguments:",
    "  input                        build log, JSON-lines log (.jsonl, .json) or '-'",
    "",
    "Options:",
    "  -o, --output <file>          compilation database to write, '-' for stdout",
    "                               (default: \"compile_commands.json\")",
    "  --exclude-directory <regex>  skip build steps run in matching directories;",
    "                               repeatable (default: [])",
    "  --exclude-file <regex>       skip entries compiling matching files;",
    "                               repeatable (default: [])",
    "  -v, --verbose                log skipped build steps to stderr (default:",
    "                               false)",
    "  -h, --help                   display help for command",
    "" ]

end CompileCommands.CommandLine
