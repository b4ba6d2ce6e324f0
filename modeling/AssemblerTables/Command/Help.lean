/-
What the command line says about itself.
-/
import AssemblerTables.Text.Lines

namespace AssemblerTables
namespace Command

def programName : String := "isagen"

def version : String := "1.0.0"

def versionText : String :=
  s!"{programName}, version {version}\n"

/-- The line that tells how the program is called, and where to learn more. -/
def usageText : String :=
  "Usage: isagen [OPTIONS] [ISA_FILE]\nTry 'isagen --help' for help.\n"

def helpText : String :=
  Text.unlines [
    "Usage: isagen [OPTIONS] [ISA_FILE]",
    "",
    "  Generate assembler keyword and lookup tables from an ISA definition.",
    "",
    "  ISA_FILE is a JSON list of \x7b\"name\", \"hex\", \"args\"\x7d instruction records, or",
    "  an object holding that list under \"instructions\". Without ISA_FILE the",
    "  bundled GR8CPU Rev3 definition is used.",
    "",
    "  Examples:",
    "      isagen                          # Bundled ISA, C to stdout",
    "      isagen cpu.json -o tables.c     # Specify output file",
    "      isagen cpu.json -f listing      # Syntax listing only",
    "",
    "Options:",
    "  -o, --output FILE               Output file (default: stdout)",
    "  -l, --listing FILE              Also write the operand syntax listing to",
    "                                  this file",
    "  -f, --format [c|listing|summary]",
    "                                  What to write to the output. Default: c",
    "  -p, --prefix TEXT               Prefix of generated C names (default: r3, or",
    "                                  $ISAGEN_PREFIX)",
    "  -k, --keywords-per-row INTEGER RANGE",
    "                                  Keywords per line in the emitted arrays",
    "                                  (default: 4)  [x>=1]",
    "  -v, --verbose                   Verbose output",
    "  --version                       Show the version and exit.",
    "  --help                          Show this message and exit."]

end Command
end AssemblerTables
