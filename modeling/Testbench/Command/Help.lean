import Testbench.Text.Basic

/-!
# Help texts

What the program prints when it is asked for help, for itself and for each of its
commands.
-/

namespace Testbench

/-- What help can be asked for. -/
inductive Topic where
  | program
  | parse
  | generate
  | run
  | check
  deriving DecidableEq

namespace Topic

/-- The line that leads from the help of a command to that of the program. -/
def footer : Text := "\n\nUse 'tbgen --help' to see the global options."

/-- The help of the program. -/
def programHelp : Text :=
  "Tbgen generates VHDL testbenches from entity declarations.\n\n" ++
  "Usage:\n" ++
  "    tbgen [options] <command>\n\n" ++
  "Commands:\n" ++
  "    parse                 read an entity into an interchange record\n" ++
  "    generate              write a testbench for an entity\n" ++
  "    run                   generate a testbench and simulate it\n" ++
  "    check                 verify that a testbench instantiates an entity\n\n" ++
  "Options:\n" ++
  "    --config <path>       configuration file to load\n" ++
  "    --color <when>        coloring: auto, always, never\n" ++
  "    --verbose, -v         report each step as it happens\n" ++
  "    --version             print version information and exit\n" ++
  "    --help, -h            print help information\n\n" ++
  "Use 'tbgen <command> --help' for more information about a command."

/-- The help of `parse`. -/
def parseHelp : Text :=
  "Read an entity into an interchange record.\n\n" ++
  "Usage:\n" ++
  "    tbgen parse [options] <file>\n\n" ++
  "Arguments:\n" ++
  "    <file>                VHDL source file (.vhd, .vhdl)\n\n" ++
  "Options:\n" ++
  "    --output, -o <path>   write the record to a file instead of stdout"

/-- The line that explains the input of a command. -/
def inputLine : Text :=
  "    <file>                VHDL source (.vhd, .vhdl) or interchange record (.json)\n"

/-- The help of `generate`. -/
def generateHelp : Text :=
  "Write a testbench for an entity.\n\n" ++
  "Usage:\n" ++
  "    tbgen generate [options] <file>\n\n" ++
  "Arguments:\n" ++ inputLine ++ "\n" ++
  "Options:\n" ++
  "    --out-dir <dir>       write files to a directory instead of stdout\n" ++
  "    --json                also write the interchange record to the directory\n" ++
  "    --makefile            also write a GHDL makefile to the directory"

/-- The help of `run`. -/
def runHelp : Text :=
  "Generate a testbench and simulate it.\n\n" ++
  "Usage:\n" ++
  "    tbgen run [options] <file>\n\n" ++
  "Arguments:\n" ++ inputLine ++ "\n" ++
  "Options:\n" ++
  "    --out-dir <dir>       directory to write files to and run from [default: build]\n" ++
  "    --command <cmd>       simulator program to run instead of the configured one"

/-- The help of `check`. -/
def checkHelp : Text :=
  "Verify that a testbench instantiates an entity.\n\n" ++
  "Usage:\n" ++
  "    tbgen check <file> <bench>\n\n" ++
  "Arguments:\n" ++ inputLine ++
  "    <bench>               testbench source to verify\n\n" ++
  "The testbench must declare the entity's component or instantiate it directly\n" ++
  "with 'entity <library>.<name>', and map every port by name."

/-- The help text of a topic. -/
def help : Topic → Text
  | program => programHelp
  | parse => parseHelp ++ footer
  | generate => generateHelp ++ footer
  | run => runHelp ++ footer
  | check => checkHelp ++ footer

end Topic

end Testbench
