import Testbench.Text.Quoted
import Testbench.Text.Sentence

/-!
# Failures

The reasons for which a command fails, and their wording.  A hint that helps the user
follows behind an empty line.
-/

namespace Testbench

/-- Advice on how to avoid a failure. -/
inductive Hint where
  | inputExtensions
  | sourceOnly
  | colorModes
  | simulatorConfig
  | renameSource
  deriving DecidableEq

/-- The wording of a hint. -/
def Hint.message : Hint → Text
  | .inputExtensions =>
      "expecting VHDL source (.vhd, .vhdl) or an interchange record (.json)"
  | .sourceOnly => "expecting VHDL source (.vhd, .vhdl)"
  | .colorModes => "possible values are \"auto\", \"always\", and \"never\""
  | .simulatorConfig =>
      "set the command to run under [simulator] in the configuration file or pass \"--command\""
  | .renameSource =>
      "rename the source file or change the suffix under [bench] in the configuration file"

/-- A color of the terminal. -/
inductive Color where
  | green
  | yellow
  | boldYellow
  deriving DecidableEq

/-- The code that switches the terminal to a color. -/
def Color.code : Color → Text
  | .green => "32"
  | .yellow => "33"
  | .boldYellow => "1;33"

/-- A text in a color, if coloring is on. -/
def Color.paint (color : Color) (colored : Bool) (t : Text) : Text :=
  if colored then ['\x1b', '['] ++ color.code ++ "m" ++ t ++ ['\x1b', '[', '0', 'm'] else t

/-- A hint behind a message. -/
def Hint.text (colored : Bool) (h : Hint) : Text :=
  "\n\n" ++ Color.green.paint colored "hint" ++ ": " ++ h.message.continued

/-- Why a command fails.  A `reason` is the message of what went wrong before. -/
inductive Failure where
  | configInvalid (path reason : Text)
  | unsupportedInput (path : Text) (hint : Hint)
  | generationFailed (entity reason : Text)
  | invalidColorMode (value : Text) (hint : Hint)
  | exitCode (code : Int)
  | terminated
  | simulatorFailed (reason : Text) (hint : Hint)
  | incompatibleBench (bench entity reason : Text)
  | nameCollision (source generated : Text) (hint : Hint)
  | unreadable (path : Option Text) (reason : Text)
  deriving DecidableEq

/-- The wording of a failure. -/
def Failure.message (colored : Bool) : Failure → Text
  | .configInvalid path reason =>
      "invalid configuration file " ++ path.quoted ++ ": " ++ reason.continued
  | .unsupportedInput path hint =>
      "file " ++ path.quoted ++ " is not a supported input" ++ hint.text colored
  | .generationFailed entity reason =>
      "failed to generate testbench for entity " ++ entity.quoted ++ ": " ++ reason.continued
  | .invalidColorMode value hint =>
      "invalid value " ++ value.quoted ++ " for option \"--color\"" ++ hint.text colored
  | .exitCode code => "exited with error code: " ++ Text.ofInt code
  | .terminated => "terminated by signal"
  | .simulatorFailed reason hint =>
      "failed to execute simulator process: " ++ reason.continued ++ hint.text colored
  | .incompatibleBench bench entity reason =>
      "testbench " ++ bench.quoted ++ " is not compatible with entity " ++ entity.quoted ++
        ": " ++ reason.continued
  | .nameCollision source generated hint =>
      "source file " ++ source.quoted ++ " has the same name as the generated file " ++
        generated.quoted ++ hint.text colored
  | .unreadable (some path) reason => "failed to read file " ++ path.quoted ++ ": " ++ reason
  | .unreadable none reason => reason

end Testbench
