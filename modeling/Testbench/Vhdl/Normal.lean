import Testbench.Vhdl.Character

/-!
# Normal source text

`normalize` removes the comments of VHDL source and reduces each run of separators and
comments to one space, with none at either end.  Comments are found without regard to
strings: `--` opens a comment that runs through the end of the line and `/*` one that
runs through the next `*/`, and a comment that does not end takes the rest of the text.
-/

namespace Testbench.Vhdl

/-- The part of the source that a reader is in. -/
inductive Region where
  | code
  | lineComment
  | blockComment
  deriving DecidableEq

/-- What has been written before the next character of code: nothing yet, a character
that the next one follows at once, or one that a gap separates from the next. -/
inductive Gap where
  | start
  | closed
  | opened
  deriving DecidableEq

/-- A gap after a separator or a comment. -/
def Gap.widen : Gap → Gap
  | .start => .start
  | _ => .opened

/-- The space that stands for a gap. -/
def Gap.space : Gap → Text
  | .opened => [' ']
  | _ => []

/-- The normal form of source that is read from inside a region and behind a gap. -/
def normalizeFrom : Region → Gap → Text → Text
  | _, _, [] => []
  | .code, g, '-' :: '-' :: r => normalizeFrom .lineComment g.widen r
  | .code, g, '/' :: '*' :: r => normalizeFrom .blockComment g.widen r
  | .code, g, c :: r =>
      if isSeparator c then normalizeFrom .code g.widen r
      else g.space ++ c :: normalizeFrom .code .closed r
  | .lineComment, g, '\n' :: r => normalizeFrom .code g r
  | .lineComment, g, _ :: r => normalizeFrom .lineComment g r
  | .blockComment, g, '*' :: '/' :: r => normalizeFrom .code g r
  | .blockComment, g, _ :: r => normalizeFrom .blockComment g r

/-- The source without comments and with single spaces for separators. -/
def normalize (t : Text) : Text := normalizeFrom .code .start t

end Testbench.Vhdl
