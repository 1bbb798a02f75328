import Testbench.Shell.Token

/-!
# Statements of shell scripts

A `Script` is a list of statements, each of which is carried out or passed over depending
on how the one before it went.  `Script.ofTokens?` reads one; scripts with pipes, groups
or background jobs are not known here.  Scripts only serve to run the program in a world; no
result rests on how they are read.
-/

namespace Testbench.Shell

/-- When a statement is carried out: always, or only if the status of the statement
before it tells success or failure. -/
inductive Condition where
  | always
  | success
  | failure
  deriving DecidableEq

/-- A change of where a stream goes or comes from. -/
structure Redirection where
  number : Option Char
  operator : Text
  target : Word
  deriving DecidableEq

/-- A statement of a script, and the line on which it begins. -/
structure Statement where
  line : Nat
  condition : Condition
  words : List Word
  redirections : List Redirection
  deriving DecidableEq

/-- The statements of a script in their order. -/
abbrev Script := List Statement

namespace Script

/-- The operators behind which the target of a redirection stands. -/
def redirectionOperators : List Text := ["<", ">", ">>", ">&", "<&"]

/-- A statement, unless there is nothing in it. -/
def unlessEmpty (s : Statement) : Script :=
  if s.words = [] ∧ s.redirections = [] then [] else [s]

/-- The condition for the statement behind an operator, where `s` is in front of it. -/
def conditionBehind? (s : Statement) (operator : Text) : Option Condition :=
  if operator = ['\n'] ∧ s.words = [] ∧ s.redirections = [] then some s.condition
  else [(([';'] : Text), Condition.always), (['\n'], .always), ("&&", .success),
    ("||", .failure)].lookup operator

/-- Reads the statements of a script, the first of which has been begun. -/
def read? (s : Statement) : List Token → Option Script
  | [] => some (unlessEmpty s)
  | ⟨line, .word w⟩ :: r =>
      let line := if s.words = [] then line else s.line
      read? { s with line, words := s.words ++ [w] } r
  | ⟨_, .operator number operator⟩ :: ⟨line, .word w⟩ :: r =>
      if redirectionOperators.contains operator then
        read? { s with redirections := s.redirections ++ [⟨number, operator, w⟩] } r
      else do
        let condition ← conditionBehind? s operator
        return unlessEmpty s ++ (← read? ⟨line, condition, [w], []⟩ r)
  | ⟨line, .operator _ operator⟩ :: r => do
      let condition ← conditionBehind? s operator
      return unlessEmpty s ++ (← read? ⟨line, condition, [], []⟩ r)

/-- The script of tokens, if it is known how to carry it out. -/
def ofTokens? (tokens : List Token) : Option Script := read? ⟨1, .always, [], []⟩ tokens

end Script

end Testbench.Shell
