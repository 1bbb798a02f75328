import Testbench.Text.Basic

/-!
# Makefiles

A `Makefile` holds the recipe by which a bench is analyzed, elaborated and run.
-/

namespace Testbench

/-- What a makefile needs to know: the entity, the source files in the order of their
analysis, the directory for the results, and the bench. -/
structure Makefile where
  entity : Text
  sources : List Text
  directory : Text
  top : Text
  deriving DecidableEq

namespace Makefile

/-- The name under which a makefile is stored. -/
def fileName : Text := "Makefile"

/-- The rules of a makefile, which do not depend on the bench. -/
def rules : Text :=
  ".PHONY: all analyze elaborate run clean\n\n" ++
  "all: run\n\n" ++
  "analyze:\n" ++
  "\tmkdir -p $(SIM_BUILD)\n" ++
  "\t$(GHDL) -a $(GHDL_FLAGS) --workdir=$(SIM_BUILD) $(VHDL_SOURCES)\n\n" ++
  "elaborate: analyze\n" ++
  "\t$(GHDL) -e $(GHDL_FLAGS) --workdir=$(SIM_BUILD) $(TOPLEVEL)\n\n" ++
  "run: elaborate\n" ++
  "\t$(GHDL) -r $(GHDL_FLAGS) --workdir=$(SIM_BUILD) $(TOPLEVEL)" ++
  " --vcd=$(SIM_BUILD)/$(TOPLEVEL).vcd\n\n" ++
  "clean::\n" ++
  "\trm -rf $(SIM_BUILD)\n" ++
  "\trm -rf *.o\n" ++
  "\trm -rf *.vcd\n" ++
  "\trm -f results.xml\n" ++
  "\trm -f $(TOPLEVEL)\n"

/-- A makefile as it is written. -/
def text (m : Makefile) : Text :=
  "# Makefile for simulating the testbench of entity '" ++ m.entity ++ "'\n\n" ++
    "GHDL ?= ghdl\nGHDL_FLAGS ?= --std=08\n\n" ++
    "VHDL_SOURCES = " ++ Text.join " " m.sources ++ "\n" ++
    "TOPLEVEL = " ++ m.top ++ "\n" ++
    "SIM_BUILD = " ++ m.directory ++ "\n\n" ++ rules

end Makefile

end Testbench
