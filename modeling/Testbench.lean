import Testbench.Bench.Assembly
import Testbench.Check.Missing
import Testbench.Command.Program
import Testbench.Host.World
import Testbench.Main
import Testbench.Proofs.Bench.Balanced
import Testbench.Proofs.Bench.Declared
import Testbench.Proofs.Bench.Fault
import Testbench.Proofs.Case.Entity
import Testbench.Proofs.Check.Driven
import Testbench.Proofs.Check.Hidden
import Testbench.Proofs.Check.Style
import Testbench.Proofs.Command.Failed
import Testbench.Proofs.Command.Source
import Testbench.Proofs.Layout.Component
import Testbench.Proofs.Nesting.Closing
import Testbench.Proofs.Record.Sound
import Testbench.Proofs.Record.Source
import Testbench.Proofs.Simulation.Environment
import Testbench.Proofs.Vhdl.DesignFile
import Testbench.Proofs.Vhdl.Literal
import Testbench.Proofs.Vhdl.Repeated
import Testbench.Proofs.Vhdl.FirstFault
import Testbench.Proofs.Layout.Column
import Testbench.Text.Cursor
import Testbench.Proofs.Vhdl.NormalForm
import Testbench.Proofs.Vhdl.NameList
import Testbench.Proofs.Vhdl.PortDeclaration
import Testbench.Proofs.Vhdl.Clause
import Testbench.Proofs.Vhdl.Interface
import Testbench.Proofs.Stimulus.Coverage
import Testbench.Proofs.Offset.Source
import Testbench.Proofs.Offset.Keyword
