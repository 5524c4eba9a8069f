import StackMachine.Channel.Input
import StackMachine.Channel.Output
import StackMachine.Code.Instruction
import StackMachine.Code.Opcode
import StackMachine.Code.Operand
import StackMachine.Code.Word
import StackMachine.Command.Folder
import StackMachine.Command.Request
import StackMachine.Command.Response
import StackMachine.Failure
import StackMachine.Machine.Display
import StackMachine.Machine.Execution
import StackMachine.Machine.Session
import StackMachine.Machine.State
import StackMachine.Main
import StackMachine.Numeral
import StackMachine.Program.Assembly
import StackMachine.Program.Lexeme
import StackMachine.Program.Listing
import StackMachine.Storage.Address
import StackMachine.Storage.Counter
import StackMachine.Storage.Memory
import StackMachine.Storage.Stack
import StackMachine.Text.CharColumns
import StackMachine.Text.Characters
import StackMachine.Text.Columns
import StackMachine.Text.Cut
import StackMachine.Text.Emoji
import StackMachine.Text.Escape
import StackMachine.Text.Ligature
import StackMachine.Text.Table
import StackMachine.Proofs.Actions
import StackMachine.Proofs.Cells
import StackMachine.Proofs.Changes
import StackMachine.Proofs.Reachable
import StackMachine.Proofs.FlatMachine
import StackMachine.Proofs.Concatenation
import StackMachine.Proofs.Refusals
import StackMachine.Proofs.Items
import StackMachine.Proofs.Numerals
import StackMachine.Proofs.Disassembly
import StackMachine.Proofs.Alike
import StackMachine.Proofs.Flow
import StackMachine.Proofs.Lockstep
import StackMachine.Proofs.Leftovers
import StackMachine.Proofs.Unseen
import StackMachine.Proofs.History
import StackMachine.Proofs.Reading
import StackMachine.Proofs.TokenStream
import StackMachine.Proofs.LowHalves
import StackMachine.Proofs.Loading
import StackMachine.Proofs.Filling
import StackMachine.Proofs.Image
import StackMachine.Proofs.NumberText
import StackMachine.Proofs.Widening
import StackMachine.Proofs.Layout
import StackMachine.Proofs.Echo
import StackMachine.Proofs.Faults
import StackMachine.Proofs.Aftermath
import StackMachine.Proofs.Arguments
import StackMachine.Proofs.Interpreting
import StackMachine.Proofs.AddressText
import StackMachine.Proofs.Edits
import StackMachine.Proofs.Display
import StackMachine.Proofs.Sameness
import StackMachine.Proofs.Tiling
import StackMachine.Proofs.Rounds
import StackMachine.Proofs.AddressForms
import StackMachine.Proofs.Encoding
