import M16C.Word
import M16C.Address
import M16C.Text.Hex
import M16C.Text.Record
import M16C.Flag
import M16C.Condition
import M16C.Register
import M16C.RegisterFile
import M16C.Size
import M16C.BranchCondition
import M16C.Operand
import M16C.Instruction
import M16C.Opcode
import M16C.Reader
import M16C.Instruction.Decode
import M16C.Instruction.Encode
import M16C.Text.Hidden
import M16C.Text.Quoted
import M16C.Display
import M16C.Token
import M16C.Instruction.Line
import M16C.Instruction.Flow
import M16C.Il.Expr
import M16C.Il.Op
import M16C.Il.Execute
import M16C.Operand.Location
import M16C.Instruction.Lift
import M16C.Roundtrip
import M16C.Log
import M16C.Gateway
import M16C.Row
import M16C.Listing
import M16C.Text.Lossy
import M16C.AddressText
import M16C.Folder
import M16C.CommandLine
import M16C.Text.Json
import M16C.Display.Settings
import M16C.Host
import M16C.Main
import M16C.Proofs.Address
import M16C.Proofs.Reader
import M16C.Proofs.Canonical
import M16C.Proofs.Fields
import M16C.Proofs.Decoding
import M16C.Proofs.Encoding
import M16C.Proofs.RoundTrip
import M16C.Proofs.Gateways
import M16C.Proofs.Sweep
import M16C.Proofs.Assembly
import M16C.Proofs.ControlFlow
import M16C.Proofs.Rebasing
import M16C.Proofs.Composition
import M16C.Proofs.Patching
import M16C.Proofs.Storage
import M16C.Proofs.Evaluation
import M16C.Proofs.ExactValues
import M16C.Proofs.Arithmetic
import M16C.Proofs.Comparison
import M16C.Proofs.Noninterference
import M16C.Proofs.Digits
import M16C.Proofs.Lines
import M16C.Proofs.Listing
import M16C.Proofs.Effects
import M16C.Proofs.Operands
import M16C.Proofs.Sizing
import M16C.Proofs.DataInstructions
import M16C.Proofs.Independence
import M16C.Proofs.Numerals
import M16C.Proofs.TokenGrammar
import M16C.Proofs.Addressing
import M16C.Proofs.LineReader
import M16C.Proofs.Unambiguity
import M16C.Proofs.Distance
import M16C.Proofs.Suffix
import M16C.Proofs.AddressGrammar
import M16C.Proofs.CommandGrammar
