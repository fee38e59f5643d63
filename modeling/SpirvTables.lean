import SpirvTables.Character.Basic
import SpirvTables.Character.Case
import SpirvTables.Command.Inspect
import SpirvTables.Command.Update
import SpirvTables.EnumTable
import SpirvTables.Grammar.Reader
import SpirvTables.Json.Printer
import SpirvTables.Json.Reader
import SpirvTables.Layout
import SpirvTables.Main
import SpirvTables.NameSet
import SpirvTables.OpRecord
import SpirvTables.Run
import SpirvTables.Section
import SpirvTables.Store
import SpirvTables.Text.Arrange
import SpirvTables.Text.Basic
import SpirvTables.Text.Search
import SpirvTables.Proofs.Command.Inspect
import SpirvTables.Proofs.Command.Update
import SpirvTables.Proofs.EnumCases
import SpirvTables.Proofs.EnumTable
import SpirvTables.Proofs.Grammar.Document
import SpirvTables.Proofs.Grammar.Shape
import SpirvTables.Proofs.Grammar.Value
import SpirvTables.Proofs.NameSet
import SpirvTables.Proofs.OpRecord.Account
import SpirvTables.Proofs.OpRecord.Codec
import SpirvTables.Proofs.OpRecord.Kept
import SpirvTables.Proofs.OpRecord.Lists
import SpirvTables.Proofs.OpRecord.Naming
import SpirvTables.Proofs.OpRecord.Operands
import SpirvTables.Proofs.OpRecord.Read
import SpirvTables.Proofs.OpRecord.Record
import SpirvTables.Proofs.OpRecord.Separate
import SpirvTables.Proofs.OpcodeCases
import SpirvTables.Proofs.OpcodeOrder
import SpirvTables.Proofs.OpcodeTable
import SpirvTables.Proofs.Refresh.Again
import SpirvTables.Proofs.Refresh.Enums
import SpirvTables.Proofs.Refresh.Frame
import SpirvTables.Proofs.Refresh.OpcodeSection
import SpirvTables.Proofs.Refresh.Opcodes
import SpirvTables.Proofs.Refresh.Ops
import SpirvTables.Proofs.Refresh.Order
import SpirvTables.Proofs.Refresh.Revision
import SpirvTables.Proofs.Run
import SpirvTables.Proofs.Run.Frame
import SpirvTables.Proofs.Run.Plan
import SpirvTables.Proofs.Run.Sequence
import SpirvTables.Proofs.Section.Blocks
import SpirvTables.Proofs.Section.Defined
import SpirvTables.Proofs.Section.Marked
import SpirvTables.Proofs.Store.Disk
import SpirvTables.Proofs.Text.Bracket
import SpirvTables.Proofs.Text.Columns
import SpirvTables.Proofs.Text.Filling
import SpirvTables.Proofs.Text.Group
import SpirvTables.Proofs.Text.Hyphen
import SpirvTables.Proofs.Text.Identifier
import SpirvTables.Proofs.Text.Listing
import SpirvTables.Proofs.Text.Lower
import SpirvTables.Proofs.Text.Occurrence
import SpirvTables.Proofs.Text.Packing
import SpirvTables.Proofs.Text.Paragraph
import SpirvTables.Proofs.Text.Refill
import SpirvTables.Proofs.Text.Rounds
import SpirvTables.Proofs.Text.Split
import SpirvTables.Proofs.Text.Word
import SpirvTables.Proofs.Text.Words
import SpirvTables.Proofs.Text.Wrap
