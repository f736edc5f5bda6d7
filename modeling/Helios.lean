import Helios.Arity
import Helios.Bindings
import Helios.Builtin.Args
import Helios.Builtin.Collections
import Helios.Builtin.Conversions
import Helios.Builtin.Numbers
import Helios.Builtin.Texts
import Helios.Command
import Helios.Decimal.Binary
import Helios.Decimal.Layout
import Helios.Decimal.Read
import Helios.Decimal.Rounded
import Helios.Decimal.Shortest
import Helios.Engine
import Helios.Error
import Helios.Eval
import Helios.Expr
import Helios.Expr.Parser
import Helios.Files
import Helios.Frontend
import Helios.Guest.Convert
import Helios.Guest.Engine
import Helios.Guest.Heap
import Helios.Guest.Small.Arith
import Helios.Guest.Small.Eval
import Helios.Guest.Small.Lexer
import Helios.Guest.Small.Parser
import Helios.Guest.Small.Syntax
import Helios.Guest.Table
import Helios.Guest.Val
import Helios.Invocation
import Helios.Machine
import Helios.Main
import Helios.Module
import Helios.Outline
import Helios.Pattern.Automaton
import Helios.Pattern.Charset
import Helios.Pattern.Footprint
import Helios.Pattern.Meaning
import Helios.Pattern.Parser
import Helios.Pattern.Problem
import Helios.Pattern.Syntax
import Helios.Platform
import Helios.Position
import Helios.Program
import Helios.Random
import Helios.Registry
import Helios.Resolver
import Helios.Scope
import Helios.Settings
import Helios.Shell
import Helios.Stmt
import Helios.Stmt.Parser
import Helios.Text.Age
import Helios.Text.Bytes
import Helios.Text.Casing
import Helios.Text.Category
import Helios.Text.Encoded
import Helios.Text.Folding
import Helios.Text.Lines
import Helios.Text.Printable
import Helios.Text.Property
import Helios.Text.Ranges
import Helios.Text.Script
import Helios.Text.Search
import Helios.Text.Segment
import Helios.Token
import Helios.Token.Lexer
import Helios.Value
import Helios.Value.Arith
import Helios.Proofs.Logic
import Helios.Proofs.Arena
import Helios.Proofs.Balance
import Helios.Proofs.Isolation
import Helios.Proofs.Provenance
import Helios.Proofs.Termination
import Helios.Proofs.Confinement
import Helios.Proofs.Stack
import Helios.Proofs.FailedCommand
import Helios.Proofs.Grammar
import Helios.Proofs.Recognition
import Helios.Proofs.Growth
import Helios.Proofs.Conversion
import Helios.Proofs.Handover
import Helios.Proofs.Causes
import Helios.Proofs.Anatomy
import Helios.Proofs.Limit
import Helios.Proofs.Merge
import Helios.Proofs.Steps
import Helios.Proofs.Scanning
import Helios.Proofs.Stretch
import Helios.Proofs.Relocation
import Helios.Proofs.Joining
import Helios.Proofs.Positional
import Helios.Proofs.Spelling
import Helios.Proofs.Display
import Helios.Proofs.Callee
import Helios.Proofs.Rounding
import Helios.Proofs.Sorting
import Helios.Proofs.Equality
import Helios.Proofs.Positions
import Helios.Proofs.Locating
import Helios.Proofs.Blame
import Helios.Proofs.Sameness
import Helios.Proofs.Locals
import Helios.Proofs.Leaks
import Helios.Proofs.Commands
import Helios.Proofs.Slices
import Helios.Proofs.Worlds
import Helios.Proofs.Stored
import Helios.Proofs.Callbacks
import Helios.Proofs.Formed
import Helios.Proofs.Inventory
import Helios.Proofs.Keys
import Helios.Proofs.Brackets
import Helios.Proofs.Walks
import Helios.Proofs.Blocks
import Helios.Proofs.Exactness
import Helios.Proofs.OrderedMap
import Helios.Proofs.Replays
import Helios.Proofs.Sight
import Helios.Proofs.LineEnds
import Helios.Proofs.Readback
import Helios.Proofs.Arguments
import Helios.Proofs.Stability
import Helios.Proofs.Counting
import Helios.Proofs.Indexing
import Helios.Proofs.Searching
import Helios.Proofs.Settings
import Helios.Proofs.Frames
import Helios.Proofs.Indentation
import Helios.Proofs.Words
import Helios.Proofs.Safety
import Helios.Proofs.Paths
import Helios.Proofs.Draws
import Helios.Proofs.Openers
import Helios.Proofs.Verbatim
