import NpcScript.CommandLine
import NpcScript.FileTree
import NpcScript.Main
import NpcScript.Mind.Stored
import NpcScript.Proofs.Block.Execution
import NpcScript.Proofs.Block.Entries
import NpcScript.Proofs.Block.Labels
import NpcScript.Proofs.Builtin.Frame
import NpcScript.Proofs.Instruction.RoundTrip
import NpcScript.Proofs.Outline.Accepted
import NpcScript.Proofs.Source.Meaning
import NpcScript.Proofs.Statement.Reading
import NpcScript.Proofs.Token.Known
import NpcScript.Proofs.Block.Nesting
import NpcScript.Proofs.Compile.Layout
import NpcScript.Proofs.Compile.Simulation
import NpcScript.Proofs.Compile.Correctness
import NpcScript.Proofs.Script.Boundary
import NpcScript.Proofs.Script.Verify
import NpcScript.Proofs.Script.Persistence
import NpcScript.Proofs.Machine.Safety
import NpcScript.Proofs.Machine.Forward
import NpcScript.Proofs.Compile.Forward
import NpcScript.Proofs.Alert.Sets
import NpcScript.Proofs.Builtin.Effects
import NpcScript.Proofs.Director.Turns
import NpcScript.Proofs.Director.Mail
import NpcScript.Proofs.Director.AlertLifetime
import NpcScript.Proofs.Source.Rows
import NpcScript.Proofs.Compile.BlockStructure
import NpcScript.Proofs.Machine.Ceiling
import NpcScript.Proofs.Script.Truncation
import NpcScript.Proofs.Compile.Ending
import NpcScript.Proofs.Compile.Verified
import NpcScript.Proofs.Builtin.Presence
import NpcScript.Proofs.Director.Presence
import NpcScript.Proofs.Machine.Rested
import NpcScript.Proofs.Director.History
import NpcScript.Proofs.Director.Roster
import NpcScript.Proofs.Machine.Local
import NpcScript.Proofs.Director.Isolation
import NpcScript.Proofs.Library.Memo
import NpcScript.Proofs.Builtin.Replies
import NpcScript.Proofs.Builtin.Vanished
import NpcScript.Proofs.World.Replay
import NpcScript.Proofs.Statement.Grammar
import NpcScript.Proofs.Statement.Faults
import NpcScript.Proofs.Outline.Faults
import NpcScript.Proofs.Outline.Moved
import NpcScript.Proofs.Outline.Joined
import NpcScript.Proofs.Block.Joined
import NpcScript.Proofs.Compile.Emitted
import NpcScript.Proofs.Compile.Assignment
import NpcScript.Proofs.Compile.Diagnosed
import NpcScript.Proofs.Compile.Called
import NpcScript.Proofs.Compile.Joined
import NpcScript.Proofs.Token.Joined
import NpcScript.Proofs.Token.Padding
import NpcScript.Proofs.Compile.Padding
import NpcScript.Proofs.Token.Cover
import NpcScript.Proofs.Token.Canonical
import NpcScript.Proofs.Token.Numeral
import NpcScript.Proofs.Compile.Constants
import NpcScript.Proofs.Machine.Leftovers
import NpcScript.Proofs.Machine.Contained
import NpcScript.Proofs.Director.Orders
import NpcScript.Proofs.Instruction.Layout
import NpcScript.Proofs.World.Nearest
import NpcScript.Proofs.Builtin.Finders
import NpcScript.Proofs.Listing.Faithful
import NpcScript.Proofs.World.StraightLine
import NpcScript.Proofs.World.Seeds
