import ConfigTree.Text.Utf8.RoundTrip
import ConfigTree.Files.Transfer
import ConfigTree.Main
import ConfigTree.Proofs.Document.Lines
import ConfigTree.Proofs.Document.Grammar
import ConfigTree.Proofs.Tree.Shape
import ConfigTree.Proofs.Document.Checked
import ConfigTree.Proofs.Document.Replay
import ConfigTree.Proofs.Tree.Reread
import ConfigTree.Proofs.Document.Written
import ConfigTree.Proofs.Document.Recorded
import ConfigTree.Proofs.Document.Reload
import ConfigTree.Proofs.Number.Digits
import ConfigTree.Proofs.Number.Numerals
import ConfigTree.Proofs.Address
import ConfigTree.Proofs.Codec.RoundTrip
import ConfigTree.Proofs.Text.Runs
import ConfigTree.Proofs.Document.Outlined
import ConfigTree.Proofs.Codec.Trailing
import ConfigTree.Proofs.Document.Returns
import ConfigTree.Proofs.Codec.Settled
import ConfigTree.Proofs.Tree.Leaves
import ConfigTree.Proofs.Document.Loaded
import ConfigTree.Proofs.Document.Resaved
import ConfigTree.Proofs.Tree.Targets
import ConfigTree.Proofs.Document.Assigned
import ConfigTree.Proofs.Document.LastWins
import ConfigTree.Proofs.Codec.Orbit
import ConfigTree.Proofs.Document.Cycles
import ConfigTree.Proofs.Document.Spelled
import ConfigTree.Proofs.Command.Listing
import ConfigTree.Proofs.Operations.Step
import ConfigTree.Proofs.Operations.Sound
import ConfigTree.Proofs.Document.Stops
import ConfigTree.Proofs.Document.Unknown
import ConfigTree.Proofs.Operations.Setting
import ConfigTree.Proofs.Tree.Segments
import ConfigTree.Proofs.Document.Lookup
import ConfigTree.Proofs.Document.Attribution
import ConfigTree.Proofs.Command.Grouping
import ConfigTree.Proofs.Codec.Surroundings
import ConfigTree.Proofs.Files.Search
import ConfigTree.Proofs.Tree.Walks
import ConfigTree.Proofs.Tree.Writing
import ConfigTree.Proofs.Number.Decimals
import ConfigTree.Proofs.Number.Expression
import ConfigTree.Proofs.Number.Longest
