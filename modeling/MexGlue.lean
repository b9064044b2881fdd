import MexGlue.Main
import MexGlue.Proofs.ReadingState.Settled
import MexGlue.Proofs.ReadingState.Written
import MexGlue.Proofs.Tiling.LaidOut
import MexGlue.Proofs.Tiling.Spelling
import MexGlue.Proofs.ReadingState.Completion
import MexGlue.Proofs.Grammar.Covering
import MexGlue.Proofs.Grammar.Derivation
import MexGlue.Proofs.Grammar.Reading
import MexGlue.Proofs.Grammar.Meaning
import MexGlue.Proofs.OfText.Exactness
import MexGlue.Proofs.Tiling.Offset
import MexGlue.Proofs.OfText.FailurePosition
import MexGlue.Proofs.OfText.Scopes
import MexGlue.Proofs.Model.WellFormed
import MexGlue.Proofs.Model.Printing
import MexGlue.Proofs.OfText.Image
import MexGlue.Proofs.Dependency.Verification
import MexGlue.Proofs.Command.Check
import MexGlue.Proofs.Toolbox.FinalDisk
import MexGlue.Proofs.OfText.Fault
import MexGlue.Proofs.OfText.Gaps
import MexGlue.Proofs.Model.Appending
import MexGlue.Proofs.ReadingState.InFront
import MexGlue.Proofs.OfText.Concatenation
import MexGlue.Proofs.Renaming.Identifiers
import MexGlue.Proofs.Renaming.Meaning
import MexGlue.Proofs.Renaming.Text
import MexGlue.Proofs.Renaming.Verification
import MexGlue.Proofs.OfText.Renamed
import MexGlue.Proofs.Toolbox.FirstFailure
import MexGlue.Proofs.Text.Parts
import MexGlue.Proofs.Toolbox.Completed
import MexGlue.Proofs.Toolbox.Sections
import MexGlue.Proofs.Makefile.Rules
import MexGlue.Proofs.Makefile.Glue
import MexGlue.Proofs.Makefile.Exactness
import MexGlue.Proofs.MakeScript.Commands
import MexGlue.Proofs.MakeScript.Exactness
import MexGlue.Proofs.Glue.Matlab
import MexGlue.Proofs.Glue.Proxy
import MexGlue.Proofs.Glue.Mex
import MexGlue.Proofs.Glue.MexFunction
import MexGlue.Proofs.Glue.Closed
import MexGlue.Proofs.Glue.Naming
import MexGlue.Proofs.Toolbox.Apart
import MexGlue.Proofs.Toolbox.Members
import MexGlue.Proofs.Storage.Following
import MexGlue.Proofs.Toolbox.Regeneration
import MexGlue.Proofs.Toolbox.Reporting
import MexGlue.Proofs.Command.Endings
import MexGlue.Proofs.Glue.Decoding
import MexGlue.Proofs.Glue.Injective
import MexGlue.Proofs.Text.Call
import MexGlue.Proofs.Glue.Statements
import MexGlue.Proofs.Glue.Bodies
import MexGlue.Proofs.Glue.Dispatch
import MexGlue.Proofs.Glue.Positions
import MexGlue.Proofs.Glue.Declarations
import MexGlue.Proofs.Glue.Overloads
import MexGlue.Proofs.Glue.JoinedPaths
import MexGlue.Proofs.Toolbox.Proxies
import MexGlue.Proofs.Tiling.OneWay
import MexGlue.Proofs.Command.Arrangement
import MexGlue.Proofs.Text.Utf8
import MexGlue.Proofs.Text.LineEnds
import MexGlue.Proofs.OfText.Loading
import MexGlue.Proofs.Glue.Careful
import MexGlue.Proofs.Toolbox.Nameless
