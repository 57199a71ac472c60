import Stencil.Proofs.Accessors
import Stencil.Proofs.Attributes
import Stencil.Proofs.Balance
import Stencil.Proofs.Blocks
import Stencil.Proofs.Ceilings
import Stencil.Proofs.Comments
import Stencil.Proofs.Conditions
import Stencil.Proofs.ContainedErrors
import Stencil.Proofs.Contexts
import Stencil.Proofs.Equality
import Stencil.Proofs.GrammarReading
import Stencil.Proofs.Interrupts
import Stencil.Proofs.Isolation
import Stencil.Proofs.LaxReadings
import Stencil.Proofs.Leniency
import Stencil.Proofs.LoopBounds
import Stencil.Proofs.LoopWork
import Stencil.Proofs.LostFilters
import Stencil.Proofs.Placeholders
import Stencil.Proofs.PositionNames
import Stencil.Proofs.Reads
import Stencil.Proofs.Refusals
import Stencil.Proofs.Resuming
import Stencil.Proofs.Returns
import Stencil.Proofs.Sessions
import Stencil.Proofs.Sorting
import Stencil.Proofs.SourceLines
import Stencil.Proofs.Splitting
import Stencil.Proofs.Stops
import Stencil.Proofs.TagLines
import Stencil.Proofs.Tokens
import Stencil.Proofs.Trimming
import Stencil.Proofs.Verbatim
import Stencil.Proofs.Warnings
import Stencil.Template
import Stencil.Proofs.ContainedErrors
