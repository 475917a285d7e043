import TensorProgram.Task
import TensorProgram.ValueEq
import TensorProgram.World
import TensorProgram.Proofs.Transaction
import TensorProgram.Proofs.Atomicity
import TensorProgram.Proofs.Effects
import TensorProgram.Proofs.History
import TensorProgram.Proofs.Minting
import TensorProgram.Proofs.Interleaving
import TensorProgram.Proofs.Sessions
import TensorProgram.Proofs.Stack
import TensorProgram.Proofs.Guards
import TensorProgram.Proofs.Interface
import TensorProgram.Proofs.Registry
import TensorProgram.Proofs.Unwinding
import TensorProgram.Proofs.Nesting
import TensorProgram.Proofs.Contents
import TensorProgram.Proofs.Replay
import TensorProgram.Proofs.Outcome
import TensorProgram.Proofs.Renaming
import TensorProgram.Proofs.Encoding
import TensorProgram.Proofs.Decoding
import TensorProgram.Proofs.AlphaEquivalence
import TensorProgram.Proofs.Tasks
import TensorProgram.Proofs.Masking
import TensorProgram.Proofs.WellFormed
import TensorProgram.Proofs.LoopRange
import TensorProgram.Proofs.Folding
import TensorProgram.Proofs.Sequences
import TensorProgram.Proofs.Listing
import TensorProgram.Proofs.Binders
import TensorProgram.Proofs.Handles
import TensorProgram.Proofs.Lexical
import TensorProgram.Proofs.Extension
import TensorProgram.Proofs.Footprint
import TensorProgram.Proofs.Views
import TensorProgram.Proofs.Mirrors
import TensorProgram.Proofs.Equivariance
import TensorProgram.Proofs.Alike
import TensorProgram.Proofs.AlikeCalls
import TensorProgram.Proofs.AlikeWorlds
import TensorProgram.Proofs.AlikeRuns
import TensorProgram.Proofs.FreshIds
import TensorProgram.Proofs.Nests
import TensorProgram.Proofs.NestEnds
import TensorProgram.Proofs.Hollow
import TensorProgram.Proofs.Advances
import TensorProgram.Proofs.Relocation
import TensorProgram.Proofs.GridRuns
import TensorProgram.Proofs.Grids
import TensorProgram.Proofs.Tracking
import TensorProgram.Proofs.Branches
import TensorProgram.Proofs.Settings
import TensorProgram.Proofs.Remapping
import TensorProgram.Proofs.Placement
import TensorProgram.Proofs.Constants
import TensorProgram.Proofs.LoopExtents
import TensorProgram.Proofs.Threads
import TensorProgram.Proofs.Visibility
import TensorProgram.Proofs.Declarations
import TensorProgram.Proofs.Occurrences
import TensorProgram.Proofs.ValueEquality
import TensorProgram.Proofs.SharedTasks
