import NativeBindings.Layout.Tables
import NativeBindings.Main
import NativeBindings.Proofs.Act
import NativeBindings.Proofs.Emit.ModuleSupply
import NativeBindings.Text.Duration
import NativeBindings.Proofs.Resolve.References
import NativeBindings.Proofs.Resolve.Lookup
import NativeBindings.Proofs.Resolve.Closure
import NativeBindings.Proofs.Emit.Marshalable
import NativeBindings.Proofs.Emit.Support
import NativeBindings.Proofs.Emit.Completeness
import NativeBindings.Proofs.Layout.Slots
import NativeBindings.Proofs.Layout.Transparency
import NativeBindings.Proofs.Emit.Isolation
import NativeBindings.Proofs.Resolve.RecordLayout
import NativeBindings.Proofs.Emit.StraightModule
import NativeBindings.Proofs.Resolve.Announce
import NativeBindings.Proofs.Resolve.Mirror
import NativeBindings.Proofs.Spelling
import NativeBindings.Proofs.Resolve.TopLevel
import NativeBindings.Proofs.Resolve.TagNodes
import NativeBindings.Proofs.Resolve.ForwardTypedef
import NativeBindings.Proofs.Resolve.Waking
import NativeBindings.Proofs.Resolve.Chronicle
import NativeBindings.Proofs.Resolve.LaterWins
import NativeBindings.Proofs.Resolve.Deferral
import NativeBindings.Proofs.Refinement
import NativeBindings.Proofs.Resolve.Comments
import NativeBindings.Proofs.Resolve.ConstantOwners
import NativeBindings.Proofs.Emit.ConstantReferences
import NativeBindings.Proofs.Debug.Whole
import NativeBindings.Proofs.Files
import NativeBindings.Proofs.Json.RoundTrip
import NativeBindings.Proofs.Layout.Persistence
import NativeBindings.Proofs.Layout.Warmth
import NativeBindings.Proofs.WarmRun
import NativeBindings.Proofs.Emit.Account
import NativeBindings.Proofs.Emit.FailFast
import NativeBindings.Proofs.Emit.Callables
import NativeBindings.Proofs.Emit.ConstantValues
import NativeBindings.Proofs.Emit.NameClashes
import NativeBindings.Proofs.SpelledTypes
import NativeBindings.Proofs.Debug.NestedMembers
import NativeBindings.Proofs.Layout.IndexAnswers
import NativeBindings.Proofs.Layout.Upkeep
import NativeBindings.Proofs.Resolve.NestedRecords
import NativeBindings.Proofs.Resolve.Shift
import NativeBindings.Proofs.Emit.Arguments
import NativeBindings.Proofs.Emit.ParameterNames
import NativeBindings.Proofs.Emit.Strides
import NativeBindings.Proofs.FailedRun
import NativeBindings.Proofs.Emit.Needs
import NativeBindings.Proofs.Emit.Order
import NativeBindings.Proofs.Resolve.Repetition
import NativeBindings.Proofs.Resolve.Adoption
import NativeBindings.Proofs.Resolve.AwaitedTwice
import NativeBindings.Proofs.Resolve.EnumCounters
import NativeBindings.Proofs.Resolve.PointerReuse
import NativeBindings.Proofs.Resolve.ReturnTypes
import NativeBindings.Proofs.Emit.Unambiguous
import NativeBindings.Proofs.Resolve.Initializers
import NativeBindings.Proofs.Emit.Symmetry
import NativeBindings.Proofs.Resolve.PrototypeNodes
import NativeBindings.Proofs.Resolve.Moves
import NativeBindings.Proofs.Resolve.BrokenNode
import NativeBindings.Proofs.Debug.LocationExpressions
import NativeBindings.Proofs.Debug.Sizing
import NativeBindings.Proofs.Layout.DamagedTables
import NativeBindings.Proofs.ModuleNames
import NativeBindings.Proofs.Omissions
import NativeBindings.Proofs.Debug.AbsoluteOffsets
import NativeBindings.Proofs.Resolve.PointerNames
