import JavaMachine.Code.Text
import JavaMachine.LogLevel
import JavaMachine.Machine.Run
import JavaMachine.Native.Intrinsics
import JavaMachine.World.Bootstrap
import JavaMachine.Descriptor.Parser
import JavaMachine.Proofs.Cycles
import JavaMachine.Proofs.CallStack
import JavaMachine.Proofs.Restoration
import JavaMachine.Proofs.Bracketing
import JavaMachine.Proofs.TableExtension
import JavaMachine.Proofs.Loading
import JavaMachine.Proofs.HandlerSearch
import JavaMachine.Proofs.Growth
import JavaMachine.Proofs.InitializationHistory
import JavaMachine.Proofs.WellFormedMachines
import JavaMachine.Proofs.GuardedAccess
import JavaMachine.Proofs.InitializationOrder
import JavaMachine.Proofs.Decoding
import JavaMachine.Proofs.MethodOwners
import JavaMachine.Proofs.MethodSelection
import JavaMachine.Proofs.VirtualCalls
import JavaMachine.Proofs.DefaultMethods
import JavaMachine.Proofs.Subtyping
import JavaMachine.Proofs.ArrayTyping
import JavaMachine.Proofs.DescriptorText
import JavaMachine.Proofs.ArgumentPassing
import JavaMachine.Proofs.Composition
import JavaMachine.Proofs.PlainWorlds
import JavaMachine.Proofs.ConfinedFrames
import JavaMachine.Proofs.FailedInstructions
import JavaMachine.Proofs.ReturnAddresses
import JavaMachine.Proofs.DefinedSteps
import JavaMachine.Proofs.SlotRearrangement
import JavaMachine.Proofs.ClassRegistry
import JavaMachine.Proofs.ClassObjects
import JavaMachine.Proofs.FieldHistories
import JavaMachine.Proofs.VariableHistories
import JavaMachine.Proofs.ArrayCopies
import JavaMachine.Proofs.ArrayLayers
import JavaMachine.Proofs.NestedArrays
import JavaMachine.Proofs.StackHistories
import JavaMachine.Proofs.PoolIndices
import JavaMachine.Proofs.Surrogates
import JavaMachine.Proofs.StringContents
import JavaMachine.Proofs.StringHistories
import JavaMachine.Proofs.InternedStrings
import JavaMachine.Proofs.StableResolution
import JavaMachine.Proofs.NeededClasses
import JavaMachine.Proofs.Reexecution
import JavaMachine.Proofs.IntegerArithmetic
import JavaMachine.Proofs.Branches
import JavaMachine.Proofs.ElementAccess
import JavaMachine.Proofs.DecimalLayout
import JavaMachine.Proofs.SuperCalls
import JavaMachine.Proofs.CallSites
import JavaMachine.Proofs.Narrowing
import JavaMachine.Proofs.NewStrings
import JavaMachine.Proofs.StackTraces
import JavaMachine.Proofs.ReadHistories
