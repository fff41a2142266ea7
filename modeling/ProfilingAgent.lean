import ProfilingAgent.Host.Calls
import ProfilingAgent.Log.Logger
import ProfilingAgent.Program.Tasks
import ProfilingAgent.Program.Jobs
import ProfilingAgent.Proofs.Ends
import ProfilingAgent.Proofs.Sound
import ProfilingAgent.Proofs.Telling
import ProfilingAgent.Proofs.Calls
import ProfilingAgent.Proofs.Deciding
import ProfilingAgent.Proofs.Moving
import ProfilingAgent.Proofs.Resting
import ProfilingAgent.Proofs.Operations
import ProfilingAgent.Proofs.SamplerProtocol
import ProfilingAgent.Proofs.Quiet
import ProfilingAgent.Proofs.RunningSlot
import ProfilingAgent.Proofs.Accounts
import ProfilingAgent.Proofs.GlobalTags
import ProfilingAgent.Proofs.Ledgers
import ProfilingAgent.Proofs.Commuting
import ProfilingAgent.Proofs.ForkDecision
import ProfilingAgent.Proofs.Aware
import ProfilingAgent.Proofs.Chronicle
import ProfilingAgent.Proofs.TagStoreRefinement
import ProfilingAgent.Proofs.Keeping
import ProfilingAgent.Proofs.OpenScopes
import ProfilingAgent.Proofs.ForkOutcome
import ProfilingAgent.Proofs.ForkTags
import ProfilingAgent.Proofs.Unstarted
import ProfilingAgent.Proofs.ForkEffect
import ProfilingAgent.Proofs.HostWork
import ProfilingAgent.Proofs.DelimitedText
import ProfilingAgent.Proofs.LayeredSettings
import ProfilingAgent.Proofs.JobsApart
import ProfilingAgent.Proofs.Routines
import ProfilingAgent.Proofs.Reading
import ProfilingAgent.Proofs.ValuesInText
import ProfilingAgent.Proofs.HostThreads
import ProfilingAgent.Proofs.StoresAside
import ProfilingAgent.Proofs.AgentsAndTags
import ProfilingAgent.Proofs.WrittenNumbers
import ProfilingAgent.Proofs.WrittenValues
import ProfilingAgent.Proofs.Dictionaries
import ProfilingAgent.Proofs.QuotedKeys
import ProfilingAgent.Proofs.EitherForm
import ProfilingAgent.Proofs.ByteOrder
import ProfilingAgent.Proofs.StructuredTags
import ProfilingAgent.Proofs.SkippedValues
import ProfilingAgent.Proofs.DirectReading
import ProfilingAgent.Proofs.EnvironmentTexts
import ProfilingAgent.Proofs.RefusedTags
import ProfilingAgent.Proofs.FailedOperations
import ProfilingAgent.Proofs.Registration
import ProfilingAgent.Proofs.SlotHolders
import ProfilingAgent.Proofs.DroppedAgents
import ProfilingAgent.Proofs.HostCalls
import ProfilingAgent.Proofs.HostRuns
import ProfilingAgent.Proofs.BatchRemoval
import ProfilingAgent.Proofs.Resolution
import ProfilingAgent.Proofs.ShownSettings
import ProfilingAgent.Proofs.HiddenSecrets
import ProfilingAgent.Proofs.ShortestDecimals
import ProfilingAgent.Proofs.RoundedNumbers
import ProfilingAgent.Proofs.WrittenReals
import ProfilingAgent.Proofs.LaidOutNumbers
import ProfilingAgent.Proofs.RereadObjects
import ProfilingAgent.Proofs.QuotedTexts
import ProfilingAgent.Proofs.ObjectSettings
import ProfilingAgent.Proofs.RevealedSecrets
import ProfilingAgent.Proofs.VariablesApart
import ProfilingAgent.Proofs.EncodedTexts
import ProfilingAgent.Proofs.HostOptions
import ProfilingAgent.Proofs.ObligingSamplers
import ProfilingAgent.Proofs.Reconfiguration
import ProfilingAgent.Proofs.LastConfiguration
import ProfilingAgent.Proofs.FlagValues
import ProfilingAgent.Proofs.ValueByValue
import ProfilingAgent.Proofs.HeaderForms
import ProfilingAgent.Proofs.HeldScopes
import ProfilingAgent.Proofs.TravellingWork
import ProfilingAgent.Proofs.NestedContexts
import ProfilingAgent.Proofs.ForkReports
