import ConditionalForm.Compiler
import ConditionalForm.Main
import ConditionalForm.Session
import ConditionalForm.Proofs.BranchStates
import ConditionalForm.Proofs.CacheEntries
import ConditionalForm.Proofs.CacheTransparency
import ConditionalForm.Proofs.ClaimedPaths
import ConditionalForm.Proofs.ReadValues
import ConditionalForm.Proofs.DeclaredNames
import ConditionalForm.Proofs.Batches
import ConditionalForm.Proofs.DistinctPaths
import ConditionalForm.Proofs.PayloadEntries
import ConditionalForm.Proofs.ReachedFields
import ConditionalForm.Proofs.PayloadContent
import ConditionalForm.Proofs.BuiltFields
import ConditionalForm.Proofs.LookUps
import ConditionalForm.Proofs.Readings
import ConditionalForm.Proofs.HiddenEntries
import ConditionalForm.Proofs.RootRequired
import ConditionalForm.Proofs.Pointers
import ConditionalForm.Proofs.FindingPlaces
import ConditionalForm.Proofs.CheckedPayload
import ConditionalForm.Proofs.SharedObjects
import ConditionalForm.Proofs.Alternatives
import ConditionalForm.Proofs.CacheHistory
import ConditionalForm.Proofs.Eviction
import ConditionalForm.Proofs.Wrappers
import ConditionalForm.Proofs.PlainPaths
import ConditionalForm.Proofs.StartValues
import ConditionalForm.Proofs.FreshValues
import ConditionalForm.Proofs.OfferedInputs
import ConditionalForm.Proofs.MissingFields
import ConditionalForm.Proofs.ItemMembers
import ConditionalForm.Proofs.StrippedSchemas
import ConditionalForm.Proofs.IgnoredConditionals
import ConditionalForm.Proofs.ConditionMarkers
import ConditionalForm.Proofs.RequiredMembers
import ConditionalForm.Proofs.AscendingMaps
import ConditionalForm.Proofs.StatusTables
import ConditionalForm.Proofs.FieldOrder
import ConditionalForm.Proofs.DepthLimit
import ConditionalForm.Proofs.MergedConditions
import ConditionalForm.Proofs.GroupRelevance
import ConditionalForm.Proofs.CoherentStates
import ConditionalForm.Proofs.UniformTables
import ConditionalForm.Proofs.NumericLimits
import ConditionalForm.Proofs.EvaluatedFields
import ConditionalForm.Proofs.TableRows
import ConditionalForm.Proofs.ReportTotals
