import SorobanDevkit.Agent.Endpoint
import SorobanDevkit.Audit.DoctorInstall
import SorobanDevkit.Audit.FunctionCollection
import SorobanDevkit.Audit.Gate
import SorobanDevkit.Audit.HashOrder
import SorobanDevkit.Audit.NameRules
import SorobanDevkit.Audit.Sarif
import SorobanDevkit.Cli.ArtifactChoice
import SorobanDevkit.Cli.DeploymentRuns
import SorobanDevkit.Cli.DeploymentVerify
import SorobanDevkit.Cli.ReleaseAssurance
import SorobanDevkit.Cli.RenderedArgs
import SorobanDevkit.Cli.SizePolicy
import SorobanDevkit.Core.BranchRuns
import SorobanDevkit.Core.Bundle
import SorobanDevkit.Core.FailedUpdate
import SorobanDevkit.Core.FetchLock
import SorobanDevkit.Core.LockRuns
import SorobanDevkit.Core.Project
import SorobanDevkit.Core.SdkDeclaration
import SorobanDevkit.Core.TagLines
import SorobanDevkit.Core.TreeIntegrity
import SorobanDevkit.Core.VersionGrammar
import SorobanDevkit.Fuzz.Chaining
import SorobanDevkit.Fuzz.Evidence
import SorobanDevkit.Fuzz.FaithfulBudget
import SorobanDevkit.Fuzz.GenerationLimits
import SorobanDevkit.Fuzz.LocalMinimum
import SorobanDevkit.Fuzz.OracleVerdicts
import SorobanDevkit.Fuzz.ProfileIdentity
import SorobanDevkit.Fuzz.SizeCaps
import SorobanDevkit.Fuzz.StateCapture
import SorobanDevkit.Fuzz.StateCompare
import SorobanDevkit.Fuzz.StateThreading
import SorobanDevkit.Fuzz.Typing
import SorobanDevkit.Library.TimedDescent
import SorobanDevkit.Rpc.Executables
import SorobanDevkit.Rpc.Fees
import SorobanDevkit.Rpc.Submission
import SorobanDevkit.Storage.Analyzer
import SorobanDevkit.Storage.IdentityRuns
import SorobanDevkit.Storage.TtlArithmetic
import SorobanDevkit.Storage.WasmCache
import SorobanDevkit.Wasm.ClientNames
import SorobanDevkit.Wasm.DiffPartition
import SorobanDevkit.Wasm.DocStrings
import SorobanDevkit.Wasm.SpecSections
import SorobanDevkit.Wasm.UpgradeSafety
import SorobanDevkit.Xdr.AbiDecode
import SorobanDevkit.Xdr.Builder
import SorobanDevkit.Xdr.FootprintKeys
import SorobanDevkit.Xdr.Review
import SorobanDevkit.Xdr.Signing
import SorobanDevkit.Xdr.TypedJson
