import PluginChain.Json.Pointer
import PluginChain.Main
import PluginChain.Proofs.Resolution
import PluginChain.Proofs.Calls
import PluginChain.Proofs.CallOrder
import PluginChain.Proofs.OptionIsolation
import PluginChain.Proofs.ActiveList
import PluginChain.Proofs.History
import PluginChain.Proofs.Offers
import PluginChain.Proofs.InstanceIdentity
import PluginChain.Proofs.Containment
import PluginChain.Proofs.CopyExtent
import PluginChain.Proofs.CopyContent
import PluginChain.Proofs.CopyOverlay
import PluginChain.Proofs.LibraryPlace
import PluginChain.Proofs.Preloaded
import PluginChain.Proofs.Abort
import PluginChain.Proofs.Skipping
import PluginChain.Proofs.Identity
import PluginChain.Proofs.ReadBack
import PluginChain.Proofs.Layering
import PluginChain.Proofs.Commands
import PluginChain.Proofs.ConfigRoutes
import PluginChain.Proofs.RunAccounts
import PluginChain.Proofs.ExitStatus
import PluginChain.Proofs.ScriptSources
import PluginChain.Proofs.PublicDocs
import PluginChain.Proofs.ConfigShape
import PluginChain.Proofs.ConfigRoundTrip
import PluginChain.Proofs.PlainData
import PluginChain.Proofs.CopiedData
import PluginChain.Proofs.AssetTargets
import PluginChain.Proofs.BuiltinRegistration
import PluginChain.Proofs.Origins
import PluginChain.Proofs.OptionChecks
