import SdkClients.ClientTree.Adopt
import SdkClients.Encode
import SdkClients.Main
import SdkClients.Proofs.ClientTree.Acceptance
import SdkClients.Proofs.ClientTree.Agreement
import SdkClients.Proofs.ClientTree.Finding
import SdkClients.Proofs.ClientTree.LevelOrder
import SdkClients.Proofs.ClientTree.Lineage
import SdkClients.Proofs.ClientTree.Mirroring
import SdkClients.Proofs.ClientTree.Readoption
import SdkClients.Proofs.ClientTree.Rejection
import SdkClients.Proofs.ClientTree.RootsApart
import SdkClients.Proofs.ClientTree.Traversal
import SdkClients.Proofs.CommandLine.Inputs
import SdkClients.Proofs.ContainerGraph.Growth
import SdkClients.Proofs.Decode.Pinpointed
import SdkClients.Proofs.Decode.Rearranged
import SdkClients.Proofs.Decode.Tags
import SdkClients.Proofs.Decode.TextAndValue
import SdkClients.Proofs.Description.Addresses
import SdkClients.Proofs.Document.LineByLine
import SdkClients.Proofs.Jq.Identity
import SdkClients.Proofs.Normalized.Documents
import SdkClients.Proofs.Normalized.Exactness
import SdkClients.Proofs.Normalized.References
import SdkClients.Proofs.Numeric.Order
import SdkClients.Proofs.ValueReport
