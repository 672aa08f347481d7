import RoutingRules.Json.Read
import RoutingRules.Main
import RoutingRules.Proofs.Condition.DomainTest
import RoutingRules.Proofs.Condition.Literal
import RoutingRules.Proofs.Condition.NetworkList
import RoutingRules.Proofs.Condition.WrittenValue
import RoutingRules.Proofs.Filter.SingleCondition
import RoutingRules.Proofs.Line.FileSections
import RoutingRules.Proofs.Line.ReadBack
import RoutingRules.Proofs.Run.FetchedOnce
import RoutingRules.Proofs.Run.Independence
import RoutingRules.Proofs.Run.Rejections
import RoutingRules.Proofs.Run.WrittenFiles
import RoutingRules.Proofs.SingBox.AddressesLast
import RoutingRules.Proofs.SingBox.ConditionFields
import RoutingRules.Proofs.SingBox.ExpansionForDns
import RoutingRules.Proofs.SingBox.ExtractionCalls
import RoutingRules.Proofs.SingBox.ExtractionLossless
import RoutingRules.Proofs.SingBox.ExtractionMeaning
import RoutingRules.Proofs.SingBox.ExtractionSettled
import RoutingRules.Proofs.SingBox.FiltersLeft
import RoutingRules.Proofs.SingBox.GroupAccounts
import RoutingRules.Proofs.SingBox.TagNames
